import Mathlib.Algebra.Order.BigOperators.Group.List
import Mathlib.Algebra.Order.Ring.Nat
import Mathlib.Algebra.Group.Action.Defs
import Mathlib.Data.Nat.Find

/-! `SocketStream::connect` over the addresses of a host, and the descriptors that it and
`close` leave open. -/

namespace Deskflow

structure Timeval where
  sec : Nat
  usec : Nat
  deriving DecidableEq, Repr

def Timeval.micros (tv : Timeval) : Nat := tv.sec * 1000000 + tv.usec

def timeval (timeoutMs : Nat) : Timeval := ⟨timeoutMs / 1000, timeoutMs % 1000 * 1000⟩

theorem micros_timeval (timeoutMs : Nat) : (timeval timeoutMs).micros = timeoutMs * 1000 := by
  show timeoutMs / 1000 * 1000000 + timeoutMs % 1000 * 1000 = timeoutMs * 1000
  omega

/-- What `select` would see without a limit: the socket becomes writable after some
microseconds, with the error that `SO_ERROR` then reads, a signal comes first, or nothing
happens. -/
inductive SelectAnswer
  | writable (us : Nat) (err : Int)
  | interrupted (us : Nat)
  | silent
  deriving DecidableEq, Repr

/-- What the call of `::connect` returns; `inProgress` is `EINPROGRESS`. -/
inductive ConnectAnswer
  | established
  | failed
  | inProgress (select : SelectAnswer)
  deriving DecidableEq, Repr

/-- `rc` after `select` and `getsockopt`, and the time taken. -/
def SelectAnswer.rc (tv : Timeval) : SelectAnswer → Int × Nat
  | .writable us err =>
    if us ≤ tv.micros then (if err = 0 then 0 else -1, us) else (-1, tv.micros)
  | .interrupted us => (-1, min us tv.micros)
  | .silent => (-1, tv.micros)

def ConnectAnswer.rc (timeoutMs : Nat) : ConnectAnswer → Int × Nat
  | .established => (0, 0)
  | .failed => (-1, 0)
  | .inProgress select => select.rc (timeval timeoutMs)

/-- An entry of the list of `getaddrinfo`: whether `socket` serves its family, and what
the server does. -/
structure AddrInfo where
  socket : Bool
  answer : ConnectAnswer
  deriving DecidableEq, Repr

/-- The connection is established within the limit. -/
def ConnectAnswer.InTime (timeoutMs : Nat) : ConnectAnswer → Prop
  | .established => True
  | .failed => False
  | .inProgress (.writable us err) => err = 0 ∧ us ≤ timeoutMs * 1000
  | .inProgress (.interrupted _) => False
  | .inProgress .silent => False

def AddrInfo.Accepts (timeoutMs : Nat) (ai : AddrInfo) : Prop :=
  ai.socket = true ∧ ai.answer.InTime timeoutMs

theorem rc_eq_zero_iff (timeoutMs : Nat) (answer : ConnectAnswer) :
    (answer.rc timeoutMs).1 = 0 ↔ answer.InTime timeoutMs := by
  cases answer with
  | established => simp [ConnectAnswer.rc, ConnectAnswer.InTime]
  | failed => simp [ConnectAnswer.rc, ConnectAnswer.InTime]
  | inProgress select =>
    cases select with
    | writable us err =>
      simp only [ConnectAnswer.rc, SelectAnswer.rc, ConnectAnswer.InTime, micros_timeval]
      split_ifs <;> simp [*]
    | interrupted us => simp [ConnectAnswer.rc, SelectAnswer.rc, ConnectAnswer.InTime]
    | silent => simp [ConnectAnswer.rc, SelectAnswer.rc, ConnectAnswer.InTime]

theorem rc_le (timeoutMs : Nat) (answer : ConnectAnswer) :
    (answer.rc timeoutMs).2 ≤ timeoutMs * 1000 := by
  rw [← micros_timeval]
  cases answer with
  | established => exact Nat.zero_le _
  | failed => exact Nat.zero_le _
  | inProgress select =>
    cases select with
    | writable us err =>
      by_cases hus : us ≤ (timeval timeoutMs).micros
      · simpa only [ConnectAnswer.rc, SelectAnswer.rc, if_pos hus] using hus
      · simp only [ConnectAnswer.rc, SelectAnswer.rc, if_neg hus, le_refl]
    | interrupted us => exact Nat.min_le_right _ _
    | silent => exact Nat.le_refl _

/-- An open socket: whether it has `O_NONBLOCK` set and where it is connected to. -/
structure OpenSocket where
  nonBlocking : Bool := false
  peer : Option AddrInfo := none
  deriving DecidableEq, Repr

/-- The descriptors of the process, of which only so many are in use. -/
structure Descriptors where
  entry : Nat → Option OpenSocket
  bound : Nat
  free : ∀ n, bound ≤ n → entry n = none

namespace Descriptors

variable (d : Descriptors)

/-- The lowest descriptor that is not in use. -/
def unused : Nat := Nat.find (p := fun n => d.entry n = none) ⟨d.bound, d.free _ le_rfl⟩

theorem entry_unused : d.entry d.unused = none :=
  Nat.find_spec (p := fun n => d.entry n = none) _

def set (n : Nat) (s : OpenSocket) : Descriptors where
  entry := Function.update d.entry n (some s)
  bound := max d.bound (n + 1)
  free m hm := by
    rw [Function.update_of_ne (by omega)]
    exact d.free m (by omega)

def close (n : Nat) : Descriptors where
  entry := Function.update d.entry n none
  bound := d.bound
  free m hm := by
    by_cases hmn : m = n
    · rw [hmn, Function.update_self]
    · rw [Function.update_of_ne hmn]
      exact d.free m hm

theorem unused_congr {d d' : Descriptors} (h : d.entry = d'.entry) : d.unused = d'.unused := by
  apply Nat.le_antisymm
  · exact Nat.find_min' _ (by rw [h]; exact d'.entry_unused)
  · exact Nat.find_min' _ (by rw [← h]; exact d.entry_unused)

theorem set_entry (n : Nat) (s : OpenSocket) :
    (d.set n s).entry = Function.update d.entry n (some s) := rfl

theorem close_entry (n : Nat) : (d.close n).entry = Function.update d.entry n none := rfl

end Descriptors

/-- `m_fd`, where -1 is `none`, the descriptors, and the addresses tried with the time that
`connect` has spent on each. -/
structure Endpoint where
  fd : Option Nat := none
  table : Descriptors
  waits : List (AddrInfo × Nat) := []

namespace Endpoint

def waited (e : Endpoint) : Nat := (e.waits.map Prod.snd).sum

/-- The loop over the addresses. -/
def attempt (timeoutMs : Nat) : List AddrInfo → Endpoint → Bool × Endpoint
  | [], e => (false, e)
  | ai :: result, e =>
    if !ai.socket then attempt timeoutMs result e
    else
      let fd := e.table.unused
      let table := (e.table.set fd {}).set fd { nonBlocking := true }
      let rc := ai.answer.rc timeoutMs
      if rc.1 = 0 then
        (true,
          { fd := some fd
            table := table.set fd { nonBlocking := false, peer := some ai }
            waits := e.waits ++ [(ai, rc.2)] })
      else
        attempt timeoutMs result
          { e with table := table.close fd, waits := e.waits ++ [(ai, rc.2)] }

/-- `none` is a host that `getaddrinfo` does not resolve. -/
def connect (timeoutMs : Nat) (result : Option (List AddrInfo)) (e : Endpoint) : Bool × Endpoint :=
  match result with
  | none => (false, e)
  | some result => e.attempt timeoutMs result

def close (e : Endpoint) : Endpoint :=
  match e.fd with
  | none => e
  | some fd => { e with fd := none, table := e.table.close fd }

/-- The addresses tried are among those of `result`, none for longer than the limit. -/
def Waits (timeoutMs : Nat) (result : List AddrInfo) (e e' : Endpoint) : Prop :=
  ∃ waits, e'.waits = e.waits ++ waits ∧ (waits.map Prod.fst).Sublist result ∧
    ∀ w ∈ waits, w.2 ≤ timeoutMs * 1000

namespace Waits

variable {timeoutMs : Nat} {result : List AddrInfo} {e e' e'' : Endpoint}

theorem refl : Waits timeoutMs [] e e := ⟨[], by simp, by simp, by simp⟩

theorem single {ai : AddrInfo} {us : Nat} (hwaits : e'.waits = e.waits ++ [(ai, us)])
    (hus : us ≤ timeoutMs * 1000) : Waits timeoutMs [ai] e e' :=
  ⟨[(ai, us)], hwaits, by simp, by simpa using hus⟩

theorem trans {rest : List AddrInfo} (h : Waits timeoutMs result e e')
    (h' : Waits timeoutMs rest e' e'') : Waits timeoutMs (result ++ rest) e e'' := by
  obtain ⟨waits, hwaits, hsub, hle⟩ := h
  obtain ⟨waits', hwaits', hsub', hle'⟩ := h'
  refine ⟨waits ++ waits', ?_, ?_, List.forall_mem_append.mpr ⟨hle, hle'⟩⟩
  · rw [hwaits', hwaits, List.append_assoc]
  · rw [List.map_append]
    exact hsub.append hsub'

theorem mono {larger : List AddrInfo} (h : Waits timeoutMs result e e')
    (hsub : result.Sublist larger) : Waits timeoutMs larger e e' := by
  obtain ⟨waits, hwaits, htried, hle⟩ := h
  exact ⟨waits, hwaits, htried.trans hsub, hle⟩

theorem waited_le (h : Waits timeoutMs result e e') :
    e'.waited ≤ e.waited + result.length * (timeoutMs * 1000) := by
  obtain ⟨waits, hwaits, hsub, hle⟩ := h
  have hlen : waits.length ≤ result.length := by simpa using hsub.length_le
  have hsum := List.sum_le_card_nsmul (waits.map Prod.snd) (timeoutMs * 1000)
    (List.forall_mem_map.mpr hle)
  rw [List.length_map, smul_eq_mul] at hsum
  have hmul := Nat.mul_le_mul_right (timeoutMs * 1000) hlen
  rw [waited, hwaits, List.map_append, List.sum_append, ← waited]
  omega

end Waits

/-- An attempt that fails leaves the descriptors as they were. -/
theorem attempt_of_refused {timeoutMs : Nat} {result : List AddrInfo}
    (h : ∀ ai ∈ result, ¬ai.Accepts timeoutMs) (rest : List AddrInfo) (e : Endpoint) :
    ∃ e' : Endpoint, e.attempt timeoutMs (result ++ rest) = e'.attempt timeoutMs rest ∧
      e'.fd = e.fd ∧ e'.table.entry = e.table.entry ∧ Waits timeoutMs result e e' := by
  induction result generalizing e with
  | nil => exact ⟨e, rfl, rfl, rfl, .refl⟩
  | cons ai result ih =>
    have hai := h ai List.mem_cons_self
    have hresult : ∀ ai ∈ result, ¬ai.Accepts timeoutMs := fun a ha =>
      h a (List.mem_cons_of_mem _ ha)
    by_cases hsocket : ai.socket = true
    · have hrc : ¬(ai.answer.rc timeoutMs).1 = 0 := fun hzero =>
        hai ⟨hsocket, (rc_eq_zero_iff timeoutMs ai.answer).mp hzero⟩
      obtain ⟨e', hattempt, hfd, htable, hwaits⟩ := ih hresult
        { e with
          table := ((e.table.set e.table.unused {}).set e.table.unused
            { nonBlocking := true }).close e.table.unused
          waits := e.waits ++ [(ai, (ai.answer.rc timeoutMs).2)] }
      refine ⟨e', ?_, hfd, ?_, (Waits.single rfl (rc_le timeoutMs ai.answer)).trans hwaits⟩
      · rw [List.cons_append, attempt, if_neg (by simp [hsocket])]
        dsimp only
        rw [if_neg hrc]
        exact hattempt
      · rw [htable, Descriptors.close_entry, Descriptors.set_entry, Descriptors.set_entry,
          Function.update_idem, Function.update_idem, ← e.table.entry_unused,
          Function.update_eq_self]
    · obtain ⟨e', hattempt, hfd, htable, hwaits⟩ := ih hresult e
      refine ⟨e', ?_, hfd, htable, hwaits.mono (List.sublist_cons_self ai result)⟩
      rw [List.cons_append, attempt, if_pos (by simp [hsocket])]
      exact hattempt

theorem attempt_of_accepts {timeoutMs : Nat} {ai : AddrInfo} (h : ai.Accepts timeoutMs)
    (rest : List AddrInfo) (e : Endpoint) :
    (e.attempt timeoutMs (ai :: rest)).1 = true ∧
      (e.attempt timeoutMs (ai :: rest)).2.fd = some e.table.unused ∧
      (e.attempt timeoutMs (ai :: rest)).2.table.entry =
        Function.update e.table.entry e.table.unused
          (some { nonBlocking := false, peer := some ai }) ∧
      Waits timeoutMs [ai] e (e.attempt timeoutMs (ai :: rest)).2 := by
  obtain ⟨hsocket, hintime⟩ := h
  rw [attempt, if_neg (by simp [hsocket])]
  dsimp only
  rw [if_pos ((rc_eq_zero_iff timeoutMs ai.answer).mpr hintime)]
  refine ⟨rfl, rfl, ?_, Waits.single rfl (rc_le timeoutMs ai.answer)⟩
  rw [Descriptors.set_entry, Descriptors.set_entry, Descriptors.set_entry,
    Function.update_idem, Function.update_idem]

theorem exists_first_accepting (timeoutMs : Nat) (result : List AddrInfo) :
    (∀ ai ∈ result, ¬ai.Accepts timeoutMs) ∨
      ∃ pre ai post, result = pre ++ ai :: post ∧ (∀ a ∈ pre, ¬a.Accepts timeoutMs) ∧
        ai.Accepts timeoutMs := by
  induction result with
  | nil => exact .inl (by simp)
  | cons a result ih =>
    by_cases ha : a.Accepts timeoutMs
    · exact .inr ⟨[], a, result, rfl, by simp, ha⟩
    · rcases ih with hnone | ⟨pre, ai, post, rfl, hpre, hai⟩
      · exact .inl (List.forall_mem_cons.mpr ⟨ha, hnone⟩)
      · exact .inr ⟨a :: pre, ai, post, rfl, List.forall_mem_cons.mpr ⟨ha, hpre⟩, hai⟩

/-- The first address that accepts is kept, on a new descriptor that blocks again. -/
theorem connect_cases (timeoutMs : Nat) (result : Option (List AddrInfo)) (e : Endpoint) :
    (((e.connect timeoutMs result).1 = false ∧ (∀ ai ∈ result.getD [], ¬ai.Accepts timeoutMs) ∧
        (e.connect timeoutMs result).2.fd = e.fd ∧
        (e.connect timeoutMs result).2.table.entry = e.table.entry) ∨
      ((e.connect timeoutMs result).1 = true ∧ ∃ n pre ai post, result = some (pre ++ ai :: post) ∧
        (∀ a ∈ pre, ¬a.Accepts timeoutMs) ∧ ai.Accepts timeoutMs ∧ e.table.entry n = none ∧
        (e.connect timeoutMs result).2.fd = some n ∧
        (e.connect timeoutMs result).2.table.entry =
          Function.update e.table.entry n (some { nonBlocking := false, peer := some ai }))) ∧
    Waits timeoutMs (result.getD []) e (e.connect timeoutMs result).2 := by
  cases result with
  | none => exact ⟨.inl ⟨rfl, by simp, rfl, rfl⟩, .refl⟩
  | some result =>
    rw [connect, Option.getD_some]
    rcases exists_first_accepting timeoutMs result with hnone | ⟨pre, ai, post, rfl, hpre, hai⟩
    · obtain ⟨e', hattempt, hfd, htable, hwaits⟩ := attempt_of_refused hnone [] e
      rw [List.append_nil] at hattempt
      rw [hattempt]
      exact ⟨.inl ⟨rfl, hnone, hfd, htable⟩, hwaits⟩
    · obtain ⟨e', hattempt, hfd, htable, hwaits⟩ := attempt_of_refused hpre (ai :: post) e
      obtain ⟨hok, hstored, hentry, hlast⟩ := attempt_of_accepts hai post e'
      have hunused : e'.table.unused = e.table.unused := Descriptors.unused_congr htable
      have hsub : (pre ++ [ai]).Sublist (pre ++ ai :: post) := by simp
      rw [hattempt]
      refine ⟨.inr ⟨hok, e.table.unused, pre, ai, post, rfl, hpre, hai, e.table.entry_unused,
        ?_, ?_⟩, (hwaits.trans hlast).mono hsub⟩
      · rw [hstored, hunused]
      · rw [hentry, htable, hunused]

/-- The addresses are tried in order and the first that accepts is kept, on a new
descriptor that blocks again; nothing else is left open, and no address takes longer than
the limit. -/
theorem connect_first (timeoutMs : Nat) (result : Option (List AddrInfo)) (e : Endpoint) :
    ((e.connect timeoutMs result).1 = true ↔ ∃ ai ∈ result.getD [], ai.Accepts timeoutMs) ∧
      ((e.connect timeoutMs result).1 = false → (e.connect timeoutMs result).2.fd = e.fd ∧
        (e.connect timeoutMs result).2.table.entry = e.table.entry) ∧
      ((e.connect timeoutMs result).1 = true → ∃ n pre ai post, result = some (pre ++ ai :: post) ∧
        (∀ a ∈ pre, ¬a.Accepts timeoutMs) ∧ ai.Accepts timeoutMs ∧ e.table.entry n = none ∧
        (e.connect timeoutMs result).2.fd = some n ∧
        (e.connect timeoutMs result).2.table.entry =
          Function.update e.table.entry n (some { nonBlocking := false, peer := some ai })) ∧
      (∃ waits, (e.connect timeoutMs result).2.waits = e.waits ++ waits ∧
        (waits.map Prod.fst).Sublist (result.getD []) ∧ ∀ w ∈ waits, w.2 ≤ timeoutMs * 1000) ∧
      (e.connect timeoutMs result).2.waited ≤
        e.waited + (result.getD []).length * (timeoutMs * 1000) := by
  obtain ⟨hcases, hwaits⟩ := connect_cases timeoutMs result e
  rcases hcases with ⟨hok, hnone, hsame⟩ | ⟨hok, hkept⟩
  · refine ⟨iff_of_false (by simp [hok]) ?_, fun _ => hsame, fun htrue => ?_, hwaits,
      hwaits.waited_le⟩
    · rintro ⟨ai, hmem, hai⟩
      exact hnone ai hmem hai
    · rw [hok] at htrue
      cases htrue
  · refine ⟨iff_of_true hok ?_, fun hfalse => ?_, fun _ => hkept, hwaits, hwaits.waited_le⟩
    · obtain ⟨n, pre, ai, post, rfl, -, hai, -⟩ := hkept
      exact ⟨ai, by simp, hai⟩
    · rw [hok] at hfalse
      cases hfalse

end Endpoint

end Deskflow
