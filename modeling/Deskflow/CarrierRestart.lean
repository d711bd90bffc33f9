import Mathlib.Data.List.DropRight
import Mathlib.Logic.Relation

/-! The page and the carrier of the connection, a process of its own. They exchange
requests that the system processes in any order. -/

namespace Deskflow

/-- White space and line terminators of ECMAScript. -/
def isWhiteSpace (ch : Char) : Bool :=
  ch.toNat ∈ [0x9, 0xA, 0xB, 0xC, 0xD, 0x20, 0xA0, 0x1680, 0x2028, 0x2029, 0x202F, 0x205F,
    0x3000, 0xFEFF] || (0x2000 ≤ ch.toNat && ch.toNat ≤ 0x200A)

def trimText (text : List Char) : List Char :=
  (text.dropWhile isWhiteSpace).rdropWhile isWhiteSpace

/-- The parameters for the carrier; the port is the text that `Number` reads. -/
structure Want where
  host : List Char
  port : List Char
  screen : List Char
  invert : Bool
  autoreconnect : Bool
  clipboard : Bool
  deriving DecidableEq, Repr

structure ConnectPage where
  hostInput : List Char
  portInput : List Char
  screenName : List Char
  invertScroll : Bool
  autoReconnect : Bool
  clipboardSync : Bool

def ConnectPage.want (page : ConnectPage) : Want :=
  ⟨trimText page.hostInput, page.portInput, page.screenName, page.invertScroll, page.autoReconnect,
    page.clipboardSync⟩

/-- The broadcast `BGEVT_STOP` and the `startAbility` of the carrier. -/
inductive Request
  | stop
  | start (want : Want)
  deriving DecidableEq, Repr

/-- `onConnect` with `startBg`: what it publishes and issues. -/
def ConnectPage.onConnect (page : ConnectPage) : List Request :=
  if (trimText page.hostInput).length = 0 then [] else [.stop, .start page.want]

/-- A carrier that is alive, subscribed to `BGEVT_STOP`, with the parameters it
connects by; without a host it connects nowhere. -/
structure Carrier where
  connection : Option Want
  deriving DecidableEq, Repr

def onCreate (want : Want) : Carrier := if want.host = [] then ⟨none⟩ else ⟨some want⟩

/-- A stop ends the carriers that are subscribed, a start while one is alive fails
with 16000068, and the page only logs that. -/
def Request.process : Request → List Carrier → List Carrier
  | .stop, _ => []
  | .start want, [] => [onCreate want]
  | .start _, carriers => carriers

/-- The requests in flight and those processed, the carriers alive and the
parameters of the last `onConnect`. -/
structure Desktop where
  inFlight : List Request := []
  processed : List Request := []
  carriers : List Carrier := []
  last : Option Want := none

namespace Desktop

def connect (page : ConnectPage) (σ : Desktop) : Desktop :=
  { σ with
    inFlight := σ.inFlight ++ page.onConnect
    last := if page.onConnect = [] then σ.last else some page.want }

inductive Step : Desktop → Desktop → Prop
  | connect (σ : Desktop) (page : ConnectPage) : Step σ (σ.connect page)
  | process {σ : Desktop} (before after : List Request) (r : Request) :
      σ.inFlight = before ++ r :: after →
      Step σ { σ with
        inFlight := before ++ after
        processed := σ.processed ++ [r]
        carriers := r.process σ.carriers }

abbrev Steps : Desktop → Desktop → Prop := Relation.ReflTransGen Step

/-- When nothing is in flight, one carrier is alive, and it has the parameters of the
last `onConnect`. -/
def Restarted (σ : Desktop) : Prop :=
  σ.inFlight = [] → ∀ want, σ.last = some want → σ.carriers = [⟨some want⟩]

def sinceStop (rs : List Request) : List Request := rs.rtakeWhile (· ≠ .stop)

/-- When nothing is in flight, the first start processed since the last stop was that
of the last `onConnect`, or one with the same parameters. -/
def InTime (σ : Desktop) : Prop :=
  σ.inFlight = [] → ∀ want, σ.last = some want →
    (sinceStop σ.processed).head? = some (.start want)

theorem sinceStop_start (rs : List Request) (want : Want) :
    sinceStop (rs ++ [.start want]) = sinceStop rs ++ [.start want] :=
  List.rtakeWhile_concat_pos _ _ _ (by simp)

theorem sinceStop_stop (rs : List Request) : sinceStop (rs ++ [.stop]) = [] :=
  List.rtakeWhile_concat_neg _ _ _ (by simp)

def alive (rs : List Request) : List Carrier :=
  match (sinceStop rs).head? with
  | some (.start want) => [onCreate want]
  | _ => []

theorem process_alive (r : Request) (rs : List Request) :
    r.process (alive rs) = alive (rs ++ [r]) := by
  cases r with
  | stop =>
    rw [alive, alive, sinceStop_stop]
    rfl
  | start want =>
    have hne : Request.stop ∉ sinceStop rs := fun hmem => by
      simpa using List.mem_rtakeWhile_imp hmem
    rw [alive, alive, sinceStop_start]
    rcases hs : sinceStop rs with _ | ⟨_ | want', rest⟩
    · rfl
    · exact absurd (hs ▸ List.mem_cons_self) hne
    · rfl

/-- Only a page with a host makes a start. -/
structure Consistent (σ : Desktop) : Prop where
  carriers : σ.carriers = alive σ.processed
  hosts : ∀ want, .start want ∈ σ.processed ++ σ.inFlight → want.host ≠ []
  last : ∀ want, σ.last = some want → want.host ≠ []

theorem start_mem_onConnect {page : ConnectPage} {want : Want} (h : .start want ∈ page.onConnect) :
    want = page.want ∧ want.host ≠ [] := by
  unfold ConnectPage.onConnect at h
  split_ifs at h with hblank
  · cases h
  · obtain rfl : want = page.want := by simpa using h
    exact ⟨rfl, fun hhost => hblank (congrArg List.length hhost)⟩

theorem Consistent.step {σ σ' : Desktop} (h : Consistent σ) (hstep : Step σ σ') :
    Consistent σ' := by
  cases hstep with
  | connect page =>
    refine ⟨h.carriers, ?_, ?_⟩
    · intro want hmem
      rw [connect, ← List.append_assoc, List.mem_append] at hmem
      exact hmem.elim (h.hosts want) fun hnew => (start_mem_onConnect hnew).2
    · intro want hlast
      simp only [connect] at hlast
      split_ifs at hlast with hblank
      · exact h.last want hlast
      · obtain rfl := Option.some.inj hlast
        suffices hmem : .start page.want ∈ page.onConnect from (start_mem_onConnect hmem).2
        unfold ConnectPage.onConnect at hblank ⊢
        split_ifs at hblank ⊢
        · exact absurd rfl hblank
        · simp
  | process before after r hflight =>
    refine ⟨?_, fun want hmem => h.hosts want ?_, h.last⟩
    · rw [← process_alive, ← h.carriers]
    · rw [hflight]
      simp only [List.mem_append, List.mem_cons] at hmem ⊢
      tauto

theorem consistent_steps {σ : Desktop} (h : Steps {} σ) : Consistent σ := by
  induction h with
  | refl => exact ⟨rfl, by simp, by simp⟩
  | tail _ hstep ih => exact ih.step hstep

theorem Consistent.restarted {σ : Desktop} (h : Consistent σ) (hin : InTime σ) :
    Restarted σ := by
  intro hnone want hlast
  rw [h.carriers, alive, hin hnone want hlast]
  exact congrArg (fun c => [c]) (if_neg (h.last want hlast))

theorem Consistent.inTime {σ : Desktop} (h : Consistent σ) (hre : Restarted σ) :
    InTime σ := by
  intro hnone want hlast
  have halive := hre hnone want hlast
  rw [h.carriers, alive] at halive
  split at halive
  · rename_i want' hhead
    have hmem := List.mem_of_mem_head? hhead
    have hhost := h.hosts want'
      (List.mem_append_left _ ((List.rtakeWhile_suffix _ _).subset hmem))
    rw [onCreate, if_neg hhost] at halive
    obtain rfl : want' = want := by simpa using halive
    exact hhead
  · cases halive

/-- In every run the carrier is restarted as the last `onConnect` asked exactly if the
requests are processed in time. -/
theorem restarted_iff {σ : Desktop} (h : Steps {} σ) : Restarted σ ↔ InTime σ :=
  ⟨(consistent_steps h).inTime, (consistent_steps h).restarted⟩

def page (host : String) : ConnectPage :=
  ⟨host.toList, "24800".toList, "HarmonyPC".toList, false, true, false⟩

def clicked (host : String) : Desktop :=
  ⟨[], [.stop, .start (page host).want], [⟨some (page host).want⟩], some (page host).want⟩

theorem steps_clicked : Steps {} (clicked "10.0.0.2") := by
  have hc : Steps {} (connect (page "10.0.0.2") {}) := .single (.connect {} _)
  have hs := hc.tail (.process [] [.start (page "10.0.0.2").want] .stop rfl)
  exact hs.tail (.process [] [] (.start (page "10.0.0.2").want) rfl)

theorem restarted_iff_clicked : InTime (clicked "10.0.0.2") ∧
    (Restarted (clicked "10.0.0.2") ↔ InTime (clicked "10.0.0.2")) := by
  refine ⟨?_, restarted_iff steps_clicked⟩
  intro _ want hlast
  obtain rfl := Option.some.inj hlast
  rfl

/-- A second click, of which the start is refused before the stop ends the carrier,
leaves none. -/
theorem not_restarted_second : ∃ σ, Steps {} σ ∧ σ.inFlight = [] ∧
    σ.last = some (page "10.0.0.3").want ∧ σ.carriers = [] ∧ ¬Restarted σ := by
  have hc := steps_clicked.tail (.connect _ (page "10.0.0.3"))
  have hs := hc.tail (.process [.stop] [] (.start (page "10.0.0.3").want) rfl)
  refine ⟨_, hs.tail (.process [] [] .stop rfl), rfl, rfl, rfl, ?_⟩
  intro hre
  cases hre rfl _ rfl

/-- The steps in which the request sent first is processed first. -/
inductive InOrder : Desktop → Desktop → Prop
  | connect (σ : Desktop) (page : ConnectPage) : InOrder σ (σ.connect page)
  | process {σ : Desktop} (r : Request) (rest : List Request) :
      σ.inFlight = r :: rest →
      InOrder σ { σ with
        inFlight := rest
        processed := σ.processed ++ [r]
        carriers := r.process σ.carriers }

theorem InOrder.step {σ σ' : Desktop} (h : InOrder σ σ') : Step σ σ' := by
  cases h with
  | connect page => exact .connect σ page
  | process r rest hflight => exact .process [] rest r hflight

def EndsInLast (σ : Desktop) : Prop :=
  ∀ want, σ.last = some want →
    ∃ rs, σ.processed ++ σ.inFlight = rs ++ [.stop, .start want]

theorem EndsInLast.step {σ σ' : Desktop} (h : EndsInLast σ) (hstep : InOrder σ σ') :
    EndsInLast σ' := by
  intro want hlast
  cases hstep with
  | connect page =>
    unfold connect at hlast ⊢
    by_cases hblank : (trimText page.hostInput).length = 0
    · simp only [ConnectPage.onConnect, if_pos hblank, List.append_nil, ↓reduceIte] at hlast ⊢
      exact h want hlast
    · simp only [ConnectPage.onConnect, if_neg hblank, List.cons_ne_nil, ↓reduceIte] at hlast ⊢
      obtain rfl := Option.some.inj hlast
      exact ⟨σ.processed ++ σ.inFlight, (List.append_assoc _ _ _).symm⟩
  | process r rest hflight =>
    obtain ⟨rs, hrs⟩ := h want hlast
    refine ⟨rs, ?_⟩
    rw [List.append_assoc, List.singleton_append, ← hflight, hrs]

theorem endsInLast_steps {σ : Desktop} (h : Relation.ReflTransGen InOrder {} σ) :
    EndsInLast σ := by
  induction h with
  | refl => exact fun _ hlast => nomatch hlast
  | tail _ hstep ih => exact ih.step hstep

/-- If requests are processed in the order in which they are made, every run restarts
the carrier. -/
theorem restarted_of_inOrder {σ : Desktop} (h : Relation.ReflTransGen InOrder {} σ) :
    Restarted σ := by
  have hsteps : Steps {} σ := Relation.ReflTransGen.mono (fun _ _ => InOrder.step) _ _ h
  apply (consistent_steps hsteps).restarted
  intro hnone want hlast
  obtain ⟨rs, hrs⟩ := endsInLast_steps h want hlast
  rw [hnone, List.append_nil] at hrs
  have hlog : σ.processed = (rs ++ [.stop]) ++ [.start want] := by
    rw [hrs, List.append_assoc, List.singleton_append]
  rw [hlog, sinceStop_start, sinceStop_stop]
  rfl

/-- Two clicks with everything processed in order. -/
theorem restarted_of_inOrder_twice :
    Restarted ⟨[], [.stop, .start (page "10.0.0.2").want, .stop, .start (page "10.0.0.3").want],
      [⟨some (page "10.0.0.3").want⟩], some (page "10.0.0.3").want⟩ := by
  have hfirst := Relation.ReflTransGen.single (InOrder.connect {} (page "10.0.0.2"))
  have hcreated := (hfirst.tail (.process .stop _ rfl)).tail (.process _ _ rfl)
  have hsecond := hcreated.tail (.connect _ (page "10.0.0.3"))
  exact restarted_of_inOrder ((hsecond.tail (.process .stop _ rfl)).tail (.process _ _ rfl))

end Desktop

end Deskflow
