import Mathlib.Data.List.Basic
import Mathlib.Logic.Function.Basic
import Mathlib.Logic.Relation

/-! Threads that hand values to a receiver through a shared reference to its queue. A
thread copies the reference and calls the queue later, and the receiver may have replaced
the queue by then. -/

/-- A call of a queue, and whether the queue was still in use. -/
structure RelayCall (ι α : Type) where
  thread : ι
  queue : Nat
  value : α
  taken : Bool
  deriving DecidableEq

/-- The queue that is in use, the number of queues made, what they hold, the call that each
thread is about to make, and what has happened: the values published, those dropped for
want of a queue, the calls, and the values delivered. That a queue delivers in the order of
its calls is assumed of whatever the queue stands for. -/
structure Relay (ι α : Type) where
  current : Option Nat := none
  next : Nat := 0
  queue : Nat → List α := fun _ => []
  hand : ι → Option (Nat × α) := fun _ => none
  published : List (ι × α) := []
  dropped : List (ι × α) := []
  calls : List (RelayCall ι α) := []
  delivered : List (Nat × α) := []

namespace Relay

variable {ι α : Type} [DecidableEq ι]

/-- Copies the reference, or gives the value up where there is none. -/
def publish (i : ι) (a : α) (σ : Relay ι α) : Relay ι α :=
  match σ.current with
  | none => { σ with published := σ.published ++ [(i, a)], dropped := σ.dropped ++ [(i, a)] }
  | some n =>
    { σ with
      published := σ.published ++ [(i, a)]
      hand := Function.update σ.hand i (some (n, a)) }

/-- A queue that is no longer in use takes nothing. -/
def call (i : ι) (n : Nat) (a : α) (σ : Relay ι α) : Relay ι α :=
  { σ with
    hand := Function.update σ.hand i none
    queue :=
      if σ.current = some n then Function.update σ.queue n (σ.queue n ++ [a]) else σ.queue
    calls := σ.calls ++ [⟨i, n, a, decide (σ.current = some n)⟩] }

/-- Releases the queue in use and makes a new one. -/
def register (σ : Relay ι α) : Relay ι α :=
  { σ with current := some σ.next, next := σ.next + 1 }

def deliver (n : Nat) (a : α) (rest : List α) (σ : Relay ι α) : Relay ι α :=
  { σ with
    queue := Function.update σ.queue n rest
    delivered := σ.delivered ++ [(n, a)] }

inductive Step : Relay ι α → Relay ι α → Prop
  | publish {σ : Relay ι α} (i : ι) (a : α) : σ.hand i = none → Step σ (σ.publish i a)
  | call {σ : Relay ι α} (i : ι) (n : Nat) (a : α) : σ.hand i = some (n, a) →
      Step σ (σ.call i n a)
  | register {σ : Relay ι α} : Step σ σ.register
  | deliver {σ : Relay ι α} (n : Nat) (a : α) (rest : List α) : σ.queue n = a :: rest →
      Step σ (σ.deliver n a rest)

abbrev Steps : Relay ι α → Relay ι α → Prop := Relation.ReflTransGen Step

def ofThread (i : ι) (es : List (ι × α)) : List α :=
  es.filterMap fun e => if e.1 = i then some e.2 else none

def calledBy (i : ι) (cs : List (RelayCall ι α)) : List α :=
  cs.filterMap fun c => if c.thread = i then some c.value else none

def takenBy (n : Nat) (cs : List (RelayCall ι α)) : List α :=
  cs.filterMap fun c => if c.queue = n ∧ c.taken = true then some c.value else none

def deliveredFrom (n : Nat) (es : List (Nat × α)) : List α :=
  es.filterMap fun e => if e.1 = n then some e.2 else none

def held (i : ι) (σ : Relay ι α) : List α := ((σ.hand i).map Prod.snd).toList

theorem publish_of_none {σ : Relay ι α} (h : σ.current = none) (i : ι) (a : α) :
    σ.publish i a =
      { σ with published := σ.published ++ [(i, a)], dropped := σ.dropped ++ [(i, a)] } := by
  simp only [publish, h]

theorem publish_of_some {σ : Relay ι α} {n : Nat} (h : σ.current = some n) (i : ι) (a : α) :
    σ.publish i a =
      { σ with
        published := σ.published ++ [(i, a)]
        hand := Function.update σ.hand i (some (n, a)) } := by
  simp only [publish, h]

theorem publish_published (i : ι) (a : α) (σ : Relay ι α) :
    (σ.publish i a).published = σ.published ++ [(i, a)] := by
  cases hcurrent : σ.current with
  | none => rw [publish_of_none hcurrent]
  | some n => rw [publish_of_some hcurrent]

/-- Once there is a queue nothing is dropped any more. -/
theorem Step.dropped_eq {σ σ' : Relay ι α} (h : Step σ σ') (hreg : σ.current ≠ none) :
    σ'.dropped = σ.dropped ∧ σ'.current ≠ none := by
  cases h with
  | publish i a hi =>
    obtain ⟨n, hn⟩ := Option.ne_none_iff_exists'.mp hreg
    rw [publish_of_some hn]
    exact ⟨rfl, hreg⟩
  | call i n a hi => exact ⟨rfl, hreg⟩
  | register => exact ⟨rfl, Option.some_ne_none _⟩
  | deliver n a rest hn => exact ⟨rfl, hreg⟩

/-- After an update a thread is about to make the new call, or the one it was about to. -/
theorem hand_update {σ : Relay ι α} {i j : ι} {o : Option (Nat × α)} {c : Nat × α}
    (h : Function.update σ.hand i o j = some c) : o = some c ∨ σ.hand j = some c := by
  by_cases hji : j = i
  · rw [hji, Function.update_self] at h
    exact .inl h
  · rw [Function.update_of_ne hji] at h
    exact .inr h

/-- What a thread publishes is dropped at first, then called in order, with at most one
call to come; what a queue takes is delivered in order. A call that is not taken is one of
a queue before the one in use. -/
structure Kept (σ : Relay ι α) : Prop where
  threads : ∀ i, ofThread i σ.published =
    ofThread i σ.dropped ++ calledBy i σ.calls ++ σ.held i
  queues : ∀ n, takenBy n σ.calls = deliveredFrom n σ.delivered ++ σ.queue n
  current : ∀ n, σ.current = some n → n + 1 = σ.next
  early : σ.current = none → σ.calls = [] ∧ ∀ i, σ.hand i = none
  hand : ∀ i n a, σ.hand i = some (n, a) → n < σ.next
  calls : ∀ c ∈ σ.calls, c.queue < σ.next ∧ (c.taken = false → c.queue + 1 < σ.next)

namespace Kept

variable {σ σ' : Relay ι α}

theorem publish (h : Kept σ) {i : ι} (hi : σ.hand i = none) (a : α) : Kept (σ.publish i a) := by
  cases hcurrent : σ.current with
  | none =>
    obtain ⟨hcalls, hhand⟩ := h.early hcurrent
    rw [publish_of_none hcurrent]
    refine ⟨fun j => ?_, h.queues, h.current, h.early, h.hand, h.calls⟩
    have hj := h.threads j
    simp only [held, hhand, hcalls, calledBy, List.filterMap_nil, List.append_nil] at hj ⊢
    simp only [ofThread, List.filterMap_append] at hj ⊢
    simpa using hj
  | some n =>
    rw [publish_of_some hcurrent]
    refine ⟨fun j => ?_, h.queues, h.current, fun hnone => ?_, fun j m b hj => ?_, h.calls⟩
    · have hj := h.threads j
      by_cases hij : i = j
      · subst hij
        simp only [held, hi, Option.map_none, Option.toList_none, List.append_nil] at hj
        simp only [ofThread, List.filterMap_append, held, Function.update_self] at hj ⊢
        simp [hj]
      · simp only [held, Function.update_of_ne (Ne.symm hij)] at hj ⊢
        simp only [ofThread, List.filterMap_append] at hj ⊢
        simp [hj, hij]
    · rw [hcurrent] at hnone
      cases hnone
    · rcases hand_update hj with hnew | hold
      · have hnext := h.current n hcurrent
        cases hnew
        show n < σ.next
        omega
      · exact h.hand j m b hold

theorem call (h : Kept σ) {i : ι} {n : Nat} {a : α} (hi : σ.hand i = some (n, a)) :
    Kept (σ.call i n a) := by
  have hlt := h.hand i n a hi
  refine ⟨fun j => ?_, fun m => ?_, h.current, fun hnone => ?_, fun j m b hj => ?_,
    fun c hc => ?_⟩
  · have hj := h.threads j
    by_cases hij : i = j
    · subst hij
      simp only [held, hi] at hj
      simp only [held, Relay.call, Function.update_self, calledBy, List.filterMap_append]
      simpa [calledBy] using hj
    · simp only [held, Relay.call, Function.update_of_ne (Ne.symm hij), calledBy,
        List.filterMap_append]
      simpa [held, calledBy, hij] using hj
  · have hm := h.queues m
    by_cases hcurrent : σ.current = some n
    · by_cases hnm : n = m
      · subst hnm
        simp only [Relay.call, takenBy, List.filterMap_append, if_pos hcurrent,
          Function.update_self] at hm ⊢
        simp [hm, hcurrent]
      · simp only [Relay.call, takenBy, List.filterMap_append, if_pos hcurrent,
          Function.update_of_ne (Ne.symm hnm)] at hm ⊢
        simp [hm, hnm]
    · simp only [Relay.call, takenBy, List.filterMap_append, if_neg hcurrent] at hm ⊢
      simp [hm, hcurrent]
  · rw [(h.early hnone).2 i] at hi
    cases hi
  · exact h.hand j m b ((hand_update hj).resolve_left (by simp))
  · rcases List.mem_append.mp hc with hold | hnew
    · exact h.calls c hold
    · rw [List.mem_singleton.mp hnew]
      refine ⟨hlt, fun hstale => ?_⟩
      have hne : σ.current ≠ some n := of_decide_eq_false hstale
      cases hcurrent : σ.current with
      | none =>
        rw [(h.early hcurrent).2 i] at hi
        cases hi
      | some m =>
        have hnext := h.current m hcurrent
        have hmn : m ≠ n := fun hmn => hne (hmn ▸ hcurrent)
        show n + 1 < σ.next
        omega

theorem register (h : Kept σ) : Kept σ.register := by
  refine ⟨h.threads, h.queues, fun n hn => ?_, fun hnone => ?_, fun i n a hi => ?_, fun c hc => ?_⟩
  · cases hn
    rfl
  · cases hnone
  · exact Nat.lt_succ_of_lt (h.hand i n a hi)
  · obtain ⟨hlt, hstale⟩ := h.calls c hc
    exact ⟨Nat.lt_succ_of_lt hlt, fun hc' => Nat.lt_succ_of_lt (hstale hc')⟩

theorem deliver (h : Kept σ) {n : Nat} {a : α} {rest : List α} (hn : σ.queue n = a :: rest) :
    Kept (σ.deliver n a rest) := by
  refine ⟨h.threads, fun m => ?_, h.current, h.early, h.hand, h.calls⟩
  have hm := h.queues m
  by_cases hnm : n = m
  · subst hnm
    simp only [Relay.deliver, deliveredFrom, List.filterMap_append, Function.update_self] at hm ⊢
    simp [hm, hn]
  · simp only [Relay.deliver, deliveredFrom, List.filterMap_append,
      Function.update_of_ne (Ne.symm hnm)] at hm ⊢
    simp [hm, hnm]

theorem step (h : Kept σ) (hstep : Step σ σ') : Kept σ' := by
  cases hstep with
  | publish i a hi => exact h.publish hi a
  | call i n a hi => exact h.call hi
  | register => exact h.register
  | deliver n a rest hn => exact h.deliver hn

theorem initial : Kept ({} : Relay ι α) :=
  ⟨fun _ => rfl, fun _ => rfl, by simp, fun _ => ⟨rfl, fun _ => rfl⟩, by simp, by simp⟩

/-- Where one queue is all that there has been, it has taken every call. -/
theorem takenBy_eq (h : Kept σ) (hnext : σ.next ≤ 1) :
    takenBy 0 σ.calls = σ.calls.map RelayCall.value := by
  rw [takenBy, ← List.filterMap_eq_map]
  apply List.filterMap_congr
  intro c hc
  obtain ⟨hlt, hstale⟩ := h.calls c hc
  have hzero : c.queue = 0 := by omega
  have htaken : c.taken = true := by
    by_contra hfalse
    rw [Bool.not_eq_true] at hfalse
    have hlt' := hstale hfalse
    omega
  simp [hzero, htaken]

theorem deliveredFrom_eq (h : Kept σ) (hnext : σ.next ≤ 1) :
    deliveredFrom 0 σ.delivered = σ.delivered.map Prod.snd := by
  rw [deliveredFrom, ← List.filterMap_eq_map]
  apply List.filterMap_congr
  rintro ⟨n, a⟩ hmem
  by_cases hn : n = 0
  · simp [hn]
  · have hnone : takenBy n σ.calls = [] := by
      rw [takenBy, List.filterMap_eq_nil_iff]
      intro c hc
      obtain ⟨hlt, -⟩ := h.calls c hc
      have hne : c.queue ≠ n := by omega
      simp [hne]
    have hqueue := h.queues n
    rw [hnone] at hqueue
    have hfrom := (List.append_eq_nil_iff.mp hqueue.symm).1
    rw [deliveredFrom, List.filterMap_eq_nil_iff] at hfrom
    have hsome := hfrom (n, a) hmem
    simp at hsome

end Kept

theorem kept_steps {σ : Relay ι α} (h : Steps {} σ) : Kept σ := by
  induction h with
  | refl => exact .initial
  | tail _ hstep ih => exact ih.step hstep

theorem ofThread_unit (es : List (Unit × α)) : ofThread () es = es.map Prod.snd := by
  rw [ofThread, ← List.filterMap_eq_map]
  rfl

theorem calledBy_unit (cs : List (RelayCall Unit α)) :
    calledBy () cs = cs.map RelayCall.value := by
  rw [calledBy, ← List.filterMap_eq_map]
  rfl

/-- A queue is replaced only when no thread is about to call it. -/
def Calm (σ σ' : Relay ι α) : Prop := Step σ σ' ∧ (σ'.next ≠ σ.next → ∀ i, σ.hand i = none)

structure Taken (σ : Relay ι α) : Prop where
  hand : ∀ i n a, σ.hand i = some (n, a) → σ.current = some n
  calls : ∀ c ∈ σ.calls, c.taken = true

theorem Taken.step {σ σ' : Relay ι α} (h : Taken σ) (hstep : Calm σ σ') : Taken σ' := by
  obtain ⟨hstep, hcalm⟩ := hstep
  cases hstep with
  | publish i a hi =>
    cases hcurrent : σ.current with
    | none =>
      rw [publish_of_none hcurrent]
      exact ⟨h.hand, h.calls⟩
    | some n =>
      rw [publish_of_some hcurrent]
      refine ⟨fun j m b hj => ?_, h.calls⟩
      rcases hand_update hj with hnew | hold
      · cases hnew
        exact hcurrent
      · exact h.hand j m b hold
  | call i n a hi =>
    refine ⟨fun j m b hj => ?_, fun c hc => ?_⟩
    · exact h.hand j m b ((hand_update hj).resolve_left (by simp))
    · rcases List.mem_append.mp hc with hold | hnew
      · exact h.calls c hold
      · rw [List.mem_singleton.mp hnew]
        exact decide_eq_true (h.hand i n a hi)
  | register =>
    refine ⟨fun i n a hi => ?_, h.calls⟩
    rw [register, hcalm (Nat.succ_ne_self σ.next) i] at hi
    cases hi
  | deliver n a rest hn => exact ⟨h.hand, h.calls⟩

theorem taken_steps {σ : Relay ι α} (h : Relation.ReflTransGen Calm {} σ) : Taken σ := by
  induction h with
  | refl => exact ⟨by simp, by simp⟩
  | tail _ hstep ih => exact ih.step hstep

end Relay
