import Mathlib.Data.Fintype.Basic
import Mathlib.Data.List.Basic
import Mathlib.Logic.Function.Basic

/-! Writers that share a channel. A frame is a list of blocks, and each block is
sent by as many sends as it takes. -/

/-- What has arrived, the frames each writer has not begun, and what is left of
the frame it is at. -/
structure SharedChannel (ι φ α : Type) where
  wire : List α := []
  queue : ι → List φ
  left : ι → List (List α) := fun _ => []

namespace SharedChannel

variable {ι φ α : Type}

/-- What one send takes, at most `k + 1` elements of the first block that is not
empty, and what it leaves. -/
def cut (k : Nat) : List (List α) → List α × List (List α)
  | [] => ([], [])
  | [] :: blocks => cut k blocks
  | (a :: as) :: blocks => ((a :: as).take (k + 1), (a :: as).drop (k + 1) :: blocks)

theorem cut_flatten (k : Nat) (blocks : List (List α)) :
    (cut k blocks).1 ++ (cut k blocks).2.flatten = blocks.flatten := by
  induction blocks using cut.induct with
  | case1 => rfl
  | case2 blocks ih => simpa [cut] using ih
  | case3 a as blocks =>
    rw [cut, List.flatten_cons, ← List.append_assoc, List.take_append_drop, List.flatten_cons]

/-- The frame of the writer is partly sent. -/
def busy (i : ι) (σ : SharedChannel ι φ α) : Bool := !(σ.left i).flatten.isEmpty

theorem busy_eq_false {i : ι} {σ : SharedChannel ι φ α} :
    σ.busy i = false ↔ (σ.left i).flatten = [] := by
  simp [busy]

variable [DecidableEq ι] (blocks : φ → List (List α))

/-- A send of a writer, which begins its next frame where it is at none. -/
def send (i : ι) (k : Nat) (σ : SharedChannel ι φ α) : SharedChannel ι φ α :=
  if σ.busy i then
    { σ with
      wire := σ.wire ++ (cut k (σ.left i)).1
      left := Function.update σ.left i (cut k (σ.left i)).2 }
  else match σ.queue i with
    | [] => σ
    | frame :: frames =>
      { wire := σ.wire ++ (cut k (blocks frame)).1
        queue := Function.update σ.queue i frames
        left := Function.update σ.left i (cut k (blocks frame)).2 }

def run (steps : List (ι × Nat)) (σ : SharedChannel ι φ α) : SharedChannel ι φ α :=
  steps.foldl (fun σ step => σ.send blocks step.1 step.2) σ

/-- Nobody sends while the frame of another writer is partly sent. -/
def Exclusive : List (ι × Nat) → SharedChannel ι φ α → Prop
  | [], _ => True
  | step :: steps, σ =>
    (∀ j, j ≠ step.1 → σ.busy j = false) ∧ Exclusive steps (σ.send blocks step.1 step.2)

instance decidableExclusive [Fintype ι] : (steps : List (ι × Nat)) → (σ : SharedChannel ι φ α) →
    Decidable (Exclusive blocks steps σ)
  | [], _ => .isTrue trivial
  | step :: steps, σ =>
    @instDecidableAnd _ _ _ (decidableExclusive steps (σ.send blocks step.1 step.2))

def own (i : ι) (order : List (ι × φ)) : List φ :=
  (order.filter fun entry => entry.1 = i).map Prod.snd

theorem own_concat (i j : ι) (order : List (ι × φ)) (frame : φ) :
    own i (order ++ [(j, frame)]) = own i order ++ if j = i then [frame] else [] := by
  unfold own
  split_ifs with h <;> simp [h]

theorem mem_own {order : List (ι × φ)} {entry : ι × φ} (h : entry ∈ order) :
    entry.2 ∈ own entry.1 order :=
  List.mem_map.mpr ⟨entry, List.mem_filter.mpr ⟨h, by simp⟩, rfl⟩

/-- What has arrived, completed by what is left of the frame under way, is made of
whole frames, in an order that keeps that of every writer. -/
def Whole (program : ι → List φ) (σ : SharedChannel ι φ α) : Prop :=
  ∃ (order : List (ι × φ)) (tail : List α),
    (∀ i, own i order ++ σ.queue i = program i) ∧
    σ.wire ++ tail = order.flatMap (fun entry => (blocks entry.2).flatten) ∧
    (∀ i, σ.busy i = true → (σ.left i).flatten = tail) ∧ ((∀ i, σ.busy i = false) → tail = [])

variable {blocks}

theorem whole_initial (program : ι → List φ) :
    Whole blocks program { queue := program } :=
  ⟨[], [], fun _ => rfl, rfl, by simp [busy], fun _ => rfl⟩

theorem tail_of_send {i : ι} {left : ι → List (List α)} (rest : List (List α))
    (h : ∀ j, j ≠ i → (left j).flatten = []) (σ : SharedChannel ι φ α)
    (hσ : σ.left = Function.update left i rest) :
    (∀ j, σ.busy j = true → (σ.left j).flatten = rest.flatten) ∧
      ((∀ j, σ.busy j = false) → rest.flatten = []) := by
  constructor
  · intro j hj
    by_cases hji : j = i
    · rw [hσ, hji, Function.update_self]
    · have hquiet : σ.busy j = false := by
        rw [busy_eq_false, hσ, Function.update_of_ne hji]
        exact h j hji
      simp [hquiet] at hj
  · intro hidle
    have hi := busy_eq_false.mp (hidle i)
    rwa [hσ, Function.update_self] at hi

theorem Whole.send {program : ι → List φ} {σ : SharedChannel ι φ α} (h : Whole blocks program σ)
    {i : ι} (hquiet : ∀ j, j ≠ i → σ.busy j = false) (k : Nat) :
    Whole blocks program (σ.send blocks i k) := by
  obtain ⟨order, tail, hown, hwire, hbusy, hidle⟩ := h
  have hleft : ∀ j, j ≠ i → (σ.left j).flatten = [] := fun j hj => busy_eq_false.mp (hquiet j hj)
  unfold SharedChannel.send
  by_cases hi : σ.busy i = true
  · rw [if_pos hi]
    obtain ⟨hat, hdone⟩ := tail_of_send (cut k (σ.left i)).2 hleft
      { σ with
        wire := σ.wire ++ (cut k (σ.left i)).1
        left := Function.update σ.left i (cut k (σ.left i)).2 } rfl
    refine ⟨order, (cut k (σ.left i)).2.flatten, hown, ?_, hat, hdone⟩
    rw [List.append_assoc, cut_flatten, hbusy i hi]
    exact hwire
  · rw [if_neg hi]
    have hall : ∀ j, σ.busy j = false := fun j => by
      by_cases hj : j = i
      · rw [hj]
        exact Bool.not_eq_true _ ▸ hi
      · exact hquiet j hj
    split
    · exact ⟨order, tail, hown, hwire, hbusy, hidle⟩
    · rename_i frame frames hqueue
      obtain ⟨hat, hdone⟩ := tail_of_send (cut k (blocks frame)).2 hleft
        { wire := σ.wire ++ (cut k (blocks frame)).1
          queue := Function.update σ.queue i frames
          left := Function.update σ.left i (cut k (blocks frame)).2 } rfl
      refine ⟨order ++ [(i, frame)], (cut k (blocks frame)).2.flatten, fun j => ?_, ?_, hat, hdone⟩
      · rw [own_concat, ← hown j]
        by_cases hj : i = j
        · subst hj
          simp [hqueue]
        · simp [hj, Function.update_of_ne (Ne.symm hj)]
      · rw [hidle hall, List.append_nil] at hwire
        rw [List.append_assoc, cut_flatten, List.flatMap_append, List.flatMap_singleton, ← hwire]

/-- Along a run in which no two frames overlap, the channel carries whole frames. -/
theorem Whole.run {program : ι → List φ} {steps : List (ι × Nat)} {σ : SharedChannel ι φ α}
    (h : Whole blocks program σ) (hsteps : Exclusive blocks steps σ) :
    Whole blocks program (σ.run blocks steps) := by
  induction steps generalizing σ with
  | nil => exact h
  | cons step steps ih => exact ih (h.send hsteps.1 step.2) hsteps.2

end SharedChannel
