import Mathlib.Data.List.Basic

/-! Histories that only grow, and the points inside them. -/

namespace History

variable {α β : Type}

/-- `ys` continues `xs` with entries that satisfy `p`. -/
def Grows (p : α → Prop) (xs ys : List α) : Prop := ∃ es, ys = xs ++ es ∧ ∀ e ∈ es, p e

namespace Grows

variable {p q : α → Prop} {xs ys zs : List α}

theorem refl (xs : List α) : Grows p xs xs := ⟨[], by simp, by simp⟩

theorem single {e : α} (h : p e) (xs : List α) : Grows p xs (xs ++ [e]) := ⟨[e], rfl, by simpa⟩

theorem trans (h : Grows p xs ys) (h' : Grows p ys zs) : Grows p xs zs := by
  obtain ⟨es, rfl, hes⟩ := h
  obtain ⟨fs, rfl, hfs⟩ := h'
  exact ⟨es ++ fs, List.append_assoc .., List.forall_mem_append.mpr ⟨hes, hfs⟩⟩

theorem mono (h : Grows p xs ys) (hpq : ∀ e, p e → q e) : Grows q xs ys := by
  obtain ⟨es, rfl, hes⟩ := h
  exact ⟨es, rfl, fun e he => hpq e (hes e he)⟩

theorem filterMap_eq (h : Grows p xs ys) {f : α → Option β} (hf : ∀ e, p e → f e = none) :
    ys.filterMap f = xs.filterMap f := by
  obtain ⟨es, rfl, hes⟩ := h
  rw [List.filterMap_append, List.filterMap_eq_nil_iff.mpr fun e he => hf e (hes e he),
    List.append_nil]

theorem filter_eq (h : Grows p xs ys) {f : α → Bool} (hf : ∀ e, p e → f e = false) :
    ys.filter f = xs.filter f := by
  obtain ⟨es, rfl, hes⟩ := h
  have hnone : es.filter f = [] := List.filter_eq_nil_iff.mpr fun e he => by
    simp [hf e (hes e he)]
  rw [List.filter_append, hnone, List.append_nil]

theorem count_eq [DecidableEq α] (h : Grows p xs ys) {a : α} (ha : ¬p a) :
    ys.count a = xs.count a := by
  obtain ⟨es, rfl, hes⟩ := h
  rw [List.count_append, List.count_eq_zero.mpr fun hmem => ha (hes a hmem), Nat.add_zero]

end Grows

/-- A point of a continued history is a point of the old part or of the new one. -/
theorem prefix_append_cases {pre xs es : List α} {e : α} (h : pre ++ [e] <+: xs ++ es) :
    pre ++ [e] <+: xs ∨ ∃ fs, pre = xs ++ fs ∧ fs ++ [e] <+: es := by
  obtain ⟨rest, hrest⟩ := h
  rcases List.append_eq_append_iff.mp hrest with ⟨fs, hxs, hes⟩ | ⟨fs, hpre, hes⟩
  · exact .inl ⟨fs, hxs.symm⟩
  · rcases List.eq_nil_or_concat fs with rfl | ⟨gs, g, rfl⟩
    · exact .inl ⟨[], by simpa using hpre⟩
    · rw [List.concat_eq_append, ← List.append_assoc] at hpre
      obtain ⟨rfl, hge⟩ := List.append_inj' hpre rfl
      obtain rfl : e = g := by simpa using hge
      exact .inr ⟨gs, rfl, rest, by simpa using hes.symm⟩

/-- Where the new entries all satisfy `p`, an entry that does not lies in the old part. -/
theorem Grows.prefix_of_not {p : α → Prop} {pre xs ys : List α} {e : α} (h : Grows p xs ys)
    (he : ¬p e) (hpre : pre ++ [e] <+: ys) : pre ++ [e] <+: xs := by
  obtain ⟨es, rfl, hes⟩ := h
  rcases prefix_append_cases hpre with hold | ⟨fs, -, hnew⟩
  · exact hold
  · exact absurd (hes e (hnew.subset (by simp))) he

/-- Every entry is as `P` asks, given what came before it. -/
def Throughout (P : List α → α → Prop) (xs : List α) : Prop :=
  ∀ pre e, pre ++ [e] <+: xs → P pre e

section Throughout

variable {P : List α → α → Prop} {xs ys : List α}

theorem throughout_nil : Throughout P [] := fun pre e h => by simp at h

theorem throughout_concat {e : α} : Throughout P (xs ++ [e]) ↔ Throughout P xs ∧ P xs e := by
  constructor
  · intro h
    exact ⟨fun pre e' hpre => h pre e' (hpre.trans (List.prefix_append xs [e])),
      h xs e (List.prefix_refl _)⟩
  · rintro ⟨hold, hnew⟩ pre e' hpre
    rcases List.prefix_concat_iff.mp hpre with heq | hpre
    · obtain ⟨rfl, he⟩ := List.append_inj' heq rfl
      obtain rfl : e' = e := by simpa using he
      exact hnew
    · exact hold pre e' hpre

/-- Entries of which `P` asks nothing do not matter. -/
theorem Grows.throughout_iff {q : α → Prop} (h : Grows q xs ys) (hq : ∀ pre e, q e → P pre e) :
    Throughout P ys ↔ Throughout P xs := by
  obtain ⟨es, rfl, hes⟩ := h
  refine ⟨fun h pre e hpre => h pre e (hpre.trans (List.prefix_append xs es)),
    fun h pre e hpre => ?_⟩
  rcases prefix_append_cases hpre with hold | ⟨fs, -, hnew⟩
  · exact h pre e hold
  · exact hq pre e (hes e (hnew.subset (by simp)))

end Throughout

theorem split_concat {es pre post : List α} {e x : α}
    (h : es ++ [e] = pre ++ x :: post) :
    (pre = es ∧ x = e ∧ post = []) ∨ ∃ mid, post = mid ++ [e] ∧ es = pre ++ x :: mid := by
  rcases List.eq_nil_or_concat post with rfl | ⟨mid, last, rfl⟩
  · obtain ⟨rfl, hx⟩ := List.append_inj' h rfl
    exact .inl ⟨rfl, by simpa using hx.symm, rfl⟩
  · rw [List.concat_eq_append, ← List.cons_append, ← List.append_assoc] at h
    obtain ⟨hes, hlast⟩ := List.append_inj' h rfl
    obtain rfl : e = last := by simpa using hlast
    exact .inr ⟨mid, List.concat_eq_append .., hes⟩

end History
