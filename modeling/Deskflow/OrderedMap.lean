import Mathlib.Data.List.Sort
import Mathlib.Order.Basic

/-! Finite maps that are traversed in key order. -/

/-- The strict order of the keys is part of the value, so a map has one
representation and at most one entry for a key. -/
structure OrderedMap (κ α : Type) [LinearOrder κ] where
  entries : List (κ × α)
  sorted : entries.Pairwise (fun a b => a.1 < b.1)

namespace OrderedMap

variable {κ α : Type} [LinearOrder κ]

def empty : OrderedMap κ α := ⟨[], List.Pairwise.nil⟩

def insertEntries (k : κ) (v : α) : List (κ × α) → List (κ × α)
  | [] => [(k, v)]
  | e :: es =>
    if k < e.1 then (k, v) :: e :: es
    else if k = e.1 then (k, v) :: es
    else e :: insertEntries k v es

theorem mem_insertEntries_of_mem {k : κ} {v : α} {es : List (κ × α)} {e : κ × α}
    (h : e ∈ insertEntries k v es) : e = (k, v) ∨ e ∈ es := by
  induction es with
  | nil => simpa [insertEntries] using h
  | cons e' es ih =>
    rw [insertEntries] at h
    split_ifs at h
    · simpa using h
    · rcases List.mem_cons.mp h with h | h
      · exact .inl h
      · exact .inr (List.mem_cons_of_mem _ h)
    · rcases List.mem_cons.mp h with h | h
      · exact .inr (by simp [h])
      · exact (ih h).imp id (List.mem_cons_of_mem _)

theorem pairwise_insertEntries (k : κ) (v : α) {es : List (κ × α)}
    (h : es.Pairwise (fun a b => a.1 < b.1)) :
    (insertEntries k v es).Pairwise (fun a b => a.1 < b.1) := by
  induction es with
  | nil => exact List.pairwise_singleton _ _
  | cons e es ih =>
    obtain ⟨he, hes⟩ := List.pairwise_cons.mp h
    rw [insertEntries]
    split_ifs with hlt heq
    · refine List.pairwise_cons.mpr ⟨fun a ha => ?_, h⟩
      rcases List.mem_cons.mp ha with rfl | ha
      · exact hlt
      · exact hlt.trans (he a ha)
    · exact List.pairwise_cons.mpr ⟨fun a ha => heq ▸ he a ha, hes⟩
    · refine List.pairwise_cons.mpr ⟨fun a ha => ?_, ih hes⟩
      rcases mem_insertEntries_of_mem ha with rfl | ha
      · exact lt_of_le_of_ne (not_lt.mp hlt) (Ne.symm heq)
      · exact he a ha

def insert (m : OrderedMap κ α) (k : κ) (v : α) : OrderedMap κ α :=
  ⟨insertEntries k v m.entries, pairwise_insertEntries k v m.sorted⟩

@[simp] theorem entries_empty : (empty : OrderedMap κ α).entries = [] := rfl

theorem mem_insert {m : OrderedMap κ α} {k k' : κ} {v v' : α} :
    (k', v') ∈ (m.insert k v).entries ↔
      (k' = k ∧ v' = v) ∨ (k' ≠ k ∧ (k', v') ∈ m.entries) := by
  obtain ⟨es, hs⟩ := m
  simp only [insert]
  induction es with
  | nil => simp [insertEntries]
  | cons e es ih =>
    obtain ⟨he, hes⟩ := List.pairwise_cons.mp hs
    rw [insertEntries]
    split_ifs with hlt heq
    · have hnew : ∀ a ∈ e :: es, a.1 ≠ k := by
        intro a ha
        rcases List.mem_cons.mp ha with rfl | ha
        · exact (ne_of_lt hlt).symm
        · exact (ne_of_lt (hlt.trans (he a ha))).symm
      have hk : (k', v') ∈ e :: es → k' ≠ k := fun h => hnew _ h
      rw [List.mem_cons, Prod.mk.injEq, and_iff_right_of_imp hk]
    · have hnew : (k', v') ∈ es → k' ≠ k := fun h => heq ▸ (ne_of_lt (he _ h)).symm
      have hhead : ¬(k' ≠ k ∧ (k', v') = e) := fun h => h.1 (by rw [heq, ← h.2])
      rw [List.mem_cons, List.mem_cons, Prod.mk.injEq, and_or_left, or_iff_right hhead,
        and_iff_right_of_imp hnew]
    · have hhead : (k', v') = e → k' ≠ k := fun h hk => heq (by rw [← h, hk])
      rw [List.mem_cons, List.mem_cons, ih hes, and_or_left, and_iff_right_of_imp hhead,
        or_left_comm]

theorem filter_insert_congr {m m' : OrderedMap κ α} {p : α → Bool}
    (h : m.entries.filter (fun e => p e.2) = m'.entries.filter (fun e => p e.2)) (k : κ) (v : α) :
    (m.insert k v).entries.filter (fun e => p e.2) =
      (m'.insert k v).entries.filter (fun e => p e.2) := by
  have hirrefl : Std.Irrefl fun a b : κ × α => a.1 < b.1 := ⟨fun a => lt_irrefl a.1⟩
  have hantisymm : Std.Antisymm fun a b : κ × α => a.1 < b.1 :=
    ⟨fun _ _ hab hba => absurd (hab.trans hba) (lt_irrefl _)⟩
  have hmem (e : κ × α) (he : p e.2 = true) : e ∈ m.entries ↔ e ∈ m'.entries := by
    have hiff := congrArg (e ∈ ·) h
    simpa [List.mem_filter, he] using hiff
  refine ((m.insert k v).sorted.filter _).eq_of_mem_iff ((m'.insert k v).sorted.filter _) ?_
  rintro ⟨k', v'⟩
  simp only [List.mem_filter, mem_insert]
  refine and_congr_left fun hv => ?_
  rw [hmem (k', v') hv]

end OrderedMap
