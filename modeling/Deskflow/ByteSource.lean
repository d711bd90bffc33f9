import Mathlib.Data.List.Basic

/-! Readers over an abstract source of bytes. A decoder is written once for
every source; a simulation between two sources then carries over to it. -/

/-- A source that can be asked for exactly `n` bytes. -/
class ByteSource (σ : Type) where
  readExact : Nat → σ → Option (List UInt8) × σ

/-- A finite string is the source that ends after its last byte; a read
that does not find enough bytes uses up what there was. -/
instance : ByteSource (List UInt8) where
  readExact n bs := if n ≤ bs.length then (some (bs.take n), bs.drop n) else (none, [])

/-- A failing read keeps the source as the failed step left it. -/
structure Reader (σ α : Type) where
  run : σ → Option α × σ

namespace Reader

variable {σ τ α β : Type}

def fail : Reader σ α := ⟨fun s => (none, s)⟩

def andThen (r : Reader σ α) (f : α → Reader σ β) : Reader σ β := ⟨fun s =>
  match r.run s with
  | (some a, s) => (f a).run s
  | (none, s) => (none, s)⟩

instance : Monad (Reader σ) where
  pure a := ⟨fun s => (some a, s)⟩
  bind := andThen

def exact [ByteSource σ] (n : Nat) : Reader σ (List UInt8) := ⟨ByteSource.readExact n⟩

@[simp] theorem run_pure (a : α) (s : σ) : (pure a : Reader σ α).run s = (some a, s) := rfl

@[simp] theorem run_fail (s : σ) : (fail : Reader σ α).run s = (none, s) := rfl

theorem run_bind (r : Reader σ α) (f : α → Reader σ β) (s : σ) :
    (r >>= f).run s = match r.run s with
      | (some a, s) => (f a).run s
      | (none, s) => (none, s) := rfl

theorem run_bind_some {r : Reader σ α} {s s' : σ} {a : α} (h : r.run s = (some a, s'))
    (f : α → Reader σ β) : (r >>= f).run s = (f a).run s' := by
  rw [run_bind, h]

theorem run_bind_eq_some {r : Reader σ α} {f : α → Reader σ β} {s t : σ} {b : β}
    (h : (r >>= f).run s = (some b, t)) :
    ∃ a s', r.run s = (some a, s') ∧ (f a).run s' = (some b, t) := by
  rw [run_bind] at h
  split at h
  next a s' he => exact ⟨a, s', he, h⟩
  next => simp at h

theorem run_exact_of_le {n : Nat} {bs : List UInt8} (h : n ≤ bs.length) :
    (exact n).run bs = (some (bs.take n), bs.drop n) := if_pos h

theorem run_exact_append (bs rest : List UInt8) :
    (exact bs.length).run (bs ++ rest) = (some bs, rest) := by
  rw [run_exact_of_le (by simp)]
  simp

theorem run_exact_of_lt {n : Nat} {bs : List UInt8} (h : bs.length < n) :
    (exact n).run bs = (none, []) := if_neg (Nat.not_le.mpr h)

theorem run_exact_eq_some {n : Nat} {bs a rest : List UInt8}
    (h : (exact n).run bs = (some a, rest)) : bs = a ++ rest ∧ a.length = n := by
  rcases Nat.lt_or_ge bs.length n with hn | hn
  · simp [run_exact_of_lt hn] at h
  · rw [run_exact_of_le hn] at h
    simp only [Prod.mk.injEq, Option.some.injEq] at h
    obtain ⟨rfl, rfl⟩ := h
    exact ⟨(List.take_append_drop n bs).symm, List.length_take_of_le hn⟩

/-- Related sources give equal results and related sources again. -/
def Simulates (R : σ → τ → Prop) (r : Reader σ α) (r' : Reader τ α) : Prop :=
  ∀ s t, R s t → (r.run s).1 = (r'.run t).1 ∧ R (r.run s).2 (r'.run t).2

theorem Simulates.pure (R : σ → τ → Prop) (a : α) :
    Simulates R (Pure.pure a) (Pure.pure a) := fun _ _ h => ⟨rfl, h⟩

theorem Simulates.fail (R : σ → τ → Prop) :
    Simulates R (Reader.fail : Reader σ α) Reader.fail := fun _ _ h => ⟨rfl, h⟩

theorem Simulates.bind {R : σ → τ → Prop} {r : Reader σ α} {r' : Reader τ α}
    {f : α → Reader σ β} {f' : α → Reader τ β} (h : Simulates R r r')
    (hf : ∀ a, Simulates R (f a) (f' a)) : Simulates R (r >>= f) (r' >>= f') := by
  intro s t hst
  obtain ⟨hv, hs⟩ := h s t hst
  simp only [run_bind]
  rcases hr : r.run s with ⟨_ | a, s'⟩ <;> rcases hr' : r'.run t with ⟨_ | a', t'⟩ <;>
    simp only [hr, hr', reduceCtorEq, Option.some.injEq] at hv hs
  · exact ⟨rfl, hs⟩
  · subst hv
    exact hf a s' t' hs

theorem Simulates.ite {R : σ → τ → Prop} (p : Prop) [Decidable p] {r₁ r₂ : Reader σ α}
    {r₁' r₂' : Reader τ α} (h₁ : Simulates R r₁ r₁') (h₂ : Simulates R r₂ r₂') :
    Simulates R (if p then r₁ else r₂) (if p then r₁' else r₂') := by
  split
  · exact h₁
  · exact h₂

/-- On a string, the reader uses a prefix and does not look past it. -/
def Local (r : Reader (List UInt8) α) : Prop :=
  ∀ bs a rest, r.run bs = (some a, rest) →
    ∃ used, bs = used ++ rest ∧ ∀ tail, r.run (used ++ tail) = (some a, tail)

theorem Local.pure (a : α) : Local (Pure.pure a : Reader (List UInt8) α) := by
  intro bs b rest h
  simp only [run_pure, Prod.mk.injEq, Option.some.injEq] at h
  exact ⟨[], by simp [h.2], by simp [h.1]⟩

theorem Local.fail : Local (Reader.fail : Reader (List UInt8) α) := by
  intro bs b rest h
  simp at h

theorem Local.exact (n : Nat) : Local (Reader.exact n : Reader (List UInt8) (List UInt8)) := by
  intro bs a rest h
  by_cases hn : n ≤ bs.length
  · rw [run_exact_of_le hn] at h
    simp only [Prod.mk.injEq, Option.some.injEq] at h
    obtain ⟨rfl, rfl⟩ := h
    refine ⟨bs.take n, by simp, fun tail => ?_⟩
    simpa [Nat.min_eq_left hn] using run_exact_append (bs.take n) tail
  · simp [run_exact_of_lt (Nat.not_le.mp hn)] at h

theorem Local.bind {r : Reader (List UInt8) α} {f : α → Reader (List UInt8) β} (h : Local r)
    (hf : ∀ a, Local (f a)) : Local (r >>= f) := by
  intro bs b rest hb
  obtain ⟨a, mid, ha, hfa⟩ := run_bind_eq_some hb
  obtain ⟨used, rfl, hu⟩ := h bs a mid ha
  obtain ⟨used', rfl, hu'⟩ := hf a mid b rest hfa
  refine ⟨used ++ used', by simp, fun tail => ?_⟩
  rw [List.append_assoc, run_bind_some (hu _), hu']

theorem Local.ite (p : Prop) [Decidable p] {r₁ r₂ : Reader (List UInt8) α} (h₁ : Local r₁)
    (h₂ : Local r₂) : Local (if p then r₁ else r₂) := by
  split
  · exact h₁
  · exact h₂

end Reader
