import Mathlib.Data.List.Induction
import Mathlib.Logic.Function.Basic
import Deskflow.History

/-! Latches that drive shared lines. Each latch remembers its own level and
passes a request on only when the level changes; several may drive one line. -/

namespace SharedLines

variable {ι κ : Type}

def onLine (line : ι → Option κ) (r : ι × Bool) : Option (κ × Bool) :=
  (line r.1).map fun c => (c, r.2)

section Levels

variable [DecidableEq ι]

/-- The level last set, low where none was. -/
def level (rs : List (ι × Bool)) : ι → Bool :=
  rs.foldl (fun s r => Function.update s r.1 r.2) fun _ => false

/-- The requests that change the level of their latch, from the levels `s` on. -/
def changesFrom (s : ι → Bool) : List (ι × Bool) → List (ι × Bool)
  | [] => []
  | r :: rs =>
    if s r.1 = r.2 then changesFrom s rs
    else r :: changesFrom (Function.update s r.1 r.2) rs

def changes (rs : List (ι × Bool)) : List (ι × Bool) := changesFrom (fun _ => false) rs

/-- What the lines see. -/
def events (line : ι → Option κ) (rs : List (ι × Bool)) : List (κ × Bool) :=
  (changes rs).filterMap (onLine line)

theorem level_nil (i : ι) : level [] i = false := rfl

theorem level_concat (rs : List (ι × Bool)) (r : ι × Bool) :
    level (rs ++ [r]) = Function.update (level rs) r.1 r.2 := by
  simp [level]

theorem level_concat_apply (rs : List (ι × Bool)) (r : ι × Bool) (i : ι) :
    level (rs ++ [r]) i = if i = r.1 then r.2 else level rs i := by
  rw [level_concat, Function.update_apply]

theorem level_concat_of_ne {rs : List (ι × Bool)} {r : ι × Bool} {i : ι} (h : i ≠ r.1) :
    level (rs ++ [r]) i = level rs i := by
  rw [level_concat_apply, if_neg h]

theorem mem_of_level {rs : List (ι × Bool)} {i : ι} (h : level rs i = true) : (i, true) ∈ rs := by
  induction rs using List.reverseRecOn with
  | nil => simp [level_nil] at h
  | append_singleton rs r ih =>
    rw [level_concat_apply] at h
    rw [List.mem_append]
    split_ifs at h with hi
    · exact .inr (by rw [hi, ← h]; simp)
    · exact .inl (ih h)

theorem changesFrom_concat (s : ι → Bool) (rs : List (ι × Bool)) (r : ι × Bool) :
    changesFrom s (rs ++ [r]) = changesFrom s rs ++
      if rs.foldl (fun s r => Function.update s r.1 r.2) s r.1 = r.2 then [] else [r] := by
  induction rs generalizing s with
  | nil =>
    by_cases hr : s r.1 = r.2 <;> simp [changesFrom, hr]
  | cons q rs ih =>
    rw [List.cons_append, changesFrom, changesFrom, List.foldl_cons]
    by_cases hq : s q.1 = q.2
    · have hs : Function.update s q.1 q.2 = s := by rw [← hq, Function.update_eq_self]
      rw [if_pos hq, if_pos hq, hs, ih]
    · rw [if_neg hq, if_neg hq, ih, List.cons_append]

theorem changes_concat (rs : List (ι × Bool)) (r : ι × Bool) :
    changes (rs ++ [r]) = changes rs ++ if level rs r.1 = r.2 then [] else [r] :=
  changesFrom_concat _ rs r

theorem events_concat (line : ι → Option κ) (rs : List (ι × Bool)) (r : ι × Bool) :
    events line (rs ++ [r]) =
      events line rs ++ if level rs r.1 = r.2 then [] else (onLine line r).toList := by
  rw [events, changes_concat, List.filterMap_append, ← events]
  split_ifs
  · rfl
  · cases hr : onLine line r <;> simp [hr]

theorem append_of_level {rs qs : List (ι × Bool)} (h : ∀ q ∈ qs, level rs q.1 = q.2) :
    level (rs ++ qs) = level rs ∧ changes (rs ++ qs) = changes rs := by
  induction qs using List.reverseRecOn with
  | nil => simp
  | append_singleton qs q ih =>
    obtain ⟨hl, hc⟩ := ih fun q hmem => h q (by simp [hmem])
    have hq := h q (by simp)
    rw [← List.append_assoc, level_concat, changes_concat, hl, hc, if_pos hq, List.append_nil,
      ← hq, Function.update_eq_self]
    exact ⟨rfl, rfl⟩

/-- Histories with the same levels and changes go on alike. -/
theorem append_congr {rs rs' : List (ι × Bool)} (hl : level rs = level rs')
    (hc : changes rs = changes rs') (qs : List (ι × Bool)) :
    level (rs ++ qs) = level (rs' ++ qs) ∧ changes (rs ++ qs) = changes (rs' ++ qs) := by
  induction qs using List.reverseRecOn with
  | nil => simp [hl, hc]
  | append_singleton qs q ih =>
    obtain ⟨hlq, hcq⟩ := ih
    simp only [← List.append_assoc, level_concat, changes_concat, hlq, hcq, and_self]

/-- No latch is set while another one of the same line is. -/
def Exclusive (line : ι → Option κ) (rs : List (ι × Bool)) : Prop :=
  ∀ pre i post, rs = pre ++ (i, true) :: post → level pre i = false →
    ∀ j c, line i = some c → line j = some c → level pre j = false

theorem exclusive_concat {line : ι → Option κ} {rs : List (ι × Bool)} {r : ι × Bool} :
    Exclusive line (rs ++ [r]) ↔ Exclusive line rs ∧
      (r.2 = true → level rs r.1 = false →
        ∀ j c, line r.1 = some c → line j = some c → level rs j = false) := by
  constructor
  · intro h
    refine ⟨fun pre i post hrs => h pre i (post ++ [r]) (by rw [hrs]; simp), fun hr => ?_⟩
    exact h rs r.1 [] (by rw [← hr])
  · rintro ⟨h, hr⟩ pre i post hsplit hlow j c hi hj
    rcases History.split_concat hsplit with ⟨rfl, rfl, -⟩ | ⟨mid, -, hrs⟩
    · exact hr rfl hlow j c hi hj
    · exact h pre i mid hrs hlow j c hi hj

theorem exclusive_append_releases {line : ι → Option κ} {rs qs : List (ι × Bool)}
    (h : ∀ q ∈ qs, q.2 = false) : Exclusive line (rs ++ qs) ↔ Exclusive line rs := by
  induction qs using List.reverseRecOn with
  | nil => rw [List.append_nil]
  | append_singleton qs q ih =>
    obtain ⟨hqs, hq⟩ := List.forall_mem_append.mp h
    rw [← List.append_assoc, exclusive_concat, ih hqs]
    exact and_iff_left fun hpress => by simp [hq q] at hpress

end Levels

/-- Every event reverses the level of its line. -/
def Alternating [DecidableEq κ] (es : List (κ × Bool)) : Prop :=
  ∀ pre c b post, es = pre ++ (c, b) :: post → b = !level pre c

theorem alternating_concat [DecidableEq κ] {es : List (κ × Bool)} {e : κ × Bool} :
    Alternating (es ++ [e]) ↔ Alternating es ∧ e.2 = !level es e.1 := by
  constructor
  · intro h
    exact ⟨fun pre c b post hes => h pre c b (post ++ [e]) (by rw [hes]; simp),
      h es e.1 e.2 [] rfl⟩
  · rintro ⟨h, he⟩ pre c b post hsplit
    rcases History.split_concat hsplit with ⟨rfl, rfl, -⟩ | ⟨mid, -, hes⟩
    · exact he
    · exact h pre c b mid hes

section Events

variable [DecidableEq ι] [DecidableEq κ]

theorem level_events_concat {line : ι → Option κ} {rs : List (ι × Bool)} {r : ι × Bool} {c : κ}
    (hc : line r.1 = some c) :
    level (events line (rs ++ [r])) c =
      if level rs r.1 = r.2 then level (events line rs) c else r.2 := by
  rw [events_concat]
  split_ifs
  · rw [List.append_nil]
  · simp only [onLine, hc, Option.map_some, Option.toList_some, level_concat_apply, if_true]

theorem level_events_concat_of_ne {line : ι → Option κ} {rs : List (ι × Bool)} {r : ι × Bool}
    {c : κ} (hc : line r.1 ≠ some c) :
    level (events line (rs ++ [r])) c = level (events line rs) c := by
  rw [events_concat]
  split_ifs
  · rw [List.append_nil]
  · rw [onLine]
    cases hd : line r.1 with
    | none => simp
    | some d =>
      have hcd : c ≠ d := fun he => hc (by rw [hd, he])
      simp only [Option.map_some, Option.toList_some, level_concat_apply, if_neg hcd]

/-- Requests for other lines leave a line and its latches alone. -/
theorem append_of_other_lines {line : ι → Option κ} {rs qs : List (ι × Bool)} {c : κ}
    (h : ∀ q ∈ qs, line q.1 ≠ some c) :
    level (events line (rs ++ qs)) c = level (events line rs) c ∧
      ∀ i, line i = some c → level (rs ++ qs) i = level rs i := by
  induction qs using List.reverseRecOn with
  | nil => simp
  | append_singleton qs q ih =>
    obtain ⟨hev, hlev⟩ := ih fun q hmem => h q (by simp [hmem])
    have hq := h q (by simp)
    rw [← List.append_assoc]
    refine ⟨(level_events_concat_of_ne hq).trans hev, fun i hi => ?_⟩
    rw [level_concat_of_ne fun he => hq (by rw [← he, hi]), hlev i hi]

theorem exists_level_of_level_events {line : ι → Option κ} {rs : List (ι × Bool)} {c : κ}
    (h : level (events line rs) c = true) : ∃ i, line i = some c ∧ level rs i = true := by
  induction rs using List.reverseRecOn with
  | nil => simp [events, changes, changesFrom, level_nil] at h
  | append_singleton rs r ih =>
    by_cases hc : line r.1 = some c
    · rw [level_events_concat hc] at h
      split_ifs at h with hr
      · obtain ⟨i, hi, hlev⟩ := ih h
        exact ⟨i, hi, by rw [level_concat, ← hr, Function.update_eq_self, hlev]⟩
      · exact ⟨r.1, hc, by rw [level_concat_apply, if_pos rfl, h]⟩
    · rw [level_events_concat_of_ne hc] at h
      obtain ⟨i, hi, hlev⟩ := ih h
      exact ⟨i, hi, by rw [level_concat_of_ne fun he => hc (by rw [← he, hi]), hlev]⟩

/-- Where latches of a line exclude each other, the line shows the one that is set. -/
structure Faithful (line : ι → Option κ) (rs : List (ι × Bool)) : Prop where
  level_events : ∀ i c, line i = some c → level rs i = true → level (events line rs) c = true
  unique : ∀ i j c, line i = some c → line j = some c → level rs i = true → level rs j = true →
    i = j

theorem faithful_of_exclusive {line : ι → Option κ} {rs : List (ι × Bool)}
    (h : Exclusive line rs) : Faithful line rs := by
  induction rs using List.reverseRecOn with
  | nil => exact ⟨by simp [level_nil], by simp [level_nil]⟩
  | append_singleton rs r ih =>
    obtain ⟨hrs, hr⟩ := exclusive_concat.mp h
    obtain ⟨hlevel, hunique⟩ := ih hrs
    by_cases hsame : level rs r.1 = r.2
    · have hl : level (rs ++ [r]) = level rs := by
        rw [level_concat, ← hsame, Function.update_eq_self]
      have he : events line (rs ++ [r]) = events line rs := by
        rw [events_concat, if_pos hsame, List.append_nil]
      exact ⟨by rwa [hl, he], by rwa [hl]⟩
    · have hnew (c : κ) (hc : line r.1 = some c) :
          events line (rs ++ [r]) = events line rs ++ [(c, r.2)] := by
        rw [events_concat, if_neg hsame, onLine, hc]
        rfl
      have hold (i : ι) (c : κ) (hi : line i = some c) (hc : line r.1 ≠ some c) :
          level (rs ++ [r]) i = level rs i ∧
            level (events line (rs ++ [r])) c = level (events line rs) c := by
        exact ⟨level_concat_of_ne fun he => hc (by rw [← he, hi]), level_events_concat_of_ne hc⟩
      constructor
      · intro i c hi hlev
        by_cases hc : line r.1 = some c
        · rw [hnew c hc, level_concat_apply, if_pos rfl]
          rw [level_concat_apply] at hlev
          split_ifs at hlev with hir
          · exact hlev
          · by_contra hfalse
            rw [Bool.not_eq_true] at hfalse
            -- `r` clears a latch that was set, so `i` cannot be set beside it
            rw [hfalse, Bool.not_eq_false] at hsame
            exact hir (hunique i r.1 c hi hc hlev hsame)
        · obtain ⟨hl, he⟩ := hold i c hi hc
          rw [he]
          exact hlevel i c hi (hl ▸ hlev)
      · intro i j c hi hj hli hlj
        by_cases hc : line r.1 = some c
        · have hexcl (k : ι) (hk : line k = some c) (hlk : level (rs ++ [r]) k = true) :
              k = r.1 ∨ r.2 = false := by
            by_cases hkr : k = r.1
            · exact .inl hkr
            · rw [level_concat_apply, if_neg hkr] at hlk
              refine .inr ?_
              by_contra htrue
              rw [Bool.not_eq_false] at htrue
              rw [htrue, Bool.not_eq_true] at hsame
              simp [hr htrue hsame k c hc hk] at hlk
          rcases hexcl i hi hli with hir | hr2
          · rcases hexcl j hj hlj with hjr | hr2
            · rw [hir, hjr]
            · simp [level_concat_apply, hir, hr2] at hli
          · have hmono (k : ι) (hlk : level (rs ++ [r]) k = true) : level rs k = true := by
              rw [level_concat_apply] at hlk
              split_ifs at hlk with hkr
              · simp [hr2] at hlk
              · exact hlk
            exact hunique i j c hi hj (hmono i hli) (hmono j hlj)
        · exact hunique i j c hi hj ((hold i c hi hc).1 ▸ hli) ((hold j c hj hc).1 ▸ hlj)

theorem alternating_events_iff {line : ι → Option κ} {rs : List (ι × Bool)} :
    Alternating (events line rs) ↔ Exclusive line rs := by
  induction rs using List.reverseRecOn with
  | nil =>
    refine iff_of_true (fun pre c b post h => ?_) fun pre i post h => ?_
    · simp [events, changes, changesFrom] at h
    · simp at h
  | append_singleton rs r ih =>
    rw [events_concat, exclusive_concat, ← ih]
    by_cases hsame : level rs r.1 = r.2
    · rw [if_pos hsame, List.append_nil]
      exact ⟨fun h => ⟨h, fun ht hf => by simp [hsame, ht] at hf⟩, fun h => h.1⟩
    · rw [if_neg hsame, onLine]
      cases hc : line r.1 with
      | none => simp
      | some c =>
        simp only [Option.map_some, Option.toList_some, alternating_concat,
          Option.some.injEq, forall_eq']
        refine and_congr_right fun halt => ?_
        obtain ⟨hlevel, hunique⟩ := faithful_of_exclusive (ih.mp halt)
        cases hr : r.2 with
        | false =>
          rw [hr, Bool.not_eq_false] at hsame
          simp [hlevel r.1 c hc hsame]
        | true =>
          rw [hr, Bool.not_eq_true] at hsame
          simp only [forall_const, hsame]
          constructor
          · intro hlow j hj
            by_contra hhigh
            rw [Bool.not_eq_false] at hhigh
            simp [hlevel j c hj hhigh] at hlow
          · intro hnone
            by_contra hhigh
            obtain ⟨j, hj, hlev⟩ := exists_level_of_level_events (c := c) (by simpa using hhigh)
            simp [hnone j hj] at hlev

end Events

/-- A change to high on the line with no later change to low on it. -/
def Outstanding [DecidableEq ι] (line : ι → Option κ) (rs : List (ι × Bool)) (c : κ) : Prop :=
  ∃ pre i post, changes rs = pre ++ (i, true) :: post ∧ line i = some c ∧
    ∀ j, line j = some c → (j, false) ∉ post

theorem level_filterMap_onLine [DecidableEq κ] {line : ι → Option κ} {cs : List (ι × Bool)}
    {c : κ} :
    level (cs.filterMap (onLine line)) c = true ↔
      ∃ pre i post, cs = pre ++ (i, true) :: post ∧ line i = some c ∧
        ∀ j, line j = some c → (j, false) ∉ post := by
  induction cs using List.reverseRecOn with
  | nil => simp [level_nil]
  | append_singleton cs r ih =>
    have hone : [r].filterMap (onLine line) = (onLine line r).toList := by
      cases hr : onLine line r <;> simp [hr]
    rw [List.filterMap_append, hone]
    by_cases hc : line r.1 = some c
    · simp only [onLine, hc, Option.map_some, Option.toList_some, level_concat_apply, if_true]
      constructor
      · intro hr
        exact ⟨cs, r.1, [], by rw [← hr], hc, by simp⟩
      · rintro ⟨pre, i, post, hsplit, -, hpost⟩
        rcases History.split_concat hsplit with ⟨-, rfl, -⟩ | ⟨mid, rfl, -⟩
        · rfl
        · by_contra hlow
          rw [Bool.not_eq_true] at hlow
          exact hpost r.1 hc (by rw [← hlow]; simp)
    · have hkeep : level (cs.filterMap (onLine line) ++ (onLine line r).toList) c =
          level (cs.filterMap (onLine line)) c := by
        rw [onLine]
        cases hd : line r.1 with
        | none => simp
        | some d =>
          have hcd : c ≠ d := fun he => hc (by rw [hd, he])
          simp only [Option.map_some, Option.toList_some, level_concat_apply, if_neg hcd]
      rw [hkeep, ih]
      constructor
      · rintro ⟨pre, i, post, rfl, hi, hpost⟩
        refine ⟨pre, i, post ++ [r], by simp, hi, fun j hj hmem => ?_⟩
        rcases List.mem_append.mp hmem with hmem | hmem
        · exact hpost j hj hmem
        · rw [List.mem_singleton] at hmem
          exact hc (by rw [← hmem, hj])
      · rintro ⟨pre, i, post, hsplit, hi, hpost⟩
        rcases History.split_concat hsplit with ⟨-, rfl, -⟩ | ⟨mid, rfl, hcs⟩
        · exact absurd hi hc
        · exact ⟨pre, i, mid, hcs, hi, fun j hj hmem => hpost j hj (by simp [hmem])⟩

theorem level_events_iff_outstanding [DecidableEq ι] [DecidableEq κ] {line : ι → Option κ}
    {rs : List (ι × Bool)} {c : κ} :
    level (events line rs) c = true ↔ Outstanding line rs c :=
  level_filterMap_onLine

end SharedLines
