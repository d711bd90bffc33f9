import Deskflow.HeldInput

/-! Entering the screen with a mask: when the modifier keys end up as it says. -/

namespace Deskflow

open SharedLines DeskflowClient

/-- The key code of each modifier; Meta and Super share one. -/
def modifierCodes : List (UInt32 × Int) :=
  [(kKeyModifierShift, KEYCODE_SHIFT_LEFT), (kKeyModifierControl, KEYCODE_CTRL_LEFT),
    (kKeyModifierAlt, KEYCODE_ALT_LEFT), (kKeyModifierMeta, KEYCODE_META_LEFT),
    (kKeyModifierSuper, KEYCODE_META_LEFT), (kKeyModifierAltGr, KEYCODE_ALT_RIGHT)]

def hasBit (mask bit : UInt32) : Bool := mask &&& bit != 0

/-- Every controlled key code is pressed exactly when the mask has the bit of
one of its modifiers. -/
def ModifiersAgree (mask : UInt32) (log : List Event) : Prop :=
  ∀ code ∈ modifierCodes.map Prod.snd, level (keyEvents log) code = true ↔
    ∃ bit, (bit, code) ∈ modifierCodes ∧ hasBit mask bit = true

/-- For a code of one modifier: where its recorded state is already the wanted
one, the code itself is as wanted. -/
def KeyReady (rs : List (UInt32 × Bool)) (keysym : UInt32) (code : Int) (want : Bool) : Prop :=
  level rs keysym = want → (Outstanding keyLine rs code ↔ want = true)

/-- For the code that Meta and Super share: Super, which is processed last, is
not released while Meta is wanted; where only Meta changes it is not released
while Super is wanted; where neither changes the code is as wanted. -/
def MetaReady (rs : List (UInt32 × Bool)) (wantMeta wantSuper : Bool) : Prop :=
  if level rs kKeySuperL ≠ wantSuper then wantMeta = true → wantSuper = true
  else if level rs kKeyMetaL ≠ wantMeta then wantSuper = true → wantMeta = true
  else (Outstanding keyLine rs KEYCODE_META_LEFT ↔ wantMeta = true ∨ wantSuper = true)

structure SyncReady (rs : List (UInt32 × Bool)) (mask : UInt32) : Prop where
  shift : KeyReady rs kKeyShiftL KEYCODE_SHIFT_LEFT (hasBit mask kKeyModifierShift)
  control : KeyReady rs kKeyControlL KEYCODE_CTRL_LEFT (hasBit mask kKeyModifierControl)
  alt : KeyReady rs kKeyAltL KEYCODE_ALT_LEFT (hasBit mask kKeyModifierAlt)
  super : MetaReady rs (hasBit mask kKeyModifierMeta) (hasBit mask kKeyModifierSuper)
  altGr : KeyReady rs kKeyAltR KEYCODE_ALT_RIGHT (hasBit mask kKeyModifierAltGr)

theorem keyLine_modifiers :
    keyLine kKeyShiftL = some KEYCODE_SHIFT_LEFT ∧ keyLine kKeyControlL = some KEYCODE_CTRL_LEFT ∧
      keyLine kKeyAltL = some KEYCODE_ALT_LEFT ∧ keyLine kKeyMetaL = some KEYCODE_META_LEFT ∧
      keyLine kKeySuperL = some KEYCODE_META_LEFT ∧ keyLine kKeyAltR = some KEYCODE_ALT_RIGHT := by
  decide

/-- The requests before a modifier, as those after it, are on other lines. -/
theorem take_other_lines (mask : UInt32) (n : Nat) {code : Int}
    (h : (kModBits.take n).all (fun bit => keyLine (maskModifierKeysym bit) ≠ some code) = true) :
    ∀ q ∈ (modifierRequests mask).take n, keyLine q.1 ≠ some code := by
  intro q hq
  rw [modifierRequests, ← List.map_take] at hq
  obtain ⟨bit, hbit, rfl⟩ := List.mem_map.mp hq
  exact List.all_iff_forall_prop.mp h bit hbit

theorem drop_other_lines (mask : UInt32) (n : Nat) {code : Int}
    (h : (kModBits.drop n).all (fun bit => keyLine (maskModifierKeysym bit) ≠ some code) = true) :
    ∀ q ∈ (modifierRequests mask).drop n, keyLine q.1 ≠ some code := by
  intro q hq
  rw [modifierRequests, ← List.map_drop] at hq
  obtain ⟨bit, hbit, rfl⟩ := List.mem_map.mp hq
  exact List.all_iff_forall_prop.mp h bit hbit

section OneLine

variable (rs : List (UInt32 × Bool)) {pre post : List (UInt32 × Bool)} {code : Int}

theorem level_events_of_one {i : UInt32} (b : Bool) (hi : keyLine i = some code)
    (hpre : ∀ q ∈ pre, keyLine q.1 ≠ some code) (hpost : ∀ q ∈ post, keyLine q.1 ≠ some code) :
    level (events keyLine (rs ++ (pre ++ (i, b) :: post))) code =
      if level rs i = b then level (events keyLine rs) code else b := by
  have hsplit : rs ++ (pre ++ (i, b) :: post) = ((rs ++ pre) ++ [(i, b)]) ++ post := by simp
  obtain ⟨hev, hlev⟩ := @append_of_other_lines _ _ _ _ _ rs pre code hpre
  rw [hsplit, (append_of_other_lines hpost).1, level_events_concat hi, hlev i hi, hev]

theorem level_events_of_two {i j : UInt32} (b d : Bool) (hi : keyLine i = some code)
    (hj : keyLine j = some code) (hne : j ≠ i) (hpre : ∀ q ∈ pre, keyLine q.1 ≠ some code)
    (hpost : ∀ q ∈ post, keyLine q.1 ≠ some code) :
    level (events keyLine (rs ++ (pre ++ (i, b) :: (j, d) :: post))) code =
      if level rs j = d then
        if level rs i = b then level (events keyLine rs) code else b
      else d := by
  have hsplit : rs ++ (pre ++ (i, b) :: (j, d) :: post) =
      (((rs ++ pre) ++ [(i, b)]) ++ [(j, d)]) ++ post := by
    simp
  obtain ⟨hev, hlev⟩ := @append_of_other_lines _ _ _ _ _ rs pre code hpre
  have hkeep : level ((rs ++ pre) ++ [(i, b)]) j = level rs j :=
    (level_concat_of_ne hne).trans (hlev j hj)
  rw [hsplit, (append_of_other_lines hpost).1, level_events_concat hj, hkeep,
    level_events_concat hi, hlev i hi, hev]

theorem keyReady_iff {keysym : UInt32} (want : Bool) (hi : keyLine keysym = some code)
    (hpre : ∀ q ∈ pre, keyLine q.1 ≠ some code) (hpost : ∀ q ∈ post, keyLine q.1 ≠ some code) :
    (level (events keyLine (rs ++ (pre ++ (keysym, want) :: post))) code = true ↔ want = true) ↔
      KeyReady rs keysym code want := by
  rw [level_events_of_one rs want hi hpre hpost, KeyReady, ← level_events_iff_outstanding]
  split_ifs with hsame
  · exact ⟨fun h _ => h, fun h => h hsame⟩
  · exact ⟨fun _ h => absurd h hsame, fun _ => Iff.rfl⟩

theorem metaReady_iff (wantMeta wantSuper : Bool)
    (hpre : ∀ q ∈ pre, keyLine q.1 ≠ some KEYCODE_META_LEFT)
    (hpost : ∀ q ∈ post, keyLine q.1 ≠ some KEYCODE_META_LEFT) :
    (level (events keyLine (rs ++ (pre ++
        (kKeyMetaL, wantMeta) :: (kKeySuperL, wantSuper) :: post))) KEYCODE_META_LEFT = true ↔
      wantMeta = true ∨ wantSuper = true) ↔ MetaReady rs wantMeta wantSuper := by
  obtain ⟨-, -, -, hmeta, hsuper, -⟩ := keyLine_modifiers
  have hne : kKeySuperL ≠ kKeyMetaL := by decide
  rw [level_events_of_two rs wantMeta wantSuper hmeta hsuper hne hpre hpost, MetaReady,
    ← level_events_iff_outstanding]
  by_cases hs : level rs kKeySuperL = wantSuper
  · rw [if_pos hs, if_neg (not_not.mpr hs)]
    by_cases hm : level rs kKeyMetaL = wantMeta
    · rw [if_pos hm, if_neg (not_not.mpr hm)]
    · rw [if_neg hm, if_pos hm]
      exact ⟨fun h hw => h.mpr (.inr hw), fun h => ⟨.inl, fun hw => hw.elim id h⟩⟩
  · rw [if_neg hs, if_pos hs]
    exact ⟨fun h hw => h.mpr (.inl hw), fun h => ⟨.inr, fun hw => hw.elim h id⟩⟩

end OneLine

theorem modifiersAgree_iff_levels (mask : UInt32) (log : List Event) :
    ModifiersAgree mask log ↔
      (level (keyEvents log) KEYCODE_SHIFT_LEFT = true ↔ hasBit mask kKeyModifierShift = true) ∧
      (level (keyEvents log) KEYCODE_CTRL_LEFT = true ↔ hasBit mask kKeyModifierControl = true) ∧
      (level (keyEvents log) KEYCODE_ALT_LEFT = true ↔ hasBit mask kKeyModifierAlt = true) ∧
      (level (keyEvents log) KEYCODE_META_LEFT = true ↔
        hasBit mask kKeyModifierMeta = true ∨ hasBit mask kKeyModifierSuper = true) ∧
      (level (keyEvents log) KEYCODE_ALT_RIGHT = true ↔ hasBit mask kKeyModifierAltGr = true) := by
  have hdistinct : [KEYCODE_SHIFT_LEFT, KEYCODE_CTRL_LEFT, KEYCODE_ALT_LEFT, KEYCODE_META_LEFT,
      KEYCODE_ALT_RIGHT].Nodup := by
    decide
  simp only [List.nodup_cons, List.mem_cons, List.not_mem_nil, or_false, not_or, ← ne_eq]
    at hdistinct
  obtain ⟨⟨hsc, hsa, hsm, hsg⟩, ⟨hca, hcm, hcg⟩, ⟨ham, hag⟩, hmg, -⟩ := hdistinct
  simp [ModifiersAgree, modifierCodes, or_and_right, exists_or, hsc, hsa, hsm, hsg, hca, hcm, hcg,
    ham, hag, hmg, hsc.symm, hsa.symm, hsm.symm, hsg.symm, hca.symm, hcm.symm, hcg.symm, ham.symm,
    hag.symm, hmg.symm]

theorem modifiersAgree_iff {rs : List (UInt32 × Bool)} {mask : UInt32} {log : List Event}
    (h : keyEvents log = events keyLine (rs ++ modifierRequests mask)) :
    ModifiersAgree mask log ↔ SyncReady rs mask := by
  obtain ⟨hshift, hcontrol, halt, -, -, haltGr⟩ := keyLine_modifiers
  have honShift := keyReady_iff rs (hasBit mask kKeyModifierShift) hshift
    (take_other_lines mask 0 (by decide)) (drop_other_lines mask 1 (by decide))
  have honControl := keyReady_iff rs (hasBit mask kKeyModifierControl) hcontrol
    (take_other_lines mask 1 (by decide)) (drop_other_lines mask 2 (by decide))
  have honAlt := keyReady_iff rs (hasBit mask kKeyModifierAlt) halt
    (take_other_lines mask 2 (by decide)) (drop_other_lines mask 3 (by decide))
  have honMeta := metaReady_iff rs (hasBit mask kKeyModifierMeta) (hasBit mask kKeyModifierSuper)
    (take_other_lines mask 3 (by decide)) (drop_other_lines mask 5 (by decide))
  have honAltGr := keyReady_iff rs (hasBit mask kKeyModifierAltGr) haltGr
    (take_other_lines mask 5 (by decide)) (drop_other_lines mask 6 (by decide))
  rw [modifiersAgree_iff_levels, h]
  constructor
  · rintro ⟨shift, control, alt, super, altGr⟩
    exact ⟨honShift.mp shift, honControl.mp control, honAlt.mp alt, honMeta.mp super,
      honAltGr.mp altGr⟩
  · intro ready
    exact ⟨honShift.mpr ready.shift, honControl.mpr ready.control, honAlt.mpr ready.alt,
      honMeta.mpr ready.super, honAltGr.mpr ready.altGr⟩

namespace DeskflowClient

/-- After `CINN` the modifier keys are as its mask says exactly when the state
before it was ready for the mask. -/
theorem modifiersAgree_after_enter_iff {c : DeskflowClient} (h : Life [] c) {pre : List Event}
    {x y mask : Int16} {seq : UInt32}
    (hpre : pre ++ [.handled (.cinn x y seq mask)] <+: c.world.log) :
    ModifiersAgree (u32 mask.toInt) (pre ++ [.handled (.cinn x y seq mask)]) ↔
      SyncReady (keyRequests (handledIn pre)) (u32 mask.toInt) := by
  obtain ⟨hkeys, -⟩ := tracks_at h (.inr ⟨_, rfl⟩) hpre
  rw [handledIn, List.filterMap_append, ← handledIn] at hkeys
  refine modifiersAgree_iff ?_
  rw [hkeys, keyRequests, List.flatMap_append]
  simp [Event.handledMessage, Message.keyRequests, keyRequests]

/-- Shift is held at the server and nothing was pressed before. -/
theorem modifiersAgree_shift :
    let c := session [.cinn 0 0 1 1]
    let n := c.world.log.idxOf (.handled (.cinn 0 0 1 1))
    ModifiersAgree 1 (c.world.log.take n ++ [.handled (.cinn 0 0 1 1)]) := by
  intro c n
  have hlife : Life [] c := life_session _
  have hpre : c.world.log.take n ++ [.handled (.cinn 0 0 1 1)] <+: c.world.log := by
    decide +kernel
  have hnone : keyRequests (handledIn (c.world.log.take n)) = [] := by
    decide +kernel
  refine (modifiersAgree_after_enter_iff hlife hpre).mpr ?_
  rw [hnone]
  refine ⟨fun h => absurd h (by decide), fun _ => ?_, fun _ => ?_, ?_, fun _ => ?_⟩
  · rw [← level_events_iff_outstanding]
    decide
  · rw [← level_events_iff_outstanding]
    decide
  · rw [MetaReady, ← level_events_iff_outstanding]
    decide
  · rw [← level_events_iff_outstanding]
    decide

/-- Entering with Meta and Super, then with Meta alone: the release of Super
takes the shared key up. -/
theorem modifiers_disagree_after_enter :
    ∃ c pre x y seq mask, Life [] c ∧
      pre ++ [.handled (.cinn x y seq mask)] <+: c.world.log ∧
      ¬ModifiersAgree (u32 mask.toInt) (pre ++ [.handled (.cinn x y seq mask)]) := by
  let c := session [.cinn 0 0 1 24, .cout, .cinn 0 0 2 8]
  let n := c.world.log.idxOf (.handled (.cinn 0 0 2 8))
  have hpre : c.world.log.take n ++ [.handled (.cinn 0 0 2 8)] <+: c.world.log := by
    decide +kernel
  have hup : level (keyEvents (c.world.log.take n ++ [.handled (.cinn 0 0 2 8)]))
      KEYCODE_META_LEFT = false := by
    decide +kernel
  refine ⟨c, c.world.log.take n, 0, 0, 2, 8, life_session _, hpre, fun hagree => ?_⟩
  have hwanted := (hagree KEYCODE_META_LEFT (by decide)).mpr
    ⟨kKeyModifierMeta, by decide, by decide⟩
  simp [hup] at hwanted

end DeskflowClient

end Deskflow
