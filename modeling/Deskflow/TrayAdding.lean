import Deskflow.StatusBar

/-! The tray until its item is in the status bar. -/

namespace Deskflow

/-- The icon that `loadIcons` makes of the state where no load fails. -/
def iconsOf (state : Int) : StatusBarIcon := ⟨⟨rawName state "white"⟩, ⟨rawName state "black"⟩⟩

theorem iconsOf_eq_iff {state state' : Int} :
    iconsOf state = iconsOf state' ↔ iconShapeName state = iconShapeName state' := by
  constructor
  · intro h
    have hname := congrArg String.toList (congrArg (fun icons => icons.white.rawName) h)
    simp only [iconsOf, rawName, String.toList_append, List.append_assoc,
      List.append_cancel_left_eq] at hname
    exact String.toList_inj.mp (List.append_cancel_right hname)
  · intro h
    rw [iconsOf, iconsOf, rawName, rawName, rawName, rawName, h]

namespace TrayAction

/-- No load and no call of the status bar fails. -/
def succeeds : TrayAction → Bool
  | .addLoaded pixelMap call => pixelMap && call
  | .updateLoaded pixelMap iconCall menuCall => pixelMap && iconCall && menuCall
  | _ => true

def updates : TrayAction → Bool
  | .updateState _ => true
  | _ => false

end TrayAction

/-- A load of which nothing has failed. -/
def IconLoad.Sound : IconLoad → Prop
  | .noContext _ => False
  | .white _ => True
  | .black state first => first = some ⟨rawName state "white"⟩

theorem IconLoad.Sound.resume {load : IconLoad} (h : load.Sound) :
    (∃ load', load.resume true = .inl load' ∧ load'.state = load.state ∧ load'.Sound) ∨
      load.resume true = .inr (some (iconsOf load.state)) := by
  cases load with
  | noContext state => exact h.elim
  | white state => exact .inl ⟨_, rfl, rfl, rfl⟩
  | black state first =>
    right
    obtain rfl : first = some ⟨rawName state "white"⟩ := h
    rfl

def AddCall.pending : AddCall → Bool
  | .loading _ => true
  | _ => false

namespace Tray

/-- No timer and no promise is pending. -/
def Settled (t : Tray) : Prop :=
  t.adding.pending = false ∧ t.debounceTimer = false ∧ t.updateChain = 0 ∧ t.updating = none

instance : DecidablePred Settled := fun _ => inferInstanceAs (Decidable (_ ∧ _))

/-- The item in the status bar is that of the state. -/
def Displays (state : Int) (t : Tray) : Prop :=
  ∃ item, t.bar = some item ∧ item.icons = iconsOf state ∧
    item.statusBarGroupMenu = buildMenu state ∧ item.hoverTips = stateHoverTips state

/-- The item has not been added; a call of `add()` under way loads the icon of `state`. -/
structure Unadded (state : Int) (t : Tray) : Prop where
  added : t.added = false
  debounceTimer : t.debounceTimer = false
  updateChain : t.updateChain = 0
  updating : t.updating = none
  loading : ∀ load, t.adding = .loading load →
    t.context = true ∧ load.state = state ∧ load.Sound

/-- The item is there as `add()` made it, with the icon of `first` and the rest of `second`. -/
structure Fresh (first second : Int) (t : Tray) : Prop where
  context : t.context = true
  added : t.added = true
  state : t.state = second
  adding : t.adding = .returned
  debounceTimer : t.debounceTimer = false
  updateChain : t.updateChain = 0
  updating : t.updating = none
  bar : ∃ item, t.bar = some item ∧ item.icons = iconsOf first ∧
    item.statusBarGroupMenu = buildMenu second ∧ item.hoverTips = stateHoverTips second

theorem Unadded.step {state : Int} {t : Tray} (h : Unadded state t) {a : TrayAction}
    (ha : a.succeeds = true) (hadd : a = .add → t.adding = .notCalled → t.state = state) :
    Unadded state (t.step a) ∨
      a = .addLoaded true true ∧ (∃ load, t.adding = .loading load) ∧
        Fresh state t.state (t.step a) := by
  cases a with
  | init =>
    left
    refine ⟨h.added, h.debounceTimer, h.updateChain, h.updating, ?_⟩
    intro load hload
    exact ⟨rfl, (h.loading load hload).2⟩
  | add =>
    left
    simp only [Tray.step, add]
    split
    · rename_i hcall
      by_cases hcontext : t.context = true
      · have hgo : ¬(t.added || !t.context) = true := by simp [h.added, hcontext]
        rw [if_neg hgo]
        refine ⟨h.added, h.debounceTimer, h.updateChain, h.updating, ?_⟩
        intro load hload
        obtain rfl : t.loadIcons = load := AddCall.loading.inj hload
        rw [loadIcons, if_pos hcontext]
        exact ⟨hcontext, hadd rfl hcall, trivial⟩
      · have hstop : (t.added || !t.context) = true := by simp [hcontext]
        rw [if_pos hstop]
        exact ⟨h.added, h.debounceTimer, h.updateChain, h.updating, by simp⟩
    · exact h
  | addLoaded pixelMap call =>
    obtain ⟨rfl, rfl⟩ := Bool.and_eq_true_iff.mp ha
    cases hadding : t.adding with
    | notCalled =>
      left
      simp only [Tray.step, addLoaded, hadding]
      exact h
    | returned =>
      left
      simp only [Tray.step, addLoaded, hadding]
      exact h
    | loading load =>
      obtain ⟨hcontext, rfl, hsound⟩ := h.loading load hadding
      rcases hsound.resume with ⟨load', hresume, hstate, hsound'⟩ | hresume
      · left
        simp only [Tray.step, addLoaded, hadding, hresume]
        refine ⟨h.added, h.debounceTimer, h.updateChain, h.updating, ?_⟩
        intro load'' hload''
        obtain rfl := AddCall.loading.inj hload''
        exact ⟨hcontext, hstate, hsound'⟩
      · right
        refine ⟨rfl, ⟨load, rfl⟩, ?_⟩
        simp only [Tray.step, addLoaded, hadding, hresume, if_true]
        exact ⟨hcontext, rfl, rfl, rfl, h.debounceTimer, h.updateChain, h.updating,
          ⟨_, rfl, rfl, rfl, rfl⟩⟩
  | updateState state' =>
    left
    have hskip : (!t.added || !t.context) = true := by simp [h.added]
    simp only [Tray.step, updateState, hskip, if_true]
    exact ⟨h.added, h.debounceTimer, h.updateChain, h.updating, h.loading⟩
  | debounced =>
    left
    simp only [Tray.step, debounced, h.debounceTimer]
    exact h
  | doUpdateState =>
    left
    simp only [Tray.step, doUpdateState, h.updateChain]
    exact h
  | updateLoaded pixelMap iconCall menuCall =>
    left
    simp only [Tray.step, updateLoaded, h.updating]
    exact h

theorem Unadded.stays {state : Int} {t : Tray} (h : Unadded state t) {a : TrayAction}
    (ha : a.succeeds = true) (hadd : a = .add → t.adding = .notCalled → t.state = state)
    (hnot : (t.step a).added = false) : Unadded state (t.step a) := by
  rcases h.step ha hadd with hkept | ⟨-, -, hfresh⟩
  · exact hkept
  · exact absurd (hnot.symm.trans hfresh.added) Bool.false_ne_true

theorem Unadded.adds {state : Int} {t : Tray} (h : Unadded state t) {a : TrayAction}
    (ha : a.succeeds = true) (hadd : a = .add → t.adding = .notCalled → t.state = state)
    (hadded : (t.step a).added = true) :
    a = .addLoaded true true ∧ (∃ load, t.adding = .loading load) ∧
      Fresh state t.state (t.step a) := by
  rcases h.step ha hadd with hkept | hadds
  · exact absurd (hkept.added.symm.trans hadded) Bool.false_ne_true
  · exact hadds

end Tray

end Deskflow
