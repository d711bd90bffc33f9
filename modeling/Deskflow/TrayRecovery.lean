import Deskflow.TrayConvergence

/-! The tray where pictures cannot be loaded and calls of the status bar fail. It shows
nothing that was not asked for, and an update that succeeds makes up for those that failed. -/

namespace Deskflow

namespace IconLoad

/-- A load of which some pictures may have failed. -/
def Faithful : IconLoad → Prop
  | .noContext _ => True
  | .white _ => True
  | .black state first => ∀ pixelMap, first = some pixelMap → pixelMap = ⟨rawName state "white"⟩

theorem Faithful.resume {load : IconLoad} (h : load.Faithful) (ok : Bool) :
    (∃ load', load.resume ok = .inl load' ∧ load'.state = load.state ∧ load'.Faithful) ∨
      load.resume ok = .inr none ∨ load.resume ok = .inr (some (iconsOf load.state)) := by
  cases load with
  | noContext state => exact .inr (.inl rfl)
  | white state =>
    left
    refine ⟨_, rfl, rfl, fun pixelMap hfirst => ?_⟩
    cases ok with
    | true => exact (Option.some.inj hfirst).symm
    | false => cases hfirst
  | black state first =>
    right
    cases first with
    | none => exact .inl rfl
    | some pixelMap =>
      obtain rfl := h pixelMap rfl
      cases ok with
      | true => exact .inr rfl
      | false => exact .inl rfl

theorem Sound.faithful {load : IconLoad} (h : load.Sound) : load.Faithful := by
  cases load with
  | noContext state => trivial
  | white state => trivial
  | black state first =>
    intro pixelMap hfirst
    exact Option.some.inj (hfirst.symm.trans h)

end IconLoad

namespace Tray

/-- Icon, menu and tips of an item are each those of a state asked for. -/
structure ShowsAsked (asked : Int → Prop) (item : StatusBarItem) : Prop where
  icons : ∃ state, asked state ∧ item.icons = iconsOf state
  menu : ∃ state, asked state ∧ item.statusBarGroupMenu = buildMenu state
  tips : ∃ state, asked state ∧ item.hoverTips = stateHoverTips state

/-- A tray all of whose states were asked for. -/
structure Asked (asked : Int → Prop) (t : Tray) : Prop where
  state : asked t.state
  adding : ∀ load, t.adding = .loading load →
    load.Faithful ∧ asked load.state ∧ t.context = true ∧ t.added = false
  updating : ∀ load, t.updating = some load → load.Faithful ∧ asked load.state
  bar : ∀ item, t.bar = some item → ShowsAsked asked item
  added : t.added = true → t.context = true ∧ t.bar ≠ none

namespace Asked

variable {asked : Int → Prop} {t : Tray}

theorem loadIcons (h : Asked asked t) : t.loadIcons.Faithful ∧ asked t.loadIcons.state := by
  unfold Tray.loadIcons
  split_ifs
  · exact ⟨trivial, h.state⟩
  · exact ⟨trivial, h.state⟩

theorem addCall (h : Asked asked t) : Asked asked t.add := by
  unfold Tray.add
  split
  · split_ifs with hstay
    · exact { h with adding := by simp }
    · simp only [Bool.or_eq_true, Bool.not_eq_true', not_or, Bool.not_eq_true,
        Bool.not_eq_false] at hstay
      refine { h with adding := ?_ }
      intro load hload
      obtain rfl := AddCall.loading.inj hload
      exact ⟨h.loadIcons.1, h.loadIcons.2, hstay.2, hstay.1⟩
  · exact h

theorem addLoaded (h : Asked asked t) (pixelMap call : Bool) :
    Asked asked (t.addLoaded pixelMap call) := by
  have hreturned : Asked asked { t with adding := .returned } := { h with adding := by simp }
  cases hadding : t.adding with
  | notCalled =>
    simp only [Tray.addLoaded, hadding]
    exact h
  | returned =>
    simp only [Tray.addLoaded, hadding]
    exact h
  | loading load =>
    obtain ⟨hfaithful, hasked, hcontext, hnot⟩ := h.adding load hadding
    rcases hfaithful.resume pixelMap with ⟨load', hresume, hstate, hfaithful'⟩ | hresume | hresume
    · simp only [Tray.addLoaded, hadding, hresume]
      refine { h with adding := ?_ }
      intro load'' hload''
      obtain rfl := AddCall.loading.inj hload''
      exact ⟨hfaithful', hstate ▸ hasked, hcontext, hnot⟩
    · simp only [Tray.addLoaded, hadding, hresume]
      exact hreturned
    · simp only [Tray.addLoaded, hadding, hresume]
      split_ifs
      · refine ⟨h.state, by simp, h.updating, ?_, fun _ => ⟨hcontext, by simp⟩⟩
        intro item hitem
        obtain rfl := Option.some.inj hitem
        exact ⟨⟨_, hasked, rfl⟩, ⟨_, h.state, rfl⟩, ⟨_, h.state, rfl⟩⟩
      · exact hreturned

theorem updateLoaded (h : Asked asked t) (pixelMap iconCall menuCall : Bool) :
    Asked asked (t.updateLoaded pixelMap iconCall menuCall) := by
  have hidle : Asked asked { t with updating := none } := { h with updating := by simp }
  cases hupdating : t.updating with
  | none =>
    simp only [Tray.updateLoaded, hupdating]
    exact h
  | some load =>
    obtain ⟨hfaithful, hasked⟩ := h.updating load hupdating
    have hshown (icons : Option StatusBarIcon)
        (hicons : icons = none ∨ icons = some (iconsOf load.state)) :
        Asked asked { t with
          updating := none
          bar := t.bar.map fun item =>
            { item with
              icons := if iconCall then icons.getD item.icons else item.icons
              statusBarGroupMenu :=
                if menuCall then buildMenu load.state else item.statusBarGroupMenu } } := by
      refine { hidle with bar := ?_, added := ?_ }
      · intro item hitem
        obtain ⟨old, hold, rfl⟩ := Option.map_eq_some_iff.mp hitem
        obtain ⟨hold₁, hold₂, hold₃⟩ := h.bar old hold
        refine ⟨?_, ?_, hold₃⟩
        · dsimp only
          split_ifs
          · rcases hicons with rfl | rfl
            · exact hold₁
            · exact ⟨_, hasked, rfl⟩
          · exact hold₁
        · dsimp only
          split_ifs
          · exact ⟨_, hasked, rfl⟩
          · exact hold₂
      · intro hadded
        exact ⟨(h.added hadded).1, by simpa using (h.added hadded).2⟩
    rcases hfaithful.resume pixelMap with ⟨load', hresume, hstate, hfaithful'⟩ | hresume | hresume
    · simp only [Tray.updateLoaded, hupdating, hresume]
      refine { h with updating := ?_ }
      intro load'' hload''
      obtain rfl := Option.some.inj hload''
      exact ⟨hfaithful', hstate ▸ hasked⟩
    · simp only [Tray.updateLoaded, hupdating, hresume]
      by_cases hsame : load.state = t.state
      · rw [if_neg (not_not_intro hsame)]
        exact hshown none (.inl rfl)
      · rw [if_pos hsame]
        exact hidle
    · simp only [Tray.updateLoaded, hupdating, hresume]
      by_cases hsame : load.state = t.state
      · rw [if_neg (not_not_intro hsame)]
        exact hshown _ (.inr rfl)
      · rw [if_pos hsame]
        exact hidle

theorem step (h : Asked asked t) {a : TrayAction}
    (ha : ∀ state, a = .updateState state → asked state) : Asked asked (t.step a) := by
  cases a with
  | init =>
    refine { h with adding := fun load hload => ?_, added := fun hadded => ?_ }
    · obtain ⟨hfaithful, hasked, -, hnot⟩ := h.adding load hload
      exact ⟨hfaithful, hasked, rfl, hnot⟩
    · exact ⟨rfl, (h.added hadded).2⟩
  | add => exact h.addCall
  | addLoaded pixelMap call => exact h.addLoaded pixelMap call
  | updateState state =>
    simp only [Tray.step, Tray.updateState]
    split_ifs
    · exact { h with state := ha state rfl }
    · exact { h with state := ha state rfl }
  | debounced =>
    simp only [Tray.step, Tray.debounced]
    split_ifs
    · exact { h with }
    · exact h
  | doUpdateState =>
    simp only [Tray.step, Tray.doUpdateState]
    split
    · refine { h with updating := ?_ }
      intro load hload
      obtain rfl := Option.some.inj hload
      exact h.loadIcons
    · exact h
  | updateLoaded pixelMap iconCall menuCall => exact h.updateLoaded pixelMap iconCall menuCall

end Asked

def askedIn (actions : List TrayAction) (state : Int) : Prop :=
  state = ConnState.disconnected.code ∨ .updateState state ∈ actions

theorem asked_run {asked : Int → Prop} {t : Tray} (h : Asked asked t) {actions : List TrayAction}
    (ha : ∀ state, .updateState state ∈ actions → asked state) : Asked asked (t.run actions) := by
  induction actions using List.reverseRecOn with
  | nil => exact h
  | append_singleton actions a ih =>
    rw [run_concat]
    refine (ih fun state hmem => ha state (List.mem_append_left _ hmem)).step fun state hstate => ?_
    exact ha state (by simp [hstate])

theorem asked_initial {asked : Int → Prop} (h : asked ConnState.disconnected.code) :
    Asked asked {} := ⟨h, by simp, by simp, by simp, by simp⟩

/-- Whatever fails, icon, menu and tips of the item are each those of `DISCONNECTED` or of a
state that `updateState` was called with. -/
theorem run_shows (actions : List TrayAction) :
    ∀ item, (run actions {}).bar = some item → ShowsAsked (askedIn actions) item :=
  (asked_run (asked_initial (.inl rfl)) fun _ => .inr).bar

/-- The new icon cannot be loaded, and the menu is updated without it. -/
theorem run_shows_partly :
    let actions : List TrayAction := [.init, .add, .addLoaded true true, .addLoaded true true,
      .updateState 1, .debounced, .doUpdateState, .updateLoaded false true true,
      .updateLoaded true true true]
    ∃ item, (run actions {}).bar = some item ∧ ShowsAsked (askedIn actions) item := by
  intro actions
  have hthere : (run actions {}).bar.isSome = true := by decide +kernel
  obtain ⟨item, hitem⟩ := Option.isSome_iff_exists.mp hthere
  exact ⟨item, hitem, run_shows actions item hitem⟩

/-- An update to the present state is still to come, and its pictures have been loaded so far. -/
def Awaited (t : Tray) : Prop :=
  t.debounceTimer = true ∨ 0 < t.updateChain ∨
    ∃ load, t.updating = some load ∧ load.state = t.state ∧ load.Sound

/-- The item is there, and shows the present state or is going to. -/
structure Recovering (t : Tray) : Prop where
  context : t.context = true
  added : t.added = true
  adding : ∀ load, t.adding ≠ .loading load
  faithful : ∀ load, t.updating = some load → load.Faithful
  bar : ∃ item, t.bar = some item ∧
    (t.Awaited ∨ item.icons = iconsOf t.state ∧ item.statusBarGroupMenu = buildMenu t.state)

namespace Recovering

variable {t : Tray}

theorem of_updateState {asked : Int → Prop} (h : Asked asked t) (hadded : t.added = true)
    (state : Int) : Recovering (t.updateState state) := by
  obtain ⟨hcontext, hbar⟩ := h.added hadded
  have hdue : ¬(!t.added || !t.context) = true := by simp [hadded, hcontext]
  obtain ⟨item, hitem⟩ := Option.ne_none_iff_exists'.mp hbar
  rw [updateState, if_neg hdue]
  refine ⟨hcontext, hadded, fun load hload => ?_, fun load hload => (h.updating load hload).1,
    item, hitem, .inl (.inl rfl)⟩
  exact absurd (hadded.symm.trans (h.adding load hload).2.2.2) (by simp)

theorem updateLoaded (h : Recovering t) : Recovering (t.updateLoaded true true true) := by
  obtain ⟨item, hbar, hshows⟩ := h.bar
  cases hupdating : t.updating with
  | none =>
    simp only [Tray.updateLoaded, hupdating]
    exact h
  | some load =>
    have hlate (hawaited : t.Awaited) (hnot : ¬(load.state = t.state ∧ load.Sound)) :
        t.debounceTimer = true ∨ 0 < t.updateChain := by
      rcases hawaited with htimer | hchain | ⟨load', hload', hsame, hsound⟩
      · exact .inl htimer
      · exact .inr hchain
      · obtain rfl := Option.some.inj (hupdating.symm.trans hload')
        exact absurd ⟨hsame, hsound⟩ hnot
    have hafter {t' : Tray} (htimer : t'.debounceTimer = t.debounceTimer)
        (hchain : t'.updateChain = t.updateChain)
        (hearlier : t.debounceTimer = true ∨ 0 < t.updateChain) : t'.Awaited := by
      rcases hearlier with hset | hmore
      · exact .inl (htimer.trans hset)
      · exact .inr (.inl (hchain ▸ hmore))
    rcases (h.faithful load hupdating).resume true with
      ⟨load', hresume, hstate, hfaithful⟩ | hresume | hresume
    · simp only [Tray.updateLoaded, hupdating, hresume]
      refine ⟨h.context, h.added, h.adding, ?_, item, hbar, hshows.imp_left fun hawaited => ?_⟩
      · intro load'' hload''
        obtain rfl := Option.some.inj hload''
        exact hfaithful
      · by_cases hsound : load.state = t.state ∧ load.Sound
        · right
          right
          refine ⟨load', rfl, hstate.trans hsound.1, ?_⟩
          rcases hsound.2.resume with ⟨load'', hagain, -, hsound'⟩ | hdone
          · obtain rfl := Sum.inl.inj (hresume.symm.trans hagain)
            exact hsound'
          · exact absurd (hresume.symm.trans hdone) (by simp)
        · exact hafter rfl rfl (hlate hawaited hsound)
    · have hunsound : ¬load.Sound := by
        intro hsound
        rcases hsound.resume with ⟨load', hagain, -, -⟩ | hdone
        · exact absurd (hresume.symm.trans hagain) (by simp)
        · exact absurd (hresume.symm.trans hdone) (by simp)
      simp only [Tray.updateLoaded, hupdating, hresume]
      by_cases hsame : load.state = t.state
      · rw [if_neg (not_not_intro hsame), hbar]
        refine ⟨h.context, h.added, h.adding, by simp, _, rfl, ?_⟩
        rcases hshows with hawaited | ⟨hicons, -⟩
        · exact .inl (hafter rfl rfl (hlate hawaited fun hboth => hunsound hboth.2))
        · exact .inr ⟨hicons, congrArg buildMenu hsame⟩
      · rw [if_pos hsame]
        refine ⟨h.context, h.added, h.adding, by simp, item, hbar, hshows.imp_left ?_⟩
        exact fun hawaited => hafter rfl rfl (hlate hawaited fun hboth => hsame hboth.1)
    · simp only [Tray.updateLoaded, hupdating, hresume]
      by_cases hsame : load.state = t.state
      · rw [if_neg (not_not_intro hsame), hbar]
        refine ⟨h.context, h.added, h.adding, by simp, _, rfl, .inr ⟨?_, ?_⟩⟩
        · exact congrArg iconsOf hsame
        · exact congrArg buildMenu hsame
      · rw [if_pos hsame]
        refine ⟨h.context, h.added, h.adding, by simp, item, hbar, hshows.imp_left ?_⟩
        exact fun hawaited => hafter rfl rfl (hlate hawaited fun hboth => hsame hboth.1)

theorem step (h : Recovering t) {a : TrayAction} (ha : a.succeeds = true) :
    Recovering (t.step a) := by
  obtain ⟨item, hbar, hshows⟩ := h.bar
  cases a with
  | init => exact { h with context := rfl }
  | add =>
    simp only [Tray.step, add]
    split
    · rw [if_pos (by simp [h.added])]
      exact { h with adding := by simp }
    · exact h
  | addLoaded pixelMap call =>
    simp only [Tray.step, addLoaded]
    split
    · rename_i load hload
      exact absurd hload (h.adding load)
    · exact h
  | updateState state =>
    have hdue : ¬(!t.added || !t.context) = true := by simp [h.added, h.context]
    simp only [Tray.step, updateState]
    rw [if_neg hdue]
    exact ⟨h.context, h.added, h.adding, h.faithful, item, hbar, .inl (.inl rfl)⟩
  | debounced =>
    simp only [Tray.step, debounced]
    by_cases htimer : t.debounceTimer = true
    · rw [if_pos htimer]
      refine ⟨h.context, h.added, h.adding, h.faithful, item, hbar, .inl (.inr (.inl ?_))⟩
      exact Nat.succ_pos t.updateChain
    · rw [if_neg htimer]
      exact h
  | doUpdateState =>
    have hloaded : t.loadIcons.Sound ∧ t.loadIcons.state = t.state := by
      rw [loadIcons, if_pos h.context]
      exact ⟨trivial, rfl⟩
    simp only [Tray.step, doUpdateState]
    split
    · refine ⟨h.context, h.added, h.adding, ?_, item, hbar, .inl (.inr (.inr ?_))⟩
      · intro load hload
        obtain rfl := Option.some.inj hload
        exact hloaded.1.faithful
      · exact ⟨t.loadIcons, rfl, hloaded.2, hloaded.1⟩
    · exact h
  | updateLoaded pixelMap iconCall menuCall =>
    obtain ⟨hboth, rfl⟩ := Bool.and_eq_true_iff.mp ha
    obtain ⟨rfl, rfl⟩ := Bool.and_eq_true_iff.mp hboth
    exact h.updateLoaded

theorem run (h : Recovering t) {actions : List TrayAction}
    (hok : ∀ a ∈ actions, a.succeeds = true) : Recovering (t.run actions) := by
  induction actions using List.reverseRecOn with
  | nil => exact h
  | append_singleton actions a ih =>
    rw [run_concat]
    exact (ih fun a ha => hok a (List.mem_append_left _ ha)).step (hok a List.mem_concat_self)

theorem shows (h : Recovering t) (hsettled : t.Settled) : ∃ item, t.bar = some item ∧
    item.icons = iconsOf t.state ∧ item.statusBarGroupMenu = buildMenu t.state := by
  obtain ⟨-, htimer, hchain, hidle⟩ := hsettled
  obtain ⟨item, hbar, (hset | hmore | ⟨load, hload, -⟩) | hshows⟩ := h.bar
  · exact absurd (htimer.symm.trans hset) (by simp)
  · omega
  · exact absurd (hidle.symm.trans hload) (by simp)
  · exact ⟨item, hbar, hshows⟩

end Recovering

/-- Whatever has failed before: once the item is added and nothing fails any more from one
`updateState` on, icon and menu are those of the latest state when no timer and no promise is
pending. -/
theorem run_recovers {before after : List TrayAction} {state : Int}
    (hadded : (run before {}).added = true) (hok : ∀ a ∈ after, a.succeeds = true)
    (hsettled : Settled (run (before ++ .updateState state :: after) {})) :
    ∃ item, (run (before ++ .updateState state :: after) {}).bar = some item ∧
      item.icons = iconsOf (latestState (before ++ .updateState state :: after)) ∧
      item.statusBarGroupMenu =
        buildMenu (latestState (before ++ .updateState state :: after)) := by
  have hrecovering : Recovering (run (before ++ .updateState state :: after) {}) := by
    rw [run_append]
    have hasked : Asked (askedIn before) (run before {}) :=
      asked_run (asked_initial (.inl rfl)) fun _ => .inr
    exact (Recovering.of_updateState hasked hadded state).run hok
  have hshows := hrecovering.shows hsettled
  rwa [run_state] at hshows

/-- No picture can be loaded for one update, and the next brings icon and menu up to date. -/
theorem run_recovers_failed :
    let before : List TrayAction := [.init, .add, .addLoaded true true, .addLoaded true true,
      .updateState 1, .debounced, .doUpdateState, .updateLoaded false false false,
      .updateLoaded true false false]
    let after : List TrayAction := [.debounced, .doUpdateState, .updateLoaded true true true,
      .updateLoaded true true true]
    ∃ item, (run (before ++ .updateState 2 :: after) {}).bar = some item ∧
      item.icons = iconsOf (latestState (before ++ .updateState 2 :: after)) ∧
      item.statusBarGroupMenu = buildMenu (latestState (before ++ .updateState 2 :: after)) :=
  run_recovers (by decide +kernel) (by decide) (by decide +kernel)

end Tray

end Deskflow
