import Deskflow.TrayAdding

/-! When the tray comes to show the latest state. The updates bring the icon and the menu
up to date, but the tips stay, and so does an icon that nothing updates. -/

namespace Deskflow

namespace Tray

/-- An update to the present state is still to come. -/
def Due (t : Tray) : Prop :=
  t.debounceTimer = true ∨ 0 < t.updateChain ∨ ∃ load, t.updating = some load ∧ load.state = t.state

/-- `updateState` has been called for the item: an update is due, or icon and menu are
those of the present state. The tips are those of the state `first`. -/
structure Followed (first : Int) (t : Tray) : Prop where
  context : t.context = true
  added : t.added = true
  adding : t.adding = .returned
  sound : ∀ load, t.updating = some load → load.Sound
  bar : ∃ item, t.bar = some item ∧ item.hoverTips = stateHoverTips first ∧
    (t.Due ∨ item.icons = iconsOf t.state ∧ item.statusBarGroupMenu = buildMenu t.state)

theorem Fresh.followed {first second : Int} {t : Tray} (h : Fresh first second t) (state : Int) :
    Followed second (t.updateState state) := by
  have hdue : ¬(!t.added || !t.context) = true := by simp [h.added, h.context]
  obtain ⟨item, hbar, -, -, htips⟩ := h.bar
  rw [updateState, if_neg hdue]
  refine ⟨h.context, h.added, h.adding, ?_, item, hbar, htips, .inl (.inl rfl)⟩
  intro load hload
  exact absurd (h.updating.symm.trans hload) (by simp)

theorem Fresh.step {first second : Int} {t : Tray} (h : Fresh first second t) {a : TrayAction}
    (ha : a.updates = false) : Fresh first second (t.step a) := by
  cases a with
  | init => exact { h with context := rfl }
  | add =>
    simp only [Tray.step, add, h.adding]
    exact h
  | addLoaded pixelMap call =>
    simp only [Tray.step, addLoaded, h.adding]
    exact h
  | updateState state => cases ha
  | debounced =>
    simp only [Tray.step, debounced, h.debounceTimer]
    exact h
  | doUpdateState =>
    simp only [Tray.step, doUpdateState, h.updateChain]
    exact h
  | updateLoaded pixelMap iconCall menuCall =>
    simp only [Tray.step, updateLoaded, h.updating]
    exact h

theorem Followed.updateLoaded {first : Int} {t : Tray} (h : Followed first t) :
    Followed first (t.updateLoaded true true true) := by
  obtain ⟨item, hbar, htips, hshows⟩ := h.bar
  cases hupdating : t.updating with
  | none =>
    simp only [Tray.updateLoaded, hupdating]
    exact h
  | some load =>
    rcases (h.sound load hupdating).resume with ⟨load', hresume, hstate, hsound⟩ | hresume
    · simp only [Tray.updateLoaded, hupdating, hresume]
      refine ⟨h.context, h.added, h.adding, ?_, item, hbar, htips, ?_⟩
      · intro load'' hload''
        obtain rfl := Option.some.inj hload''
        exact hsound
      · refine hshows.imp_left ?_
        rintro (htimer | hchain | ⟨load'', hload'', hsame⟩)
        · exact .inl htimer
        · exact .inr (.inl hchain)
        · obtain rfl := Option.some.inj (hupdating.symm.trans hload'')
          exact .inr (.inr ⟨load', rfl, hstate.trans hsame⟩)
    · simp only [Tray.updateLoaded, hupdating, hresume]
      by_cases hsame : load.state = t.state
      · rw [if_neg (not_not_intro hsame), hbar]
        refine ⟨h.context, h.added, h.adding, by simp, _, rfl, htips, .inr ⟨?_, ?_⟩⟩
        · exact congrArg iconsOf hsame
        · exact congrArg buildMenu hsame
      · rw [if_pos hsame]
        refine ⟨h.context, h.added, h.adding, by simp, item, hbar, htips, hshows.imp_left ?_⟩
        rintro (htimer | hchain | ⟨load', hload', hsame'⟩)
        · exact .inl htimer
        · exact .inr (.inl hchain)
        · obtain rfl := Option.some.inj (hupdating.symm.trans hload')
          exact absurd hsame' hsame

theorem Followed.step {first : Int} {t : Tray} (h : Followed first t) {a : TrayAction}
    (ha : a.succeeds = true) : Followed first (t.step a) := by
  obtain ⟨item, hbar, htips, hshows⟩ := h.bar
  cases a with
  | init => exact { h with context := rfl }
  | add =>
    simp only [Tray.step, add, h.adding]
    exact h
  | addLoaded pixelMap call =>
    simp only [Tray.step, addLoaded, h.adding]
    exact h
  | updateState state =>
    have hdue : ¬(!t.added || !t.context) = true := by simp [h.added, h.context]
    simp only [Tray.step, updateState]
    rw [if_neg hdue]
    exact ⟨h.context, h.added, h.adding, h.sound, item, hbar, htips, .inl (.inl rfl)⟩
  | debounced =>
    simp only [Tray.step, debounced]
    by_cases htimer : t.debounceTimer = true
    · rw [if_pos htimer]
      refine ⟨h.context, h.added, h.adding, h.sound, item, hbar, htips, .inl (.inr (.inl ?_))⟩
      exact Nat.succ_pos t.updateChain
    · rw [if_neg htimer]
      exact h
  | doUpdateState =>
    simp only [Tray.step, doUpdateState]
    split
    · refine ⟨h.context, h.added, h.adding, ?_, item, hbar, htips, .inl (.inr (.inr ?_))⟩
      · intro load hload
        obtain rfl := Option.some.inj hload
        rw [loadIcons, if_pos h.context]
        trivial
      · refine ⟨t.loadIcons, rfl, ?_⟩
        rw [loadIcons, if_pos h.context]
        rfl
    · exact h
  | updateLoaded pixelMap iconCall menuCall =>
    obtain ⟨hboth, rfl⟩ := Bool.and_eq_true_iff.mp ha
    obtain ⟨rfl, rfl⟩ := Bool.and_eq_true_iff.mp hboth
    exact h.updateLoaded

theorem Fresh.run {first second : Int} {t : Tray} (h : Fresh first second t)
    {actions : List TrayAction} (hok : ∀ a ∈ actions, a.succeeds = true) :
    (∀ a ∈ actions, a.updates = false) ∧ Fresh first second (t.run actions) ∨
      (∃ a ∈ actions, a.updates = true) ∧ Followed second (t.run actions) := by
  induction actions using List.reverseRecOn with
  | nil => exact .inl ⟨by simp, h⟩
  | append_singleton actions a ih =>
    rw [run_concat]
    have hok' : ∀ a ∈ actions, a.succeeds = true := fun a ha => hok a (List.mem_append_left _ ha)
    rcases ih hok' with ⟨hnone, hfresh⟩ | ⟨hsome, hfollowed⟩
    · by_cases hupdates : a.updates = true
      · right
        refine ⟨⟨a, List.mem_concat_self, hupdates⟩, ?_⟩
        cases a with
        | updateState state => exact hfresh.followed state
        | _ => cases hupdates
      · left
        rw [Bool.not_eq_true] at hupdates
        refine ⟨?_, hfresh.step hupdates⟩
        intro b hb
        rcases List.mem_append.mp hb with hold | hnew
        · exact hnone b hold
        · rwa [List.mem_singleton.mp hnew]
    · right
      obtain ⟨b, hb, hupdates⟩ := hsome
      exact ⟨⟨b, List.mem_append_left _ hb, hupdates⟩, hfollowed.step (hok a List.mem_concat_self)⟩

/-- `add()` is called after `before`, and after `during` it adds the item. -/
structure Adds (actions before during after : List TrayAction) : Prop where
  split : actions = before ++ .add :: (during ++ .addLoaded true true :: after)
  called : (run before {}).adding = .notCalled
  unadded : (run (before ++ .add :: during) {}).added = false
  added : (run (before ++ .add :: (during ++ [.addLoaded true true])) {}).added = true

/-- Before the call no icon is being loaded. -/
theorem Unadded.of_notCalled {state : Int} {t : Tray} (h : Unadded state t)
    (hcall : t.adding = .notCalled) (state' : Int) : Unadded state' t := by
  refine ⟨h.added, h.debounceTimer, h.updateChain, h.updating, ?_⟩
  intro load hload
  exact absurd (hcall.symm.trans hload) (by simp)

theorem exists_unadded {actions : List TrayAction} (hok : ∀ a ∈ actions, a.succeeds = true)
    (h : (run actions {}).added = false) : ∃ state, Unadded state (run actions {}) := by
  induction actions using List.reverseRecOn with
  | nil =>
    refine ⟨0, rfl, rfl, rfl, rfl, ?_⟩
    intro load hload
    cases hload
  | append_singleton actions a ih =>
    rw [run_concat] at h ⊢
    obtain ⟨state, hunadded⟩ :=
      ih (fun a ha => hok a (List.mem_append_left _ ha)) (unadded_of_step h)
    have ha := hok a List.mem_concat_self
    by_cases hcall : (run actions {}).adding = .notCalled
    · exact ⟨_, (hunadded.of_notCalled hcall _).stays ha (fun _ _ => rfl) h⟩
    · exact ⟨state, hunadded.stays ha (fun _ hnot => absurd hnot hcall) h⟩

theorem Unadded.run {state : Int} {t : Tray} (h : Unadded state t) (hcall : t.adding ≠ .notCalled)
    {actions : List TrayAction} (hok : ∀ a ∈ actions, a.succeeds = true)
    (hadded : (t.run actions).added = false) :
    Unadded state (t.run actions) ∧ (t.run actions).adding ≠ .notCalled := by
  induction actions using List.reverseRecOn with
  | nil => exact ⟨h, hcall⟩
  | append_singleton actions a ih =>
    rw [run_concat] at hadded ⊢
    obtain ⟨hkept, hcalled⟩ :=
      ih (fun a ha => hok a (List.mem_append_left _ ha)) (unadded_of_step hadded)
    refine ⟨?_, fun hnot => hcalled (step_adding.mp hnot).1⟩
    exact hkept.stays (hok a List.mem_concat_self) (fun _ hnot => absurd hnot hcalled) hadded

theorem Adds.fresh {actions before during after : List TrayAction}
    (h : Adds actions before during after) (hok : ∀ a ∈ actions, a.succeeds = true) :
    Fresh (latestState before) (latestState (before ++ .add :: during))
      (run (before ++ .add :: (during ++ [.addLoaded true true])) {}) := by
  have hmem {a : TrayAction} (ha : a ∈ before ∨ a ∈ during) : a.succeeds = true := by
    apply hok
    rw [h.split]
    rcases ha with ha | ha
    · exact List.mem_append_left _ ha
    · exact List.mem_append_right _ (List.mem_cons_of_mem _ (List.mem_append_left _ ha))
  have hcalling : run (before ++ .add :: during) {} = ((run before {}).step .add).run during := by
    rw [run_append]
    rfl
  have hunadded := h.unadded
  rw [hcalling] at hunadded
  have hnot := unadded_of_run hunadded
  obtain ⟨state, hstart⟩ := exists_unadded (fun a ha => hmem (.inl ha)) (unadded_of_step hnot)
  have hcalled := (hstart.of_notCalled h.called (latestState before)).stays (a := .add) rfl
    (fun _ _ => run_state before) hnot
  have hloading : ((run before {}).step .add).adding ≠ .notCalled :=
    fun hnone => (step_adding.mp hnone).2 rfl
  obtain ⟨hwaiting, -⟩ := hcalled.run hloading (fun a ha => hmem (.inr ha)) hunadded
  have hlast : run (before ++ .add :: (during ++ [.addLoaded true true])) {} =
      (((run before {}).step .add).run during).step (.addLoaded true true) := by
    rw [← List.cons_append, ← List.append_assoc, run_concat, hcalling]
  have hstate : (((run before {}).step .add).run during).state =
      latestState (before ++ .add :: during) := by
    rw [← hcalling, run_state]
  have hadded := h.added
  rw [hlast] at hadded ⊢
  obtain ⟨-, -, hfresh⟩ := hwaiting.adds rfl (by simp) hadded
  rw [← hstate]
  exact hfresh

theorem exists_call {actions : List TrayAction} (h : (run actions {}).adding ≠ .notCalled) :
    ∃ before during, actions = before ++ .add :: during ∧
      (run before {}).adding = .notCalled := by
  induction actions using List.reverseRecOn with
  | nil => exact absurd rfl h
  | append_singleton actions a ih =>
    by_cases hcall : (run actions {}).adding = .notCalled
    · by_cases hadd : a = .add
      · exact ⟨actions, [], by rw [hadd], hcall⟩
      · rw [run_concat] at h
        exact absurd (step_adding.mpr ⟨hcall, hadd⟩) h
    · obtain ⟨before, during, rfl, hbefore⟩ := ih hcall
      refine ⟨before, during ++ [a], ?_, hbefore⟩
      rw [List.append_assoc, List.cons_append]

/-- Where the item has been added, there was the call and what added it. -/
theorem exists_adds {actions : List TrayAction} (hok : ∀ a ∈ actions, a.succeeds = true)
    (h : (run actions {}).added = true) :
    ∃ before during after, Adds actions before during after := by
  induction actions using List.reverseRecOn with
  | nil => cases h
  | append_singleton actions a ih =>
    have hok' : ∀ a ∈ actions, a.succeeds = true := fun a ha => hok a (List.mem_append_left _ ha)
    by_cases hadded : (run actions {}).added = true
    · obtain ⟨before, during, after, hadds⟩ := ih hok' hadded
      refine ⟨before, during, after ++ [a], ?_, hadds.called, hadds.unadded, hadds.added⟩
      rw [hadds.split]
      simp only [List.append_assoc, List.cons_append]
    · rw [Bool.not_eq_true] at hadded
      rw [run_concat] at h
      obtain ⟨state, hunadded⟩ := exists_unadded hok' hadded
      have ha := hok a List.mem_concat_self
      have hcall : (run actions {}).adding ≠ .notCalled := by
        intro hcall
        obtain ⟨-, ⟨load, hload⟩, -⟩ :=
          (hunadded.of_notCalled hcall _).adds ha (fun _ _ => rfl) h
        exact absurd (hcall.symm.trans hload) (by simp)
      obtain ⟨rfl, -, -⟩ := hunadded.adds ha (fun _ hnot => absurd hnot hcall) h
      obtain ⟨before, during, rfl, hbefore⟩ := exists_call hcall
      refine ⟨before, during, [], ?_, hbefore, hadded, ?_⟩
      · rw [List.append_assoc, List.cons_append]
      · rw [← List.cons_append, ← List.append_assoc, run_concat]
        exact h

/-- Where nothing fails and nothing is pending, the tray shows the latest state exactly
if its tips are those of the state in which the item was added and, unless an update came
after that, its icon is that of the state in which `add()` was called. -/
theorem displays_latest_iff {actions : List TrayAction}
    (hok : ∀ a ∈ actions, a.succeeds = true) (hadded : (run actions {}).added = true)
    (hsettled : (run actions {}).Settled) :
    (∃ before during after, Adds actions before during after) ∧
      ∀ before during after, Adds actions before during after →
        ((run actions {}).Displays (latestState actions) ↔
          stateHoverTips (latestState actions) =
              stateHoverTips (latestState (before ++ .add :: during)) ∧
            ((∀ a ∈ after, a.updates = false) →
              iconShapeName (latestState before) = iconShapeName (latestState actions))) := by
  refine ⟨exists_adds hok hadded, ?_⟩
  intro before during after hadds
  have hsplit : actions = before ++ .add :: (during ++ [.addLoaded true true]) ++ after := by
    rw [hadds.split]
    simp only [List.append_assoc, List.cons_append, List.nil_append]
  have hend : run actions {} =
      (run (before ++ .add :: (during ++ [.addLoaded true true])) {}).run after := by
    rw [← run_append, ← hsplit]
  have hafter : ∀ a ∈ after, a.succeeds = true := by
    intro a ha
    apply hok
    rw [hsplit]
    exact List.mem_append_right _ ha
  have hstate := run_state actions
  obtain ⟨-, htimer, hchain, hupdating⟩ := hsettled
  rw [hend] at hstate htimer hchain hupdating ⊢
  rcases (hadds.fresh hok).run hafter with ⟨hnone, hfresh⟩ | ⟨⟨a, ha, hupdates⟩, hfollowed⟩
  · obtain ⟨item, hbar, hicons, hmenu, htips⟩ := hfresh.bar
    have hlatest := hfresh.state.symm.trans hstate
    rw [hlatest] at hmenu htips
    constructor
    · rintro ⟨item', hbar', hicons', -, -⟩
      obtain rfl := Option.some.inj (hbar.symm.trans hbar')
      refine ⟨by rw [hlatest], fun _ => ?_⟩
      exact iconsOf_eq_iff.mp (hicons.symm.trans hicons')
    · rintro ⟨-, hshape⟩
      exact ⟨item, hbar, hicons.trans (iconsOf_eq_iff.mpr (hshape hnone)), hmenu, htips⟩
  · obtain ⟨item, hbar, htips, hdue | ⟨hicons, hmenu⟩⟩ := hfollowed.bar
    · exfalso
      rcases hdue with hdue | hdue | ⟨load, hload, -⟩
      · exact absurd (htimer.symm.trans hdue) Bool.false_ne_true
      · omega
      · exact absurd (hupdating.symm.trans hload) (by simp)
    · rw [hstate] at hicons hmenu
      constructor
      · rintro ⟨item', hbar', -, -, htips'⟩
        obtain rfl := Option.some.inj (hbar.symm.trans hbar')
        refine ⟨htips'.symm.trans htips, ?_⟩
        intro hnone
        exact absurd ((hnone a ha).symm.trans hupdates) Bool.false_ne_true
      · rintro ⟨hsame, -⟩
        exact ⟨item, hbar, hicons, hmenu, htips.trans hsame.symm⟩

/-- An update while the icon is loaded, two in quick succession after it, and back in time. -/
theorem displays_latest_connecting :
    (run [.init, .add, .addLoaded true true, .updateState 1, .addLoaded true true,
        .updateState 3, .debounced, .doUpdateState, .updateState 1, .updateLoaded true true true,
        .updateLoaded true true true, .debounced, .doUpdateState, .updateLoaded true true true,
        .updateLoaded true true true] {}).Displays 1 := by
  have hiff := @displays_latest_iff [.init, .add, .addLoaded true true, .updateState 1,
    .addLoaded true true, .updateState 3, .debounced, .doUpdateState, .updateState 1,
    .updateLoaded true true true, .updateLoaded true true true, .debounced, .doUpdateState,
    .updateLoaded true true true, .updateLoaded true true true]
    (by decide) (by decide +kernel) (by decide +kernel)
  have hadds := hiff.2 [.init] [.addLoaded true true, .updateState 1] _
    ⟨rfl, by decide +kernel, by decide +kernel, by decide +kernel⟩
  exact hadds.mpr ⟨by decide +kernel, by decide +kernel⟩

/-- The item is added at the start; once there is a connection, the tips still deny it. -/
theorem not_displays_latest :
    ¬∀ actions : List TrayAction, (∀ a ∈ actions, a.succeeds = true) →
      (∃ a ∈ actions, a.updates = true) → (run actions {}).added = true →
      (run actions {}).Settled → (run actions {}).Displays (latestState actions) := by
  intro hall
  have hdisplays := hall [.init, .add, .addLoaded true true, .addLoaded true true,
    .updateState 2, .debounced, .doUpdateState, .updateLoaded true true true,
    .updateLoaded true true true] (by decide) (by decide) (by decide +kernel) (by decide +kernel)
  obtain ⟨item, hbar, -, -, htips⟩ := hdisplays
  have hdenied := congrArg (Option.map StatusBarItem.hoverTips) hbar
  rw [Option.map_some, htips] at hdenied
  revert hdenied
  decide +kernel

end Tray

end Deskflow
