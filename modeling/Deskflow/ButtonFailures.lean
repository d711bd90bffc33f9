import Deskflow.ButtonRequests
import Deskflow.HandledMessages

/-! The mouse buttons when injections can fail: the record follows the requests,
the system follows the events that reached it. -/

namespace Deskflow

open History SharedLines

/-- Every answer used up between the two is a success. -/
def World.Succeeds (w w' : World) : Prop :=
  ∃ used, w.injections = used ++ w'.injections ∧ ∀ o ∈ used, o = .success

namespace World.Succeeds

variable {w w' w'' : World}

theorem split (h : Succeeds w w'') (h₁ : w'.injections <:+ w.injections)
    (h₂ : w''.injections <:+ w'.injections) : Succeeds w w' ∧ Succeeds w' w'' := by
  obtain ⟨used, hused, hall⟩ := h
  obtain ⟨xs, hxs⟩ := h₁
  obtain ⟨ys, hys⟩ := h₂
  have hsplit : used = xs ++ ys := by
    rw [← hys, ← List.append_assoc] at hxs
    exact List.append_cancel_right (hused.symm.trans hxs.symm)
  subst hsplit
  exact ⟨⟨xs, hxs.symm, fun o ho => hall o (List.mem_append_left _ ho)⟩,
    ⟨ys, hys.symm, fun o ho => hall o (List.mem_append_right _ ho)⟩⟩

theorem inject {e : InputEvent} (h : Succeeds w (w.inject e).2) :
    (w.inject e).2.log = w.log ++ [.injected e true] := by
  obtain ⟨used, hused, hall⟩ := h
  cases hinj : w.injections with
  | nil => simp only [World.inject, hinj, World.emit]
  | cons o os =>
    have hrest : (w.inject e).2.injections = os := by
      cases o <;> simp [World.inject, hinj, World.emit]
    have hone : used = [o] := by
      rw [hrest, hinj] at hused
      exact (List.append_cancel_right hused).symm
    obtain rfl : o = .success := hall o (by simp [hone])
    simp only [World.inject, hinj, World.emit]

end World.Succeeds

namespace DeskflowClient

theorem injectAxis_buttons (axis : MouseAxis) (value : Int) (actions : List MouseAction)
    (c : DeskflowClient) :
    (c.injectAxis axis value actions).2.mouseButtonsDown = c.mouseButtonsDown := by
  induction actions generalizing c with
  | nil => rfl
  | cons action actions ih =>
    rw [injectAxis]
    rcases hin : c.inject _ with ⟨ok, c'⟩
    obtain rfl := congrArg Prod.snd hin
    cases ok with
    | true => exact ih _
    | false => rfl

theorem injectMouseWheel_buttons (xDelta yDelta : Int) (c : DeskflowClient) :
    (c.injectMouseWheel xDelta yDelta).2.mouseButtonsDown = c.mouseButtonsDown := by
  unfold injectMouseWheel
  dsimp only
  split
  · rfl
  · exact injectAxis_buttons _ _ _ c

theorem KeyOnly.buttons {c c' : DeskflowClient} (h : KeyOnly c c') :
    c'.mouseButtonsDown = c.mouseButtonsDown := by
  have hb := congrArg DeskflowClient.mouseButtonsDown h.rest
  exact hb

theorem enterScreen_buttons (x y : Int16) (seq : UInt32) (mask : Int16) (c : DeskflowClient) :
    (c.enterScreen x y seq mask).mouseButtonsDown = c.mouseButtonsDown := by
  unfold enterScreen
  split
  · exact (syncModifiers_keyOnly _ _).buttons
  · exact (syncModifiers_keyOnly _ _).buttons

namespace RecordsButtons

variable {rs : List (MouseButton × Bool)} {c c' : DeskflowClient}

theorem injectMouseButton (h : RecordsButtons rs c) (k : Int) (down : Bool) :
    RecordsButtons (rs ++ (buttonToHarmony k).toList.map fun b => (b, down))
      (c.injectMouseButton k down).2 := by
  unfold DeskflowClient.injectMouseButton
  cases hb : buttonToHarmony k with
  | none =>
    simp only [Option.toList_none, List.map_nil, List.append_nil]
    split
    · exact h.congr (injectMouseWheel_buttons _ _ c)
    · exact h
  | some b => exact h.insert hb down rfl

theorem leaveScreen (rs : List (MouseButton × Bool)) (c : DeskflowClient) :
    RecordsButtons (rs ++ [(.left, false), (.middle, false), (.right, false)]) c.leaveScreen := by
  refine ⟨by simp [DeskflowClient.leaveScreen, setStatus, emit], fun b hb => ?_⟩
  rw [level_append_low (by simp)] at hb
  cases b <;> simp at hb

theorem perform (h : RecordsButtons rs c) (m : Message) :
    RecordsButtons (rs ++ m.buttonRequests) (c.perform m).2 := by
  have hnone (hm : m.buttonRequests = [])
      (hb : (c.perform m).2.mouseButtonsDown = c.mouseButtonsDown) :
      RecordsButtons (rs ++ m.buttonRequests) (c.perform m).2 := by
    rw [hm, List.append_nil]
    exact h.congr hb
  cases m with
  | dmdn button => exact h.injectMouseButton _ true
  | dmup button => exact h.injectMouseButton _ false
  | cout => exact leaveScreen rs c
  | cinn x y seq mask => exact hnone rfl (enterScreen_buttons x y seq mask c)
  | dmmv x y => exact hnone rfl rfl
  | dmrm dx dy => exact hnone rfl rfl
  | dmwm xDelta yDelta => exact hnone rfl (injectMouseWheel_buttons _ _ c)
  | dkdn id mask button => exact hnone rfl (pressKey_keyOnly id mask c).buttons
  | dkup id mask button => exact hnone rfl (releaseKey_keyOnly id mask c).buttons
  | dkrp id mask count button lang => exact hnone rfl (pressKey_keyOnly id mask c).buttons
  | dkdl id mask button lang => exact hnone rfl (pressKey_keyOnly id mask c).buttons
  | _ => exact hnone rfl (perform_noInput rfl c).mouseButtonsDown

theorem handle (h : RecordsButtons (Deskflow.buttonRequests c.handled) c) (m : Message) :
    RecordsButtons (Deskflow.buttonRequests (c.handle m).2.handled) (c.handle m).2 := by
  rw [handle_handled, Deskflow.buttonRequests, List.flatMap_append, List.flatMap_singleton]
  exact (h.perform m).congr rfl

end RecordsButtons

theorem Moves.recordsButtons {c₀ c : DeskflowClient} (h : Moves c₀ c)
    (h₀ : RecordsButtons (buttonRequests c₀.handled) c₀) :
    RecordsButtons (buttonRequests c.handled) c := by
  refine h.preserves (p := fun c => RecordsButtons (buttonRequests c.handled) c) h₀ ?_ ?_
  · intro c c' hsilent hrecords
    rw [hsilent.handled]
    exact hrecords.congr hsilent.mouseButtonsDown
  · intro c m _ hrecords
    exact hrecords.handle m

theorem fresh_recordsButtons (injections : List InjectOutcome) :
    RecordsButtons (buttonRequests (fresh injections).handled) (fresh injections) :=
  ⟨by simp [fresh], by simp [fresh, handled, handledIn, buttonRequests, level_nil]⟩

theorem injectMouseButton_release {c : DeskflowClient} {k : Int} {b : MouseButton}
    (hb : buttonToHarmony k = some b)
    (h : World.Succeeds c.world (c.injectMouseButton k false).2.world) :
    buttonEvents (c.injectMouseButton k false).2.world.log =
      buttonEvents c.world.log ++ [(b, false)] := by
  have hworld : (c.injectMouseButton k false).2.world = (c.world.inject (.mouse
      { action := .buttonUp, displayX := clampAxis c.pointerX c.screenW,
        displayY := clampAxis c.pointerY c.screenH, globalX := clampAxis c.pointerX c.screenW,
        globalY := clampAxis c.pointerY c.screenH, button := some b })).2 := by
    simp only [injectMouseButton, hb]
    rfl
  rw [hworld] at h ⊢
  rw [h.inject, buttonEvents, List.filterMap_append]
  rfl

theorem releaseButtons_events {es : List (Int × Bool)} {c : DeskflowClient}
    (hes : ∀ e ∈ es, (buttonToHarmony e.1).isSome)
    (h : World.Succeeds c.world (es.foldl (fun (c : DeskflowClient) e =>
      if e.2 then (c.injectMouseButton e.1 false).2 else c) c).world) :
    buttonEvents (es.foldl (fun (c : DeskflowClient) e =>
        if e.2 then (c.injectMouseButton e.1 false).2 else c) c).world.log =
      buttonEvents c.world.log ++ TracksButtons.releases es := by
  induction es generalizing c with
  | nil => simp [TracksButtons.releases]
  | cons e es ih =>
    rw [List.foldl_cons] at h ⊢
    have hrest := fun e he => hes e (List.mem_cons_of_mem _ he)
    rw [TracksButtons.releases, List.flatMap_cons, ← TracksButtons.releases]
    cases hdown : e.2 with
    | false =>
      simp only [hdown, Bool.false_eq_true, if_false] at h ⊢
      exact ih hrest h
    | true =>
      obtain ⟨b, hb⟩ := Option.isSome_iff_exists.mp (hes e (by simp))
      simp only [hdown, if_true] at h ⊢
      obtain ⟨hone, hmore⟩ := h.split (injectMouseButton_mouseOnly e.1 false c).world.injections
        (releaseButtons_mouseOnly es _).world.injections
      rw [ih hrest hmore, injectMouseButton_release hb hone, hb, List.append_assoc]
      rfl

/-- After `COUT` a button is still pressed exactly if it was and was recorded released. -/
theorem leaveScreen_pressed {c : DeskflowClient} {rs : List (MouseButton × Bool)}
    (hrec : RecordsButtons rs c) (h : World.Succeeds c.world c.leaveScreen.world)
    (b : MouseButton) : level (buttonEvents c.leaveScreen.world.log) b = true ↔
      level (buttonEvents c.world.log) b = true ∧ level rs b = false := by
  have hlow : ∀ q ∈ TracksButtons.releases c.mouseButtonsDown.entries, q.2 = false := by
    intro q hq
    simp only [TracksButtons.releases, List.mem_flatMap] at hq
    obtain ⟨e, -, hq⟩ := hq
    split_ifs at hq
    · simp only [List.mem_map] at hq
      obtain ⟨b, -, rfl⟩ := hq
      rfl
    · simp at hq
  have hmem : (b, false) ∉ TracksButtons.releases c.mouseButtonsDown.entries ↔
      level rs b = false := by
    rw [← Bool.not_eq_true, not_iff_not]
    constructor
    · intro hrel
      simp only [TracksButtons.releases, List.mem_flatMap] at hrel
      obtain ⟨⟨k, down⟩, he, hrel⟩ := hrel
      split_ifs at hrel with hdown
      · obtain ⟨b', hb', hlev⟩ := hrec.recorded k down he
        obtain rfl : b = b' := by simpa [hb', eq_comm] using hrel
        exact hlev.trans hdown
      · simp at hrel
    · intro hlev
      obtain ⟨k, hk, he⟩ := hrec.held b hlev
      exact List.mem_flatMap.mpr ⟨(k, true), he, by simp [hk]⟩
  have hstart : World.Succeeds { c with active := false }.world (c.mouseButtonsDown.entries.foldl
      (fun (c : DeskflowClient) e => if e.2 then (c.injectMouseButton e.1 false).2 else c)
      { c with active := false }).world := h
  have hevents : buttonEvents c.leaveScreen.world.log = buttonEvents c.world.log ++
      TracksButtons.releases c.mouseButtonsDown.entries := by
    rw [← releaseButtons_events hrec.coded hstart, leaveScreen, setStatus, emit, World.emit,
      buttonEvents, List.filterMap_append]
    exact List.append_nil _
  rw [hevents, level_append_low hlow, hmem]

end DeskflowClient

namespace System

open DeskflowClient

/-- A step that handles `COUT` with no injection failing leaves no button
pressed, exactly if every button that was pressed was last asked down. -/
theorem released_after_cout_iff {injections : List InjectOutcome} {actions : List Action}
    {a : Action}
    (hcout : ((initial injections).run (actions ++ [a])).client.handled =
      ((initial injections).run actions).client.handled ++ [.cout])
    (hok : World.Succeeds ((initial injections).run actions).client.world
      ((initial injections).run (actions ++ [a])).client.world) :
    (∀ b, level (buttonEvents ((initial injections).run (actions ++ [a])).client.world.log) b =
        false) ↔
      ∀ b, level (buttonEvents ((initial injections).run actions).client.world.log) b = true →
        level (buttonRequests ((initial injections).run actions).client.handled) b = true := by
  have hrec := (moves_fresh injections actions).recordsButtons (fresh_recordsButtons injections)
  rw [run_concat] at hcout hok ⊢
  generalize (initial injections).run actions = σ at hcout hok hrec ⊢
  rcases step_handles σ a with hsame | ⟨s, key, m, he⟩
  · simp [hsame] at hcout
  · let c := { σ.client.loadStop.2 with stream := s }.emit (.dispatched key)
    have hhandled : c.handled = σ.client.handled := handled_emit_of_isMark rfl _
    obtain rfl : m = .cout := by
      rw [he, handle_handled, hhandled, List.append_cancel_left_eq] at hcout
      simpa using hcout
    have hevents : buttonEvents c.world.log = buttonEvents σ.client.world.log := by
      simp only [c, emit, World.emit, buttonEvents, List.filterMap_append]
      exact List.append_nil _
    have hafter : buttonEvents (c.handle .cout).2.world.log =
        buttonEvents c.leaveScreen.world.log := by
      simp only [handle, perform, emit, World.emit, buttonEvents, List.filterMap_append]
      exact List.append_nil _
    have hpressed := leaveScreen_pressed (hrec.congr rfl : RecordsButtons _ c)
      (show World.Succeeds c.world c.leaveScreen.world by rw [he] at hok; exact hok)
    rw [he]
    change (∀ b, level (buttonEvents (c.handle .cout).2.world.log) b = false) ↔ _
    rw [hafter, ← hevents]
    refine forall_congr' fun b => ?_
    rw [← Bool.not_eq_true, hpressed, not_and, Bool.not_eq_false]

/-- The release fails, a second press fails too, and `COUT` releases the button. -/
theorem released_after_cout_pressed_again :
    let actions := serving [.dmdn 1, .dmup 1, .dmdn 1, .cout] 8
    let σ := (initial [.success, .refused, .noEvent]).run actions
    let σ' := (initial [.success, .refused, .noEvent]).run (actions ++ [.work ⟨false, [], []⟩])
    level (buttonEvents σ.client.world.log) .left = true ∧
      ∀ b, level (buttonEvents σ'.client.world.log) b = false := by
  intro actions σ σ'
  refine ⟨by decide +kernel, ?_⟩
  refine (released_after_cout_iff (by decide +kernel) ⟨[], by decide +kernel, by simp⟩).mpr ?_
  intro b
  cases b <;> decide +kernel

/-- The release of the left button fails; `COUT` finds it recorded released. -/
theorem pressed_after_cout : ∃ injections actions a,
    ((initial injections).run (actions ++ [a])).client.handled =
        ((initial injections).run actions).client.handled ++ [.cout] ∧
      World.Succeeds ((initial injections).run actions).client.world
        ((initial injections).run (actions ++ [a])).client.world ∧
      ¬∀ b, level (buttonEvents ((initial injections).run (actions ++ [a])).client.world.log) b =
        false := by
  refine ⟨[.success, .refused], serving [.dmdn 1, .dmup 1, .cout] 6, .work ⟨false, [], []⟩,
    by decide +kernel, ⟨[], by decide +kernel, by simp⟩, fun h => ?_⟩
  have hleft := h .left
  revert hleft
  decide +kernel

end System

end Deskflow
