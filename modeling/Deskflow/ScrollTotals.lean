import Mathlib.Algebra.BigOperators.Group.List.Basic
import Deskflow.ButtonFailures
import Deskflow.MouseEvents
import Deskflow.Turns

/-! How much is scrolled: what the messages ask for and what is injected. -/

namespace Deskflow

open History DeskflowClient

/-- A press of a wheel button is a step of the wheel. -/
def wheelStep (button : UInt8) : Int := if button = 4 then 1 else if button = 5 then -1 else 0

def directed (invert : Bool) (v : Int) : Int := if invert then -v else v

namespace Message

def xScroll : Message → Int
  | .dmwm xDelta _ => xDelta.toInt
  | _ => 0

def yScroll : Message → Int
  | .dmwm _ yDelta => yDelta.toInt
  | .dmdn button => wheelStep button
  | _ => 0

/-- The horizontal part of a wheel message that also moves vertically. -/
def xDropped : Message → Int
  | .dmwm xDelta yDelta => if yDelta.toInt = 0 then 0 else xDelta.toInt
  | _ => 0

def yRepeated : Message → Int
  | .dmup button => wheelStep button
  | _ => 0

def scrolled (invert : Bool) : MouseAxis → Message → Int
  | .horizontal, m => m.xScroll - m.xDropped
  | .vertical, m => directed invert (m.yScroll + m.yRepeated)

end Message

def total (f : Message → Int) (ms : List Message) : Int := (ms.map f).sum

def MouseEvent.value (axis : MouseAxis) (ev : MouseEvent) : Int :=
  match ev.axis with
  | some (axis', value) => if axis' = axis then value else 0
  | none => 0

/-- The value that reached the system with an event of the given action. -/
def Event.value (action : MouseAction) (axis : MouseAxis) : Event → Int
  | .injected (.mouse ev) true => if ev.action = action then ev.value axis else 0
  | _ => 0

def injectedTotal (action : MouseAction) (axis : MouseAxis) (log : List Event) : Int :=
  (log.map (Event.value action axis)).sum

def axisActions : List MouseAction := [.axisBegin, .axisUpdate, .axisEnd]

/-- What was injected on each axis, taken at any one of the three events of a
sequence, is what the messages asked for. -/
def ScrollKept (invert : Bool) (log : List Event) : Prop :=
  ∀ action ∈ axisActions,
    injectedTotal action .horizontal log = total Message.xScroll (handledIn log) ∧
      injectedTotal action .vertical log = directed invert (total Message.yScroll (handledIn log))

theorem total_concat (f : Message → Int) (ms : List Message) (m : Message) :
    total f (ms ++ [m]) = total f ms + f m := by
  simp [total]

theorem injectedTotal_append (action : MouseAction) (axis : MouseAxis) (log es : List Event) :
    injectedTotal action axis (log ++ es) =
      injectedTotal action axis log + injectedTotal action axis es := by
  simp [injectedTotal]

theorem injectedTotal_grows {action : MouseAction} {axis : MouseAxis} {log log' : List Event}
    (h : Grows (fun e => e.value action axis = 0) log log') :
    injectedTotal action axis log' = injectedTotal action axis log := by
  obtain ⟨es, rfl, hes⟩ := h
  have hnone : injectedTotal action axis es = 0 := List.sum_eq_zero fun v hv => by
    obtain ⟨e, he, rfl⟩ := List.mem_map.mp hv
    exact hes e he
  rw [injectedTotal_append, hnone, add_zero]

theorem Event.value_of_not_isInput {action : MouseAction} {axis : MouseAxis} {e : Event}
    (h : e.isInput = false) : e.value action axis = 0 := by
  cases e <;> simp_all [isInput, Event.value]

theorem directed_add (invert : Bool) (v v' : Int) :
    directed invert (v + v') = directed invert v + directed invert v' := by
  cases invert with
  | false => rfl
  | true => exact neg_add v v'

theorem directed_inj {invert : Bool} {v v' : Int} :
    directed invert v = directed invert v' ↔ v = v' := by
  cases invert <;> simp [directed]

theorem total_horizontal (invert : Bool) (ms : List Message) :
    total (Message.scrolled invert .horizontal) ms =
      total Message.xScroll ms - total Message.xDropped ms := by
  induction ms using List.reverseRecOn with
  | nil => rfl
  | append_singleton ms m ih =>
    simp only [total_concat, ih, Message.scrolled]
    omega

theorem total_vertical (invert : Bool) (ms : List Message) :
    total (Message.scrolled invert .vertical) ms =
      directed invert (total Message.yScroll ms + total Message.yRepeated ms) := by
  induction ms using List.reverseRecOn with
  | nil => cases invert <;> rfl
  | append_singleton ms m ih =>
    simp only [total_concat, ih, Message.scrolled, directed_add]
    omega

namespace DeskflowClient

def Succeeds (c : DeskflowClient) : Prop := ∀ o ∈ c.world.injections, o = .success

theorem Succeeds.inject {c : DeskflowClient} (h : c.Succeeds) (e : InputEvent) :
    (c.inject e).1 = true ∧ (c.inject e).2.Succeeds ∧
      (c.inject e).2.world.log = c.world.log ++ [.injected e true] := by
  cases hin : c.world.injections with
  | nil =>
    simp only [DeskflowClient.inject, World.inject, hin, Succeeds, World.emit]
    simp
  | cons o os =>
    obtain rfl := h o (by simp [hin])
    refine ⟨?_, fun o' ho' => h o' ?_, ?_⟩
    · simp only [DeskflowClient.inject, World.inject, hin]
    · simp only [DeskflowClient.inject, World.inject, hin, World.emit] at ho'
      exact hin ▸ List.mem_cons_of_mem _ ho'
    · simp only [DeskflowClient.inject, World.inject, hin, World.emit]

theorem injectAxis_log {c : DeskflowClient} (h : c.Succeeds) (axis : MouseAxis) (value : Int)
    (actions : List MouseAction) :
    (c.injectAxis axis value actions).2.world.log = c.world.log ++ actions.map fun action =>
      .injected (.mouse
        { action := action, displayX := c.pointerX, displayY := c.pointerY,
          globalX := c.pointerX, globalY := c.pointerY, axis := some (axis, value) }) true := by
  induction actions generalizing c with
  | nil => exact (List.append_nil _).symm
  | cons action actions ih =>
    let ev : MouseEvent :=
      { action := action, displayX := c.pointerX, displayY := c.pointerY,
        globalX := c.pointerX, globalY := c.pointerY, axis := some (axis, value) }
    obtain ⟨hok, hmore, hlog⟩ := h.inject (.mouse ev)
    have hone : c.injectAxis axis value (action :: actions) =
        (c.inject (.mouse ev)).2.injectAxis axis value actions := by
      rw [injectAxis]
      rcases hin : c.inject _ with ⟨go, c'⟩
      rw [hin] at hok
      obtain rfl : go = true := hok
      rfl
    rw [hone, ih hmore, hlog, List.append_assoc]
    rfl

theorem injectMouseWheel_total {c : DeskflowClient} (h : c.Succeeds) {action : MouseAction}
    (hact : action ∈ axisActions) (xDelta yDelta : Int) (axis : MouseAxis) :
    injectedTotal action axis (c.injectMouseWheel xDelta yDelta).2.world.log =
      injectedTotal action axis c.world.log + match axis with
        | .horizontal => if yDelta = 0 then xDelta else 0
        | .vertical => directed c.invertScroll yDelta := by
  have haxis (axis' : MouseAxis) (value : Int) :
      injectedTotal action axis (c.injectAxis axis' value axisActions).2.world.log =
        injectedTotal action axis c.world.log + if axis' = axis then value else 0 := by
    rw [injectAxis_log h, injectedTotal_append, add_right_inj]
    simp only [axisActions, List.mem_cons, List.not_mem_nil, or_false] at hact
    rcases hact with rfl | rfl | rfl <;>
      simp [injectedTotal, axisActions, Event.value, MouseEvent.value]
  unfold injectMouseWheel
  dsimp only
  rw [← axisActions]
  by_cases hy : yDelta = 0
  · subst hy
    have hnone : directed c.invertScroll 0 = 0 := by cases c.invertScroll <;> rfl
    simp only [ne_eq, not_true_eq_false, and_false, if_false, true_and, if_true]
    split_ifs with hx
    · cases axis <;> simp [hx, hnone]
    · rw [haxis]
      cases axis <;> simp [hnone]
  · have hdirected : (if c.invertScroll = true ∧ yDelta ≠ 0 then -yDelta else yDelta) =
        directed c.invertScroll yDelta := by
      cases c.invertScroll <;> simp [directed, hy]
    have hmoves : directed c.invertScroll yDelta ≠ 0 := by
      cases c.invertScroll <;> simp [directed, hy]
    rw [if_neg fun hz => hy hz.1, hdirected, if_pos hmoves, if_pos hmoves, haxis]
    cases axis <;> simp [hy]

theorem injectMouseButton_total {c : DeskflowClient} (h : c.Succeeds) {action : MouseAction}
    (hact : action ∈ axisActions) (button : UInt8) (hwheel : button = 4 ∨ button = 5)
    (down : Bool) (axis : MouseAxis) :
    injectedTotal action axis (c.injectMouseButton button.toNat down).2.world.log =
      injectedTotal action axis c.world.log + match axis with
        | .horizontal => 0
        | .vertical => directed c.invertScroll (wheelStep button) := by
  rcases hwheel with rfl | rfl
  · refine (injectMouseWheel_total h hact 0 1 axis).trans ?_
    cases axis <;> rfl
  · refine (injectMouseWheel_total h hact 0 (-1) axis).trans ?_
    cases axis <;> rfl

theorem Made.value {c : DeskflowClient} {m : Message} {ev : MouseEvent} (h : Made c m ev)
    (hm : m.scrolls = false) {action : MouseAction} (hact : action ∈ axisActions)
    (axis : MouseAxis) (ok : Bool) : (Event.injected (.mouse ev) ok).value action axis = 0 := by
  have hne : ev.action ≠ action := by
    rintro rfl
    cases h with
    | move hmove _ _ => simp [hmove, axisActions] at hact
    | button hof _ => rcases hof with hof | hof <;> simp [hof, axisActions] at hact
    | scroll _ _ hscroll => simp [hm] at hscroll
  cases ok with
  | true => exact if_neg hne
  | false => rfl

theorem scrolled_of_not_scrolls {m : Message} (h : m.scrolls = false) (invert : Bool)
    (axis : MouseAxis) : m.scrolled invert axis = 0 := by
  have hstep (button : UInt8) (hb : (button == 4 || button == 5) = false) :
      wheelStep button = 0 := by
    simp only [Bool.or_eq_false_iff, beq_eq_false_iff_ne] at hb
    rw [wheelStep, if_neg hb.1, if_neg hb.2]
  have hnone : directed invert 0 = 0 := by cases invert <;> rfl
  cases m with
  | dmwm xDelta yDelta =>
    simp only [Message.scrolls, Bool.or_eq_false_iff, bne_eq_false_iff_eq] at h
    obtain ⟨rfl, rfl⟩ := h
    cases axis <;> cases invert <;> rfl
  | dmdn button =>
    cases axis <;> simp [Message.scrolled, Message.xScroll, Message.xDropped, Message.yScroll,
      Message.yRepeated, hstep button h, hnone]
  | dmup button =>
    cases axis <;> simp [Message.scrolled, Message.xScroll, Message.xDropped, Message.yScroll,
      Message.yRepeated, hstep button h, hnone]
  | _ => cases axis <;> cases invert <;> rfl

theorem perform_total {c : DeskflowClient} (h : c.Succeeds)
    (hcode : ∀ e ∈ c.mouseButtonsDown.entries, (buttonToHarmony e.1).isSome)
    {action : MouseAction} (hact : action ∈ axisActions) (axis : MouseAxis) (m : Message) :
    injectedTotal action axis (c.perform m).2.world.log =
      injectedTotal action axis c.world.log + m.scrolled c.invertScroll axis := by
  cases hm : m.scrolls with
  | false =>
    rw [scrolled_of_not_scrolls hm, add_zero]
    apply injectedTotal_grows
    apply Grows.mono (perform_makes hcode m)
    intro e hmade
    cases e with
    | injected i ok =>
      cases i with
      | mouse ev => exact (hmade ev ok rfl).value hm hact axis ok
      | key ev => rfl
    | _ => rfl
  | true =>
    cases m with
    | dmwm xDelta yDelta =>
      refine (injectMouseWheel_total h hact xDelta.toInt yDelta.toInt axis).trans ?_
      cases axis
      · simp [Message.scrolled, Message.yScroll, Message.yRepeated]
      · simp only [Message.scrolled, Message.xScroll, Message.xDropped]
        split_ifs <;> omega
    | dmdn button =>
      simp only [Message.scrolls, Bool.or_eq_true, beq_iff_eq] at hm
      refine (injectMouseButton_total h hact button hm true axis).trans ?_
      cases axis <;> simp [Message.scrolled, Message.xScroll, Message.xDropped, Message.yScroll,
        Message.yRepeated]
    | dmup button =>
      simp only [Message.scrolls, Bool.or_eq_true, beq_iff_eq] at hm
      refine (injectMouseButton_total h hact button hm false axis).trans ?_
      cases axis <;> simp [Message.scrolled, Message.xScroll, Message.xDropped, Message.yScroll,
        Message.yRepeated]
    | _ => cases hm

/-- The scroll direction is the given one, and on the axis as much has been injected
as the messages bring there. -/
structure Tallied (invert : Bool) (action : MouseAction) (axis : MouseAxis)
    (c : DeskflowClient) : Prop where
  invertScroll : c.invertScroll = invert
  total : injectedTotal action axis c.world.log = total (Message.scrolled invert axis) c.handled

theorem Tallied.passive {invert : Bool} {action : MouseAction} {axis : MouseAxis}
    {c c' : DeskflowClient} (hc : Tallied invert action axis c) (hpassive : Passive c c')
    (hdirection : c'.invertScroll = c.invertScroll) : Tallied invert action axis c' := by
  refine ⟨hdirection.trans hc.invertScroll, ?_⟩
  rw [injectedTotal_grows (hpassive.log.mono fun _ => Event.value_of_not_isInput),
    hpassive.handled, hc.total]

theorem Tallied.handle {invert : Bool} {action : MouseAction} (hact : action ∈ axisActions)
    {axis : MouseAxis} {c : DeskflowClient} (hc : Tallied invert action axis c)
    (hall : c.Succeeds) (hrecords : RecordsButtons (buttonRequests c.handled) c) (m : Message) :
    Tallied invert action axis (c.handle m).2 := by
  have hperform := perform_total hall hrecords.coded hact axis m
  have hmark : Grows (fun e => e.value action axis = 0) (c.perform m).2.world.log
      (c.handle m).2.world.log :=
    (noInput_emit rfl (c.perform m).2).world.log.mono fun _ => Event.value_of_not_isInput
  refine ⟨(congrArg Settings.invertScroll (perform_settings m c)).trans hc.invertScroll, ?_⟩
  rw [injectedTotal_grows hmark, hperform, handle_handled, total_concat, hc.invertScroll, hc.total]

end DeskflowClient

namespace System

theorem tallied_run {injections : List InjectOutcome} (hok : ∀ o ∈ injections, o = .success)
    (w h : Int) (invert : Bool) {actions : List Action}
    (hfixed : ∀ a ∈ actions, a.inverts = false) {action : MouseAction}
    (hact : action ∈ axisActions) (axis : MouseAxis) :
    Tallied invert action axis ((configured injections w h invert).run actions).client :=
  run_turns Settings.invertScroll injections w h invert
    (fun a ha σ => σ.step_invertScroll (hfixed a ha)) ⟨rfl, rfl⟩
    (fun _ _ hpassive hdirection hc => hc.passive hpassive hdirection)
    (fun _ m hanswers hrecords hc =>
      hc.handle hact (fun o ho => hok o (hanswers.subset ho)) hrecords m)

/-- With all injections succeeding, no scroll is lost or repeated in a run exactly
if the horizontal parts of the wheel messages that move both ways cancel out and
so do the releases of the wheel buttons. -/
theorem scrollKept_iff {injections : List InjectOutcome} (hok : ∀ o ∈ injections, o = .success)
    (w h : Int) {invert : Bool} {actions : List Action}
    (hfixed : ∀ a ∈ actions, a.inverts = false) :
    ScrollKept invert ((configured injections w h invert).run actions).client.world.log ↔
      total Message.xDropped ((configured injections w h invert).run actions).client.handled = 0 ∧
      total Message.yRepeated
        ((configured injections w h invert).run actions).client.handled = 0 := by
  have hx (action : MouseAction) (hact : action ∈ axisActions) :=
    (tallied_run hok w h invert hfixed hact .horizontal).total
  have hy (action : MouseAction) (hact : action ∈ axisActions) :=
    (tallied_run hok w h invert hfixed hact .vertical).total
  simp only [total_horizontal] at hx
  simp only [total_vertical] at hy
  generalize ((configured injections w h invert).run actions).client = c at hx hy
  have hall (action : MouseAction) (hact : action ∈ axisActions) :
      (injectedTotal action .horizontal c.world.log = total Message.xScroll c.handled ∧
        injectedTotal action .vertical c.world.log =
          directed invert (total Message.yScroll c.handled)) ↔
      total Message.xDropped c.handled = 0 ∧ total Message.yRepeated c.handled = 0 := by
    rw [hx action hact, hy action hact, directed_inj]
    omega
  constructor
  · intro hkept
    exact (hall .axisBegin (by decide)).mp (hkept .axisBegin (by decide))
  · intro hnone action hact
    exact (hall action hact).mpr hnone

theorem scrollKept_iff_presses :
    ScrollKept true ((configured [] 1280 800 true).run
      (serving [.dmdn 4, .dmdn 5, .dmwm 0 120, .dmwm 7 0] 10)).client.world.log :=
  (scrollKept_iff (by simp) 1280 800 (by decide +kernel)).mpr
    ⟨by decide +kernel, by decide +kernel⟩

/-- A wheel button is pressed and released. -/
theorem not_scrollKept_click :
    ¬∀ (injections : List InjectOutcome) (w h : Int) (invert : Bool) (actions : List Action),
      (∀ o ∈ injections, o = .success) → (∀ a ∈ actions, a.inverts = false) →
        ScrollKept invert ((configured injections w h invert).run actions).client.world.log := by
  intro hkept
  have hclick := hkept [] 1280 800 false (serving [.dmdn 4, .dmup 4] 6) (by simp)
    (by decide +kernel) .axisBegin (by decide)
  revert hclick
  decide +kernel

end System

end Deskflow
