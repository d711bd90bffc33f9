import Deskflow.ButtonFailures
import Deskflow.MouseEvents
import Deskflow.Turns

/-! Where the injected mouse events point. Moves and buttons are moved off the
edges of the screen; a scroll is injected where the pointer was left. -/

namespace Deskflow

open History DeskflowClient

/-- Where the messages leave the pointer of a client that has just been constructed. -/
def pointerAfter (w h : Int) (ms : List Message) : Int × Int :=
  ms.foldl (Message.pointer w h) (0, 0)

/-- From the values of a signed field of 16 bits to the far edge of the screen, if that is
beyond them. -/
def Within (size v : Int) : Prop := -2 ^ 15 ≤ v ∧ v ≤ max (size - 1) (2 ^ 15 - 1)

/-- The sums of a relative move are those of 32 bits. -/
def MovesFit (p : Int × Int) : Prop :=
  ∀ d : Int16, (-2 ^ 31 ≤ p.1 + d.toInt ∧ p.1 + d.toInt < 2 ^ 31) ∧
    -2 ^ 31 ≤ p.2 + d.toInt ∧ p.2 + d.toInt < 2 ^ 31

/-- Off the edges whose coordinates the injection refuses. -/
structure OnScreen (w h : Int) (p : Int × Int) : Prop where
  left : 1 ≤ p.1
  right : p.1 ≤ w - 1
  top : 1 ≤ p.2
  bottom : p.2 ≤ h - 1

def MouseEvent.InRange (w h : Int) (ev : MouseEvent) : Prop := ∃ p, OnScreen w h p ∧ ev.At p

def EventsInRange (w h : Int) (log : List Event) : Prop :=
  ∀ e ∈ log, e.Makes (MouseEvent.InRange w h)

/-- Whenever a scroll is asked for, the messages before it have left the pointer on
the screen. -/
def ScrollsOnScreen (w h : Int) : List Message → Prop :=
  Throughout fun pre m => m.scrolls = true → OnScreen w h (pointerAfter w h pre)

theorem pointerAfter_concat (w h : Int) (ms : List Message) (m : Message) :
    pointerAfter w h (ms ++ [m]) = m.pointer w h (pointerAfter w h ms) :=
  List.foldl_concat ..

theorem within_toInt (size : Int) (v : Int16) : Within size v.toInt := by
  have hlow := v.le_toInt
  have hhigh := v.toInt_lt
  constructor <;> omega

theorem within_clamp {size : Int} (h : 1 ≤ size) (v : Int) :
    Within size (min (max v 0) (size - 1)) := by
  constructor <;> omega

theorem pointer_within {w h : Int} (hw : 1 ≤ w) (hh : 1 ≤ h) {p : Int × Int}
    (hp : Within w p.1 ∧ Within h p.2) (m : Message) :
    Within w (m.pointer w h p).1 ∧ Within h (m.pointer w h p).2 := by
  cases m with
  | cinn x y seq mask =>
    rw [Message.pointer]
    by_cases hinside : 0 ≤ x.toInt ∧ 0 ≤ y.toInt
    · rw [if_pos hinside]
      exact ⟨within_toInt w x, within_toInt h y⟩
    · rw [if_neg hinside]
      exact hp
  | dmmv x y => exact ⟨within_toInt w x, within_toInt h y⟩
  | dmrm dx dy => exact ⟨within_clamp hw _, within_clamp hh _⟩
  | _ => exact hp

theorem pointerAfter_within {w h : Int} (hw : 1 ≤ w) (hh : 1 ≤ h) (ms : List Message) :
    Within w (pointerAfter w h ms).1 ∧ Within h (pointerAfter w h ms).2 := by
  induction ms using List.reverseRecOn with
  | nil => exact ⟨within_toInt w 0, within_toInt h 0⟩
  | append_singleton ms m ih =>
    rw [pointerAfter_concat]
    exact pointer_within hw hh ih m

theorem Within.add {size v : Int} (h : Within size v) (hsize : size ≤ 2 ^ 31 - 2 ^ 15)
    (d : Int16) : -2 ^ 31 ≤ v + d.toInt ∧ v + d.toInt < 2 ^ 31 := by
  obtain ⟨hlow, hhigh⟩ := h
  have hdlow := d.le_toInt
  have hdhigh := d.toInt_lt
  constructor <;> omega

theorem MouseEvent.At.unique {p q : Int × Int} {ev : MouseEvent} (h : ev.At p) (h' : ev.At q) :
    p = q :=
  Prod.ext (h.displayX.symm.trans h'.displayX) (h.displayY.symm.trans h'.displayY)

theorem inRange_append {w h : Int} {log es : List Event} :
    EventsInRange w h (log ++ es) ↔ EventsInRange w h log ∧ EventsInRange w h es :=
  List.forall_mem_append

theorem clampAxis_range {size : Int} (h : 2 ≤ size) (v : Int) :
    1 ≤ clampAxis v size ∧ clampAxis v size ≤ size - 1 := by
  unfold clampAxis
  split_ifs <;> omega

namespace DeskflowClient

structure Pointed (w h : Int) (c : DeskflowClient) : Prop where
  screenW : c.screenW = w
  screenH : c.screenH = h
  pointer : c.pointer = pointerAfter w h c.handled

theorem Pointed.within {w h : Int} {c : DeskflowClient} (hc : Pointed w h c) (hw : 1 ≤ w)
    (hh : 1 ≤ h) : Within w c.pointer.1 ∧ Within h c.pointer.2 := by
  rw [hc.pointer]
  exact pointerAfter_within hw hh c.handled

/-- On a screen this large `moveBy` adds as the source does. -/
theorem Pointed.movesFit {w h : Int} {c : DeskflowClient} (hc : Pointed w h c) (hw : 1 ≤ w)
    (hw' : w ≤ 2 ^ 31 - 2 ^ 15) (hh : 1 ≤ h) (hh' : h ≤ 2 ^ 31 - 2 ^ 15) : MovesFit c.pointer :=
  fun d => ⟨(hc.within hw hh).1.add hw' d, (hc.within hw hh).2.add hh' d⟩

theorem Pointed.passive {w h : Int} {c c' : DeskflowClient} (hc : Pointed w h c)
    (hpassive : Passive c c') (hwidth : c'.screenW = c.screenW) (hheight : c'.screenH = c.screenH) :
    Pointed w h c' :=
  ⟨hwidth.trans hc.screenW, hheight.trans hc.screenH,
    hpassive.pointer.trans (hpassive.handled.symm ▸ hc.pointer)⟩

theorem Pointed.handle {w h : Int} {c : DeskflowClient} (hc : Pointed w h c) (m : Message) :
    Pointed w h (c.handle m).2 := by
  have hsettings := perform_settings m c
  have hpointer : (c.handle m).2.pointer = m.pointer c.screenW c.screenH c.pointer :=
    congrArg Standing.pointer (perform_standing m c)
  refine ⟨(congrArg Settings.screenW hsettings).trans hc.screenW,
    (congrArg Settings.screenH hsettings).trans hc.screenH, ?_⟩
  rw [handle_handled, pointerAfter_concat, hpointer, hc.screenW, hc.screenH, hc.pointer]

theorem clamped_onScreen {w h : Int} {c : DeskflowClient} (hw : 2 ≤ w) (hh : 2 ≤ h)
    (hc : Pointed w h c) (p : Int × Int) : OnScreen w h (c.clamped p) := by
  rw [clamped, hc.screenW, hc.screenH]
  exact ⟨(clampAxis_range hw _).1, (clampAxis_range hw _).2, (clampAxis_range hh _).1,
    (clampAxis_range hh _).2⟩

theorem inject_logged {c : DeskflowClient} (h : .noEvent ∉ c.world.injections) (e : InputEvent) :
    ∃ ok, (c.inject e).2.world.log = c.world.log ++ [.injected e ok] := by
  simp only [inject, World.inject]
  split
  · exact ⟨true, rfl⟩
  · exact ⟨true, rfl⟩
  · exact ⟨false, rfl⟩
  · rename_i hin
    exact absurd (hin ▸ List.mem_cons_self) h

theorem injectAxis_points {c : DeskflowClient} (h : .noEvent ∉ c.world.injections)
    (axis : MouseAxis) (value : Int) (action : MouseAction) (actions : List MouseAction) :
    ∃ ev ok, .injected (.mouse ev) ok ∈
        (c.injectAxis axis value (action :: actions)).2.world.log ∧ ev.At c.pointer := by
  let ev : MouseEvent :=
    { action := action, displayX := c.pointerX, displayY := c.pointerY,
      globalX := c.pointerX, globalY := c.pointerY, axis := some (axis, value) }
  obtain ⟨ok, hlog⟩ := inject_logged h (.mouse ev)
  have hmem : .injected (.mouse ev) ok ∈ (c.inject (.mouse ev)).2.world.log := by
    rw [hlog]
    exact List.mem_concat_self
  refine ⟨ev, ok, ?_, rfl, rfl, rfl, rfl⟩
  rw [injectAxis]
  rcases hin : c.inject _ with ⟨go, c'⟩
  obtain rfl := congrArg Prod.snd hin
  cases go with
  | true =>
    obtain ⟨es, hes, -⟩ :=
      (injectAxis_mouseOnly axis value actions (c.inject (.mouse ev)).2).world.log
    exact hes ▸ List.mem_append_left es hmem
  | false => exact hmem

theorem injectMouseWheel_points (xDelta yDelta : Int) {c : DeskflowClient}
    (h : .noEvent ∉ c.world.injections) (hmoves : yDelta ≠ 0 ∨ xDelta ≠ 0) :
    ∃ ev ok, .injected (.mouse ev) ok ∈ (c.injectMouseWheel xDelta yDelta).2.world.log ∧
      ev.At c.pointer := by
  have hnot : ¬(yDelta = 0 ∧ xDelta = 0) := by tauto
  unfold injectMouseWheel
  dsimp only
  rw [if_neg hnot]
  exact injectAxis_points h _ _ _ _

theorem perform_points {m : Message} {c : DeskflowClient} (h : .noEvent ∉ c.world.injections)
    (hm : m.scrolls = true) :
    ∃ ev ok, .injected (.mouse ev) ok ∈ (c.perform m).2.world.log ∧ ev.At c.pointer := by
  cases m with
  | dmwm xDelta yDelta =>
    have hz (v : Int16) (hv : v ≠ 0) : v.toInt ≠ 0 := fun he => hv (Int16.toInt_inj.mp he)
    simp only [Message.scrolls, Bool.or_eq_true, bne_iff_ne] at hm
    exact injectMouseWheel_points _ _ h (hm.symm.imp (hz yDelta) (hz xDelta))
  | dmdn button =>
    simp only [Message.scrolls, Bool.or_eq_true, beq_iff_eq] at hm
    rcases hm with rfl | rfl
    · exact injectMouseWheel_points 0 1 h (.inl (by decide))
    · exact injectMouseWheel_points 0 (-1) h (.inl (by decide))
  | dmup button =>
    simp only [Message.scrolls, Bool.or_eq_true, beq_iff_eq] at hm
    rcases hm with rfl | rfl
    · exact injectMouseWheel_points 0 1 h (.inl (by decide))
    · exact injectMouseWheel_points 0 (-1) h (.inl (by decide))
  | _ => cases hm

theorem handle_inRange {w h : Int} {c : DeskflowClient} (hw : 2 ≤ w) (hh : 2 ≤ h)
    (hc : Pointed w h c) (hcode : ∀ e ∈ c.mouseButtonsDown.entries, (buttonToHarmony e.1).isSome)
    {m : Message} (hm : m.scrolls = true → OnScreen w h c.pointer)
    (hin : EventsInRange w h c.world.log) : EventsInRange w h (c.handle m).2.world.log := by
  obtain ⟨es, hes, hmade⟩ := perform_makes hcode m
  have hperform : EventsInRange w h (c.perform m).2.world.log := by
    rw [hes]
    refine inRange_append.mpr ⟨hin, ?_⟩
    intro e he
    refine (hmade e he).mono ?_
    intro ev hev
    cases hev with
    | move _ _ hat => exact ⟨_, clamped_onScreen hw hh hc _, hat⟩
    | button _ hat => exact ⟨_, clamped_onScreen hw hh hc _, hat⟩
    | scroll _ hat hscroll => exact ⟨_, hm hscroll, hat⟩
  refine inRange_append.mpr ⟨hperform, ?_⟩
  intro e he
  rw [List.mem_singleton.mp he]
  exact Event.makes_of_not_isInput rfl

theorem onScreen_of_inRange {w h : Int} {c : DeskflowClient} (hok : .noEvent ∉ c.world.injections)
    {m : Message} (hm : m.scrolls = true) (hin : EventsInRange w h (c.handle m).2.world.log) :
    OnScreen w h c.pointer := by
  obtain ⟨ev, ok, hmem, hat⟩ := perform_points hok hm
  obtain ⟨p, hp, hat'⟩ := hin _ (List.mem_append_left _ hmem) ev ok rfl
  rwa [hat.unique hat']

/-- The log is in range when the scrolls are asked for on the screen, and only then
where every event can be created. -/
structure Aimed (injections : List InjectOutcome) (w h : Int) (c : DeskflowClient) : Prop where
  pointed : Pointed w h c
  inRange : ScrollsOnScreen w h c.handled → EventsInRange w h c.world.log
  onScreen : .noEvent ∉ injections → EventsInRange w h c.world.log → ScrollsOnScreen w h c.handled

theorem Aimed.passive {injections : List InjectOutcome} {w h : Int} {c c' : DeskflowClient}
    (hc : Aimed injections w h c) (hpassive : Passive c c')
    (hscreen : (c'.screenW, c'.screenH) = (c.screenW, c.screenH)) : Aimed injections w h c' := by
  obtain ⟨es, hes, hinput⟩ := hpassive.log
  have hlog : EventsInRange w h c'.world.log ↔ EventsInRange w h c.world.log := by
    rw [hes, inRange_append, and_iff_left_iff_imp]
    exact fun _ e he => Event.makes_of_not_isInput (hinput e he)
  refine ⟨hc.pointed.passive hpassive (congrArg Prod.fst hscreen) (congrArg Prod.snd hscreen),
    fun hs => hlog.mpr (hc.inRange (hpassive.handled ▸ hs)), ?_⟩
  intro hnone hin
  rw [hpassive.handled]
  exact hc.onScreen hnone (hlog.mp hin)

theorem Aimed.handle {injections : List InjectOutcome} {w h : Int} {c : DeskflowClient}
    (hw : 2 ≤ w) (hh : 2 ≤ h) (hc : Aimed injections w h c)
    (hanswers : c.world.injections <:+ injections)
    (hrecords : RecordsButtons (buttonRequests c.handled) c) (m : Message) :
    Aimed injections w h (c.handle m).2 := by
  have hgrown : EventsInRange w h (c.handle m).2.world.log → EventsInRange w h c.world.log := by
    obtain ⟨es, hes, -⟩ := handle_log m c
    rw [hes, List.append_assoc, inRange_append]
    exact And.left
  refine ⟨hc.pointed.handle m, ?_, ?_⟩
  · intro hs
    rw [handle_handled] at hs
    obtain ⟨hs, hm⟩ := throughout_concat.mp hs
    refine handle_inRange hw hh hc.pointed hrecords.coded (fun hscroll => ?_) (hc.inRange hs)
    rw [hc.pointed.pointer]
    exact hm hscroll
  · intro hnone hin
    rw [handle_handled]
    refine throughout_concat.mpr ⟨hc.onScreen hnone (hgrown hin), ?_⟩
    intro hscroll
    have hnone' : .noEvent ∉ c.world.injections := fun hmem => hnone (hanswers.subset hmem)
    rw [← hc.pointed.pointer]
    exact onScreen_of_inRange hnone' hscroll hin

end DeskflowClient

namespace System

theorem configured_pointed (injections : List InjectOutcome) (w h : Int) (invert : Bool)
    {actions : List Action} (hsize : ∀ a ∈ actions, a.resizes = false) :
    Pointed w h ((configured injections w h invert).run actions).client := by
  refine run_turns (fun s => (s.screenW, s.screenH)) injections w h invert (fun a ha σ => ?_)
    ⟨rfl, rfl, rfl⟩ (fun _ _ hpassive hscreen hc => ?_) (fun _ m _ _ hc => hc.handle m)
  · obtain ⟨hwidth, hheight⟩ := σ.step_screen (hsize a ha)
    exact Prod.ext hwidth hheight
  · exact hc.passive hpassive (congrArg Prod.fst hscreen) (congrArg Prod.snd hscreen)

/-- On a screen of fixed size the injected mouse events are all on the screen if
every scroll is asked for while the pointer is; where every event can be created,
only then. The sums of the relative moves are those of the source on screens of at most
2 ^ 31 - 2 ^ 15. -/
theorem inRange_iff (injections : List InjectOutcome) {w h : Int} (hw : 2 ≤ w) (hh : 2 ≤ h)
    (invert : Bool) {actions : List Action} (hsize : ∀ a ∈ actions, a.resizes = false) :
    (ScrollsOnScreen w h ((configured injections w h invert).run actions).client.handled →
        EventsInRange w h ((configured injections w h invert).run actions).client.world.log) ∧
      (.noEvent ∉ injections →
        EventsInRange w h ((configured injections w h invert).run actions).client.world.log →
        ScrollsOnScreen w h ((configured injections w h invert).run actions).client.handled) ∧
      (w ≤ 2 ^ 31 - 2 ^ 15 → h ≤ 2 ^ 31 - 2 ^ 15 →
        MovesFit ((configured injections w h invert).run actions).client.pointer) := by
  have haimed : Aimed injections w h ((configured injections w h invert).run actions).client := by
    refine run_turns (fun s => (s.screenW, s.screenH)) injections w h invert (fun a ha σ => ?_)
      ⟨⟨rfl, rfl, rfl⟩, fun _ e he => absurd he List.not_mem_nil, fun _ _ => throughout_nil⟩
      (fun _ _ hpassive hscreen hc => hc.passive hpassive hscreen)
      (fun _ m hanswers hrecords hc => hc.handle hw hh hanswers hrecords m)
    obtain ⟨hwidth, hheight⟩ := σ.step_screen (hsize a ha)
    exact Prod.ext hwidth hheight
  exact ⟨haimed.inRange, haimed.onScreen,
    fun hw' hh' => haimed.pointed.movesFit (by omega) hw' (by omega) hh'⟩

theorem inRange_of_cinn :
    EventsInRange 1280 800 ((configured [] 1280 800 false).run
      (serving [.cinn 100 100 1 0, .dmwm 0 120] 6)).client.world.log := by
  refine (inRange_iff [] (by decide) (by decide) false (by decide +kernel)).1 ?_
  have hhandled : ((configured [] 1280 800 false).run
      (serving [.cinn 100 100 1 0, .dmwm 0 120] 6)).client.handled =
        [] ++ [.cinn 100 100 1 0] ++ [.dmwm 0 120] := by decide +kernel
  rw [hhandled]
  refine throughout_concat.mpr ⟨throughout_concat.mpr ⟨throughout_nil, nofun⟩, fun _ => ?_⟩
  exact ⟨by decide, by decide, by decide, by decide⟩

/-- The pointer comes in at the left edge and a scroll follows. -/
theorem not_inRange_at_edge :
    ¬∀ (injections : List InjectOutcome) (w h : Int) (invert : Bool) (actions : List Action),
      2 ≤ w → 2 ≤ h → (∀ a ∈ actions, a.resizes = false) →
        EventsInRange w h ((configured injections w h invert).run actions).client.world.log := by
  intro hin
  have hedge := hin [] 1280 800 false (serving [.cinn 0 400 1 0, .dmwm 0 120] 6) (by decide)
    (by decide) (by decide +kernel)
  have hscroll : Event.injected (.mouse
      { action := .axisBegin, displayX := 0, displayY := 400, globalX := 0, globalY := 400,
        axis := some (.vertical, 120) }) true ∈
      ((configured [] 1280 800 false).run
        (serving [.cinn 0 400 1 0, .dmwm 0 120] 6)).client.world.log := by decide +kernel
  obtain ⟨p, hp, hat⟩ := hedge _ hscroll _ true rfl
  have hzero : (0 : Int) = p.1 := hat.displayX
  have hleft := hp.left
  omega

end System

end Deskflow
