import Deskflow.Effects
import Deskflow.Standing

/-! The mouse events a message makes: where they point, which button a move
carries, and which messages scroll. -/

namespace Deskflow

open History

/-- The messages that ask for a scroll: a wheel message that moves the wheel, and
what happens to the wheel buttons. -/
def Message.scrolls : Message → Bool
  | .dmwm xDelta yDelta => xDelta != 0 || yDelta != 0
  | .dmdn button => button == 4 || button == 5
  | .dmup button => button == 4 || button == 5
  | _ => false

structure MouseEvent.At (p : Int × Int) (ev : MouseEvent) : Prop where
  displayX : ev.displayX = p.1
  displayY : ev.displayY = p.2
  globalX : ev.globalX = p.1
  globalY : ev.globalY = p.2

def Event.Makes (p : MouseEvent → Prop) (e : Event) : Prop :=
  ∀ ev ok, e = .injected (.mouse ev) ok → p ev

theorem Event.makes_injected {p : MouseEvent → Prop} {ev : MouseEvent} {ok : Bool} :
    Event.Makes p (.injected (.mouse ev) ok) ↔ p ev := by
  simp [Event.Makes]

theorem Event.makes_of_isKey {p : MouseEvent → Prop} {e : Event} (h : e.isKey) : e.Makes p := by
  rintro ev ok rfl
  cases h

theorem Event.makes_of_not_isInput {p : MouseEvent → Prop} {e : Event}
    (h : e.isInput = false) : e.Makes p := by
  rintro ev ok rfl
  cases h

theorem Event.Makes.mono {p q : MouseEvent → Prop} {e : Event} (h : e.Makes p)
    (hpq : ∀ ev, p ev → q ev) : e.Makes q := fun ev ok he => hpq ev (h ev ok he)

namespace MouseEvent

def OfButton (ev : MouseEvent) : Prop := ev.action = .buttonDown ∨ ev.action = .buttonUp

theorem OfButton.not_move {ev : MouseEvent} (h : ev.OfButton) : ev.action ≠ .move := by
  rcases h with h | h <;> rw [h] <;> exact MouseAction.noConfusion

end MouseEvent

namespace DeskflowClient

def clamped (c : DeskflowClient) (p : Int × Int) : Int × Int :=
  (clampAxis p.1 c.screenW, clampAxis p.2 c.screenH)

/-- A mouse event that `c` makes on the message `m`. -/
inductive Made (c : DeskflowClient) (m : Message) (ev : MouseEvent) : Prop
  | move : ev.action = .move → ev.button = c.draggedButton →
      ev.At (c.clamped (m.pointer c.screenW c.screenH c.pointer)) → Made c m ev
  | button : ev.OfButton → ev.At (c.clamped c.pointer) → Made c m ev
  | scroll : ev.action ≠ .move → ev.At c.pointer → m.scrolls = true → Made c m ev

/-- Whatever was injected between the two, its mouse events satisfy `p`. -/
def MakesOnly (p : MouseEvent → Prop) (c c' : DeskflowClient) : Prop :=
  Grows (Event.Makes p ·) c.world.log c'.world.log

namespace MakesOnly

variable {p q : MouseEvent → Prop} {c c' c'' : DeskflowClient}

theorem trans (h : MakesOnly p c c') (h' : MakesOnly p c' c'') : MakesOnly p c c'' :=
  Grows.trans h h'

theorem mono (h : MakesOnly p c c') (hpq : ∀ ev, p ev → q ev) : MakesOnly q c c' :=
  Grows.mono h fun _ he => he.mono hpq

theorem keyOnly (h : KeyOnly c c') : MakesOnly p c c' :=
  h.world.log.mono fun _ => Event.makes_of_isKey

theorem noInput (h : NoInput c c') : MakesOnly p c c' :=
  h.world.log.mono fun _ => Event.makes_of_not_isInput

theorem inject {e : MouseEvent} (h : p e) (c : DeskflowClient) :
    MakesOnly p c (c.inject (.mouse e)).2 :=
  (World.Extends.inject (p := (Event.Makes p ·)) (fun _ => Event.makes_injected.mpr h)
    c.world).log

end MakesOnly

theorem injectMouseMove_makes (x y : Int) (c : DeskflowClient) :
    MakesOnly (fun ev => ev.action = .move ∧ ev.button = c.draggedButton ∧
      ev.At (c.clamped (x, y))) c (c.injectMouseMove x y).2 :=
  MakesOnly.inject ⟨rfl, rfl, rfl, rfl, rfl, rfl⟩ c

theorem injectAxis_makes (axis : MouseAxis) (value : Int) {actions : List MouseAction}
    (h : .move ∉ actions) (c : DeskflowClient) :
    MakesOnly (fun ev => ev.action ≠ .move ∧ ev.At c.pointer) c
      (c.injectAxis axis value actions).2 := by
  induction actions generalizing c with
  | nil => exact .refl _
  | cons action actions ih =>
    let ev : MouseEvent :=
      { action := action, displayX := c.pointerX, displayY := c.pointerY,
        globalX := c.pointerX, globalY := c.pointerY, axis := some (axis, value) }
    obtain ⟨hne, hrest⟩ := List.ne_and_not_mem_of_not_mem_cons h
    have hone : MakesOnly (fun ev => ev.action ≠ .move ∧ ev.At c.pointer) c
        (c.inject (.mouse ev)).2 :=
      .inject ⟨hne.symm, rfl, rfl, rfl, rfl⟩ c
    rw [injectAxis]
    rcases hin : c.inject _ with ⟨ok, c'⟩
    obtain rfl := congrArg Prod.snd hin
    cases ok with
    | true => exact hone.trans (ih hrest (c.inject (.mouse ev)).2)
    | false => exact hone

theorem injectMouseWheel_makes (xDelta yDelta : Int) (c : DeskflowClient) :
    MakesOnly (fun ev => (ev.action ≠ .move ∧ ev.At c.pointer) ∧ (yDelta ≠ 0 ∨ xDelta ≠ 0)) c
      (c.injectMouseWheel xDelta yDelta).2 := by
  unfold injectMouseWheel
  dsimp only
  split
  · exact .refl _
  · rename_i hmoves
    have hnot : yDelta ≠ 0 ∨ xDelta ≠ 0 := by tauto
    exact (injectAxis_makes _ _ (by simp) c).mono fun ev hev => ⟨hev, hnot⟩

theorem injectMouseButton_makes (k : Int) (down : Bool) (c : DeskflowClient) :
    MakesOnly (fun ev => ev.OfButton ∧ ev.At (c.clamped c.pointer) ∨
      (ev.action ≠ .move ∧ ev.At c.pointer) ∧ (k = kButtonWheelUp ∨ k = kButtonWheelDown))
      c (c.injectMouseButton k down).2 := by
  unfold injectMouseButton
  cases hb : buttonToHarmony k with
  | none =>
    dsimp only
    split
    · rename_i hwheel
      exact (injectMouseWheel_makes _ _ c).mono fun ev hev => .inr ⟨hev.1, hwheel⟩
    · exact .refl _
  | some b =>
    let ev : MouseEvent :=
      { action := if down then .buttonDown else .buttonUp,
        displayX := clampAxis c.pointerX c.screenW, displayY := clampAxis c.pointerY c.screenH,
        globalX := clampAxis c.pointerX c.screenW, globalY := clampAxis c.pointerY c.screenH,
        button := some b }
    have hact : ev.OfButton := by
      cases down
      · exact .inr rfl
      · exact .inl rfl
    exact .inject (e := ev) (.inl ⟨hact, rfl, rfl, rfl, rfl⟩) c

theorem moveTo_makes (x y : Int) (c : DeskflowClient) :
    MakesOnly (fun ev => ev.action = .move ∧ ev.button = c.draggedButton ∧
      ev.At (c.clamped (x, y))) c (c.moveTo x y) :=
  injectMouseMove_makes x y { c with pointerX := x, pointerY := y }

theorem enterScreen_makes (x y : Int16) (seq : UInt32) (mask : Int16) (c : DeskflowClient) :
    MakesOnly (Made c (.cinn x y seq mask)) c (c.enterScreen x y seq mask) := by
  unfold enterScreen
  split
  · rename_i hon
    have hto : (Message.cinn x y seq mask).pointer c.screenW c.screenH c.pointer =
        (x.toInt, y.toInt) := if_pos hon
    have hmove := moveTo_makes x.toInt y.toInt { c with active := true, seqNum := seq }
    exact ((hmove.mono fun ev hev => .move hev.1 hev.2.1 (hto.symm ▸ hev.2.2)).trans
      (.keyOnly (syncModifiers_keyOnly _ _))).trans (.noInput (noInput_emit rfl _))
  · exact
      (MakesOnly.keyOnly (syncModifiers_keyOnly _ { c with active := true, seqNum := seq })).trans
      (.noInput (noInput_emit rfl _))

theorem releaseButtons_makes {es : List (Int × Bool)}
    (h : ∀ e ∈ es, (buttonToHarmony e.1).isSome) (c : DeskflowClient) :
    MakesOnly (fun ev => ev.OfButton ∧ ev.At (c.clamped c.pointer)) c
      (es.foldl (fun c e => if e.2 then (c.injectMouseButton e.1 false).2 else c) c) := by
  induction es generalizing c with
  | nil => exact .refl _
  | cons e es ih =>
    have hrest := ih fun e he => h e (List.mem_cons_of_mem _ he)
    have hcode := h e (by simp)
    have hwheel : ¬(e.1 = kButtonWheelUp ∨ e.1 = kButtonWheelDown) := by
      rintro (hk | hk) <;> rw [hk] at hcode <;> cases hcode
    rw [List.foldl_cons]
    split_ifs
    · have hone := (injectMouseButton_makes e.1 false c).mono fun ev hev =>
        hev.resolve_right fun hw => hwheel hw.2
      have hsame := injectMouseButton_mouseOnly e.1 false c
      have hpointer : (c.injectMouseButton e.1 false).2.clamped
          (c.injectMouseButton e.1 false).2.pointer = c.clamped c.pointer := by
        rw [hsame.rest]
        rfl
      exact hone.trans (hpointer ▸ hrest (c.injectMouseButton e.1 false).2)
    · exact hrest c

theorem perform_makes {c : DeskflowClient}
    (h : ∀ e ∈ c.mouseButtonsDown.entries, (buttonToHarmony e.1).isSome) (m : Message) :
    MakesOnly (Made c m) c (c.perform m).2 := by
  have hwheel (button : UInt8) (hk : (button.toNat : Int) = kButtonWheelUp ∨
      (button.toNat : Int) = kButtonWheelDown) : (button == 4 || button == 5) = true := by
    rw [Bool.or_eq_true, beq_iff_eq, beq_iff_eq, ← UInt8.toNat_inj, ← UInt8.toNat_inj]
    exact hk.imp Int.ofNat_inj.mp Int.ofNat_inj.mp
  cases m with
  | cinn x y seq mask => exact enterScreen_makes x y seq mask c
  | cout =>
    have hmade := (releaseButtons_makes h { c with active := false }).mono fun ev hev =>
      (.button hev.1 hev.2 : Made c .cout ev)
    exact hmade.trans (.single (Event.makes_of_not_isInput rfl) _)
  | dmmv x y =>
    exact (moveTo_makes x.toInt y.toInt c).mono fun ev hev => .move hev.1 hev.2.1 hev.2.2
  | dmrm dx dy =>
    have hto (x y : Int) (hby : c.moveBy dx dy = c.moveTo x y) :
        (x, y) = (Message.dmrm dx dy).pointer c.screenW c.screenH c.pointer := by
      have hpointer := congrArg Standing.pointer (moveBy_standing dx dy c)
      rwa [hby, moveTo_standing] at hpointer
    refine (moveTo_makes _ _ c).mono fun ev hev => .move hev.1 hev.2.1 ?_
    rw [← hto _ _ rfl]
    exact hev.2.2
  | dmdn button =>
    apply (injectMouseButton_makes _ true c).mono
    intro ev hev
    rcases hev with ⟨hact, hat⟩ | ⟨⟨hact, hat⟩, hk⟩
    · exact .button hact hat
    · exact .scroll hact hat (hwheel button hk)
  | dmup button =>
    apply (injectMouseButton_makes _ false c).mono
    intro ev hev
    rcases hev with ⟨hact, hat⟩ | ⟨⟨hact, hat⟩, hk⟩
    · exact .button hact hat
    · exact .scroll hact hat (hwheel button hk)
  | dmwm xDelta yDelta =>
    refine (injectMouseWheel_makes _ _ c).mono fun ev hev => .scroll hev.1.1 hev.1.2 ?_
    have hz (v : Int16) : v.toInt ≠ 0 → v ≠ 0 := by rintro hv rfl; exact hv rfl
    simp only [Message.scrolls, Bool.or_eq_true, bne_iff_ne]
    exact hev.2.symm.imp (hz xDelta) (hz yDelta)
  | dkdn id mask button => exact .keyOnly (pressKey_keyOnly id mask c)
  | dkup id mask button => exact .keyOnly (releaseKey_keyOnly id mask c)
  | dkrp id mask count button lang => exact .keyOnly (pressKey_keyOnly id mask c)
  | dkdl id mask button lang => exact .keyOnly (pressKey_keyOnly id mask c)
  | _ => exact .noInput (perform_noInput rfl c)

end DeskflowClient

end Deskflow
