import Deskflow.History
import Deskflow.Session

/-! What the handlers do to the world and to the client, part by part. -/

namespace Deskflow

open History

namespace Event

def isMouse : Event → Bool
  | .injected (.mouse _) _ => true
  | _ => false

def isKey : Event → Bool
  | .injected (.key _) _ => true
  | _ => false

/-- The events of a message handler apart from its writes. -/
def isInternal : Event → Bool
  | .injected _ _ => true
  | .status _ => true
  | .clipboard _ => true
  | _ => false

/-- Everything but the marks of the control flow. -/
def isEffect : Event → Bool
  | .frame _ => true
  | e => e.isInternal

theorem isEffect_of_isInternal {e : Event} (h : e.isInternal) : e.isEffect := by
  cases e <;> simp_all [isEffect, isInternal]

def isInput : Event → Bool
  | .injected _ _ => true
  | _ => false

/-- The events that concern incoming clipboards. -/
def isClipboard : Event → Bool
  | .clipboard _ => true
  | .clipboardSync _ => true
  | _ => false

theorem not_isClipboard_of_isMouse {e : Event} (h : e.isMouse) : e.isClipboard = false := by
  cases e <;> simp_all [isMouse, isClipboard]

theorem not_isClipboard_of_isKey {e : Event} (h : e.isKey) : e.isClipboard = false := by
  cases e <;> simp_all [isKey, isClipboard]

theorem isInternal_of_isMouse {e : Event} (h : e.isMouse) : e.isInternal := by
  cases e <;> simp_all [isMouse, isInternal]

theorem isInternal_of_isKey {e : Event} (h : e.isKey) : e.isInternal := by
  cases e <;> simp_all [isKey, isInternal]

end Event

/-- Injection answers may be used up and events of the given kind added. -/
structure World.Extends (p : Event → Prop) (w w' : World) : Prop where
  injections : w'.injections <:+ w.injections
  stopLoads : w'.stopLoads = w.stopLoads
  autoLoads : w'.autoLoads = w.autoLoads
  log : Grows p w.log w'.log

namespace World.Extends

variable {p q : Event → Prop} {w w' w'' : World}

theorem refl (w : World) : Extends p w w := ⟨List.suffix_refl _, rfl, rfl, .refl _⟩

theorem trans (h : Extends p w w') (h' : Extends p w' w'') : Extends p w w'' :=
  ⟨h'.injections.trans h.injections, h'.stopLoads.trans h.stopLoads,
    h'.autoLoads.trans h.autoLoads, h.log.trans h'.log⟩

theorem mono (h : Extends p w w') (hpq : ∀ e, p e → q e) : Extends q w w' :=
  ⟨h.injections, h.stopLoads, h.autoLoads, h.log.mono hpq⟩

theorem emit {e : Event} (h : p e) (w : World) : Extends p w (w.emit e) :=
  ⟨List.suffix_refl _, rfl, rfl, .single h _⟩

theorem inject {e : InputEvent} (h : ∀ ok, p (.injected e ok)) (w : World) :
    Extends p w (w.inject e).2 := by
  unfold World.inject
  split <;> rename_i he
  · exact emit (h true) w
  · exact ⟨by simp [World.emit, he], rfl, rfl, .single (h true) _⟩
  · exact ⟨by simp [World.emit, he], rfl, rfl, .single (h false) _⟩
  · exact ⟨by simp [he], rfl, rfl, .refl _⟩

end World.Extends

/-- The settings that the connection phase only reads. -/
structure Settings where
  screenW : Int
  screenH : Int
  invertScroll : Bool
  clipboardSync : Bool
  deriving DecidableEq, Repr

/-- The arguments of `start`. -/
structure Target where
  host : Bytes
  port : UInt16
  screenName : Bytes
  deriving DecidableEq, Repr

/-- What no handler writes. -/
structure Setup where
  settings : Settings
  target : Target
  reconnectIntervalMs : Nat
  running : Bool

namespace DeskflowClient

def settings (c : DeskflowClient) : Settings :=
  ⟨c.screenW, c.screenH, c.invertScroll, c.clipboardSync⟩

def target (c : DeskflowClient) : Target := ⟨c.host, c.port, c.screenName⟩

def setup (c : DeskflowClient) : Setup :=
  ⟨c.settings, c.target, c.reconnectIntervalMs, c.running⟩

/-- Only mouse events were injected, and only the buttons may have changed. -/
structure MouseOnly (c c' : DeskflowClient) : Prop where
  rest : c' = { c with mouseButtonsDown := c'.mouseButtonsDown, world := c'.world }
  world : World.Extends (Event.isMouse ·) c.world c'.world

/-- Only key events were injected, and only the key states may have changed. -/
structure KeyOnly (c c' : DeskflowClient) : Prop where
  rest : c' = { c with keyStates := c'.keyStates, world := c'.world }
  world : World.Extends (Event.isKey ·) c.world c'.world

/-- Nothing was read or written, and nothing that a handler leaves as it is changed. -/
structure Internal (c c' : DeskflowClient) : Prop where
  stream : c'.stream = c.stream
  setup : c'.setup = c.setup
  world : World.Extends (Event.isInternal ·) c.world c'.world

theorem MouseOnly.refl (c : DeskflowClient) : MouseOnly c c := ⟨rfl, .refl _⟩

theorem MouseOnly.trans {c c' c'' : DeskflowClient} (h : MouseOnly c c') (h' : MouseOnly c' c'') :
    MouseOnly c c'' := by
  refine ⟨?_, h.world.trans h'.world⟩
  have hrest := h'.rest
  rw [h.rest] at hrest
  exact hrest

theorem KeyOnly.refl (c : DeskflowClient) : KeyOnly c c := ⟨rfl, .refl _⟩

theorem KeyOnly.trans {c c' c'' : DeskflowClient} (h : KeyOnly c c') (h' : KeyOnly c' c'') :
    KeyOnly c c'' := by
  refine ⟨?_, h.world.trans h'.world⟩
  have hrest := h'.rest
  rw [h.rest] at hrest
  exact hrest

theorem Internal.refl (c : DeskflowClient) : Internal c c := ⟨rfl, rfl, .refl _⟩

theorem Internal.trans {c c' c'' : DeskflowClient} (h : Internal c c') (h' : Internal c' c'') :
    Internal c c'' :=
  ⟨h'.stream.trans h.stream, h'.setup.trans h.setup, h.world.trans h'.world⟩

theorem MouseOnly.internal {c c' : DeskflowClient} (h : MouseOnly c c') : Internal c c' := by
  obtain ⟨hrest, hworld⟩ := h
  have hworld' := hworld.mono fun _ => Event.isInternal_of_isMouse
  rw [hrest]
  exact ⟨rfl, rfl, hworld'⟩

theorem KeyOnly.internal {c c' : DeskflowClient} (h : KeyOnly c c') : Internal c c' := by
  obtain ⟨hrest, hworld⟩ := h
  have hworld' := hworld.mono fun _ => Event.isInternal_of_isKey
  rw [hrest]
  exact ⟨rfl, rfl, hworld'⟩

theorem internal_emit {e : Event} (h : e.isInternal) (c : DeskflowClient) :
    Internal c (c.emit e) := ⟨rfl, rfl, .emit h _⟩

theorem internal_setStatus (s : Bytes) (c : DeskflowClient) : Internal c (c.setStatus s) :=
  internal_emit rfl c

theorem injectMouseMove_mouseOnly (x y : Int) (c : DeskflowClient) :
    MouseOnly c (c.injectMouseMove x y).2 := ⟨rfl, .inject (fun _ => rfl) _⟩

theorem injectAxis_mouseOnly (axis : MouseAxis) (value : Int) (actions : List MouseAction)
    (c : DeskflowClient) : MouseOnly c (c.injectAxis axis value actions).2 := by
  induction actions generalizing c with
  | nil => exact .refl c
  | cons action actions ih =>
    have hone : MouseOnly c (c.inject (.mouse
        { action := action, displayX := c.pointerX, displayY := c.pointerY,
          globalX := c.pointerX, globalY := c.pointerY, axis := some (axis, value) })).2 :=
      ⟨rfl, .inject (fun _ => rfl) _⟩
    rw [injectAxis]
    split <;> rename_i hc
    · rw [hc] at hone
      exact hone.trans (ih _)
    · rwa [hc] at hone

theorem injectMouseWheel_mouseOnly (xDelta yDelta : Int) (c : DeskflowClient) :
    MouseOnly c (c.injectMouseWheel xDelta yDelta).2 := by
  unfold injectMouseWheel
  dsimp only
  split
  · exact .refl c
  · exact injectAxis_mouseOnly _ _ _ c

theorem injectMouseButton_mouseOnly (buttonId : Int) (down : Bool) (c : DeskflowClient) :
    MouseOnly c (c.injectMouseButton buttonId down).2 := by
  unfold injectMouseButton
  split
  · split
    · exact injectMouseWheel_mouseOnly _ _ c
    · exact .refl c
  · exact ⟨rfl, .inject (fun _ => rfl) _⟩

theorem releaseButtons_mouseOnly (es : List (Int × Bool)) (c : DeskflowClient) :
    MouseOnly c
      (es.foldl (fun c e => if e.2 then (c.injectMouseButton e.1 false).2 else c) c) := by
  induction es generalizing c with
  | nil => exact .refl c
  | cons e es ih =>
    rw [List.foldl_cons]
    split_ifs
    · exact (injectMouseButton_mouseOnly e.1 false c).trans (ih _)
    · exact ih c

theorem injectKeyEvent_keyOnly (keysym : UInt32) (down : Bool) (c : DeskflowClient) :
    KeyOnly c (c.injectKeyEvent keysym down).2 := by
  unfold injectKeyEvent
  dsimp only
  split_ifs
  · exact .refl c
  · exact ⟨rfl, .inject (fun _ => rfl) _⟩

theorem setKeyState_keyOnly (keysym : UInt32) (down : Bool) (c : DeskflowClient) :
    KeyOnly c (c.setKeyState keysym down) := by
  have hinject := injectKeyEvent_keyOnly keysym down c
  refine ⟨?_, hinject.world⟩
  unfold setKeyState
  rw [hinject.rest]

theorem syncModifier_keyOnly (mask bit : UInt32) (c : DeskflowClient) :
    KeyOnly c (c.syncModifier mask bit) := by
  unfold syncModifier
  dsimp only
  split_ifs
  · exact .refl c
  · exact setKeyState_keyOnly _ _ c
  · exact setKeyState_keyOnly _ _ c
  · exact .refl c

theorem syncModifiers_keyOnly (mask : UInt32) (c : DeskflowClient) :
    KeyOnly c (c.syncModifiers mask) := by
  unfold syncModifiers
  induction kModBits generalizing c with
  | nil => exact .refl c
  | cons bit bits ih => exact (syncModifier_keyOnly mask bit c).trans (ih _)

theorem pressKey_keyOnly (id mask : Int16) (c : DeskflowClient) :
    KeyOnly c (c.pressKey id mask) := by
  unfold pressKey
  dsimp only
  split_ifs
  · exact (syncModifiers_keyOnly _ c).trans (setKeyState_keyOnly _ _ _)
  · exact syncModifiers_keyOnly _ c

theorem releaseKey_keyOnly (id mask : Int16) (c : DeskflowClient) :
    KeyOnly c (c.releaseKey id mask) := by
  unfold releaseKey
  dsimp only
  split_ifs
  · exact (syncModifiers_keyOnly _ c).trans (setKeyState_keyOnly _ _ _)
  · exact syncModifiers_keyOnly _ c

theorem moveTo_internal (x y : Int) (c : DeskflowClient) : Internal c (c.moveTo x y) := by
  have hset : Internal c { c with pointerX := x, pointerY := y } := ⟨rfl, rfl, .refl _⟩
  exact hset.trans (injectMouseMove_mouseOnly x y _).internal

theorem enterScreen_internal (x y : Int16) (seq : UInt32) (mask : Int16) (c : DeskflowClient) :
    Internal c (c.enterScreen x y seq mask) := by
  have hset : Internal c { c with active := true, seqNum := seq } := ⟨rfl, rfl, .refl _⟩
  unfold enterScreen
  split
  · exact ((hset.trans (moveTo_internal x.toInt y.toInt _)).trans
      (syncModifiers_keyOnly _ _).internal).trans (internal_setStatus _ _)
  · exact (hset.trans (syncModifiers_keyOnly _ _).internal).trans (internal_setStatus _ _)

theorem leaveScreen_internal (c : DeskflowClient) : Internal c c.leaveScreen := by
  have hset : Internal c { c with active := false } := ⟨rfl, rfl, .refl _⟩
  have hbuttons := hset.trans
    (releaseButtons_mouseOnly c.mouseButtonsDown.entries { c with active := false }).internal
  have hclear (c : DeskflowClient) : Internal c { c with mouseButtonsDown := .empty } :=
    ⟨rfl, rfl, .refl _⟩
  exact (hbuttons.trans (hclear _)).trans (internal_setStatus _ _)

theorem clipboardStart_internal (seq : UInt32) (data : Bytes) (c : DeskflowClient) :
    Internal c (c.clipboardStart seq data) := by
  unfold clipboardStart
  dsimp only
  split_ifs <;> exact ⟨rfl, rfl, .refl _⟩

theorem clipboardChunk_internal (data : Bytes) (c : DeskflowClient) :
    Internal c (c.clipboardChunk data) := by
  unfold clipboardChunk
  split_ifs <;> exact ⟨rfl, rfl, .refl _⟩

theorem clipboardEnd_internal (c : DeskflowClient) : Internal c c.clipboardEnd := by
  unfold clipboardEnd
  split
  · exact .refl c
  · dsimp only
    split
    · have hset : Internal c { c with
          lastClipboardText := unmarshalText c.clipChunk.buffer
          clipChunk := { c.clipChunk with active := false, buffer := [] } } :=
        ⟨rfl, rfl, .refl _⟩
      exact hset.trans (internal_emit rfl _)
    · exact ⟨rfl, rfl, .refl _⟩

/-- The frame a message is answered with by its own handler. -/
def reply (c : DeskflowClient) : Message → Option Outgoing
  | .qinf => some (.dinf c.screenW c.screenH c.pointerX c.pointerY)
  | .calv => some .calv
  | _ => none

theorem perform_of_reply {m : Message} {c : DeskflowClient} {o : Outgoing}
    (h : c.reply m = some o) : c.perform m = c.write o := by
  cases m <;> simp only [reply, Option.some.injEq, reduceCtorEq] at h <;> subst h <;> rfl

theorem perform_internal {m : Message} {c : DeskflowClient} (h : c.reply m = none) :
    Internal c (c.perform m).2 := by
  have hstop : Internal c { c with shouldReconnect := false } := ⟨rfl, rfl, .refl _⟩
  cases m with
  | qinf => simp [reply] at h
  | calv => simp [reply] at h
  | cinn x y seq mask => exact enterScreen_internal x y seq mask c
  | cout => exact leaveScreen_internal c
  | dmmv x y => exact moveTo_internal _ _ c
  | dmrm dx dy => exact moveTo_internal _ _ c
  | dmdn button => exact (injectMouseButton_mouseOnly _ _ c).internal
  | dmup button => exact (injectMouseButton_mouseOnly _ _ c).internal
  | dmwm xDelta yDelta => exact (injectMouseWheel_mouseOnly _ _ c).internal
  | dkdn id mask button => exact (pressKey_keyOnly id mask c).internal
  | dkup id mask button => exact (releaseKey_keyOnly id mask c).internal
  | dkrp id mask count button lang => exact (pressKey_keyOnly id mask c).internal
  | dkdl id mask button lang => exact (pressKey_keyOnly id mask c).internal
  | dclp id seq mark data =>
    simp only [perform]
    split_ifs
    · exact clipboardStart_internal seq data c
    · exact clipboardChunk_internal data c
    · exact clipboardEnd_internal c
    · exact .refl c
  | cbye => exact hstop.trans (internal_setStatus _ _)
  | eicv a b => exact hstop.trans (internal_setStatus _ _)
  | ebsy => exact internal_setStatus _ c
  | eunk => exact internal_setStatus _ c
  | ebad => exact internal_setStatus _ c
  | dsop options => exact ⟨rfl, rfl, .refl _⟩
  | _ => exact .refl c

theorem write_setup (o : Outgoing) (c : DeskflowClient) : (c.write o).2.setup = c.setup := by
  unfold write
  dsimp only
  split_ifs <;> rfl

theorem perform_setup (m : Message) (c : DeskflowClient) : (c.perform m).2.setup = c.setup := by
  cases hr : c.reply m with
  | none => exact (perform_internal hr).setup
  | some o =>
    rw [perform_of_reply hr]
    exact write_setup o c

theorem perform_settings (m : Message) (c : DeskflowClient) :
    (c.perform m).2.settings = c.settings :=
  congrArg Setup.settings (perform_setup m c)

theorem write_framed {o : Outgoing} {c : DeskflowClient} (h : (c.write o).1 = true) :
    (c.write o).2.world.log = c.world.log ++ [.frame o] := by
  unfold write at h ⊢
  dsimp only at h ⊢
  rw [if_pos h]
  rfl

theorem write_world (o : Outgoing) (c : DeskflowClient) :
    World.Extends (Event.isEffect ·) c.world (c.write o).2.world := by
  unfold write
  dsimp only
  split
  · have hframe : (Event.frame o).isEffect := rfl
    exact .emit hframe c.world
  · exact .refl c.world

theorem perform_world (m : Message) (c : DeskflowClient) :
    World.Extends (Event.isEffect ·) c.world (c.perform m).2.world := by
  cases hr : c.reply m with
  | none => exact (perform_internal hr).world.mono fun _ => Event.isEffect_of_isInternal
  | some o =>
    rw [perform_of_reply hr]
    exact write_world o c

end DeskflowClient

end Deskflow
