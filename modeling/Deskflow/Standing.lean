import Deskflow.Effects

/-! What a message does to the part of the client that outlives it on a connection:
the pointer, the runtime phase and the wish to come back. -/

namespace Deskflow

namespace Message

def pointer (w h : Int) (p : Int × Int) : Message → Int × Int
  | .cinn x y _ _ => if 0 ≤ x.toInt ∧ 0 ≤ y.toInt then (x.toInt, y.toInt) else p
  | .dmmv x y => (x.toInt, y.toInt)
  | .dmrm dx dy => (min (max (p.1 + dx.toInt) 0) (w - 1), min (max (p.2 + dy.toInt) 0) (h - 1))
  | _ => p

/-- The messages after which the client does not come back. -/
def dismisses : Message → Bool
  | .cbye => true
  | .eicv _ _ => true
  | _ => false

end Message

structure Standing where
  pointer : Int × Int
  runtime : Bool
  comesBack : Bool

namespace DeskflowClient

def pointer (c : DeskflowClient) : Int × Int := (c.pointerX, c.pointerY)

def standing (c : DeskflowClient) : Standing :=
  ⟨c.pointer, c.handshakeDone, c.shouldReconnect⟩

theorem MouseOnly.standing {c c' : DeskflowClient} (h : MouseOnly c c') :
    c'.standing = c.standing := by
  rw [h.rest]
  rfl

theorem KeyOnly.standing {c c' : DeskflowClient} (h : KeyOnly c c') :
    c'.standing = c.standing := by
  rw [h.rest]
  rfl

theorem write_standing (o : Outgoing) (c : DeskflowClient) :
    (c.write o).2.standing = c.standing := by
  unfold write
  dsimp only
  split_ifs <;> rfl

theorem moveTo_standing (x y : Int) (c : DeskflowClient) :
    (c.moveTo x y).standing = { c.standing with pointer := (x, y) } :=
  (injectMouseMove_mouseOnly x y { c with pointerX := x, pointerY := y }).standing

theorem moveBy_standing (dx dy : Int16) (c : DeskflowClient) :
    (c.moveBy dx dy).standing = { c.standing with
      pointer := (min (max (c.pointerX + dx.toInt) 0) (c.screenW - 1),
        min (max (c.pointerY + dy.toInt) 0) (c.screenH - 1)) } := by
  have hclip (v size : Int) : (if (if v < 0 then 0 else v) ≥ size then size - 1
      else if v < 0 then 0 else v) = min (max v 0) (size - 1) := by
    split_ifs <;> omega
  rw [moveBy, moveTo_standing, hclip, hclip]

theorem enterScreen_standing (x y : Int16) (seq : UInt32) (mask : Int16) (c : DeskflowClient) :
    (c.enterScreen x y seq mask).standing = { c.standing with
      pointer := if 0 ≤ x.toInt ∧ 0 ≤ y.toInt then (x.toInt, y.toInt) else c.pointer } := by
  have hstatus (s : Bytes) (c : DeskflowClient) : (c.setStatus s).standing = c.standing := rfl
  unfold enterScreen
  dsimp only
  rw [hstatus, (syncModifiers_keyOnly _ _).standing]
  split_ifs
  · exact moveTo_standing x.toInt y.toInt { c with active := true, seqNum := seq }
  · rfl

theorem leaveScreen_standing (c : DeskflowClient) : c.leaveScreen.standing = c.standing :=
  (releaseButtons_mouseOnly c.mouseButtonsDown.entries { c with active := false }).standing

theorem clipboard_standing (id : UInt8) (seq : UInt32) (mark : UInt8) (data : Bytes)
    (c : DeskflowClient) : (c.perform (.dclp id seq mark data)).2.standing = c.standing := by
  simp only [perform]
  split_ifs
  · unfold clipboardStart
    dsimp only
    split_ifs <;> rfl
  · unfold clipboardChunk
    split_ifs <;> rfl
  · unfold clipboardEnd
    dsimp only
    split_ifs <;> rfl
  · rfl

theorem perform_standing (m : Message) (c : DeskflowClient) :
    (c.perform m).2.standing = { c.standing with
      pointer := m.pointer c.screenW c.screenH c.pointer
      runtime := c.handshakeDone || m.key == .DSOP
      comesBack := c.shouldReconnect && !m.dismisses } := by
  have hkeep {s : Standing} (p : Int × Int) (h : s = { c.standing with pointer := p }) :
      s = { c.standing with
        pointer := p
        runtime := c.handshakeDone || false
        comesBack := c.shouldReconnect && !false } := by
    simp [h, standing]
  cases m with
  | qinf => exact hkeep _ (write_standing _ c)
  | calv => exact hkeep _ (write_standing _ c)
  | cinn x y seq mask => exact hkeep _ (enterScreen_standing x y seq mask c)
  | cout => exact hkeep _ (leaveScreen_standing c)
  | dmmv x y => exact hkeep _ (moveTo_standing _ _ c)
  | dmrm dx dy => exact hkeep _ (moveBy_standing dx dy c)
  | dmdn button => exact hkeep _ (injectMouseButton_mouseOnly _ _ c).standing
  | dmup button => exact hkeep _ (injectMouseButton_mouseOnly _ _ c).standing
  | dmwm xDelta yDelta => exact hkeep _ (injectMouseWheel_mouseOnly _ _ c).standing
  | dkdn id mask button => exact hkeep _ (pressKey_keyOnly id mask c).standing
  | dkup id mask button => exact hkeep _ (releaseKey_keyOnly id mask c).standing
  | dkrp id mask count button lang => exact hkeep _ (pressKey_keyOnly id mask c).standing
  | dkdl id mask button lang => exact hkeep _ (pressKey_keyOnly id mask c).standing
  | dclp id seq mark data => exact hkeep _ (clipboard_standing id seq mark data c)
  | dsop options =>
    simp [perform, standing, pointer, Message.pointer, Message.key, Message.dismisses]
  | cbye =>
    simp [perform, standing, pointer, Message.pointer, Message.key, Message.dismisses, setStatus,
      emit]
  | eicv a b =>
    simp [perform, standing, pointer, Message.pointer, Message.key, Message.dismisses, setStatus,
      emit]
  | _ => exact hkeep _ rfl

end DeskflowClient

end Deskflow
