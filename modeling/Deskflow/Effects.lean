import Deskflow.HandlerEffects

/-! The messages that leave the input or the clipboard of a client as they are. -/

namespace Deskflow

open History

namespace DeskflowClient

/-- Keys and buttons are as before, and nothing was injected. -/
structure NoInput (c c' : DeskflowClient) : Prop where
  keyStates : c'.keyStates = c.keyStates
  mouseButtonsDown : c'.mouseButtonsDown = c.mouseButtonsDown
  world : World.Extends (fun e => e.isInput = false) c.world c'.world

theorem NoInput.trans {c c' c'' : DeskflowClient} (h : NoInput c c') (h' : NoInput c' c'') :
    NoInput c c'' :=
  ⟨h'.keyStates.trans h.keyStates, h'.mouseButtonsDown.trans h.mouseButtonsDown,
    h.world.trans h'.world⟩

theorem noInput_emit {e : Event} (h : e.isInput = false) (c : DeskflowClient) :
    NoInput c (c.emit e) := ⟨rfl, rfl, .emit h c.world⟩

theorem noInput_write (o : Outgoing) (c : DeskflowClient) : NoInput c (c.write o).2 := by
  have hset : NoInput c { c with stream := (c.stream.writeFrame o.payload).2 } :=
    ⟨rfl, rfl, .refl _⟩
  unfold write
  dsimp only
  split
  · exact hset.trans (noInput_emit rfl _)
  · exact hset

theorem noInput_clipboardEnd (c : DeskflowClient) : NoInput c c.clipboardEnd := by
  unfold clipboardEnd
  split
  · exact ⟨rfl, rfl, .refl _⟩
  · dsimp only
    split
    · have hset : NoInput c { c with
          lastClipboardText := unmarshalText c.clipChunk.buffer
          clipChunk := { c.clipChunk with active := false, buffer := [] } } :=
        ⟨rfl, rfl, .refl _⟩
      exact hset.trans (noInput_emit rfl _)
    · exact ⟨rfl, rfl, .refl _⟩

theorem perform_noInput {m : Message} (h : m.injects = false) (c : DeskflowClient) :
    NoInput c (c.perform m).2 := by
  have hstop : NoInput c { c with shouldReconnect := false } := ⟨rfl, rfl, .refl _⟩
  cases m with
  | cinn x y seq mask => cases h
  | cout => cases h
  | dmmv x y => cases h
  | dmrm dx dy => cases h
  | dmdn button => cases h
  | dmup button => cases h
  | dmwm xDelta yDelta => cases h
  | dkdn id mask button => cases h
  | dkup id mask button => cases h
  | dkrp id mask count button lang => cases h
  | dkdl id mask button lang => cases h
  | qinf => exact noInput_write _ c
  | calv => exact noInput_write _ c
  | cbye => exact hstop.trans (noInput_emit rfl _)
  | eicv a b => exact hstop.trans (noInput_emit rfl _)
  | ebsy => exact noInput_emit rfl c
  | eunk => exact noInput_emit rfl c
  | ebad => exact noInput_emit rfl c
  | dclp id seq mark data =>
    simp only [perform]
    split_ifs
    · unfold clipboardStart
      dsimp only
      split_ifs <;> exact ⟨rfl, rfl, .refl _⟩
    · unfold clipboardChunk
      split_ifs <;> exact ⟨rfl, rfl, .refl _⟩
    · exact noInput_clipboardEnd c
    · exact ⟨rfl, rfl, .refl _⟩
  | _ => exact ⟨rfl, rfl, .refl _⟩

structure Spares (c c' : DeskflowClient) : Prop where
  clipChunk : c'.clipChunk = c.clipChunk
  clipboardSync : c'.clipboardSync = c.clipboardSync
  handshakeDone : c'.handshakeDone = c.handshakeDone
  log : Grows (fun e => e.isClipboard = false) c.world.log c'.world.log

theorem Spares.trans {c c' c'' : DeskflowClient} (h : Spares c c') (h' : Spares c' c'') :
    Spares c c'' :=
  ⟨h'.clipChunk.trans h.clipChunk, h'.clipboardSync.trans h.clipboardSync,
    h'.handshakeDone.trans h.handshakeDone, h.log.trans h'.log⟩

theorem spares_emit {e : Event} (h : e.isClipboard = false) (c : DeskflowClient) :
    Spares c (c.emit e) :=
  ⟨rfl, rfl, rfl, .single (p := fun e : Event => e.isClipboard = false) h _⟩

theorem spares_write (o : Outgoing) (c : DeskflowClient) : Spares c (c.write o).2 := by
  have hset : Spares c { c with stream := (c.stream.writeFrame o.payload).2 } :=
    ⟨rfl, rfl, rfl, .refl _⟩
  unfold write
  dsimp only
  split
  · exact hset.trans (spares_emit rfl _)
  · exact hset

theorem MouseOnly.spares {c c' : DeskflowClient} (h : MouseOnly c c') : Spares c c' := by
  obtain ⟨hrest, hworld⟩ := h
  have hlog := hworld.log.mono fun _ => Event.not_isClipboard_of_isMouse
  rw [hrest]
  exact ⟨rfl, rfl, rfl, hlog⟩

theorem KeyOnly.spares {c c' : DeskflowClient} (h : KeyOnly c c') : Spares c c' := by
  obtain ⟨hrest, hworld⟩ := h
  have hlog := hworld.log.mono fun _ => Event.not_isClipboard_of_isKey
  rw [hrest]
  exact ⟨rfl, rfl, rfl, hlog⟩

theorem moveTo_spares (x y : Int) (c : DeskflowClient) : Spares c (c.moveTo x y) := by
  have hset : Spares c { c with pointerX := x, pointerY := y } := ⟨rfl, rfl, rfl, .refl _⟩
  exact hset.trans (injectMouseMove_mouseOnly x y _).spares

theorem enterScreen_spares (x y : Int16) (seq : UInt32) (mask : Int16) (c : DeskflowClient) :
    Spares c (c.enterScreen x y seq mask) := by
  have hset : Spares c { c with active := true, seqNum := seq } := ⟨rfl, rfl, rfl, .refl _⟩
  unfold enterScreen
  split
  · exact ((hset.trans (moveTo_spares x.toInt y.toInt _)).trans
      (syncModifiers_keyOnly _ _).spares).trans (spares_emit rfl _)
  · exact (hset.trans (syncModifiers_keyOnly _ _).spares).trans (spares_emit rfl _)

theorem leaveScreen_spares (c : DeskflowClient) : Spares c c.leaveScreen := by
  have hset : Spares c { c with active := false } := ⟨rfl, rfl, rfl, .refl _⟩
  have hbuttons := hset.trans
    (releaseButtons_mouseOnly c.mouseButtonsDown.entries { c with active := false }).spares
  have hclear (c : DeskflowClient) : Spares c { c with mouseButtonsDown := .empty } :=
    ⟨rfl, rfl, rfl, .refl _⟩
  exact (hbuttons.trans (hclear _)).trans (spares_emit rfl _)

theorem perform_spares {m : Message} (hclip : m.key ≠ .DCLP) (hset : m.key ≠ .DSOP)
    (c : DeskflowClient) : Spares c (c.perform m).2 := by
  have hstop : Spares c { c with shouldReconnect := false } := ⟨rfl, rfl, rfl, .refl _⟩
  cases m with
  | qinf => exact spares_write _ c
  | calv => exact spares_write _ c
  | cinn x y seq mask => exact enterScreen_spares x y seq mask c
  | cout => exact leaveScreen_spares c
  | dmmv x y => exact moveTo_spares _ _ c
  | dmrm dx dy => exact moveTo_spares _ _ c
  | dmdn button => exact (injectMouseButton_mouseOnly _ _ c).spares
  | dmup button => exact (injectMouseButton_mouseOnly _ _ c).spares
  | dmwm xDelta yDelta => exact (injectMouseWheel_mouseOnly _ _ c).spares
  | dkdn id mask button => exact (pressKey_keyOnly id mask c).spares
  | dkup id mask button => exact (releaseKey_keyOnly id mask c).spares
  | dkrp id mask count button lang => exact (pressKey_keyOnly id mask c).spares
  | dkdl id mask button lang => exact (pressKey_keyOnly id mask c).spares
  | dclp id seq mark data => exact absurd rfl hclip
  | dsop options => exact absurd rfl hset
  | cbye => exact hstop.trans (spares_emit rfl _)
  | eicv a b => exact hstop.trans (spares_emit rfl _)
  | ebsy => exact spares_emit rfl c
  | eunk => exact spares_emit rfl c
  | ebad => exact spares_emit rfl c
  | _ => exact ⟨rfl, rfl, rfl, .refl _⟩

theorem acknowledge_world (r : Bool × DeskflowClient) :
    World.Extends (Event.isEffect ·) r.2.world (acknowledge r).2.world := by
  unfold acknowledge
  split
  · exact write_world .cnop r.2
  · exact .refl _

end DeskflowClient

end Deskflow
