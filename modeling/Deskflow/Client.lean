import Mathlib.Logic.Function.Basic
import Deskflow.ClipboardFormat
import Deskflow.KeyCodes
import Deskflow.Messages
import Deskflow.OrderedMap

/-! The client state, the effects it can have and the injection helpers. -/

namespace Deskflow

inductive MouseAction
  | move
  | buttonDown
  | buttonUp
  | axisBegin
  | axisUpdate
  | axisEnd
  deriving DecidableEq, Repr

inductive MouseAxis
  | vertical
  | horizontal
  deriving DecidableEq, Repr

structure MouseEvent where
  action : MouseAction
  displayX : Int
  displayY : Int
  globalX : Int
  globalY : Int
  button : Option MouseButton := none
  axis : Option (MouseAxis × Int) := none
  actionTime : Int := -1
  deriving DecidableEq, Repr

structure KeyEvent where
  keyCode : Int
  down : Bool
  actionTime : Int := -1
  deriving DecidableEq, Repr

inductive InputEvent
  | mouse (ev : MouseEvent)
  | key (ev : KeyEvent)
  deriving DecidableEq, Repr

/-- How an injection goes: `noEvent` is a null pointer from the create call,
`refused` an error code from the inject call. -/
inductive InjectOutcome
  | success
  | noEvent
  | refused
  deriving DecidableEq, Repr

/-- What the client does, in order. `connected`, `dispatched`, `handled`,
`returned` and `clipboardSync` mark points of the control flow and a call of the
setter; the others are effects. -/
inductive Event
  | connected
  | dispatched (key : Bytes)
  | handled (m : Message)
  | returned
  | clipboardSync (enable : Bool)
  | frame (o : Outgoing)
  | injected (e : InputEvent) (ok : Bool)
  | status (s : Bytes)
  | clipboard (text : Bytes)
  deriving DecidableEq, Repr

/-- The answers the surroundings give, each list consumed from its head, and
the history of events. Exhausted lists answer with success, with an unset stop
flag and with automatic reconnection on. -/
structure World where
  injections : List InjectOutcome := []
  stopLoads : List Bool := []
  autoLoads : List Bool := []
  log : List Event := []
  deriving DecidableEq, Repr

namespace World

def emit (e : Event) (w : World) : World := { w with log := w.log ++ [e] }

def inject (e : InputEvent) (w : World) : Bool × World :=
  match w.injections with
  | [] => (true, w.emit (.injected e true))
  | .success :: os => (true, { w with injections := os }.emit (.injected e true))
  | .refused :: os => (false, { w with injections := os }.emit (.injected e false))
  | .noEvent :: os => (false, { w with injections := os })

def loadStop (w : World) : Bool × World :=
  (w.stopLoads.headD false, { w with stopLoads := w.stopLoads.tail })

def loadAuto (w : World) : Bool × World :=
  (w.autoLoads.headD true, { w with autoLoads := w.autoLoads.tail })

end World

structure ClipChunkState where
  active : Bool := false
  buffer : Bytes := []
  expectedSize : Nat := 0
  clipSeq : UInt32 := 0
  deriving DecidableEq, Repr

/-- The members of the client. A key id without an entry in `m_keyStates`
reads as released, so the map is a function; the callbacks are those that
`connectDeskflow` registers before `start`. -/
structure DeskflowClient where
  stream : SocketStream := {}
  world : World := {}
  running : Bool := false
  reconnectIntervalMs : Nat := 3000
  invertScroll : Bool := false
  shouldReconnect : Bool := true
  host : Bytes := []
  port : UInt16 := 0
  screenName : Bytes := []
  screenW : Int := 1280
  screenH : Int := 800
  pointerX : Int := 0
  pointerY : Int := 0
  active : Bool := false
  handshakeDone : Bool := false
  seqNum : UInt32 := 0
  clipboardSync : Bool := false
  lastClipboardText : Bytes := []
  clipChunk : ClipChunkState := {}
  keyStates : UInt32 → Bool := fun _ => false
  mouseButtonsDown : OrderedMap Int Bool := .empty

namespace DeskflowClient

def emit (e : Event) (c : DeskflowClient) : DeskflowClient := { c with world := c.world.emit e }

def setStatus (s : Bytes) (c : DeskflowClient) : DeskflowClient := c.emit (.status s)

def inject (e : InputEvent) (c : DeskflowClient) : Bool × DeskflowClient :=
  ((c.world.inject e).1, { c with world := (c.world.inject e).2 })

def loadStop (c : DeskflowClient) : Bool × DeskflowClient :=
  (c.world.loadStop.1, { c with world := c.world.loadStop.2 })

def loadAuto (c : DeskflowClient) : Bool × DeskflowClient :=
  (c.world.loadAuto.1, { c with world := c.world.loadAuto.2 })

def setClipboardSync (enable : Bool) (c : DeskflowClient) : DeskflowClient :=
  { c with clipboardSync := enable }.emit (.clipboardSync enable)

def write (o : Outgoing) (c : DeskflowClient) : Bool × DeskflowClient :=
  let r := c.stream.writeFrame o.payload
  let c := { c with stream := r.2 }
  (r.1, if r.1 then c.emit (.frame o) else c)

/-- Coordinates on an edge are refused, so they are moved into `[1, size - 1]`. -/
def clampAxis (v size : Int) : Int :=
  if v < 1 then 1 else if v > size - 1 then size - 1 else v

/-- The button a move event carries: the first one recorded down that has a
HarmonyOS code. -/
def draggedButton (c : DeskflowClient) : Option MouseButton :=
  c.mouseButtonsDown.entries.findSome? fun e => if e.2 then buttonToHarmony e.1 else none

def injectMouseMove (x y : Int) (c : DeskflowClient) : Bool × DeskflowClient :=
  let x := clampAxis x c.screenW
  let y := clampAxis y c.screenH
  c.inject (.mouse
    { action := .move, displayX := x, displayY := y, globalX := x, globalY := y,
      button := c.draggedButton })

/-- The loop over the three axis actions; a failure ends it. -/
def injectAxis (axis : MouseAxis) (value : Int) :
    List MouseAction → DeskflowClient → Bool × DeskflowClient
  | [], c => (true, c)
  | action :: actions, c =>
    match c.inject (.mouse
      { action := action, displayX := c.pointerX, displayY := c.pointerY,
        globalX := c.pointerX, globalY := c.pointerY, axis := some (axis, value) }) with
    | (true, c) => injectAxis axis value actions c
    | (false, c) => (false, c)

def injectMouseWheel (xDelta yDelta : Int) (c : DeskflowClient) : Bool × DeskflowClient :=
  if yDelta = 0 ∧ xDelta = 0 then (true, c)
  else
    let yDelta := if c.invertScroll ∧ yDelta ≠ 0 then -yDelta else yDelta
    let axis := if yDelta ≠ 0 then MouseAxis.vertical else .horizontal
    let value := if yDelta ≠ 0 then yDelta else xDelta
    c.injectAxis axis value [.axisBegin, .axisUpdate, .axisEnd]

def injectMouseButton (buttonId : Int) (down : Bool) (c : DeskflowClient) :
    Bool × DeskflowClient :=
  match buttonToHarmony buttonId with
  | none =>
    if buttonId = kButtonWheelUp ∨ buttonId = kButtonWheelDown then
      c.injectMouseWheel 0 (if buttonId = kButtonWheelUp then 1 else -1)
    else (false, c)
  | some harmony =>
    let c := { c with mouseButtonsDown := c.mouseButtonsDown.insert buttonId down }
    let x := clampAxis c.pointerX c.screenW
    let y := clampAxis c.pointerY c.screenH
    c.inject (.mouse
      { action := if down then .buttonDown else .buttonUp, displayX := x, displayY := y,
        globalX := x, globalY := y, button := some harmony })

def injectKeyEvent (keysym : UInt32) (down : Bool) (c : DeskflowClient) :
    Bool × DeskflowClient :=
  let keyCode := keysymToKeycode keysym
  if keyCode < 0 then (false, c)
  else c.inject (.key { keyCode := keyCode, down := down })

def maskModifierKeysym (maskBit : UInt32) : UInt32 :=
  if maskBit = kKeyModifierShift then kKeyShiftL
  else if maskBit = kKeyModifierControl then kKeyControlL
  else if maskBit = kKeyModifierAlt then kKeyAltL
  else if maskBit = kKeyModifierMeta then kKeyMetaL
  else if maskBit = kKeyModifierSuper then kKeySuperL
  else if maskBit = kKeyModifierAltGr then kKeyAltR
  else kKeyNone

def kModBits : List UInt32 :=
  [kKeyModifierShift, kKeyModifierControl, kKeyModifierAlt, kKeyModifierMeta, kKeyModifierSuper,
    kKeyModifierAltGr]

/-- `m_keyStates[keysym] = down` after the injection, whatever it returned. -/
def setKeyState (keysym : UInt32) (down : Bool) (c : DeskflowClient) : DeskflowClient :=
  let c := (c.injectKeyEvent keysym down).2
  { c with keyStates := Function.update c.keyStates keysym down }

/-- One round of the loop of `syncModifiers`. -/
def syncModifier (mask : UInt32) (c : DeskflowClient) (bit : UInt32) : DeskflowClient :=
  let keysym := maskModifierKeysym bit
  if keysym = kKeyNone then c
  else
    let wantDown : Bool := mask &&& bit != 0
    let isDown := c.keyStates keysym
    if wantDown && !isDown then c.setKeyState keysym true
    else if !wantDown && isDown then c.setKeyState keysym false
    else c

def syncModifiers (mask : UInt32) (c : DeskflowClient) : DeskflowClient :=
  kModBits.foldl (syncModifier mask) c

/-- Successive `writeFrame` calls, given up at the first failure. -/
def writeAll : List Outgoing → DeskflowClient → Bool × DeskflowClient
  | [], c => (true, c)
  | o :: os, c =>
    match c.write o with
    | (true, c) => writeAll os c
    | (false, c) => (false, c)

/-- The frames of one transfer: its size in decimal, the chunks and the end. -/
def transferFrames (seq : UInt32) (text : Bytes) : List Outgoing :=
  let payload := marshalText text
  [.dclp 0 seq 1 (decimal payload.length)] ++
    (clipboardChunks payload).map (fun chunk => .dclp 0 seq 2 chunk) ++ [.dclp 0 seq 3 []]

def sendClipboard (text : Bytes) (c : DeskflowClient) : Bool × DeskflowClient :=
  if !c.handshakeDone || text.isEmpty then (false, c)
  else { c with lastClipboardText := text }.writeAll (transferFrames c.seqNum text)

def grabClipboard (c : DeskflowClient) : Bool × DeskflowClient :=
  if !c.handshakeDone then (false, c) else c.write (.cclp 0 c.seqNum)

def pushClipboard (text : Bytes) (c : DeskflowClient) : DeskflowClient :=
  if !c.clipboardSync || !c.handshakeDone || text.isEmpty then c
  else (c.grabClipboard.2.sendClipboard text).2

end DeskflowClient

end Deskflow
