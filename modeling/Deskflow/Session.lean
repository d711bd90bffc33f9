import Deskflow.Client

/-! Message handlers, the handshake, the message loop and the lifetime of a
connection. -/

namespace Deskflow.DeskflowClient

/-- `DKDN`, `DKRP` and `DKDL` share this: synchronise, then press once. -/
def pressKey (id mask : Int16) (c : DeskflowClient) : DeskflowClient :=
  let c := c.syncModifiers (u32 mask.toInt)
  let k := u32 id.toInt
  if !c.keyStates k then c.setKeyState k true else c

def releaseKey (id mask : Int16) (c : DeskflowClient) : DeskflowClient :=
  let c := c.syncModifiers (u32 mask.toInt)
  let k := u32 id.toInt
  if c.keyStates k then c.setKeyState k false else c

def enterScreen (x y : Int16) (seq : UInt32) (mask : Int16) (c : DeskflowClient) :
    DeskflowClient :=
  let c := { c with active := true, seqNum := seq }
  let c :=
    if 0 ≤ x.toInt ∧ 0 ≤ y.toInt then
      ({ c with pointerX := x.toInt, pointerY := y.toInt }.injectMouseMove x.toInt y.toInt).2
    else c
  let c := c.syncModifiers (u32 mask.toInt)
  c.setStatus (ascii "active: control acquired, pointer at " ++ decimal x.toInt ++ ascii "," ++
    decimal y.toInt)

/-- The loop changes only the entry it stands on, so it can run over the
entries as they were. -/
def leaveScreen (c : DeskflowClient) : DeskflowClient :=
  let c := { c with active := false }
  let c := c.mouseButtonsDown.entries.foldl
    (fun c e => if e.2 then (c.injectMouseButton e.1 false).2 else c) c
  let c := { c with mouseButtonsDown := .empty }
  c.setStatus (ascii "inactive: moved back to primary screen")

def moveTo (x y : Int) (c : DeskflowClient) : DeskflowClient :=
  ({ c with pointerX := x, pointerY := y }.injectMouseMove x y).2

/-- The sums of the source are in `int32_t`; they are exact here, which is the same as long as
they fit (`MovesFit`). -/
def moveBy (dx dy : Int16) (c : DeskflowClient) : DeskflowClient :=
  let x := c.pointerX + dx.toInt
  let y := c.pointerY + dy.toInt
  let x := if x < 0 then 0 else x
  let y := if y < 0 then 0 else y
  let x := if x ≥ c.screenW then c.screenW - 1 else x
  let y := if y ≥ c.screenH then c.screenH - 1 else y
  c.moveTo x y

def clipboardStart (seq : UInt32) (data : Bytes) (c : DeskflowClient) : DeskflowClient :=
  let size := (stoull data).getD 0
  if size > kProtocolMaxStringLength then
    { c with clipChunk := { active := false, buffer := [], expectedSize := size, clipSeq := seq } }
  else
    { c with clipChunk := { active := true, buffer := [], expectedSize := size, clipSeq := seq } }

def clipboardChunk (data : Bytes) (c : DeskflowClient) : DeskflowClient :=
  if !c.clipChunk.active then c
  else { c with clipChunk := { c.clipChunk with buffer := c.clipChunk.buffer ++ data } }

def clipboardEnd (c : DeskflowClient) : DeskflowClient :=
  if !c.clipChunk.active then c
  else
    let assembled := c.clipChunk.buffer
    let c := { c with clipChunk := { c.clipChunk with active := false, buffer := [] } }
    let text := unmarshalText assembled
    if c.clipboardSync && !text.isEmpty then
      { c with lastClipboardText := text }.emit (.clipboard text)
    else c

/-- The effects of a decoded message and whether the loop goes on. -/
def perform : Message → DeskflowClient → Bool × DeskflowClient
  | .qinf, c => c.write (.dinf c.screenW c.screenH c.pointerX c.pointerY)
  | .calv, c => c.write .calv
  | .cinn x y seq mask, c => (true, c.enterScreen x y seq mask)
  | .cout, c => (true, c.leaveScreen)
  | .cbye, c => (false, { c with shouldReconnect := false }.setStatus (ascii "closed by server"))
  | .dmmv x y, c => (true, c.moveTo x.toInt y.toInt)
  | .dmrm dx dy, c => (true, c.moveBy dx dy)
  | .dmdn button, c => (true, (c.injectMouseButton button.toNat true).2)
  | .dmup button, c => (true, (c.injectMouseButton button.toNat false).2)
  | .dmwm xDelta yDelta, c => (true, (c.injectMouseWheel xDelta.toInt yDelta.toInt).2)
  | .dkdn id mask _, c => (true, c.pressKey id mask)
  | .dkup id mask _, c => (true, c.releaseKey id mask)
  | .dkrp id mask _ _ _, c => (true, c.pressKey id mask)
  | .dkdl id mask _ _, c => (true, c.pressKey id mask)
  | .cnop, c => (true, c)
  | .crop, c => (true, c)
  | .ciak, c => (true, c)
  | .csec _, c => (true, c)
  | .cclp _ _, c => (true, c)
  | .dsop _, c => (true, { c with handshakeDone := true })
  | .dclp _ seq mark data, c =>
    if mark = 1 then (true, c.clipboardStart seq data)
    else if mark = 2 then (true, c.clipboardChunk data)
    else if mark = 3 then (true, c.clipboardEnd)
    else (true, c)
  | .dftr _ _, c => (true, c)
  | .ddrg _ _, c => (true, c)
  | .lsyn _, c => (true, c)
  | .secn _, c => (true, c)
  | .eicv a b, c =>
    (false, { c with shouldReconnect := false }.setStatus
      (ascii "error: incompatible version, server wants " ++ decimal a.toInt ++ ascii "." ++
        decimal b.toInt))
  | .ebsy, c => (false, c.setStatus (ascii "error: server busy"))
  | .eunk, c => (false, c.setStatus (ascii "error: unknown client"))
  | .ebad, c => (false, c.setStatus (ascii "error: protocol violation"))

/-- A branch that has decoded its message, to the end of the handler. -/
def handle (m : Message) (c : DeskflowClient) : Bool × DeskflowClient :=
  ((c.perform m).1, (c.perform m).2.emit (.handled m))

/-- Every branch of the source makes its only `readf` call first and returns
false, with nothing else done, when that fails. -/
def handleMessage (key : Bytes) (c : DeskflowClient) : Bool × DeskflowClient :=
  match Key.ofBytes key with
  | none => (false, c.setStatus (ascii "error: unknown message '" ++ key ++ ascii "'"))
  | some k =>
    match (readMessage k).run c.stream with
    | (some m, s) => { c with stream := s }.handle m
    | (none, s) => (false, { c with stream := s })

/-- The end of an iteration: in the runtime phase a handled message is
acknowledged. -/
def acknowledge (r : Bool × DeskflowClient) : Bool × DeskflowClient :=
  if r.1 && r.2.handshakeDone then r.2.write .cnop else r

/-- An iteration of the message loop up to the end of the handler. -/
def receive (c : DeskflowClient) : Bool × DeskflowClient :=
  match readFrame.run c.stream with
  | (none, s) =>
    let c := { c with stream := s }
    if c.loadStop.1 then (false, c.loadStop.2.setStatus (ascii "disconnected"))
    else (false, c.loadStop.2.setStatus (ascii "error: connection lost"))
  | (some frame, s) =>
    match (s.pushToBuffer frame).readExact 4 with
    | (none, s) => (false, { c with stream := s })
    | (some key, s) => ({ c with stream := s }.emit (.dispatched key)).handleMessage key

def iterate (c : DeskflowClient) : Bool × DeskflowClient := acknowledge c.receive

/-- The message loop for at most the given number of iterations. -/
def loopFor : Nat → DeskflowClient → DeskflowClient
  | 0, c => c
  | n + 1, c =>
    if c.loadStop.1 then c.loadStop.2
    else
      let r := c.loadStop.2.iterate
      if r.1 then loopFor n r.2 else r.2

/-- An iteration that goes on has used up eight bytes, so this bound is never
met with the loop still running. -/
def messageLoop (c : DeskflowClient) : DeskflowClient :=
  c.loopFor (c.stream.pending.length / 8 + 1)

/-- The checks on the decoded Hello and the answer to it. -/
def answerHello (protocolName : Bytes) (major minor : Int16) (c : DeskflowClient) :
    Bool × DeskflowClient :=
  if protocolName.length ≠ kHelloNameLength ∨ major.toInt ≠ kProtocolMajorVersion then
    (false, { c with shouldReconnect := false }.setStatus
      (ascii "protocol mismatch: name='" ++ protocolName ++ ascii "' ver=" ++
        decimal major.toInt ++ ascii "." ++ decimal minor.toInt))
  else
    let helloBackMinor :=
      if minor.toInt < kProtocolMinorVersion then minor else i16 kProtocolMinorVersion
    c.write (.helloBack protocolName helloBackMinor c.screenName)

def handshake (c : DeskflowClient) : Bool × DeskflowClient :=
  match readFrame.run c.stream with
  | (none, s) => (false, { c with stream := s })
  | (some frame, s) =>
    match (readf kMsgHello).run (s.pushToBuffer frame) with
    | (some [.str protocolName, .int major, .int minor], s) =>
      { c with stream := s }.answerHello protocolName (i16 major) (i16 minor)
    | (_, s) => (false, { c with stream := s })

/-- What a connection attempt meets: whether the address resolves and accepts
in time, and the schedules of its socket. -/
structure Connection where
  reachable : Bool
  recvs : List Recv
  sends : List Send

def closeStream (c : DeskflowClient) : DeskflowClient := { c with stream := c.stream.close }

def dial (c : DeskflowClient) : DeskflowClient :=
  c.setStatus (ascii "connecting to " ++ c.host ++ ascii ":" ++ decimal c.port.toNat)

def opened (conn : Connection) (c : DeskflowClient) : DeskflowClient :=
  ({ c with stream := c.stream.connect conn.recvs conn.sends }.emit .connected).setStatus
    (ascii "connected, handshake...")

/-- One of the three ends of `runOnce`, with its result. -/
def connectFailed (c : DeskflowClient) : Bool × DeskflowClient :=
  (true, (c.setStatus (ascii "error: connect failed")).emit .returned)

def handshakeFailed (c : DeskflowClient) : Bool × DeskflowClient :=
  let c := (c.setStatus (ascii "error: handshake failed")).closeStream
  (c.shouldReconnect, c.emit .returned)

def loopExited (c : DeskflowClient) : Bool × DeskflowClient :=
  let c := c.closeStream
  (!c.loadStop.1 && c.shouldReconnect, c.loadStop.2.emit .returned)

def greeted (c : DeskflowClient) : DeskflowClient :=
  c.setStatus (ascii "handshake ok, waiting for enter (move mouse to this screen)")

/-- The rest of `runOnce`, given the result of the handshake. -/
def established (r : Bool × DeskflowClient) : Bool × DeskflowClient :=
  if !r.1 then r.2.handshakeFailed else r.2.greeted.messageLoop.loopExited

def runOnce (conn : Connection) (c : DeskflowClient) : Bool × DeskflowClient :=
  if !conn.reachable then c.dial.connectFailed else established (c.dial.opened conn).handshake

def connection (conn : Connection) (c : DeskflowClient) : Bool × DeskflowClient :=
  { c with shouldReconnect := true }.runOnce conn

/-- The back-off: at most `n` tests of the stop flag, up to the first that is set. -/
def backOff : Nat → DeskflowClient → DeskflowClient
  | 0, c => c
  | n + 1, c => if c.loadStop.1 then c.loadStop.2 else backOff n c.loadStop.2

def finish (c : DeskflowClient) : DeskflowClient :=
  let c := { c with running := false }
  if c.loadStop.1 then c.loadStop.2 else c.loadStop.2.setStatus (ascii "disconnected")

/-- What follows a connection in the reconnect loop: whether the loop goes on,
and the state after the wait. The test
`!m_autoReconnect || !shouldContinue || m_stopRequested` reads no further than it must. -/
def retry (r : Bool × DeskflowClient) : Bool × DeskflowClient :=
  if !r.2.loadAuto.1 || !r.1 then (false, r.2.loadAuto.2)
  else if r.2.loadAuto.2.loadStop.1 then (false, r.2.loadAuto.2.loadStop.2)
  else
    let c := r.2.loadAuto.2.loadStop.2
    let c := c.setStatus (ascii "reconnecting in " ++ decimal c.reconnectIntervalMs ++ ascii "ms")
    (true, c.backOff ((c.reconnectIntervalMs + 99) / 100))

/-- The reconnect loop over the connections it will meet; where the list ends
before the loop does, the run is cut off there. -/
def run : List Connection → DeskflowClient → DeskflowClient
  | conns, c =>
    if c.loadStop.1 then c.loadStop.2.finish
    else match conns with
      | [] => c.loadStop.2
      | conn :: conns =>
        let r := retry (c.loadStop.2.connection conn)
        if r.1 then run conns r.2 else r.2.finish

def start (host : Bytes) (port : UInt16) (screenName : Bytes) (c : DeskflowClient) :
    Bool × DeskflowClient :=
  if c.running then (false, c)
  else (true, { c with host := host, port := port, screenName := screenName, running := true })

end Deskflow.DeskflowClient
