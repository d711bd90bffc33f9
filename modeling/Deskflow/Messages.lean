import Deskflow.ProtoUtil

/-! The messages of the two directions and their encodings. -/

namespace Deskflow

/-- The keys `handleMessage` tests for, in its order. -/
inductive Key
  | QINF | CALV | CINN | COUT | CBYE | DMMV | DMRM | DMDN | DMUP | DMWM
  | DKDN | DKUP | DKRP | DKDL | CNOP | CROP | CIAK | CSEC | CCLP | DSOP
  | DCLP | DFTR | DDRG | LSYN | SECN | EICV | EBSY | EUNK | EBAD
  deriving DecidableEq, Repr

namespace Key

def format : Key → Bytes
  | .QINF => kMsgQInfo
  | .CALV => kMsgCKeepAlive
  | .CINN => kMsgCEnter
  | .COUT => kMsgCLeave
  | .CBYE => kMsgCClose
  | .DMMV => kMsgDMouseMove
  | .DMRM => kMsgDMouseRelMove
  | .DMDN => kMsgDMouseDown
  | .DMUP => kMsgDMouseUp
  | .DMWM => kMsgDMouseWheel
  | .DKDN => kMsgDKeyDown
  | .DKUP => kMsgDKeyUp
  | .DKRP => kMsgDKeyRepeat
  | .DKDL => kMsgDKeyDownLang
  | .CNOP => kMsgCNoop
  | .CROP => kMsgCResetOptions
  | .CIAK => kMsgCInfoAck
  | .CSEC => kMsgCScreenSaver
  | .CCLP => kMsgCClipboard
  | .DSOP => kMsgDSetOptions
  | .DCLP => kMsgDClipboard
  | .DFTR => kMsgDFileTransfer
  | .DDRG => kMsgDDragInfo
  | .LSYN => kMsgDLanguageSynchronisation
  | .SECN => kMsgDSecureInputNotification
  | .EICV => kMsgEIncompatible
  | .EBSY => kMsgEBusy
  | .EUNK => kMsgEUnknown
  | .EBAD => kMsgEBad

def all : List Key :=
  [.QINF, .CALV, .CINN, .COUT, .CBYE, .DMMV, .DMRM, .DMDN, .DMUP, .DMWM, .DKDN, .DKUP, .DKRP,
    .DKDL, .CNOP, .CROP, .CIAK, .CSEC, .CCLP, .DSOP, .DCLP, .DFTR, .DDRG, .LSYN, .SECN, .EICV,
    .EBSY, .EUNK, .EBAD]

/-- The four bytes a dispatched key is compared with. -/
def bytes (k : Key) : Bytes := k.format.take 4

def ofBytes (key : Bytes) : Option Key := all.find? fun k => k.bytes == key

/-- The format `handleMessage` hands to `readf` in the branch of the key:
`kMsg… + 4` or the literal that the mouse branches use. A branch without
arguments makes no call, which the empty format stands for. -/
def argFormat : Key → Bytes
  | .QINF => []
  | .CALV => []
  | .CINN => kMsgCEnter.drop 4
  | .COUT => []
  | .CBYE => []
  | .DMMV => ascii "%2i%2i"
  | .DMRM => ascii "%2i%2i"
  | .DMDN => ascii "%1i"
  | .DMUP => ascii "%1i"
  | .DMWM => ascii "%2i%2i"
  | .DKDN => kMsgDKeyDown.drop 4
  | .DKUP => kMsgDKeyUp.drop 4
  | .DKRP => kMsgDKeyRepeat.drop 4
  | .DKDL => kMsgDKeyDownLang.drop 4
  | .CNOP => []
  | .CROP => []
  | .CIAK => []
  | .CSEC => kMsgCScreenSaver.drop 4
  | .CCLP => kMsgCClipboard.drop 4
  | .DSOP => kMsgDSetOptions.drop 4
  | .DCLP => kMsgDClipboard.drop 4
  | .DFTR => kMsgDFileTransfer.drop 4
  | .DDRG => kMsgDDragInfo.drop 4
  | .LSYN => kMsgDLanguageSynchronisation.drop 4
  | .SECN => kMsgDSecureInputNotification.drop 4
  | .EICV => kMsgEIncompatible.drop 4
  | .EBSY => []
  | .EUNK => []
  | .EBAD => []

end Key

/-- A decoded server message, its fields in the types of the variables that
`handleMessage` reads them into. -/
inductive Message
  | qinf
  | calv
  | cinn (x y : Int16) (seq : UInt32) (mask : Int16)
  | cout
  | cbye
  | dmmv (x y : Int16)
  | dmrm (dx dy : Int16)
  | dmdn (button : UInt8)
  | dmup (button : UInt8)
  | dmwm (xDelta yDelta : Int16)
  | dkdn (id mask button : Int16)
  | dkup (id mask button : Int16)
  | dkrp (id mask count button : Int16) (lang : Bytes)
  | dkdl (id mask button : Int16) (lang : Bytes)
  | cnop
  | crop
  | ciak
  | csec (on : UInt8)
  | cclp (id : UInt8) (seq : UInt32)
  | dsop (options : List UInt32)
  | dclp (id : UInt8) (seq : UInt32) (mark : UInt8) (data : Bytes)
  | dftr (mark : UInt8) (data : Bytes)
  | ddrg (fileCount : Int16) (info : Bytes)
  | lsyn (data : Bytes)
  | secn (data : Bytes)
  | eicv (a b : Int16)
  | ebsy
  | eunk
  | ebad
  deriving DecidableEq, Repr

/-- The low 16 bits of the value as the signed field they are stored in. -/
def i16 (v : Int) : Int16 := Int16.ofInt v

def u8 (v : Int) : UInt8 := UInt8.ofInt v

def u32 (v : Int) : UInt32 := UInt32.ofInt v

namespace Message

/-- The decoded arguments of a key, stored in the branch's variables. -/
def ofArgs : Key → List Arg → Option Message
  | .QINF, [] => some .qinf
  | .CALV, [] => some .calv
  | .CINN, [.int x, .int y, .int seq, .int mask] =>
    some (.cinn (i16 x) (i16 y) (u32 seq) (i16 mask))
  | .COUT, [] => some .cout
  | .CBYE, [] => some .cbye
  | .DMMV, [.int x, .int y] => some (.dmmv (i16 x) (i16 y))
  | .DMRM, [.int dx, .int dy] => some (.dmrm (i16 dx) (i16 dy))
  | .DMDN, [.int button] => some (.dmdn (u8 button))
  | .DMUP, [.int button] => some (.dmup (u8 button))
  | .DMWM, [.int xDelta, .int yDelta] => some (.dmwm (i16 xDelta) (i16 yDelta))
  | .DKDN, [.int id, .int mask, .int button] => some (.dkdn (i16 id) (i16 mask) (i16 button))
  | .DKUP, [.int id, .int mask, .int button] => some (.dkup (i16 id) (i16 mask) (i16 button))
  | .DKRP, [.int id, .int mask, .int count, .int button, .str lang] =>
    some (.dkrp (i16 id) (i16 mask) (i16 count) (i16 button) lang)
  | .DKDL, [.int id, .int mask, .int button, .str lang] =>
    some (.dkdl (i16 id) (i16 mask) (i16 button) lang)
  | .CNOP, [] => some .cnop
  | .CROP, [] => some .crop
  | .CIAK, [] => some .ciak
  | .CSEC, [.int on] => some (.csec (u8 on))
  | .CCLP, [.int id, .int seq] => some (.cclp (u8 id) (u32 seq))
  | .DSOP, [.ints options] => some (.dsop options)
  | .DCLP, [.int id, .int seq, .int mark, .str data] =>
    some (.dclp (u8 id) (u32 seq) (u8 mark) data)
  | .DFTR, [.int mark, .str data] => some (.dftr (u8 mark) data)
  | .DDRG, [.int fileCount, .str info] => some (.ddrg (i16 fileCount) info)
  | .LSYN, [.str data] => some (.lsyn data)
  | .SECN, [.str data] => some (.secn data)
  | .EICV, [.int a, .int b] => some (.eicv (i16 a) (i16 b))
  | .EBSY, [] => some .ebsy
  | .EUNK, [] => some .eunk
  | .EBAD, [] => some .ebad
  | _, _ => none

def key : Message → Key
  | .qinf => .QINF
  | .calv => .CALV
  | .cinn .. => .CINN
  | .cout => .COUT
  | .cbye => .CBYE
  | .dmmv .. => .DMMV
  | .dmrm .. => .DMRM
  | .dmdn .. => .DMDN
  | .dmup .. => .DMUP
  | .dmwm .. => .DMWM
  | .dkdn .. => .DKDN
  | .dkup .. => .DKUP
  | .dkrp .. => .DKRP
  | .dkdl .. => .DKDL
  | .cnop => .CNOP
  | .crop => .CROP
  | .ciak => .CIAK
  | .csec .. => .CSEC
  | .cclp .. => .CCLP
  | .dsop .. => .DSOP
  | .dclp .. => .DCLP
  | .dftr .. => .DFTR
  | .ddrg .. => .DDRG
  | .lsyn .. => .LSYN
  | .secn .. => .SECN
  | .eicv .. => .EICV
  | .ebsy => .EBSY
  | .eunk => .EUNK
  | .ebad => .EBAD

/-- The messages whose branch returns false. -/
def terminating : Message → Bool
  | .cbye => true
  | .eicv _ _ => true
  | .ebsy => true
  | .eunk => true
  | .ebad => true
  | _ => false

def injects : Message → Bool
  | .cinn .. => true
  | .cout => true
  | .dmmv .. => true
  | .dmrm .. => true
  | .dmdn .. => true
  | .dmup .. => true
  | .dmwm .. => true
  | .dkdn .. => true
  | .dkup .. => true
  | .dkrp .. => true
  | .dkdl .. => true
  | _ => false

def args : Message → List Arg
  | .cinn x y seq mask => [.int x.toInt, .int y.toInt, .int seq.toNat, .int mask.toInt]
  | .dmmv x y => [.int x.toInt, .int y.toInt]
  | .dmrm dx dy => [.int dx.toInt, .int dy.toInt]
  | .dmdn button => [.int button.toNat]
  | .dmup button => [.int button.toNat]
  | .dmwm xDelta yDelta => [.int xDelta.toInt, .int yDelta.toInt]
  | .dkdn id mask button => [.int id.toInt, .int mask.toInt, .int button.toInt]
  | .dkup id mask button => [.int id.toInt, .int mask.toInt, .int button.toInt]
  | .dkrp id mask count button lang =>
    [.int id.toInt, .int mask.toInt, .int count.toInt, .int button.toInt, .str lang]
  | .dkdl id mask button lang => [.int id.toInt, .int mask.toInt, .int button.toInt, .str lang]
  | .csec on => [.int on.toNat]
  | .cclp id seq => [.int id.toNat, .int seq.toNat]
  | .dsop options => [.ints options]
  | .dclp id seq mark data => [.int id.toNat, .int seq.toNat, .int mark.toNat, .str data]
  | .dftr mark data => [.int mark.toNat, .str data]
  | .ddrg fileCount info => [.int fileCount.toInt, .str info]
  | .lsyn data => [.str data]
  | .secn data => [.str data]
  | .eicv a b => [.int a.toInt, .int b.toInt]
  | _ => []

/-- The frame body that carries the message. -/
def payload (m : Message) : Bytes := writef m.key.format m.args

end Message

/-- The branch of a key up to its first effect. -/
def readMessage {σ : Type} [ByteSource σ] (k : Key) : Reader σ Message := do
  let args ← readf k.argFormat
  match Message.ofArgs k args with
  | some m => pure m
  | none => Reader.fail

/-- What the client sends, one constructor for each `writeFrame` call. -/
inductive Outgoing
  | helloBack (protocolName : Bytes) (minor : Int16) (screenName : Bytes)
  | dinf (screenW screenH pointerX pointerY : Int)
  | calv
  | cnop
  | cclp (id : UInt8) (seq : UInt32)
  | dclp (id : UInt8) (seq : UInt32) (mark : UInt8) (data : Bytes)
  deriving DecidableEq, Repr

def Outgoing.payload : Outgoing → Bytes
  | .helloBack protocolName minor screenName =>
    writef kMsgHelloBack
      [.str protocolName, .int kProtocolMajorVersion, .int minor.toInt, .str screenName]
  | .dinf screenW screenH pointerX pointerY =>
    writef kMsgDInfo
      [.int 0, .int 0, .int screenW, .int screenH, .int 0, .int pointerX, .int pointerY]
  | .calv => ascii "CALV"
  | .cnop => ascii "CNOP"
  | .cclp id seq => writef kMsgCClipboard [.int id.toNat, .int seq.toNat]
  | .dclp id seq mark data =>
    writef kMsgDClipboard [.int id.toNat, .int seq.toNat, .int mark.toNat, .str data]

end Deskflow
