import Deskflow.MessageCodec
import Deskflow.MessageLoop

/-! The branches of `handleMessage` one by one, each with its `readf` call where
the source has it, and what a failed call leaves behind. -/

namespace Deskflow.DeskflowClient

/-- A `readf` call on the client's stream. -/
def readArgs (fmt : Bytes) (c : DeskflowClient) : Option (List Arg) × DeskflowClient :=
  (((readf fmt).run c.stream).1, { c with stream := ((readf fmt).run c.stream).2 })

def concludes (m : Message) (r : Bool × DeskflowClient) : Bool × DeskflowClient :=
  (r.1, r.2.emit (.handled m))

/-- The branch of each key, in the order of the comparisons. -/
def branch : Key → DeskflowClient → Bool × DeskflowClient
  | .QINF, c => concludes .qinf (c.write (.dinf c.screenW c.screenH c.pointerX c.pointerY))
  | .CALV, c => concludes .calv (c.write .calv)
  | .CINN, c =>
    match c.readArgs (kMsgCEnter.drop 4) with
    | (some [.int x, .int y, .int seq, .int mask], c) =>
      concludes (.cinn (i16 x) (i16 y) (u32 seq) (i16 mask))
        (true, c.enterScreen (i16 x) (i16 y) (u32 seq) (i16 mask))
    | (_, c) => (false, c)
  | .COUT, c => concludes .cout (true, c.leaveScreen)
  | .CBYE, c =>
    concludes .cbye
      (false, { c with shouldReconnect := false }.setStatus (ascii "closed by server"))
  | .DMMV, c =>
    match c.readArgs (ascii "%2i%2i") with
    | (some [.int x, .int y], c) =>
      concludes (.dmmv (i16 x) (i16 y)) (true, c.moveTo (i16 x).toInt (i16 y).toInt)
    | (_, c) => (false, c)
  | .DMRM, c =>
    match c.readArgs (ascii "%2i%2i") with
    | (some [.int dx, .int dy], c) =>
      concludes (.dmrm (i16 dx) (i16 dy)) (true, c.moveBy (i16 dx) (i16 dy))
    | (_, c) => (false, c)
  | .DMDN, c =>
    match c.readArgs (ascii "%1i") with
    | (some [.int button], c) =>
      concludes (.dmdn (u8 button)) (true, (c.injectMouseButton (u8 button).toNat true).2)
    | (_, c) => (false, c)
  | .DMUP, c =>
    match c.readArgs (ascii "%1i") with
    | (some [.int button], c) =>
      concludes (.dmup (u8 button)) (true, (c.injectMouseButton (u8 button).toNat false).2)
    | (_, c) => (false, c)
  | .DMWM, c =>
    match c.readArgs (ascii "%2i%2i") with
    | (some [.int xDelta, .int yDelta], c) =>
      concludes (.dmwm (i16 xDelta) (i16 yDelta))
        (true, (c.injectMouseWheel (i16 xDelta).toInt (i16 yDelta).toInt).2)
    | (_, c) => (false, c)
  | .DKDN, c =>
    match c.readArgs (kMsgDKeyDown.drop 4) with
    | (some [.int id, .int mask, .int button], c) =>
      concludes (.dkdn (i16 id) (i16 mask) (i16 button)) (true, c.pressKey (i16 id) (i16 mask))
    | (_, c) => (false, c)
  | .DKUP, c =>
    match c.readArgs (kMsgDKeyUp.drop 4) with
    | (some [.int id, .int mask, .int button], c) =>
      concludes (.dkup (i16 id) (i16 mask) (i16 button)) (true, c.releaseKey (i16 id) (i16 mask))
    | (_, c) => (false, c)
  | .DKRP, c =>
    match c.readArgs (kMsgDKeyRepeat.drop 4) with
    | (some [.int id, .int mask, .int count, .int button, .str lang], c) =>
      concludes (.dkrp (i16 id) (i16 mask) (i16 count) (i16 button) lang)
        (true, c.pressKey (i16 id) (i16 mask))
    | (_, c) => (false, c)
  | .DKDL, c =>
    match c.readArgs (kMsgDKeyDownLang.drop 4) with
    | (some [.int id, .int mask, .int button, .str lang], c) =>
      concludes (.dkdl (i16 id) (i16 mask) (i16 button) lang)
        (true, c.pressKey (i16 id) (i16 mask))
    | (_, c) => (false, c)
  | .CNOP, c => concludes .cnop (true, c)
  | .CROP, c => concludes .crop (true, c)
  | .CIAK, c => concludes .ciak (true, c)
  | .CSEC, c =>
    match c.readArgs (kMsgCScreenSaver.drop 4) with
    | (some [.int on], c) => concludes (.csec (u8 on)) (true, c)
    | (_, c) => (false, c)
  | .CCLP, c =>
    match c.readArgs (kMsgCClipboard.drop 4) with
    | (some [.int id, .int seq], c) => concludes (.cclp (u8 id) (u32 seq)) (true, c)
    | (_, c) => (false, c)
  | .DSOP, c =>
    match c.readArgs (kMsgDSetOptions.drop 4) with
    | (some [.ints options], c) =>
      concludes (.dsop options) (true, { c with handshakeDone := true })
    | (_, c) => (false, c)
  | .DCLP, c =>
    match c.readArgs (kMsgDClipboard.drop 4) with
    | (some [.int id, .int seq, .int mark, .str data], c) =>
      concludes (.dclp (u8 id) (u32 seq) (u8 mark) data)
        (if u8 mark = 1 then (true, c.clipboardStart (u32 seq) data)
        else if u8 mark = 2 then (true, c.clipboardChunk data)
        else if u8 mark = 3 then (true, c.clipboardEnd)
        else (true, c))
    | (_, c) => (false, c)
  | .DFTR, c =>
    match c.readArgs (kMsgDFileTransfer.drop 4) with
    | (some [.int mark, .str data], c) => concludes (.dftr (u8 mark) data) (true, c)
    | (_, c) => (false, c)
  | .DDRG, c =>
    match c.readArgs (kMsgDDragInfo.drop 4) with
    | (some [.int fileCount, .str info], c) => concludes (.ddrg (i16 fileCount) info) (true, c)
    | (_, c) => (false, c)
  | .LSYN, c =>
    match c.readArgs (kMsgDLanguageSynchronisation.drop 4) with
    | (some [.str data], c) => concludes (.lsyn data) (true, c)
    | (_, c) => (false, c)
  | .SECN, c =>
    match c.readArgs (kMsgDSecureInputNotification.drop 4) with
    | (some [.str data], c) => concludes (.secn data) (true, c)
    | (_, c) => (false, c)
  | .EICV, c =>
    match c.readArgs (kMsgEIncompatible.drop 4) with
    | (some [.int a, .int b], c) =>
      concludes (.eicv (i16 a) (i16 b))
        (false, { c with shouldReconnect := false }.setStatus
          (ascii "error: incompatible version, server wants " ++ decimal (i16 a).toInt ++
            ascii "." ++ decimal (i16 b).toInt))
    | (_, c) => (false, c)
  | .EBSY, c => concludes .ebsy (false, c.setStatus (ascii "error: server busy"))
  | .EUNK, c => concludes .eunk (false, c.setStatus (ascii "error: unknown client"))
  | .EBAD, c => concludes .ebad (false, c.setStatus (ascii "error: protocol violation"))

theorem handleMessage_eq (k : Key) (c : DeskflowClient) :
    c.handleMessage k.bytes = match c.readArgs k.argFormat with
      | (some args, c) =>
        match Message.ofArgs k args with
        | some m => c.handle m
        | none => (false, c)
      | (none, c) => (false, c) := by
  unfold handleMessage
  rw [Key.ofBytes_bytes]
  dsimp only
  rw [readMessage, Reader.run_bind, readArgs]
  rcases (readf k.argFormat).run c.stream with ⟨_ | args, s⟩
  · rfl
  · dsimp only
    cases Message.ofArgs k args <;> rfl

theorem handleMessage_eq_branch (k : Key) (c : DeskflowClient) :
    c.handleMessage k.bytes = c.branch k := by
  rw [handleMessage_eq]
  cases k
  case QINF | CALV | COUT | CBYE | CNOP | CROP | CIAK | EBSY | EUNK | EBAD => rfl
  all_goals
    simp only [branch, Key.argFormat]
    rcases c.readArgs _ with ⟨_ | args, c'⟩
    · rfl
    · dsimp only
      split
      · rename_i m hm
        unfold Message.ofArgs at hm
        split at hm <;> first
          | contradiction
          | (obtain rfl := Option.some.inj hm; rfl)
      · rename_i hnone
        split <;> rename_i hargs <;> cases hargs
        · cases hnone
        · rfl

theorem branch_of_failed {k : Key} {c : DeskflowClient}
    (h : (c.readArgs k.argFormat).1 = none) :
    c.branch k = (false, (c.readArgs k.argFormat).2) := by
  revert h
  cases k
  case QINF | CALV | COUT | CBYE | CNOP | CROP | CIAK | EBSY | EUNK | EBAD =>
    exact fun h => absurd h (Option.some_ne_none [])
  all_goals
    simp only [branch, Key.argFormat]
    rcases c.readArgs _ with ⟨_ | args, c'⟩
    · exact fun _ => rfl
    · exact fun h => absurd h (Option.some_ne_none args)

theorem readArgs_eq (k : Key) (c : DeskflowClient) :
    ∃ s n, (c.readArgs k.argFormat).2 = { c with stream := s } ∧
      SocketStream.SameOutput c.stream s ∧ s.view = c.stream.view.drop n := by
  obtain ⟨-, hview, hout⟩ := c.stream.run_view
    (fun s => readf_simulates (SocketStream.readExact_simulates s) k.argFormat)
  exact ⟨_, _, rfl, hout, hview⟩

/-- Where the `readf` call of a handler fails, the handler concludes false, the
read position has moved, and everything else is as before. -/
theorem handleMessage_of_failed {key : Bytes} {k : Key} (hkey : Key.ofBytes key = some k)
    {c : DeskflowClient} (h : (c.readArgs k.argFormat).1 = none) :
    ∃ s n, c.handleMessage key = (false, { c with stream := s }) ∧
      SocketStream.SameOutput c.stream s ∧ s.view = c.stream.view.drop n := by
  obtain ⟨s, n, hs, hout, hview⟩ := c.readArgs_eq k
  refine ⟨s, n, ?_, hout, hview⟩
  rw [Key.ofBytes_eq_some hkey, handleMessage_eq_branch, branch_of_failed h, hs]

/-- A key press cut off in its mask. -/
theorem handleMessage_truncated :
    ∃ s n, handleMessage (ascii "DKDN")
        { stream := { buffer := ReadBuffer.empty.push [0, 97, 0] } } = (false, { stream := s }) ∧
      SocketStream.SameOutput { buffer := ReadBuffer.empty.push [0, 97, 0] } s ∧
      s.view = View.drop n (SocketStream.view { buffer := ReadBuffer.empty.push [0, 97, 0] }) :=
  handleMessage_of_failed (k := .DKDN) (by decide)
    (c := { stream := { buffer := ReadBuffer.empty.push [0, 97, 0] } }) (by decide +kernel)

end Deskflow.DeskflowClient
