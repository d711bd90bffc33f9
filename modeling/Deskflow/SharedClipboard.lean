import Deskflow.ClipboardRoundTrip
import Deskflow.Reconnection
import Deskflow.ReplyTrace

/-! The clipboard of the desktop and that of the server, and the client between them. -/

namespace Deskflow

open History DeskflowClient

/-- A text that the server sends: its container, in pieces that can be read. -/
structure ServerText where
  id : UInt8
  seq : UInt32
  text : Bytes
  chunks : List Bytes
  nonempty : text ≠ []
  short : text.length < 2 ^ 32 - 12
  container : chunks.flatten = marshalText text
  readable : ∀ chunk ∈ chunks, chunk.length ≤ kProtocolMaxStringLength

namespace ServerText

def messages (t : ServerText) : List Message :=
  .dclp t.id t.seq 1 (decimal (marshalText t.text).length) ::
    (t.chunks.map (.dclp t.id t.seq 2) ++ [.dclp t.id t.seq 3 []])

def bytes (t : ServerText) : Bytes := t.messages.flatMap fun m => frameBytes m.payload

end ServerText

def Message.chunkData : Message → Bytes
  | .dclp _ _ mark data => if mark = 2 then data else []
  | _ => []

/-- The text of a transfer that is complete, without a limit on its size. -/
def received (ms : List Message) : Option Bytes :=
  match ms.getLast? with
  | some (.dclp _ _ 3 _) => some (unmarshalText (ms.flatMap Message.chunkData))
  | _ => none

/-- The clipboard messages that the client has sent. -/
def DeskflowClient.uploads (c : DeskflowClient) : List Message :=
  c.frames.filterMap (Outgoing.asMessage 0 0)

structure Page where
  clipboardSync : Bool := true
  lastRemoteClipboard : Bytes := []

/-- The two clipboards and what lies between them. Texts are in UTF-8. -/
structure Exchange where
  page : Page := {}
  pasteboard : Bytes := []
  client : DeskflowClient
  server : Bytes := []

inductive Change
  | server (sent : ServerText)
  | copy (text : Bytes) (nonempty : text ≠ [])

namespace Exchange

/-- `napi_get_value_string_utf8` into the buffer of `PushClipboard`: what fits comes
out as it is, and a longer text is cut. -/
structure FillsBuffer (getString : Bytes → Bytes) : Prop where
  fits : ∀ text : Bytes, text.length < 1024 * 1024 → getString text = text
  cuts : ∀ text : Bytes, 1024 * 1024 ≤ text.length →
    getString text ≠ [] ∧ (getString text).length < 1024 * 1024

variable (getString : Bytes → Bytes)

/-- The subscriber of `BGEVT_CLIP_PUSH`. The text of the transfer becomes that of
the server. -/
def pushRequest (text : Bytes) (σ : Exchange) : Exchange :=
  if text.isEmpty then σ
  else
    let c := (σ.client.setClipboardSync true).pushClipboard (getString text)
    let sent := c.uploads.drop σ.client.uploads.length
    { σ with client := c, server := (received sent).getD σ.server }

def pushLocalClipboard (σ : Exchange) : Exchange :=
  if !σ.page.clipboardSync then σ
  else
    let text := σ.pasteboard
    if !text.isEmpty && text != σ.page.lastRemoteClipboard then σ.pushRequest getString text
    else σ

/-- The listener for the `update` of the pasteboard. -/
def update (σ : Exchange) : Exchange :=
  if σ.page.clipboardSync then σ.pushLocalClipboard getString else σ

def setSystemClipboard (value : Bytes) (σ : Exchange) : Exchange :=
  if !σ.page.clipboardSync || value.isEmpty then σ
  else { σ with pasteboard := value }.update getString

/-- `DeskflowClipboardCb`, then the page's subscriber of `BGEVT_CLIP`. -/
def clipboardData (value : Bytes) (σ : Exchange) : Exchange :=
  if value.isEmpty then σ
  else
    { σ with page := { σ.page with lastRemoteClipboard := value } }.setSystemClipboard
      getString value

/-- The message loop reads the transfer, and the callback passes the texts on. -/
def serverSends (t : ServerText) (σ : Exchange) : Exchange :=
  let arriving := { σ.client with stream := { σ.client.stream with recvs := [.data t.bytes] } }
  let c := arriving.loopFor t.messages.length
  (c.texts.drop σ.client.texts.length).foldl (fun σ value => σ.clipboardData getString value)
    { σ with client := c, server := t.text }

def userCopies (text : Bytes) (σ : Exchange) : Exchange :=
  { σ with pasteboard := text }.update getString

def step (σ : Exchange) : Change → Exchange
  | .server t => σ.serverSends getString t
  | .copy text _ => σ.userCopies getString text

def run (changes : List Change) (σ : Exchange) : Exchange := changes.foldl (step getString) σ

end Exchange

namespace DeskflowClient

/-- The runtime phase of a connection on which no write fails, with the setting on:
`bytes` come next and `kept` is assembled. -/
structure Sharing (bytes : Bytes) (kept : Option Bytes) (c : DeskflowClient) : Prop
    extends Assembling bytes kept c where
  ready : Ready c
  runtime : c.handshakeDone = true
  unstopped : ∀ b ∈ c.world.stopLoads, b = false

theorem acknowledge_spares (r : Bool × DeskflowClient) : Spares r.2 (acknowledge r).2 := by
  unfold acknowledge
  split_ifs
  · exact spares_write .cnop r.2
  · exact ⟨rfl, rfl, rfl, .refl _⟩

namespace Sharing

variable {bytes rest : Bytes} {kept : Option Bytes} {c : DeskflowClient}

theorem loadStop (h : Sharing bytes kept c) :
    c.loadStop.1 = false ∧ Sharing bytes kept c.loadStop.2 := by
  refine ⟨?_, ⟨h.view, h.sync, h.assembled⟩, ⟨h.ready.connected, h.ready.accepting⟩, h.runtime,
    fun b hb => h.unstopped b (List.mem_of_mem_tail hb)⟩
  change c.world.stopLoads.headD false = false
  cases hloads : c.world.stopLoads with
  | nil => rfl
  | cons b bs => exact h.unstopped b (by simp [hloads])

theorem iterate {m : Message} (h : Sharing (frameBytes m.payload ++ rest) kept c)
    (hm : m.WellFormed) :
    c.iterate.1 = !m.terminating ∧ Sharing rest (m.assemble kept) c.iterate.2 ∧
      c.iterate.2.texts = c.texts ++ (m.delivers kept).toList ∧
      c.iterate.2.uploads = c.uploads := by
  obtain ⟨hreceive, hhandled, htexts⟩ := h.toAssembling.receive hm
  have hspares : Spares c.receive.2 c.iterate.2 := acknowledge_spares c.receive
  have hall : c.iterate.2.handled = c.handled ++ [m] := by
    rw [← hhandled]
    exact (acknowledge_emits c.receive).handled
  rcases iterate_answers h.ready with ⟨-, hnone, -⟩ | ⟨m', hgo, hanswered⟩
  · simp [hall] at hnone
  · obtain rfl : m = m' := by simpa [hall] using hanswered.handled
    have hcnop (b : Bool) : (if b then [Outgoing.cnop] else []).filterMap
        (Outgoing.asMessage 0 0) = [] := by cases b <;> rfl
    have hanswer : (m.answer c.screenW c.screenH c.pointer).filterMap
        (Outgoing.asMessage 0 0) = [] := by cases m <;> rfl
    refine ⟨hgo, ⟨⟨?_, ?_, ?_⟩, hanswered.ready, ?_, ?_⟩, ?_, ?_⟩
    · exact (acknowledge_sameInput c.receive).view.trans hreceive.view
    · exact hspares.clipboardSync.trans hreceive.sync
    · rw [hspares.clipChunk]
      exact hreceive.assembled
    · rw [hanswered.runtime, h.runtime, Bool.true_or]
    · exact fun b hb => h.unstopped b ((Heeds.iterate c).stopLoads.subset hb)
    · rw [hspares.texts, htexts]
    · rw [uploads, hanswered.sent.frames, List.filterMap_append, List.filterMap_append, hcnop,
        hanswer, List.append_nil, List.append_nil]
      rfl

theorem loopFor {ms : List Message}
    (h : Sharing (ms.flatMap (fun m => frameBytes m.payload) ++ rest) kept c)
    (hms : ∀ m ∈ ms, m.WellFormed ∧ m.terminating = false) :
    (∃ kept', Sharing rest kept' (c.loopFor ms.length)) ∧
      (c.loopFor ms.length).texts = c.texts ++ deliveries kept ms ∧
      (c.loopFor ms.length).uploads = c.uploads := by
  induction ms generalizing kept c with
  | nil => exact ⟨⟨kept, h⟩, by simp [DeskflowClient.loopFor, deliveries], rfl⟩
  | cons m ms ih =>
    obtain ⟨hm, hgo⟩ := hms m (by simp)
    obtain ⟨hstop, hload⟩ := h.loadStop
    rw [List.flatMap_cons, List.append_assoc] at hload
    obtain ⟨hagain, hnext, htexts, huploads⟩ := hload.iterate hm
    obtain ⟨hlast, htexts', huploads'⟩ := ih hnext fun m hm => hms m (List.mem_cons_of_mem _ hm)
    rw [hgo, Bool.not_false] at hagain
    rw [List.length_cons, DeskflowClient.loopFor, if_neg (by simp [hstop])]
    dsimp only
    rw [if_pos hagain]
    refine ⟨hlast, ?_, huploads'.trans huploads⟩
    rw [htexts', htexts, deliveries, List.append_assoc]
    rfl

theorem write {o : Outgoing} (h : Sharing bytes kept c)
    (hfit : o.payload.length ≤ 4 * 1024 * 1024) :
    (c.write o).1 = true ∧ Sharing bytes kept (c.write o).2 ∧
      (c.write o).2.frames = c.frames ++ [o] := by
  obtain ⟨hok, hready⟩ := write_of_ready h.ready hfit
  have hspares := spares_write o c
  refine ⟨hok, ⟨⟨?_, ?_, ?_⟩, hready, ?_, ?_⟩, (sent_write hok).frames⟩
  · exact (write_sameInput o c).view.trans h.view
  · exact hspares.clipboardSync.trans h.sync
  · rw [hspares.clipChunk, h.assembled]
  · exact hspares.handshakeDone.trans h.runtime
  · rw [(write_world o c).stopLoads]
    exact h.unstopped

theorem writeAll {os : List Outgoing} (h : Sharing bytes kept c)
    (hfit : ∀ o ∈ os, o.payload.length ≤ 4 * 1024 * 1024) :
    Sharing bytes kept (c.writeAll os).2 ∧ (c.writeAll os).2.frames = c.frames ++ os := by
  induction os generalizing c with
  | nil => exact ⟨h, (List.append_nil _).symm⟩
  | cons o os ih =>
    obtain ⟨hok, hnext, hframe⟩ := h.write (hfit o (by simp))
    rcases hw : c.write o with ⟨ok, c'⟩
    rw [hw] at hok hnext hframe
    obtain rfl : ok = true := hok
    obtain ⟨hlast, hframes⟩ := ih hnext fun o ho => hfit o (List.mem_cons_of_mem _ ho)
    rw [DeskflowClient.writeAll, hw]
    refine ⟨hlast, ?_⟩
    rw [hframes, hframe, List.append_assoc]
    rfl

end Sharing

theorem Sharing.pushClipboard {bytes : Bytes} {kept : Option Bytes} {c : DeskflowClient}
    (h : Sharing bytes kept c) {text : Bytes} (hne : text ≠ [])
    (hshort : text.length < 2 ^ 32 - 12) :
    Sharing bytes kept (c.pushClipboard text) ∧
      (c.pushClipboard text).uploads = c.uploads ++ uploadMessages 0 0 text := by
  have hempty : text.isEmpty = false := by simpa using hne
  let d := { (c.write (.cclp 0 c.seqNum)).2 with lastClipboardText := text }
  obtain ⟨-, hgrab, hframe⟩ := h.write (o := .cclp 0 c.seqNum)
    (by rw [Outgoing.length_payload_cclp]; omega)
  have hset : Sharing bytes kept d :=
    ⟨⟨hgrab.view, hgrab.sync, hgrab.assembled⟩, ⟨hgrab.ready.connected, hgrab.ready.accepting⟩,
      hgrab.runtime, hgrab.unstopped⟩
  have hpush : c.pushClipboard text = (d.writeAll (transferFrames d.seqNum text)).2 := by
    rw [DeskflowClient.pushClipboard, if_neg (by simp [h.sync, h.runtime, hempty]), grabClipboard,
      if_neg (by simp [h.runtime]), sendClipboard_of_done hgrab.runtime hne]
  have hfit : ∀ o ∈ transferFrames d.seqNum text, o.payload.length ≤ 4 * 1024 * 1024 :=
    length_payload_upload hshort
  obtain ⟨hsent, hframes⟩ := hset.writeAll hfit
  rw [hpush]
  refine ⟨hsent, ?_⟩
  have hd : d.frames = c.frames ++ [.cclp 0 c.seqNum] := hframe
  have hcclp : [Outgoing.cclp 0 c.seqNum].filterMap (Outgoing.asMessage 0 0) = [] := rfl
  rw [uploads, hframes, hd, List.filterMap_append, List.filterMap_append, hcclp, List.append_nil,
    filterMap_transferFrames, ← uploadMessages_eq]
  rfl

end DeskflowClient

theorem received_uploadMessages {text : Bytes} (h : text.length < 2 ^ 32) (id : UInt8)
    (seq : UInt32) : received (uploadMessages id seq text) = some text := by
  have hchunks (chunks : List Bytes) :
      (chunks.map (Message.dclp id seq 2)).flatMap Message.chunkData = chunks.flatten := by
    rw [List.flatMap_map]
    exact List.flatMap_id
  have hlast : (uploadMessages id seq text).getLast? = some (.dclp id seq 3 []) := by
    rw [uploadMessages_eq, ← List.cons_append, List.getLast?_concat]
  have hdata : (uploadMessages id seq text).flatMap Message.chunkData = marshalText text := by
    rw [uploadMessages_eq, List.flatMap_cons, List.flatMap_append, hchunks, flatten_clipboardChunks]
    simp [Message.chunkData]
  rw [received, hlast, hdata]
  exact congrArg some (unmarshalText_marshalText h)

theorem ServerText.wellFormed (t : ServerText) :
    ∀ m ∈ t.messages, m.WellFormed ∧ m.terminating = false := by
  intro m hm
  rw [messages, List.mem_cons, List.mem_append, List.mem_map, List.mem_singleton] at hm
  rcases hm with rfl | ⟨chunk, hchunk, rfl⟩ | rfl
  · have hshort := t.short
    have hdigits := length_decimal_le (n := (marshalText t.text).length)
      (by rw [length_marshalText]; omega)
    exact ⟨wellFormed_dclp (by omega) t.id t.seq 1, rfl⟩
  · exact ⟨wellFormed_dclp (t.readable chunk hchunk) t.id t.seq 2, rfl⟩
  · exact ⟨wellFormed_dclp (by simp) t.id t.seq 3, rfl⟩

namespace Exchange

variable {getString : Bytes → Bytes} {σ : Exchange}

/-- Synchronisation is on, nothing is left to read and every upload reaches the server. -/
structure Live (σ : Exchange) : Prop where
  page : σ.page.clipboardSync = true
  client : ∃ kept, Sharing [] kept σ.client

end Exchange

end Deskflow
