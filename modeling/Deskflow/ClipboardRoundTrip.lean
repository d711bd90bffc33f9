import Deskflow.ClipboardRouting
import Deskflow.ContainerParser
import Deskflow.FrameWrites

/-! The frames of a clipboard upload, read by the message loop of another client,
deliver the text again when it is not over the limit. -/

namespace Deskflow

open History

/-- A clipboard frame as the peer reads it, under the given id and sequence number. -/
def Outgoing.asMessage (id : UInt8) (seq : UInt32) : Outgoing → Option Message
  | .dclp _ _ mark data => some (.dclp id seq mark data)
  | _ => none

/-- The messages that an upload of `text` amounts to, under the given id and
sequence number. -/
def uploadMessages (id : UInt8) (seq : UInt32) (text : Bytes) : List Message :=
  (DeskflowClient.transferFrames seq text).filterMap (Outgoing.asMessage id seq)

/-- What the callback gets at a message, if the bytes in `kept` are assembled. -/
def Message.delivers (kept : Option Bytes) : Message → Option Bytes
  | .dclp _ _ mark _ =>
    if mark = 3 then (kept.map unmarshalText).filter fun text => !text.isEmpty else none
  | _ => none

def deliveries : Option Bytes → List Message → List Bytes
  | _, [] => []
  | kept, m :: ms => (m.delivers kept).toList ++ deliveries (m.assemble kept) ms

def Event.clipboardText : Event → Option Bytes
  | .clipboard text => some text
  | _ => none

theorem Event.clipboardText_of_not_isClipboard {e : Event} (h : e.isClipboard = false) :
    e.clipboardText = none := by
  cases e <;> simp_all [isClipboard, clipboardText]

namespace DeskflowClient

def texts (c : DeskflowClient) : List Bytes := c.world.log.filterMap Event.clipboardText

theorem Spares.texts {c c' : DeskflowClient} (h : Spares c c') : c'.texts = c.texts :=
  h.log.filterMap_eq fun _ => Event.clipboardText_of_not_isClipboard

/-- The client after `n` iterations of the message loop, each up to the end of the handler. -/
def receives : Nat → DeskflowClient → DeskflowClient
  | 0, c => c
  | n + 1, c => receives n c.receive.2

/-- The setting is on, nothing is buffered, `bytes` come next and `kept` is assembled. -/
structure Assembling (bytes : Bytes) (kept : Option Bytes) (c : DeskflowClient) : Prop where
  view : c.stream.view = ⟨[], bytes⟩
  sync : c.clipboardSync = true
  assembled : c.clipChunk.assembled = kept

theorem perform_assembles {c : DeskflowClient} (m : Message) :
    (c.perform m).2.clipChunk.assembled = m.assemble c.clipChunk.assembled := by
  by_cases hkey : m.key = .DCLP
  · cases m with
    | dclp id seq mark data =>
      simp only [perform, Message.assemble]
      split_ifs
      · exact clipboardStart_assembled seq data c
      · exact clipboardChunk_assembled data c
      · exact clipboardEnd_assembled c
      · rfl
    | _ => cases hkey
  · rw [(perform_clipChunk hkey c).1]
    cases m with
    | dclp id seq mark data => exact absurd rfl hkey
    | _ => rfl

theorem perform_texts {c : DeskflowClient} (hsync : c.clipboardSync = true) (m : Message) :
    (c.perform m).2.texts = c.texts ++ (m.delivers c.clipChunk.assembled).toList := by
  rcases perform_log m c with ⟨hgrows, hend⟩ | ⟨⟨id, seq, data, rfl⟩, hlog⟩
  · have hnone : m.delivers c.clipChunk.assembled = none := by
      cases m with
      | dclp id seq mark data =>
        have hmark : mark ≠ 3 := fun he => hend id seq data (by rw [he])
        exact if_neg hmark
      | _ => rfl
    rw [hnone, texts, hgrows.filterMap_eq fun _ => Event.clipboardText_of_not_isClipboard]
    simp [texts]
  · have hdelivers : (Message.dclp id seq 3 data).delivers c.clipChunk.assembled =
        c.delivered := by
      rw [delivered, hsync]
      simp [Message.delivers]
    rw [texts, hlog, hdelivers, List.filterMap_append, ← texts]
    cases c.delivered <;> rfl

theorem Assembling.receive {m : Message} {rest : Bytes} {kept : Option Bytes}
    {c : DeskflowClient} (h : Assembling (frameBytes m.payload ++ rest) kept c)
    (hm : m.WellFormed) :
    Assembling rest (m.assemble kept) c.receive.2 ∧
      c.receive.2.handled = c.handled ++ [m] ∧
      c.receive.2.texts = c.texts ++ (m.delivers kept).toList := by
  obtain ⟨s, -, hview, he⟩ := c.receive_eq_digest
  have ha := View.arrival_payload hm rest
  rw [← h.view] at ha
  rw [ha] at hview he
  let d := { c with stream := s }.emit (.dispatched m.key.bytes)
  have hd : c.receive = d.handle m := he
  have hsync : d.clipboardSync = true := h.sync
  have hassembled : d.clipChunk.assembled = kept := h.assembled
  have htexts : d.texts = c.texts := by
    rw [texts, texts]
    simp [d, emit, World.emit, Event.clipboardText]
  have hhandled : d.handled = c.handled := handled_emit_of_isMark rfl _
  rw [hd]
  refine ⟨⟨?_, ?_, ?_⟩, ?_, ?_⟩
  · exact (perform_sameInput m d).view.trans hview
  · exact (perform_clipboardSync m d).trans hsync
  · rw [← hassembled]
    exact perform_assembles m
  · rw [handle_handled, hhandled]
  · have hmark : (d.handle m).2.texts = (d.perform m).2.texts := by
      rw [texts, texts]
      simp [DeskflowClient.handle, emit, World.emit, Event.clipboardText]
    rw [hmark, perform_texts hsync, hassembled, htexts]

theorem Assembling.receives {ms : List Message} {rest : Bytes} {kept : Option Bytes}
    {c : DeskflowClient}
    (h : Assembling (ms.flatMap (fun m => frameBytes m.payload) ++ rest) kept c)
    (hms : ∀ m ∈ ms, m.WellFormed) :
    (c.receives ms.length).handled = c.handled ++ ms ∧
      (c.receives ms.length).texts = c.texts ++ deliveries kept ms := by
  induction ms generalizing kept c with
  | nil => simp [DeskflowClient.receives, deliveries]
  | cons m ms ih =>
    rw [List.flatMap_cons, List.append_assoc] at h
    obtain ⟨hnext, hhandled, htexts⟩ := h.receive (hms m (by simp))
    obtain ⟨hrun, hall⟩ := ih hnext fun m hm => hms m (List.mem_cons_of_mem _ hm)
    rw [List.length_cons, DeskflowClient.receives, hrun, hall, hhandled, htexts, deliveries]
    simp

end DeskflowClient

/-- The peer need not read the number of the sender. -/
theorem filterMap_transferFrames (id : UInt8) (seq seq' : UInt32) (text : Bytes) :
    (DeskflowClient.transferFrames seq text).filterMap (Outgoing.asMessage id seq') =
      .dclp id seq' 1 (decimal (marshalText text).length) ::
        ((clipboardChunks (marshalText text)).map (.dclp id seq' 2) ++ [.dclp id seq' 3 []]) := by
  have hchunks (chunks : List Bytes) :
      (chunks.map fun chunk => Outgoing.dclp 0 seq 2 chunk).filterMap (Outgoing.asMessage id seq') =
        chunks.map (Message.dclp id seq' 2) := by
    induction chunks with
    | nil => rfl
    | cons chunk chunks ih => rw [List.map_cons, List.map_cons, ← ih]; rfl
  have hone (mark : UInt8) (data : Bytes) :
      [Outgoing.dclp 0 seq mark data].filterMap (Outgoing.asMessage id seq') =
        [Message.dclp id seq' mark data] := rfl
  rw [DeskflowClient.transferFrames, List.filterMap_append, List.filterMap_append,
    hchunks, hone, hone, List.append_assoc, List.singleton_append]

theorem uploadMessages_eq (id : UInt8) (seq : UInt32) (text : Bytes) :
    uploadMessages id seq text =
      .dclp id seq 1 (decimal (marshalText text).length) ::
        ((clipboardChunks (marshalText text)).map (.dclp id seq 2) ++ [.dclp id seq 3 []]) :=
  filterMap_transferFrames id seq seq text

/-- Under the id and sequence number of the sender these are the frames sent. -/
theorem flatMap_uploadMessages (seq : UInt32) (text : Bytes) :
    (uploadMessages 0 seq text).flatMap (fun m => frameBytes m.payload) =
      (DeskflowClient.transferFrames seq text).flatMap fun o => frameBytes o.payload := by
  have hsame (mark : UInt8) (data : Bytes) :
      (Message.dclp 0 seq mark data).payload = (Outgoing.dclp 0 seq mark data).payload := rfl
  rw [uploadMessages_eq, DeskflowClient.transferFrames]
  simp only [List.flatMap_cons, List.flatMap_append, List.flatMap_map, List.flatMap_nil, hsame,
    List.append_assoc, List.append_nil]

theorem length_payload_dclp (id : UInt8) (seq : UInt32) (mark : UInt8) (data : Bytes) :
    (Message.dclp id seq mark data).payload.length = data.length + 14 := by
  rw [Message.length_payload]
  simp only [Message.key, Message.args, Key.argDirectives, writeDirectives, putSized,
    List.length_append, putInt_of_width (show (1 = 1 ∨ 1 = 2 ∨ 1 = 4) by simp),
    putInt_of_width (show (4 = 1 ∨ 4 = 2 ∨ 4 = 4) by simp), BigEndian.length_encode]
  simp
  omega

theorem wellFormed_dclp {data : Bytes} (h : data.length ≤ 1024 * 1024) (id : UInt8)
    (seq : UInt32) (mark : UInt8) : (Message.dclp id seq mark data).WellFormed := by
  refine ⟨?_, ?_⟩
  · intro s hs
    obtain rfl : s = data := by simpa [Message.args] using hs
    exact h
  · rw [length_payload_dclp]
    omega

/-- No frame is over the limits, so each is read by a peer. -/
theorem wellFormed_uploadMessages {text : Bytes} (h : text.length < 2 ^ 32 - 12) (id : UInt8)
    (seq : UInt32) : ∀ m ∈ uploadMessages id seq text, m.WellFormed := by
  intro m hm
  rw [uploadMessages_eq, List.mem_cons, List.mem_append, List.mem_map, List.mem_singleton] at hm
  rcases hm with rfl | ⟨chunk, hchunk, rfl⟩ | rfl
  · have hdigits := length_decimal_le (n := (marshalText text).length)
      (by rw [length_marshalText]; omega)
    exact wellFormed_dclp (by omega) id seq 1
  · have hle := length_clipboardChunk_le hchunk
    have hk : kChunk = 524288 := rfl
    exact wellFormed_dclp (by omega) id seq 2
  · exact wellFormed_dclp (by simp) id seq 3

theorem length_payload_upload {seq : UInt32} {text : Bytes} (h : text.length < 2 ^ 32 - 12) :
    ∀ o ∈ DeskflowClient.transferFrames seq text, o.payload.length ≤ 4 * 1024 * 1024 := by
  intro o ho
  obtain ⟨m, hm, hpayload⟩ : ∃ m, o.asMessage 0 seq = some m ∧ m.payload = o.payload := by
    simp only [DeskflowClient.transferFrames, List.mem_append, List.mem_singleton,
      List.mem_map] at ho
    rcases ho with (rfl | ⟨chunk, -, rfl⟩) | rfl <;> exact ⟨_, rfl, rfl⟩
  have hmem : m ∈ uploadMessages 0 seq text := List.mem_filterMap.mpr ⟨o, ho, hm⟩
  rw [← hpayload]
  exact (wellFormed_uploadMessages h 0 seq m hmem).2

theorem deliveries_chunks (id : UInt8) (seq : UInt32) (chunks : List Bytes) (kept : Option Bytes)
    (ms : List Message) :
    deliveries kept (chunks.map (.dclp id seq 2) ++ ms) =
      deliveries (kept.map (· ++ chunks.flatten)) ms := by
  induction chunks generalizing kept with
  | nil => cases kept <;> simp
  | cons chunk chunks ih =>
    have hnone : (Message.dclp id seq 2 chunk).delivers kept = none := rfl
    have hassemble : (Message.dclp id seq 2 chunk).assemble kept = kept.map (· ++ chunk) := rfl
    rw [List.map_cons, List.cons_append, deliveries, hnone, hassemble, ih]
    cases kept <;> simp

theorem deliveries_transfer {text : Bytes} (hne : text ≠ []) (h : text.length < 2 ^ 32 - 12)
    {chunks : List Bytes} (hchunks : chunks.flatten = marshalText text) (id : UInt8) (seq : UInt32)
    (kept : Option Bytes) :
    deliveries kept (.dclp id seq 1 (decimal (marshalText text).length) ::
        (chunks.map (.dclp id seq 2) ++ [.dclp id seq 3 []])) =
      if text.length + 12 ≤ kProtocolMaxStringLength then [text] else [] := by
  have hsize : stoull (decimal (marshalText text).length) = some (text.length + 12) := by
    rw [length_marshalText]
    exact stoull_decimal (by omega)
  have hback : unmarshalText (marshalText text) = text := unmarshalText_marshalText (by omega)
  have hempty : text.isEmpty = false := by simpa using hne
  have hnone : (Message.dclp id seq 1 (decimal (marshalText text).length)).delivers kept = none :=
    rfl
  have hstart : (Message.dclp id seq 1 (decimal (marshalText text).length)).assemble kept =
      if text.length + 12 ≤ kProtocolMaxStringLength then some [] else none := by
    simp only [Message.assemble, if_true, Transfer.kept, Transfer.Admitted, hsize, Option.getD_some]
  rw [deliveries, hnone, hstart, deliveries_chunks, hchunks]
  split_ifs
  · simp [deliveries, Message.delivers, hback, hempty]
  · simp [deliveries, Message.delivers]

theorem deliveries_uploadMessages {text : Bytes} (hne : text ≠ [])
    (h : text.length < 2 ^ 32 - 12) (id : UInt8) (seq : UInt32) (kept : Option Bytes) :
    deliveries kept (uploadMessages id seq text) =
      if text.length + 12 ≤ kProtocolMaxStringLength then [text] else [] := by
  rw [uploadMessages_eq]
  exact deliveries_transfer hne h (flatten_clipboardChunks _) id seq kept

namespace DeskflowClient

/-- Once the handshake is done, an upload without a failing write returns true. One that
returns true has put well-formed frames on the wire. Read by a client with the setting on,
whatever it had assembled before, they deliver the text once if its container fits the limit
and nothing otherwise. -/
theorem sendClipboard_received {c : DeskflowClient} {text : Bytes}
    (hlen : text.length < 2 ^ 32 - 12) :
    (Ready c → c.handshakeDone = true → text ≠ [] → (c.sendClipboard text).1 = true) ∧
      ((c.sendClipboard text).1 = true →
        (c.sendClipboard text).2.world.log =
            c.world.log ++ (transferFrames c.seqNum text).map .frame ∧
          (c.sendClipboard text).2.stream.wire = c.stream.wire ++
            (uploadMessages 0 c.seqNum text).flatMap (fun m => frameBytes m.payload) ∧
          ∀ id seq, (∀ m ∈ uploadMessages id seq text, m.WellFormed) ∧
            ∀ (peer : DeskflowClient) (rest : Bytes), peer.clipboardSync = true →
              peer.stream.view = ⟨[],
                (uploadMessages id seq text).flatMap (fun m => frameBytes m.payload) ++ rest⟩ →
              (peer.receives (uploadMessages id seq text).length).handled =
                  peer.handled ++ uploadMessages id seq text ∧
                (peer.receives (uploadMessages id seq text).length).texts = peer.texts ++
                  if text.length + 12 ≤ kProtocolMaxStringLength then [text] else []) := by
  refine ⟨fun hready hdone htext =>
    sendClipboard_of_ready hready hdone htext (length_payload_upload hlen), fun hok => ?_⟩
  obtain ⟨-, hne, hwire, hlog⟩ := sendClipboard_of_ok hok
  refine ⟨hlog, ?_, fun id seq => ⟨wellFormed_uploadMessages hlen id seq, ?_⟩⟩
  · rw [hwire, flatMap_uploadMessages]
  · intro peer rest hsync hview
    have hpeer : Assembling
        ((uploadMessages id seq text).flatMap (fun m => frameBytes m.payload) ++ rest)
        peer.clipChunk.assembled peer := ⟨hview, hsync, rfl⟩
    obtain ⟨hhandled, htexts⟩ := hpeer.receives (wellFormed_uploadMessages hlen id seq)
    exact ⟨hhandled, by rw [htexts, deliveries_uploadMessages hne hlen]⟩

/-- One text, in three frames. -/
theorem sendClipboard_received_hi :
    let c : DeskflowClient :=
      { handshakeDone := true, seqNum := 7,
        stream := { connected := true, sends := [.accept 2, .eintr] } }
    let peer : DeskflowClient :=
      { clipboardSync := true, clipChunk := { active := true, buffer := ascii "x" },
        stream := { connected := true, recvs := [.data ((uploadMessages 0 1 (ascii "hi")).flatMap
          fun m => frameBytes m.payload)] } }
    (c.sendClipboard (ascii "hi")).2.stream.wire =
        (uploadMessages 0 7 (ascii "hi")).flatMap (fun m => frameBytes m.payload) ∧
      (peer.receives 3).texts = [ascii "hi"] := by
  intro c peer
  obtain ⟨hsend, hsent⟩ := @sendClipboard_received c (ascii "hi") (by decide)
  have hready : Ready c := ⟨rfl, by simp [c, Accepting]⟩
  obtain ⟨-, hwire, hpeer⟩ := hsent (hsend hready rfl (by decide))
  have hview : peer.stream.view = ⟨[], (uploadMessages 0 1 (ascii "hi")).flatMap
      (fun m => frameBytes m.payload) ++ []⟩ := by decide +kernel
  obtain ⟨-, htexts⟩ := (hpeer 0 1).2 peer [] rfl hview
  exact ⟨hwire, htexts⟩

end DeskflowClient

end Deskflow
