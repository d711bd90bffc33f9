import Deskflow.ClipboardPaths
import Deskflow.ClipboardRoundTrip

/-! The uploads of a whole run as a client that reads them takes them: one that was given up
delivers nothing and leaves the next one whole. -/

namespace Deskflow

open DeskflowClient

/-- A frame of an upload as its reader decodes it. -/
def Outgoing.toMessage : Outgoing → Option Message
  | .cclp id seq => some (.cclp id seq)
  | .dclp id seq mark data => some (.dclp id seq mark data)
  | _ => none

theorem payload_of_toMessage {o : Outgoing} {m : Message} (h : o.toMessage = some m) :
    m.payload = o.payload := by
  cases o with
  | cclp id seq =>
    obtain rfl := Option.some.inj h
    rfl
  | dclp id seq mark data =>
    obtain rfl := Option.some.inj h
    rfl
  | _ => cases h

theorem exists_toMessage {o : Outgoing} (h : o.isTransfer = true) :
    ∃ m, o.toMessage = some m := by
  cases o with
  | cclp id seq => exact ⟨_, rfl⟩
  | dclp id seq mark data => exact ⟨_, rfl⟩
  | _ => cases h

/-- Every frame of an upload is a message, with the same bytes. -/
theorem wireBytes_transfers {os : List Outgoing} (h : ∀ o ∈ os, o.isTransfer = true) :
    (os.filterMap Outgoing.toMessage).length = os.length ∧
      wireBytes os =
        (os.filterMap Outgoing.toMessage).flatMap fun m => frameBytes m.payload := by
  induction os with
  | nil => exact ⟨rfl, rfl⟩
  | cons o os ih =>
    obtain ⟨ho, hos⟩ := List.forall_mem_cons.mp h
    obtain ⟨m, hm⟩ := exists_toMessage ho
    obtain ⟨hlen, hbytes⟩ := ih hos
    rw [List.filterMap_cons_some hm]
    refine ⟨?_, ?_⟩
    · rw [List.length_cons, List.length_cons, hlen]
    · rw [List.flatMap_cons, ← hbytes, payload_of_toMessage hm]
      rfl

theorem filterMap_toMessage_transferFrames (seq : UInt32) (text : Bytes) :
    (transferFrames seq text).filterMap Outgoing.toMessage = uploadMessages 0 seq text := by
  rw [uploadMessages]
  apply List.filterMap_congr
  intro o ho
  simp only [transferFrames, List.mem_append, List.mem_singleton, List.mem_map] at ho
  rcases ho with (rfl | ⟨chunk, -, rfl⟩) | rfl <;> rfl

theorem deliveries_append (kept : Option Bytes) (ms ms' : List Message) :
    deliveries kept (ms ++ ms') =
      deliveries kept ms ++ deliveries (ms.foldl Message.assemble kept) ms' := by
  induction ms generalizing kept with
  | nil => rfl
  | cons m ms ih =>
    rw [List.cons_append, deliveries, deliveries, ih, List.append_assoc]
    rfl

/-- The end of a transfer. -/
def Message.ends : Message → Bool
  | .dclp _ _ mark _ => mark = 3
  | _ => false

theorem deliveries_of_not_ends {ms : List Message} (h : ∀ m ∈ ms, m.ends = false)
    (kept : Option Bytes) : deliveries kept ms = [] := by
  induction ms generalizing kept with
  | nil => rfl
  | cons m ms ih =>
    obtain ⟨hm, hms⟩ := List.forall_mem_cons.mp h
    have hnone : m.delivers kept = none := by
      cases m with
      | dclp id seq mark data => exact if_neg (of_decide_eq_false hm)
      | _ => rfl
    rw [deliveries, hnone, ih hms]
    rfl

theorem wellFormed_cclp (id : UInt8) (seq : UInt32) : (Message.cclp id seq).WellFormed := by
  have hlen : (Message.cclp id seq).payload.length = 9 :=
    Outgoing.length_payload_cclp id seq
  exact ⟨by simp [Message.args], by omega⟩

namespace UploadPart

def messages (p : UploadPart) : List Message := p.frames.filterMap Outgoing.toMessage

/-- Written to its end, and not over the limit of its reader. -/
def arrives (p : UploadPart) : Bool :=
  p.sent = transferFrames p.upload.seq p.upload.text ∧
    p.text.length + 12 ≤ kProtocolMaxStringLength

theorem isTransfer_of_mem {p : UploadPart} {o : Outgoing} (h : o ∈ p.frames) :
    o.isTransfer = true := by
  rcases List.mem_append.mp h with hgrab | hsent
  · split_ifs at hgrab
    · rw [List.mem_singleton.mp hgrab]
      rfl
    · cases hgrab
  · have hmem := p.cut.subset hsent
    simp only [transferFrames, List.mem_append, List.mem_singleton, List.mem_map] at hmem
    rcases hmem with (rfl | ⟨chunk, -, rfl⟩) | rfl <;> rfl

theorem wellFormed_messages {p : UploadPart} (h : p.text.length < 2 ^ 32 - 12) :
    ∀ m ∈ p.messages, m.WellFormed := by
  intro m hm
  obtain ⟨o, ho, hom⟩ := List.mem_filterMap.mp hm
  rcases List.mem_append.mp ho with hgrab | hsent
  · split_ifs at hgrab
    · rw [List.mem_singleton.mp hgrab] at hom
      obtain rfl := Option.some.inj hom
      exact wellFormed_cclp 0 p.upload.grabSeq
    · cases hgrab
  · apply wellFormed_uploadMessages h 0 p.upload.seq
    rw [← filterMap_toMessage_transferFrames]
    exact List.mem_filterMap.mpr ⟨o, p.cut.subset hsent, hom⟩

theorem not_ends_of_cut {p : UploadPart}
    (h : p.sent ≠ transferFrames p.upload.seq p.upload.text) :
    ∀ m ∈ p.sent.filterMap Outgoing.toMessage, m.ends = false := by
  intro m hm
  obtain ⟨o, ho, hom⟩ := List.mem_filterMap.mp hm
  have hbefore := (List.prefix_concat_iff.mp p.cut).resolve_left h
  have hmem := hbefore.subset ho
  simp only [List.mem_append, List.mem_singleton, List.mem_map] at hmem
  rcases hmem with rfl | ⟨chunk, -, rfl⟩
  · obtain rfl := Option.some.inj hom
    rfl
  · obtain rfl := Option.some.inj hom
    rfl

theorem deliveries_messages {p : UploadPart} (hne : p.text ≠ [])
    (hlen : p.text.length < 2 ^ 32 - 12) (kept : Option Bytes) :
    deliveries kept p.messages = if p.arrives then [p.text] else [] := by
  have hgrab : deliveries kept p.messages =
      deliveries kept (p.sent.filterMap Outgoing.toMessage) := by
    rw [messages, frames, List.filterMap_append, deliveries_append]
    cases p.grabbed <;> rfl
  rw [hgrab]
  by_cases hfull : p.sent = transferFrames p.upload.seq p.upload.text
  · have harrives : p.arrives = decide (p.text.length + 12 ≤ kProtocolMaxStringLength) := by
      simp [arrives, hfull]
    rw [hfull, filterMap_toMessage_transferFrames, harrives]
    refine (deliveries_uploadMessages hne hlen 0 p.upload.seq kept).trans ?_
    simp
  · rw [deliveries_of_not_ends (not_ends_of_cut hfull), if_neg (by simp [arrives, hfull])]

theorem deliveries_parts {parts : List UploadPart}
    (h : ∀ p ∈ parts, p.text ≠ [] ∧ p.text.length < 2 ^ 32 - 12) (kept : Option Bytes) :
    deliveries kept ((parts.flatMap frames).filterMap Outgoing.toMessage) =
      (parts.filter arrives).map text := by
  induction parts generalizing kept with
  | nil => rfl
  | cons p parts ih =>
    obtain ⟨⟨hne, hlen⟩, hparts⟩ := List.forall_mem_cons.mp h
    rw [List.flatMap_cons, List.filterMap_append, deliveries_append, ih hparts]
    have hfirst : deliveries kept (p.frames.filterMap Outgoing.toMessage) = _ :=
      deliveries_messages hne hlen kept
    rw [hfirst, List.filter_cons]
    split_ifs <;> rfl

end UploadPart

namespace System

theorem mem_acceptedTexts {actions : List Action} {σ : System} {text : Bytes}
    (h : text ∈ acceptedTexts actions σ) : .push text ∈ actions ∧ text ≠ [] := by
  induction actions generalizing σ with
  | nil => cases h
  | cons a actions ih =>
    rcases List.mem_append.mp h with hfirst | hrest
    · have haccepts : σ.accepts a = some text := Option.mem_toList.mp hfirst
      cases a with
      | push text' =>
        simp only [accepts] at haccepts
        split_ifs at haccepts with hbusy hguard
        obtain rfl := Option.some.inj haccepts
        refine ⟨List.mem_cons_self, ?_⟩
        rintro rfl
        simp at hguard
      | _ => cases haccepts
    · obtain ⟨hmem, hne⟩ := ih hrest
      exact ⟨List.mem_cons_of_mem _ hmem, hne⟩

/-- In every run, whatever writes fail: the clipboard frames that the client has written, read
by a client with the setting on, deliver the texts of the uploads that were written to their
ends and are not over the limit, each once and in order, and nothing else. -/
theorem run_received (injections : List InjectOutcome) {actions : List Action}
    (hlen : ∀ text, .push text ∈ actions → text.length < 2 ^ 32 - 12) :
    let os := ((initial injections).run actions).client.transfers
    ∃ parts : List UploadPart, os = parts.flatMap UploadPart.frames ∧
      parts.map UploadPart.text = acceptedTexts actions (initial injections) ∧
      ∀ (peer : DeskflowClient) (rest : Bytes), peer.clipboardSync = true →
        peer.stream.view = ⟨[], wireBytes os ++ rest⟩ →
        (peer.receives os.length).texts =
          peer.texts ++ (parts.filter UploadPart.arrives).map UploadPart.text := by
  intro os
  obtain ⟨parts, hparts, htexts⟩ := (uploaded_initial injections).run actions
  have hos : os = parts.flatMap UploadPart.frames := hparts.transfers
  refine ⟨parts, hos, htexts, fun peer rest hsync hview => ?_⟩
  have hpart : ∀ p ∈ parts, p.text ≠ [] ∧ p.text.length < 2 ^ 32 - 12 := by
    intro p hp
    have hmem : p.text ∈ acceptedTexts actions (initial injections) := by
      rw [← List.nil_append (acceptedTexts _ _)]
      exact htexts ▸ List.mem_map_of_mem hp
    obtain ⟨hpushed, hne⟩ := mem_acceptedTexts hmem
    exact ⟨hne, hlen p.text hpushed⟩
  have htransfers : ∀ o ∈ os, o.isTransfer = true := by
    intro o ho
    rw [hos] at ho
    obtain ⟨p, -, hop⟩ := List.mem_flatMap.mp ho
    exact UploadPart.isTransfer_of_mem hop
  obtain ⟨hcount, hbytes⟩ := wireBytes_transfers htransfers
  have hpeer : Assembling ((os.filterMap Outgoing.toMessage).flatMap
      (fun m => frameBytes m.payload) ++ rest) peer.clipChunk.assembled peer :=
    ⟨hbytes ▸ hview, hsync, rfl⟩
  have hmessages : ∀ m ∈ os.filterMap Outgoing.toMessage, m.WellFormed := by
    intro m hm
    obtain ⟨o, ho, hom⟩ := List.mem_filterMap.mp hm
    rw [hos] at ho
    obtain ⟨p, hp, hop⟩ := List.mem_flatMap.mp ho
    exact UploadPart.wellFormed_messages (hpart p hp).2 m
      (List.mem_filterMap.mpr ⟨o, hop, hom⟩)
  obtain ⟨-, hdelivered⟩ := hpeer.receives hmessages
  rw [hcount] at hdelivered
  rw [hdelivered, hos, UploadPart.deliveries_parts hpart]

/-- One text is pushed and uploaded, in four frames. -/
theorem run_received_near :
    let actions := serving [.dsop []] 3 ++ .push (ascii "near") :: List.replicate 6 .upload
    let os := ((initial []).run actions).client.transfers
    os.length = 4 ∧ ∃ parts : List UploadPart, os = parts.flatMap UploadPart.frames ∧
      parts.map UploadPart.text = acceptedTexts actions (initial []) ∧
      ∀ (peer : DeskflowClient) (rest : Bytes), peer.clipboardSync = true →
        peer.stream.view = ⟨[], wireBytes os ++ rest⟩ →
        (peer.receives os.length).texts =
          peer.texts ++ (parts.filter UploadPart.arrives).map UploadPart.text := by
  intro actions os
  refine ⟨by decide +kernel, run_received [] fun text hpush => ?_⟩
  have hsame : text = ascii "near" := by
    simpa [actions, serving, List.mem_replicate] using hpush
  rw [hsame]
  decide

end System

end Deskflow
