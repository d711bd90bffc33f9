import Deskflow.Carriers
import Deskflow.EchoSuppression
import Deskflow.PasteboardTexts
import Deskflow.StatusBridge

/-! The clipboard frames that a client has written over a whole run: the uploads of the texts
that were pushed, one after the other. -/

namespace Deskflow

open History DeskflowClient

namespace Outgoing

/-- The frames of an upload. -/
def isTransfer : Outgoing → Bool
  | .cclp _ _ => true
  | .dclp _ _ _ _ => true
  | _ => false

theorem not_isTransfer_of_isReply {o : Outgoing} (h : o.isReply) : o.isTransfer = false := by
  cases o <;> simp_all [isReply, isTransfer]

theorem not_isTransfer_of_isHelloBack {o : Outgoing} (h : o.isHelloBack) :
    o.isTransfer = false := by
  cases o <;> simp_all [isHelloBack, isTransfer]

end Outgoing

/-- What has been written of an upload: the grab, if it was, and the transfer up to where it
was given up or has got. -/
structure UploadPart where
  upload : Upload
  grabbed : Bool
  sent : List Outgoing
  cut : sent <+: transferFrames upload.seq upload.text

namespace UploadPart

def text (p : UploadPart) : Bytes := p.upload.text

def frames (p : UploadPart) : List Outgoing :=
  (if p.grabbed then [.cclp 0 p.upload.grabSeq] else []) ++ p.sent

/-- Before the grab. -/
def ofText (text : Bytes) : UploadPart := ⟨⟨0, 0, text⟩, false, [], List.nil_prefix⟩

/-- After the grab, which may have failed. -/
def ofGrab (text : Bytes) (grabSeq : UInt32) (grabbed : Bool) : UploadPart :=
  ⟨⟨grabSeq, 0, text⟩, grabbed, [], List.nil_prefix⟩

end UploadPart

namespace DeskflowClient

def transfers (c : DeskflowClient) : List Outgoing := c.frames.filter Outgoing.isTransfer

/-- An event other than a frame of an upload. -/
def NoTransfer (e : Event) : Prop := ∀ o, e = .frame o → o.isTransfer = false

theorem transfers_of_grows {c c' : DeskflowClient}
    (h : Grows NoTransfer c.world.log c'.world.log) : c'.transfers = c.transfers := by
  obtain ⟨es, hes, hnone⟩ := h
  rw [transfers, transfers, frames, frames, hes, List.filterMap_append, List.filter_append]
  have hrest : (es.filterMap Event.sent).filter Outgoing.isTransfer = [] := by
    rw [List.filter_eq_nil_iff]
    intro o ho
    obtain ⟨e, he, hsent⟩ := List.mem_filterMap.mp ho
    cases e with
    | frame o' =>
      obtain rfl : o' = o := Option.some.inj hsent
      simp [hnone _ he o' rfl]
    | _ => cases hsent
  rw [hrest, List.append_nil]

theorem Emits.noTransfer {p : Outgoing → Prop} {c c' : DeskflowClient} (h : Emits p c c')
    (hp : ∀ o, p o → o.isTransfer = false) : Grows NoTransfer c.world.log c'.world.log :=
  h.log.mono fun _ he o ho => hp o (he.2.2 o ho)

theorem Emits.quiet {c c' : DeskflowClient} (h : Emits (fun _ => False) c c') :
    Grows NoTransfer c.world.log c'.world.log :=
  h.noTransfer fun _ => False.elim

theorem write_transfers {o : Outgoing} (ho : o.isTransfer = true) (c : DeskflowClient) :
    (c.write o).2.transfers = c.transfers ++ if (c.write o).1 then [o] else [] := by
  have hframes := write_frames o c
  have hok : (c.write o).1 = (c.stream.writeFrame o.payload).1 := rfl
  rw [transfers, hframes, hok]
  split_ifs
  · rw [List.filter_append, transfers]
    simp [ho]
  · rw [List.append_nil]
    rfl

end DeskflowClient

namespace System

/-- The worker writes nothing that belongs to an upload. -/
theorem work_noTransfer (conn : Connection) (σ : System) :
    Grows NoTransfer σ.client.world.log (σ.work conn).client.world.log := by
  have hload : Grows NoTransfer σ.client.world.log σ.client.loadStop.2.world.log :=
    (loadStop_emits σ.client).quiet
  have hevent {e : Event} (h : ∀ o, e ≠ .frame o) (log : List Event) :
      Grows NoTransfer log (log ++ [e]) := .single (fun o ho => absurd ho (h o)) log
  unfold work
  split
  · exact .refl _
  · split
    · exact hload.trans (finish_emits _).quiet
    · have hset : Emits (fun _ => False) σ.client.loadStop.2
          { σ.client.loadStop.2 with shouldReconnect := true } := .same rfl rfl
      have hdial := hload.trans (hset.trans (.setStatus (ascii "connecting to " ++
        σ.client.host ++ ascii ":" ++ decimal σ.client.port.toNat) _)).quiet
      dsimp only
      split_ifs
      · exact hdial.trans ((hevent (e := .connected) (by simp) _).trans
          (hevent (e := .status (ascii "connected, handshake...")) (by simp) _))
      · exact hdial.trans (connectFailed_emits _).quiet
  · have hshake : Grows NoTransfer σ.client.world.log σ.client.handshake.2.world.log :=
      (handshake_emits σ.client).noTransfer fun _ => Outgoing.not_isTransfer_of_isHelloBack
    dsimp only
    split_ifs
    · exact hshake.trans (hevent (by simp) _)
    · exact hshake.trans (handshakeFailed_emits _).quiet
  · split_ifs
    · exact hload
    · have hreceive := (receive_replies σ.client.loadStop.2).1
      exact hload.trans (hreceive.mono fun e he o ho =>
        Outgoing.not_isTransfer_of_isReply (he.2 o ho))
  · rename_i keepGoing _
    refine (acknowledge_emits (keepGoing, σ.client)).noTransfer fun o ho => ?_
    rw [ho.1]
    rfl
  · exact (loopExited_emits _).quiet
  · rename_i again _
    have hretry : Grows NoTransfer σ.client.world.log (retry (again, σ.client)).2.world.log :=
      (retry_emits (again, σ.client)).quiet
    dsimp only
    split_ifs
    · exact hretry
    · exact hretry.trans (finish_emits _).quiet

theorem work_push (conn : Connection) (σ : System) : (σ.work conn).push = σ.push := by
  unfold work
  cases σ.phase with
  | idle => rfl
  | ready =>
    dsimp only
    split_ifs <;> rfl
  | greeting =>
    dsimp only
    split_ifs <;> rfl
  | looping =>
    dsimp only
    split_ifs <;> rfl
  | answering keepGoing => rfl
  | closing => rfl
  | leaving again =>
    dsimp only
    split_ifs <;> rfl

/-- The text of a push that passes the test of the call. -/
def accepts (σ : System) : Action → Option Bytes
  | .push text =>
    if σ.push.isSome then none
    else if !σ.client.clipboardSync || !σ.client.handshakeDone || text.isEmpty then none
    else some text
  | _ => none

def acceptedTexts : List Action → System → List Bytes
  | [], _ => []
  | a :: actions, σ => (σ.accepts a).toList ++ acceptedTexts actions (σ.step a)

/-- What the call under way has still to do is due to the last of the uploads. -/
def Pending : Option Push → List UploadPart → Prop
  | none, _ => True
  | some (.grab text), parts => ∃ before, parts = before ++ [.ofText text]
  | some (.send text), parts => ∃ before grabSeq grabbed,
      parts = before ++ [.ofGrab text grabSeq grabbed]
  | some (.frames os), parts => ∃ before p, parts = before ++ [p] ∧
      p.sent ++ os = transferFrames p.upload.seq p.upload.text

/-- The frames written for the clipboard are those of the uploads, one after the other. -/
structure Uploaded (parts : List UploadPart) (σ : System) : Prop where
  transfers : σ.client.transfers = parts.flatMap UploadPart.frames
  pending : Pending σ.push parts

namespace Uploaded

variable {parts : List UploadPart} {σ σ' : System}

theorem keep (h : Uploaded parts σ) (htransfers : σ'.client.transfers = σ.client.transfers)
    (hpush : σ'.push = σ.push) : Uploaded parts σ' :=
  ⟨htransfers.trans h.transfers, hpush ▸ h.pending⟩

theorem finish (h : Uploaded parts σ) (hsame : σ'.client.transfers = σ.client.transfers)
    (hpush : σ'.push = none) : Uploaded parts σ' := by
  refine ⟨hsame.trans h.transfers, ?_⟩
  rw [hpush]
  trivial

theorem grab {text : Bytes} (h : Uploaded parts σ) (hpush : σ.push = some (.grab text)) :
    ∃ parts', Uploaded parts' σ.upload ∧
      parts'.map UploadPart.text = parts.map UploadPart.text := by
  obtain ⟨before, rfl⟩ : ∃ before, parts = before ++ [.ofText text] := by
    have hpending := h.pending
    rwa [hpush] at hpending
  have hbefore : σ.client.transfers = before.flatMap UploadPart.frames := by
    rw [h.transfers, List.flatMap_append]
    simp [UploadPart.ofText, UploadPart.frames]
  let p := UploadPart.ofGrab text σ.client.seqNum σ.client.grabClipboard.1
  refine ⟨before ++ [p], ⟨?_, ?_⟩, ?_⟩
  · have hgrab : σ.client.grabClipboard.2.transfers =
        σ.client.transfers ++
          if σ.client.grabClipboard.1 then [.cclp 0 σ.client.seqNum] else [] := by
      by_cases hdone : σ.client.handshakeDone = true
      · have hwrite : σ.client.grabClipboard = σ.client.write (.cclp 0 σ.client.seqNum) := by
          rw [grabClipboard, hdone]
          rfl
        rw [hwrite]
        exact write_transfers rfl σ.client
      · rw [Bool.not_eq_true] at hdone
        have hnothing : σ.client.grabClipboard = (false, σ.client) := by
          rw [grabClipboard, hdone]
          rfl
        rw [hnothing]
        exact (List.append_nil _).symm
    have hclient : σ.upload.client = σ.client.grabClipboard.2 := by
      rw [upload, hpush]
    rw [hclient, hgrab, hbefore, List.flatMap_append, List.flatMap_singleton, UploadPart.frames]
    exact congrArg (before.flatMap UploadPart.frames ++ ·) (List.append_nil _).symm
  · have hnext : σ.upload.push = some (.send text) := by
      rw [upload, hpush]
    rw [hnext]
    exact ⟨before, _, _, rfl⟩
  · rw [List.map_append, List.map_append]
    rfl

theorem send {text : Bytes} (h : Uploaded parts σ) (hpush : σ.push = some (.send text)) :
    ∃ parts', Uploaded parts' σ.upload ∧
      parts'.map UploadPart.text = parts.map UploadPart.text := by
  obtain ⟨before, grabSeq, grabbed, rfl⟩ : ∃ before grabSeq grabbed,
      parts = before ++ [.ofGrab text grabSeq grabbed] := by
    have hpending := h.pending
    rwa [hpush] at hpending
  rw [upload, hpush]
  dsimp only
  split_ifs
  · exact ⟨_, h.finish rfl rfl, rfl⟩
  · let p : UploadPart := ⟨⟨grabSeq, σ.client.seqNum, text⟩, grabbed, [], List.nil_prefix⟩
    have hframes : p.frames = (UploadPart.ofGrab text grabSeq grabbed).frames := rfl
    refine ⟨before ++ [p], ⟨?_, before, p, rfl, List.nil_append _⟩, ?_⟩
    · show σ.client.transfers = _
      rw [h.transfers, List.flatMap_append, List.flatMap_append, List.flatMap_singleton,
        List.flatMap_singleton, hframes]
    · rw [List.map_append, List.map_append]
      rfl

theorem frames {os : List Outgoing} (h : Uploaded parts σ) (hpush : σ.push = some (.frames os)) :
    ∃ parts', Uploaded parts' σ.upload ∧
      parts'.map UploadPart.text = parts.map UploadPart.text := by
  obtain ⟨before, p, rfl, hrest⟩ : ∃ before p, parts = before ++ [p] ∧
      p.sent ++ os = transferFrames p.upload.seq p.upload.text := by
    have hpending := h.pending
    rwa [hpush] at hpending
  cases os with
  | nil =>
    rw [upload, hpush]
    exact ⟨_, h.finish rfl rfl, rfl⟩
  | cons o os =>
    have ho : o.isTransfer = true := by
      have hmem : o ∈ transferFrames p.upload.seq p.upload.text := by
        rw [← hrest]
        simp
      simp only [transferFrames, List.mem_append, List.mem_singleton, List.mem_map] at hmem
      rcases hmem with (rfl | ⟨chunk, -, rfl⟩) | rfl <;> rfl
    have hwrite := write_transfers ho σ.client
    rw [upload, hpush]
    dsimp only
    by_cases hok : (σ.client.write o).1 = true
    · rw [if_pos hok] at hwrite ⊢
      let q : UploadPart := { p with
        sent := p.sent ++ [o]
        cut := ⟨os, by rw [← hrest, List.append_assoc, List.singleton_append]⟩ }
      refine ⟨before ++ [q], ⟨?_, before, q, rfl, ?_⟩, ?_⟩
      · show (σ.client.write o).2.transfers = _
        rw [hwrite, h.transfers, List.flatMap_append, List.flatMap_append, List.append_assoc]
        simp [UploadPart.frames, q]
      · show p.sent ++ [o] ++ os = transferFrames p.upload.seq p.upload.text
        rw [← hrest, List.append_assoc, List.singleton_append]
      · rw [List.map_append, List.map_append]
        rfl
    · rw [if_neg hok] at hwrite ⊢
      exact ⟨_, h.finish (hwrite.trans (List.append_nil _)) rfl, rfl⟩

theorem upload (h : Uploaded parts σ) : ∃ parts', Uploaded parts' σ.upload ∧
    parts'.map UploadPart.text = parts.map UploadPart.text := by
  cases hpush : σ.push with
  | none =>
    refine ⟨parts, ?_, rfl⟩
    rw [System.upload, hpush]
    exact h
  | some push =>
    cases push with
    | grab text => exact h.grab hpush
    | send text => exact h.send hpush
    | frames os => exact h.frames hpush

/-- Only a push that passes its test adds an upload. -/
theorem step (h : Uploaded parts σ) (a : Action) : ∃ parts', Uploaded parts' (σ.step a) ∧
    parts'.map UploadPart.text = parts.map UploadPart.text ++ (σ.accepts a).toList := by
  have hsame {parts' : List UploadPart} {σ' : System} (h' : Uploaded parts' σ')
      (htexts : parts'.map UploadPart.text = parts.map UploadPart.text) : ∃ parts',
      Uploaded parts' σ' ∧ parts'.map UploadPart.text = parts.map UploadPart.text ++ [] :=
    ⟨parts', h', htexts.trans (List.append_nil _).symm⟩
  cases a with
  | work conn =>
    exact hsame (h.keep (transfers_of_grows (work_noTransfer conn σ)) (work_push conn σ)) rfl
  | upload =>
    obtain ⟨parts', hparts, htexts⟩ := h.upload
    exact hsame hparts htexts
  | push text =>
    show ∃ parts', Uploaded parts' (σ.beginPush text) ∧ _ = _ ++ Option.toList (ite _ _ _)
    unfold beginPush
    split_ifs
    · exact hsame h rfl
    · exact hsame h rfl
    · refine ⟨parts ++ [.ofText text], ⟨?_, parts, rfl⟩, List.map_append⟩
      rw [List.flatMap_append, h.transfers]
      exact (List.append_nil _).symm
  | start host port screenName =>
    have hstarted : Uploaded parts (σ.step (.start host port screenName)) := by
      rw [System.step]
      rcases σ.start_cases host port screenName with hstart | ⟨-, hstart⟩
      · rw [hstart]
        exact h
      · rw [hstart]
        exact h.keep rfl rfl
    exact hsame hstarted rfl
  | call k => exact hsame (h.keep (transfers_of_grows (call_emits k σ.client).quiet) rfl) rfl

theorem run (h : Uploaded parts σ) (actions : List Action) : ∃ parts',
    Uploaded parts' (σ.run actions) ∧
      parts'.map UploadPart.text = parts.map UploadPart.text ++ acceptedTexts actions σ := by
  induction actions generalizing σ parts with
  | nil => exact ⟨parts, h, (List.append_nil _).symm⟩
  | cons a actions ih =>
    obtain ⟨parts₁, h₁, htexts₁⟩ := h.step a
    obtain ⟨parts₂, h₂, htexts₂⟩ := ih h₁
    refine ⟨parts₂, h₂, ?_⟩
    rw [htexts₂, htexts₁, List.append_assoc]
    rfl

end Uploaded

theorem uploaded_initial (injections : List InjectOutcome) :
    Uploaded [] (initial injections) := ⟨rfl, trivial⟩

/-- In every run the frames that the client has written for the clipboard are, one upload
after the other, those of the pushes that passed their test, each up to a point. -/
theorem run_uploads (injections : List InjectOutcome) (actions : List Action) :
    ∃ parts : List UploadPart,
      ((initial injections).run actions).client.transfers = parts.flatMap UploadPart.frames ∧
        parts.map UploadPart.text = acceptedTexts actions (initial injections) := by
  obtain ⟨parts, hparts, htexts⟩ := (uploaded_initial injections).run actions
  exact ⟨parts, hparts.transfers, htexts⟩

end System

end Deskflow
