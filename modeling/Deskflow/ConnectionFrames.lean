import Deskflow.Standing
import Deskflow.Threads

/-! The order of the frames on a connection, and what one call of the client adds to it. -/

namespace Deskflow

open History

namespace Outgoing

def isHelloBack : Outgoing → Bool
  | .helloBack _ _ _ => true
  | _ => false

/-- The frames that only the phase after `DSOP` has. -/
def isRuntime : Outgoing → Bool
  | .cnop => true
  | .cclp _ _ => true
  | .dclp _ _ _ _ => true
  | _ => false

def isReply : Outgoing → Bool
  | .dinf _ _ _ _ => true
  | .calv => true
  | _ => false

theorem not_isRuntime_of_isReply {o : Outgoing} (h : o.isReply) : o.isRuntime = false := by
  cases o <;> simp_all [isReply, isRuntime]

theorem not_isRuntime_of_isHelloBack {o : Outgoing} (h : o.isHelloBack) : o.isRuntime = false := by
  cases o <;> simp_all [isHelloBack, isRuntime]

end Outgoing

/-- What has happened since the latest connect. -/
def latest (log : List Event) : List Event :=
  log.foldl (fun es e => if e = .connected then [] else es ++ [e]) []

theorem latest_concat (log : List Event) (e : Event) :
    latest (log ++ [e]) = if e = .connected then [] else latest log ++ [e] :=
  List.foldl_append

theorem latest_append {log es : List Event} (h : .connected ∉ es) :
    latest (log ++ es) = latest log ++ es := by
  induction es using List.reverseRecOn with
  | nil => simp
  | append_singleton es e ih =>
    rw [List.mem_append, not_or] at h
    have he : e ≠ .connected := fun heq => h.2 (by simp [heq])
    rw [← List.append_assoc, latest_concat, if_neg he, ih h.1, List.append_assoc]

def Optioned (es : List Event) : Prop := ∃ options, .handled (.dsop options) ∈ es

theorem Optioned.append {es : List Event} (h : Optioned es) (fs : List Event) :
    Optioned (es ++ fs) := by
  obtain ⟨options, hmem⟩ := h
  exact ⟨options, List.mem_append_left _ hmem⟩

def Framed (es : List Event) : Prop := ∃ o, .frame o ∈ es

theorem Framed.append {es : List Event} (h : Framed es) (fs : List Event) : Framed (es ++ fs) := by
  obtain ⟨o, hmem⟩ := h
  exact ⟨o, List.mem_append_left _ hmem⟩

/-- On every connection the first frame is `HelloBack`, and a runtime frame
comes only after a `DSOP`. -/
def ProtocolOrder : List Event → Prop :=
  Throughout fun pre e => ∀ o, e = .frame o →
    (¬Framed (latest pre) → o.isHelloBack) ∧ (o.isRuntime → Optioned (latest pre))

/-- No connection is opened once a `DSOP` has been handled. -/
def OptionedLast : List Event → Prop := Throughout fun pre e => e = .connected → ¬Optioned pre

theorem OptionedLast.latest {log : List Event} (h : OptionedLast log) (hdone : Optioned log) :
    Optioned (latest log) := by
  induction log using List.reverseRecOn with
  | nil => exact hdone
  | append_singleton log e ih =>
    obtain ⟨hlog, he⟩ := throughout_concat.mp h
    rw [latest_concat]
    split_ifs with hconn
    · obtain ⟨options, hmem⟩ := hdone
      rcases List.mem_append.mp hmem with hold | hnew
      · exact absurd ⟨options, hold⟩ (he hconn)
      · simp [hconn] at hnew
    · obtain ⟨options, hmem⟩ := hdone
      rcases List.mem_append.mp hmem with hold | hnew
      · exact (ih hlog ⟨options, hold⟩).append _
      · exact ⟨options, List.mem_append_right _ hnew⟩

theorem OptionedLast.of_prefix {log log' : List Event} (h : OptionedLast log')
    (hpre : log <+: log') :
    OptionedLast log := fun pre e he => h pre e (he.trans hpre)

/-- New events on the same connection, each frame of which is allowed there. -/
theorem ProtocolOrder.append {log es : List Event} (h : ProtocolOrder log)
    (hconn : .connected ∉ es)
    (hframes : ∀ o, .frame o ∈ es → o.isHelloBack ∨
      (Framed (latest log) ∧ (o.isRuntime → Optioned (latest log)))) :
    ProtocolOrder (log ++ es) := by
  intro pre e hpre o he
  rcases prefix_append_cases hpre with hold | ⟨fs, rfl, hnew⟩
  · exact h pre e hold o he
  · have hmem : .frame o ∈ es := he ▸ hnew.subset (by simp)
    have hfs : .connected ∉ fs := fun hc => hconn (hnew.subset (List.mem_append_left _ hc))
    rw [latest_append hfs]
    rcases hframes o hmem with hhello | ⟨hframed, hoptioned⟩
    · refine ⟨fun _ => hhello, fun hrun => ?_⟩
      simp [Outgoing.not_isRuntime_of_isHelloBack hhello] at hrun
    · exact ⟨fun hnone => absurd (hframed.append fs) hnone, fun hrun => (hoptioned hrun).append fs⟩

/-- An event of a step that opens no connection and handles no message, with
frames of the given kind. -/
def Writes (p : Outgoing → Prop) (e : Event) : Prop :=
  e ≠ .connected ∧ (∀ m, e ≠ .handled m) ∧ ∀ o, e = .frame o → p o

theorem writes_status (p : Outgoing → Prop) (s : Bytes) : Writes p (.status s) := by simp [Writes]

theorem writes_returned (p : Outgoing → Prop) : Writes p .returned := by simp [Writes]

namespace DeskflowClient

/-- The handshake flag is as before, and frames of the given kind were written. -/
structure Emits (p : Outgoing → Prop) (c c' : DeskflowClient) : Prop where
  handshakeDone : c'.handshakeDone = c.handshakeDone
  log : Grows (Writes p) c.world.log c'.world.log

namespace Emits

variable {p q : Outgoing → Prop} {c c' c'' : DeskflowClient}

theorem same (h : c'.handshakeDone = c.handshakeDone) (hlog : c'.world.log = c.world.log) :
    Emits p c c' := ⟨h, hlog ▸ .refl _⟩

theorem trans (h : Emits p c c') (h' : Emits p c' c'') : Emits p c c'' :=
  ⟨h'.handshakeDone.trans h.handshakeDone, h.log.trans h'.log⟩

theorem mono (h : Emits p c c') (hpq : ∀ o, p o → q o) : Emits q c c' :=
  ⟨h.handshakeDone, h.log.mono fun _ he => ⟨he.1, he.2.1, fun o ho => hpq o (he.2.2 o ho)⟩⟩

theorem emit {e : Event} (h : Writes p e) (c : DeskflowClient) : Emits p c (c.emit e) :=
  ⟨rfl, .single h _⟩

theorem setStatus (s : Bytes) (c : DeskflowClient) : Emits p c (c.setStatus s) :=
  emit (writes_status p s) c

end Emits

theorem write_emits (o : Outgoing) (c : DeskflowClient) : Emits (· = o) c (c.write o).2 := by
  have hset : Emits (· = o) c { c with stream := (c.stream.writeFrame o.payload).2 } :=
    .same rfl rfl
  have hframe : Writes (· = o) (.frame o) := by simp [Writes]
  unfold write
  dsimp only
  split
  · exact hset.trans (.emit hframe _)
  · exact hset

theorem answerHello_emits (protocolName : Bytes) (major minor : Int16) (c : DeskflowClient) :
    Emits (fun o => o.isHelloBack) c (c.answerHello protocolName major minor).2 := by
  have hset : Emits (fun o => o.isHelloBack) c { c with shouldReconnect := false } :=
    .same rfl rfl
  unfold answerHello
  split
  · exact hset.trans (.setStatus _ _)
  · refine (write_emits _ c).mono fun o ho => ?_
    rw [ho]
    rfl

theorem answerHello_framed {protocolName : Bytes} {major minor : Int16} {c : DeskflowClient}
    (h : (c.answerHello protocolName major minor).1 = true) :
    ∃ o, (c.answerHello protocolName major minor).2.world.log = c.world.log ++ [.frame o] := by
  unfold answerHello at h ⊢
  split at h
  · simp at h
  · rename_i hok
    rw [if_neg hok]
    exact ⟨_, write_framed h⟩

theorem handshake_emits (c : DeskflowClient) :
    Emits (fun o => o.isHelloBack) c c.handshake.2 := by
  have hset (s : SocketStream) : Emits (fun o => o.isHelloBack) c { c with stream := s } :=
    .same rfl rfl
  unfold handshake
  split
  · exact hset _
  · split
    · exact (hset _).trans (answerHello_emits _ _ _ _)
    · exact hset _

theorem handshake_framed {c : DeskflowClient} (h : c.handshake.1 = true) :
    ∃ o, c.handshake.2.world.log = c.world.log ++ [.frame o] := by
  unfold handshake at h ⊢
  split at h
  · simp at h
  · split at h
    · exact answerHello_framed h
    · simp at h

section Quiet

variable {p : Outgoing → Prop}

theorem loadStop_emits (c : DeskflowClient) : Emits p c c.loadStop.2 := .same rfl rfl

theorem connectFailed_emits (c : DeskflowClient) : Emits p c c.connectFailed.2 :=
  (Emits.setStatus _ c).trans (.emit (writes_returned p) _)

theorem closeStream_emits (c : DeskflowClient) : Emits p c c.closeStream := .same rfl rfl

theorem handshakeFailed_emits (c : DeskflowClient) : Emits p c c.handshakeFailed.2 :=
  ((Emits.setStatus _ c).trans (closeStream_emits _)).trans (.emit (writes_returned p) _)

theorem loopExited_emits (c : DeskflowClient) : Emits p c c.loopExited.2 :=
  ((closeStream_emits c).trans (loadStop_emits _)).trans (.emit (writes_returned p) _)

theorem backOff_emits (n : Nat) (c : DeskflowClient) : Emits p c (c.backOff n) := by
  induction n generalizing c with
  | zero => exact .same rfl rfl
  | succ n ih =>
    rw [backOff]
    split
    · exact loadStop_emits c
    · exact (loadStop_emits c).trans (ih _)

theorem finish_emits (c : DeskflowClient) : Emits p c c.finish := by
  have hset : Emits p c { c with running := false } := .same rfl rfl
  unfold finish
  dsimp only
  split
  · exact hset.trans (loadStop_emits _)
  · exact (hset.trans (loadStop_emits _)).trans (.setStatus _ _)

theorem retry_emits (r : Bool × DeskflowClient) : Emits p r.2 (retry r).2 := by
  have hload : Emits p r.2 r.2.loadAuto.2 := .same rfl rfl
  unfold retry
  split
  · exact hload
  · split
    · exact hload.trans (loadStop_emits _)
    · exact ((hload.trans (loadStop_emits _)).trans (.setStatus _ _)).trans (backOff_emits _ _)

theorem call_emits (k : Call) (c : DeskflowClient) : Emits p c (c.call k) := by
  cases k with
  | setClipboardSync enable =>
    have hset : Emits p c { c with clipboardSync := enable } := .same rfl rfl
    exact hset.trans (.emit (by simp [Writes]) _)
  | _ => exact .same rfl rfl

theorem start_emits (host : Bytes) (port : UInt16) (screenName : Bytes) (c : DeskflowClient) :
    Emits p c (c.start host port screenName).2 := by
  unfold DeskflowClient.start
  split <;> exact .same rfl rfl

end Quiet

theorem acknowledge_emits (r : Bool × DeskflowClient) :
    Emits (fun o => o = .cnop ∧ r.2.handshakeDone = true) r.2 (acknowledge r).2 := by
  unfold acknowledge
  split
  · rename_i hack
    rw [Bool.and_eq_true] at hack
    exact (write_emits .cnop r.2).mono fun o ho => ⟨ho, hack.2⟩
  · exact .same rfl rfl

/-- An event of an iteration up to the end of the handler. -/
def Replies (e : Event) : Prop := e ≠ .connected ∧ ∀ o, e = .frame o → o.isReply

theorem perform_replies (m : Message) (c : DeskflowClient) :
    Grows Replies c.world.log (c.perform m).2.world.log := by
  cases hr : c.reply m with
  | none =>
    refine (perform_internal hr).world.log.mono fun e he => ⟨?_, fun o ho => ?_⟩
    · rintro rfl
      simp [Event.isInternal] at he
    · simp [ho, Event.isInternal] at he
  | some o =>
    have hreply : o.isReply := by
      cases m <;> simp only [reply, Option.some.injEq, reduceCtorEq] at hr <;> subst hr <;> rfl
    rw [perform_of_reply hr]
    exact (write_emits o c).log.mono fun e he => ⟨he.1, fun o' ho' => he.2.2 o' ho' ▸ hreply⟩

theorem perform_handshakeDone {m : Message} (h : m.key ≠ .DSOP) (c : DeskflowClient) :
    (c.perform m).2.handshakeDone = c.handshakeDone := by
  have hkey : (m.key == .DSOP) = false := beq_eq_false_iff_ne.mpr h
  have hruntime := congrArg Standing.runtime (perform_standing m c)
  simpa [standing, hkey] using hruntime

theorem handle_replies (m : Message) (c : DeskflowClient) :
    Grows Replies c.world.log (c.handle m).2.world.log ∧
      ((c.handle m).2.handshakeDone = true → c.handshakeDone = true ∨
        Optioned (c.handle m).2.world.log) := by
  have hmark : Replies (.handled m) := by simp [Replies]
  refine ⟨(perform_replies m c).trans (.single hmark _), fun hdone => ?_⟩
  by_cases hset : m.key = .DSOP
  · cases m with
    | dsop options => exact .inr ⟨options, by simp [handle, emit, World.emit]⟩
    | _ => cases hset
  · exact .inl ((perform_handshakeDone hset c).symm.trans hdone)

theorem receive_replies (c : DeskflowClient) :
    Grows Replies c.world.log c.receive.2.world.log ∧
      (c.receive.2.handshakeDone = true → c.handshakeDone = true ∨
        Optioned c.receive.2.world.log) := by
  have hstatus (s : Bytes) : Replies (.status s) := by simp [Replies]
  have hkey (key : Bytes) : Replies (.dispatched key) := by simp [Replies]
  obtain ⟨s, -, -, he⟩ := c.receive_eq_digest
  rw [he]
  cases c.stream.view.arrival.1 with
  | lost =>
    simp only [digest, deliver]
    split_ifs
    · exact ⟨.single (hstatus _) _, .inl⟩
    · exact ⟨.single (hstatus _) _, .inl⟩
  | short => exact ⟨.refl _, .inl⟩
  | unknown key => exact ⟨(Grows.single (hkey key) _).trans (.single (hstatus _) _), .inl⟩
  | failed key => exact ⟨.single (hkey key) _, .inl⟩
  | message key m =>
    obtain ⟨hgrows, hdone⟩ := handle_replies m ({ c with stream := s }.emit (.dispatched key))
    exact ⟨(Grows.single (hkey key) _).trans hgrows, hdone⟩

end DeskflowClient

theorem Framed.emits {p : Outgoing → Prop} {c c' : DeskflowClient}
    (h : Framed (latest c.world.log)) (he : c.Emits p c') : Framed (latest c'.world.log) := by
  obtain ⟨-, es, hes, hall⟩ := he
  rw [hes, latest_append fun hc => (hall _ hc).1 rfl]
  exact h.append es

end Deskflow
