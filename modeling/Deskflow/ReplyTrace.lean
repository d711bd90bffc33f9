import Deskflow.FrameWrites
import Deskflow.HandledMessages
import Deskflow.Standing

/-! Everything the message loop writes, message by message. -/

namespace Deskflow

open History

/-- The answer due to a message while the pointer is at `p`. -/
def Message.answer (w h : Int) (p : Int × Int) : Message → List Outgoing
  | .qinf => [.dinf w h p.1 p.2]
  | .calv => [.calv]
  | _ => []

/-- The frames due to the messages: after each its answer and, from the first
`DSOP` on or if the runtime phase has begun already, a `CNOP`, up to the message
that ends the loop. -/
def replyTrace (w h : Int) : Int × Int → Bool → List Message → List Outgoing
  | _, _, [] => []
  | p, runtime, m :: ms =>
    let runtime := runtime || m.key == .DSOP
    m.answer w h p ++
      if m.terminating then []
      else (if runtime then [.cnop] else []) ++ replyTrace w h (m.pointer w h p) runtime ms

def Event.sent : Event → Option Outgoing
  | .frame o => some o
  | _ => none

theorem Event.sent_of_isInternal {e : Event} (h : e.isInternal) : e.sent = none := by
  cases e <;> simp_all [isInternal, sent]

namespace DeskflowClient

def frames (c : DeskflowClient) : List Outgoing := c.world.log.filterMap Event.sent

/-- From one state to the other exactly the given frames were written. -/
structure Sent (os : List Outgoing) (c c' : DeskflowClient) : Prop where
  frames : c'.frames = c.frames ++ os
  wire : c'.stream.wire = c.stream.wire ++ os.flatMap fun o => frameBytes o.payload

namespace Sent

variable {os os' : List Outgoing} {c c' c'' : DeskflowClient}

theorem none (hframes : c'.frames = c.frames) (hwire : c'.stream.wire = c.stream.wire) :
    Sent [] c c' := ⟨by simp [hframes], by simp [hwire]⟩

theorem trans (h : Sent os c c') (h' : Sent os' c' c'') : Sent (os ++ os') c c'' := by
  refine ⟨?_, ?_⟩
  · rw [h'.frames, h.frames, List.append_assoc]
  · rw [h'.wire, h.wire, List.flatMap_append, List.append_assoc]

end Sent

theorem frames_emit {e : Event} (h : e.sent = none) (c : DeskflowClient) :
    (c.emit e).frames = c.frames := by
  have hone : [e].filterMap Event.sent = [] := by simp [h]
  rw [frames, emit, World.emit, List.filterMap_append, hone, List.append_nil]
  rfl

theorem sent_emit {e : Event} (h : e.sent = none) (c : DeskflowClient) : Sent [] c (c.emit e) :=
  .none (frames_emit h c) rfl

theorem sent_write {o : Outgoing} {c : DeskflowClient} (h : (c.write o).1 = true) :
    Sent [o] c (c.write o).2 := by
  obtain ⟨hwire, hlog⟩ := write_of_ok h
  refine ⟨?_, ?_⟩
  · rw [frames, hlog, List.filterMap_append, ← frames]
    rfl
  · rw [hwire, List.flatMap_singleton]

theorem perform_sent {c : DeskflowClient} (h : Ready c) (m : Message) :
    Sent (m.answer c.screenW c.screenH c.pointer) c (c.perform m).2 := by
  cases hr : c.reply m with
  | none =>
    have hinternal := perform_internal hr
    have hanswer : m.answer c.screenW c.screenH c.pointer = [] := by
      cases m <;> first | rfl | cases hr
    rw [hanswer]
    refine .none ?_ (by rw [hinternal.stream])
    exact hinternal.world.log.filterMap_eq fun _ => Event.sent_of_isInternal
  | some o =>
    have hanswer : m.answer c.screenW c.screenH c.pointer = [o] ∧ m.terminating = false := by
      cases m <;> simp only [reply, Option.some.injEq, reduceCtorEq] at hr <;> subst hr <;>
        exact ⟨rfl, rfl⟩
    have hok := (perform_of_ready h m).1
    rw [hanswer.2, perform_of_reply hr] at hok
    rw [hanswer.1, perform_of_reply hr]
    exact sent_write hok

/-- A message has been handled, answered and acknowledged. -/
structure Answered (m : Message) (c c' : DeskflowClient) : Prop where
  ready : Ready c'
  settings : c'.settings = c.settings
  pointer : c'.pointer = m.pointer c.screenW c.screenH c.pointer
  runtime : c'.handshakeDone = (c.handshakeDone || m.key == .DSOP)
  handled : c'.handled = c.handled ++ [m]
  sent : Sent (m.answer c.screenW c.screenH c.pointer ++
    if !m.terminating && (c.handshakeDone || m.key == .DSOP) then [.cnop] else []) c c'

theorem acknowledge_handle {c : DeskflowClient} (h : Ready c) (m : Message) :
    (acknowledge (c.handle m)).1 = !m.terminating ∧
      Answered m c (acknowledge (c.handle m)).2 := by
  obtain ⟨hgo, hready⟩ := perform_of_ready h m
  let d := (c.perform m).2.emit (.handled m)
  have hd : c.handle m = (!m.terminating, d) := by rw [handle, hgo]
  have hready' : Ready d := ⟨hready.connected, hready.accepting⟩
  have hdone : d.handshakeDone = (c.handshakeDone || m.key == .DSOP) :=
    congrArg Standing.runtime (perform_standing m c)
  have hsettings : d.settings = c.settings := perform_settings m c
  have hpointer : d.pointer = m.pointer c.screenW c.screenH c.pointer :=
    congrArg Standing.pointer (perform_standing m c)
  have hhandled : d.handled = c.handled ++ [m] := handle_handled m c
  have hsent := (perform_sent h m).trans (sent_emit (e := .handled m) rfl _)
  rw [List.append_nil] at hsent
  obtain ⟨hack, hready''⟩ := acknowledge_of_ready (r := (!m.terminating, d)) hready'
  rw [hd]
  refine ⟨hack, ?_⟩
  by_cases hcnop : (!m.terminating && d.handshakeDone) = true
  · have hwrite : acknowledge (!m.terminating, d) = d.write .cnop := if_pos hcnop
    have hok : (d.write .cnop).1 = true := by
      rw [← hwrite, hack]
      exact (Bool.and_eq_true _ _ ▸ hcnop).1
    rw [hwrite] at hready'' ⊢
    refine ⟨hready'', (congrArg Setup.settings (write_setup _ d)).trans hsettings,
      (congrArg Standing.pointer (write_standing _ d)).trans hpointer,
      (spares_write _ d).handshakeDone.trans hdone, ?_, ?_⟩
    · exact (write_emits _ d).handled.trans hhandled
    · rw [hdone] at hcnop
      rw [if_pos hcnop]
      exact hsent.trans (sent_write hok)
  · have hquiet : acknowledge (!m.terminating, d) = (!m.terminating, d) := if_neg hcnop
    rw [hquiet]
    refine ⟨hready', hsettings, hpointer, hdone, hhandled, ?_⟩
    rw [hdone] at hcnop
    rw [if_neg hcnop, List.append_nil]
    exact hsent

/-- An iteration of the loop handles nothing, writes nothing and is the last, or it
handles a message. -/
theorem iterate_answers {c : DeskflowClient} (h : Ready c) :
    (c.iterate.1 = false ∧ c.iterate.2.handled = c.handled ∧ Sent [] c c.iterate.2) ∨
      ∃ m, c.iterate.1 = !m.terminating ∧ Answered m c c.iterate.2 := by
  obtain ⟨s, hout, -, he⟩ := c.iterate_eq_deliver
  have hstream : Sent [] c { c with stream := s } := .none rfl hout.wire
  rw [he]
  cases ha : c.stream.view.arrival.1 with
  | lost =>
    simp only [deliver]
    split_ifs <;> refine .inl ⟨rfl, handled_emit_of_isMark rfl _, ?_⟩ <;>
      exact .none (frames_emit rfl _) hout.wire
  | short => exact .inl ⟨rfl, rfl, hstream⟩
  | unknown key =>
    refine .inl ⟨rfl, (handled_emit_of_isMark rfl _).trans (handled_emit_of_isMark rfl _), ?_⟩
    exact .none ((frames_emit rfl _).trans (frames_emit rfl _)) hout.wire
  | failed key =>
    exact .inl ⟨rfl, handled_emit_of_isMark rfl _, .none (frames_emit rfl _) hout.wire⟩
  | message key m =>
    let d := { c with stream := s }.emit (.dispatched key)
    have hready : Ready d := ⟨hout.connected.trans h.connected, by
      rw [show d.stream = s from rfl, hout.sends]
      exact h.accepting⟩
    obtain ⟨hgo, hanswered⟩ := acknowledge_handle hready m
    have hhandled : d.handled = c.handled := handled_emit_of_isMark rfl _
    have hsent : Sent [] c d := .none (frames_emit rfl _) hout.wire
    refine .inr ⟨m, hgo, hanswered.ready, hanswered.settings, hanswered.pointer,
      hanswered.runtime, hhandled ▸ hanswered.handled, ?_⟩
    have htrans := hsent.trans hanswered.sent
    rw [List.nil_append] at htrans
    exact htrans

theorem untilTerminating_singleton {m : Message} : untilTerminating [m] = [m] := by
  rw [untilTerminating]
  split_ifs <;> rfl

theorem Loop.replies {c c' : DeskflowClient} (hloop : Loop c c') (h : Ready c) :
    ∃ ms, c'.handled = c.handled ++ ms ∧ untilTerminating ms = ms ∧
      Sent (replyTrace c.screenW c.screenH c.pointer c.handshakeDone ms) c c' := by
  induction hloop with
  | stop => exact ⟨[], (List.append_nil _).symm, rfl, .none rfl rfl⟩
  | @last c _ hend =>
    have hready : Ready c.loadStop.2 := ⟨h.connected, h.accepting⟩
    rcases iterate_answers hready with ⟨-, hhandled, hsent⟩ | ⟨m, hgo, hanswered⟩
    · exact ⟨[], by rw [hhandled, List.append_nil]; rfl, rfl, hsent.frames, hsent.wire⟩
    · rw [hgo, Bool.not_eq_false'] at hend
      refine ⟨[m], hanswered.handled, untilTerminating_singleton, ?_⟩
      have hsent := hanswered.sent
      simp only [hend, Bool.not_true, Bool.false_and, Bool.false_eq_true, if_false] at hsent
      simp only [replyTrace, hend, if_true]
      exact ⟨hsent.frames, hsent.wire⟩
  | @next c c' _ hgo _ ih =>
    have hready : Ready c.loadStop.2 := ⟨h.connected, h.accepting⟩
    rcases iterate_answers hready with ⟨hend, -, -⟩ | ⟨m, hgo', hanswered⟩
    · rw [hend] at hgo
      cases hgo
    · rw [hgo', Bool.not_eq_true'] at hgo
      obtain ⟨ms, hhandled, huntil, hsent⟩ := ih hanswered.ready
      refine ⟨m :: ms, ?_, ?_, ?_⟩
      · rw [hhandled, hanswered.handled, List.append_assoc]
        rfl
      · rw [untilTerminating, if_neg (by simp [hgo]), huntil]
      · have hw := congrArg Settings.screenW hanswered.settings
        have hh := congrArg Settings.screenH hanswered.settings
        change c.loadStop.2.iterate.2.screenW = c.screenW at hw
        change c.loadStop.2.iterate.2.screenH = c.screenH at hh
        rw [hw, hh, hanswered.pointer, hanswered.runtime] at hsent
        have htrans := hanswered.sent.trans hsent
        simp only [hgo, Bool.not_false, Bool.true_and, List.append_assoc] at htrans
        simp only [replyTrace, hgo, Bool.false_eq_true, if_false]
        exact ⟨htrans.frames, htrans.wire⟩

/-- Where no write fails, the message loop writes the frames due to the messages it
handles and nothing else. These are, without a stop, all messages of the stream up
to the one that ends the loop. -/
theorem messageLoop_frames {c : DeskflowClient} (h : Ready c) :
    ∃ ms, c.messageLoop.handled = c.handled ++ ms ∧ untilTerminating ms = ms ∧
      c.messageLoop.frames =
        c.frames ++ replyTrace c.screenW c.screenH c.pointer c.handshakeDone ms ∧
      c.messageLoop.stream.wire = c.stream.wire ++
        (replyTrace c.screenW c.screenH c.pointer c.handshakeDone ms).flatMap
          (fun o => frameBytes o.payload) ∧
      ∀ stream : List Message, (∀ m ∈ stream, m.WellFormed) → c.stream.bufferRemaining = 0 →
        arriving c.stream.recvs = stream.flatMap (fun m => frameBytes m.payload) →
        (∀ b ∈ c.world.stopLoads, b = false) → ms = untilTerminating stream := by
  obtain ⟨ms, hhandled, huntil, hsent⟩ := (messageLoop_loop c).replies h
  refine ⟨ms, hhandled, huntil, hsent.frames, hsent.wire, ?_⟩
  intro stream hstream hbuf hrecv hstop
  have hall := (messageLoop_handles hstream hbuf h.connected hrecv h.accepting hstop).1
  rw [hhandled] at hall
  exact List.append_cancel_left hall

/-- A runtime phase that begins at the second message. -/
theorem messageLoop_frames_qinf :
    let ms : List Message := [.qinf, .dsop [], .dmmv 3 4, .qinf, .cbye, .calv]
    let c : DeskflowClient := { stream :=
      { connected := true, recvs := [.data (ms.flatMap fun m => frameBytes m.payload)] } }
    c.messageLoop.frames =
      [.dinf 1280 800 0 0, .cnop, .cnop, .dinf 1280 800 3 4, .cnop] := by
  intro ms c
  obtain ⟨handled, -, -, hframes, -, hall⟩ :=
    messageLoop_frames (c := c) ⟨rfl, by simp [c, Accepting]⟩
  have hms : ∀ m ∈ ms, m.WellFormed := by
    intro m hm
    simp only [ms, List.mem_cons, List.not_mem_nil, or_false] at hm
    rcases hm with rfl | rfl | rfl | rfl | rfl | rfl <;>
      exact ⟨by simp [Message.args], by decide +kernel⟩
  rw [hframes, hall ms hms rfl (by decide +kernel) (by simp [c])]
  decide +kernel

end DeskflowClient

end Deskflow
