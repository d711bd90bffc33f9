import Deskflow.FrameAlignment

/-! The message loop on a stream of well-formed messages: each is handled once,
in order, and nothing is left in the read buffer. -/

namespace Deskflow

/-- The messages up to and including the first that ends the loop. -/
def untilTerminating : List Message → List Message
  | [] => []
  | m :: ms => if m.terminating then [m] else m :: untilTerminating ms

namespace DeskflowClient

/-- The states at the ends of the iterations of `loopFor`. -/
def iterationsFor : Nat → DeskflowClient → List DeskflowClient
  | 0, _ => []
  | n + 1, c =>
    if c.loadStop.1 then []
    else
      let r := c.loadStop.2.iterate
      r.2 :: if r.1 then iterationsFor n r.2 else []

/-- The states at the ends of the iterations of `messageLoop`. -/
def iterations (c : DeskflowClient) : List DeskflowClient :=
  c.iterationsFor (c.stream.pending.length / 8 + 1)

/-- The loop reads nothing after its last iteration. -/
theorem loopFor_stream (n : Nat) (c : DeskflowClient) :
    (c.loopFor n).stream = ((c.iterationsFor n).getLast?.getD c).stream := by
  induction n generalizing c with
  | zero => rfl
  | succ n ih =>
    rw [loopFor, iterationsFor]
    split_ifs with hstop
    · rfl
    · dsimp only
      split_ifs
      · rw [ih, List.getLast?_cons, Option.getD_some]
      · rfl

/-- The socket is open and no `send` fails. -/
structure Ready (c : DeskflowClient) : Prop where
  connected : c.stream.connected = true
  accepting : Accepting c.stream.sends

theorem write_of_ready {c : DeskflowClient} (h : Ready c) {o : Outgoing}
    (hlen : o.payload.length ≤ 4 * 1024 * 1024) : (c.write o).1 = true ∧ Ready (c.write o).2 := by
  obtain ⟨hok, -, hsends⟩ := SocketStream.writeFrame_of_accepting h.connected h.accepting hlen
  have hin := SocketStream.writeFrame_sameInput o.payload c.stream
  simp only [write, hok, if_true, true_and]
  exact ⟨hin.connected.trans h.connected, hsends⟩

theorem perform_of_ready {c : DeskflowClient} (h : Ready c) (m : Message) :
    (c.perform m).1 = !m.terminating ∧ Ready (c.perform m).2 := by
  cases hr : c.reply m with
  | none =>
    have hstream := (perform_internal hr).stream
    exact ⟨perform_fst hr, by rw [hstream]; exact h.connected, by rw [hstream]; exact h.accepting⟩
  | some o =>
    have hlen : o.payload.length ≤ 4 * 1024 * 1024 ∧ m.terminating = false := by
      cases m <;> simp only [reply, Option.some.injEq, reduceCtorEq] at hr <;> subst hr
      · exact ⟨by rw [Outgoing.length_payload_dinf]; omega, rfl⟩
      · exact ⟨by decide, rfl⟩
    rw [perform_of_reply hr, hlen.2]
    exact write_of_ready h hlen.1

theorem acknowledge_of_ready {r : Bool × DeskflowClient} (h : Ready r.2) :
    (acknowledge r).1 = r.1 ∧ Ready (acknowledge r).2 := by
  unfold acknowledge
  split_ifs with hr
  · obtain ⟨hok, hready⟩ := write_of_ready h (show Outgoing.cnop.payload.length ≤ _ by decide)
    rw [Bool.and_eq_true] at hr
    exact ⟨hok.trans hr.1.symm, hready⟩
  · exact ⟨rfl, h⟩

/-- Between two iterations: the encodings of `ms` are to come, nothing is
buffered, writes succeed and no stop is requested. -/
structure InStep (ms : List Message) (c : DeskflowClient) : Prop where
  wellFormed : ∀ m ∈ ms, m.WellFormed
  view : c.stream.view = ⟨[], ms.flatMap fun m => frameBytes m.payload⟩
  ready : Ready c
  stopLoads : ∀ b ∈ c.world.stopLoads, b = false

namespace InStep

variable {m : Message} {ms : List Message} {c : DeskflowClient}

theorem loadStop (h : InStep ms c) : c.loadStop.1 = false ∧ InStep ms c.loadStop.2 := by
  obtain ⟨hms, hview, hready, hstop⟩ := h
  refine ⟨?_, hms, hview, ⟨hready.connected, hready.accepting⟩,
    fun b hb => hstop b (List.mem_of_mem_tail hb)⟩
  change c.world.stopLoads.headD false = false
  cases hl : c.world.stopLoads with
  | nil => rfl
  | cons b bs => exact hstop b (by simp [hl])

theorem bufferRemaining (h : InStep ms c) : c.stream.bufferRemaining = 0 := by
  rw [SocketStream.bufferRemaining_eq, h.view]
  rfl

theorem iterate (h : InStep (m :: ms) c) :
    c.iterate.1 = !m.terminating ∧ InStep ms c.iterate.2 ∧
      c.iterate.2.handled = c.handled ++ [m] := by
  obtain ⟨hms, hview, hready, hstop⟩ := h
  rw [List.flatMap_cons] at hview
  have ha := View.arrival_payload (hms m (by simp)) (ms.flatMap fun m => frameBytes m.payload)
  rw [← hview] at ha
  have hnext : c.iterate.2.stream.view = ⟨[], ms.flatMap fun m => frameBytes m.payload⟩ := by
    rw [iterate_view, ha]
  have hhandled : c.iterate.2.handled = c.handled ++ [m] := by
    rw [handled_eq, iterate_decoded, List.filterMap_append, ← handled_eq, ha]
    rfl
  obtain ⟨s, hout, -, he⟩ := c.iterate_eq_deliver
  rw [ha, deliver] at he
  have hready' : Ready ({ c with stream := s }.emit (.dispatched m.key.bytes)) :=
    ⟨hout.connected.trans hready.connected, by rw [emit, hout.sends]; exact hready.accepting⟩
  obtain ⟨hgo, hperform⟩ := perform_of_ready hready' m
  have hhandle : Ready (({ c with stream := s }.emit (.dispatched m.key.bytes)).handle m).2 :=
    ⟨hperform.connected, hperform.accepting⟩
  obtain ⟨hack, hready''⟩ := acknowledge_of_ready hhandle
  have hworld := perform_world m ({ c with stream := s }.emit (.dispatched m.key.bytes))
  have hworld' :=
    acknowledge_world (({ c with stream := s }.emit (.dispatched m.key.bytes)).handle m)
  refine ⟨?_, ⟨fun m hm => hms m (List.mem_cons_of_mem _ hm), hnext, ?_, ?_⟩, hhandled⟩
  · rw [he, hack]
    exact hgo
  · rw [he]
    exact hready''
  · have hloads : c.iterate.2.world.stopLoads = c.world.stopLoads := by
      rw [he]
      exact hworld'.stopLoads.trans hworld.stopLoads
    rw [hloads]
    exact hstop

theorem iterate_nil (h : InStep [] c) :
    c.iterate.1 = false ∧ c.iterate.2.stream.bufferRemaining = 0 ∧
      c.iterate.2.handled = c.handled := by
  have ha : c.stream.view.arrival = (.lost, ⟨[], []⟩) := by
    rw [h.view]
    rfl
  refine ⟨iterate_of_no_message (by simp [ha]), ?_, ?_⟩
  · rw [SocketStream.bufferRemaining_eq, iterate_view, ha]
    rfl
  · rw [handled_eq, iterate_decoded, ha, handled_eq]
    simp [Arrival.decodes]

theorem loopFor_nil (h : InStep [] c) (n : Nat) :
    c.loopFor (n + 1) = c.loadStop.2.iterate.2 := by
  obtain ⟨hstop, h⟩ := h.loadStop
  simp only [loopFor, hstop, h.iterate_nil.1, Bool.false_eq_true, if_false]

theorem loopFor_cons (h : InStep (m :: ms) c) (hm : m.terminating = false) (n : Nat) :
    c.loopFor (n + 1) = c.loadStop.2.iterate.2.loopFor n := by
  obtain ⟨hstop, h⟩ := h.loadStop
  simp only [loopFor, hstop, h.iterate.1, hm, Bool.not_false, Bool.false_eq_true, if_false, if_true]

end InStep

theorem loopFor_handles {n : Nat} {ms : List Message} {c : DeskflowClient} (h : InStep ms c)
    (hn : ms.length < n) :
    (c.loopFor n).handled = c.handled ++ untilTerminating ms ∧
      ∀ s ∈ c.iterationsFor n, s.stream.bufferRemaining = 0 := by
  induction ms generalizing n c with
  | nil =>
    obtain ⟨n, rfl⟩ : ∃ k, n = k + 1 := ⟨n - 1, by omega⟩
    obtain ⟨hstop, h⟩ := h.loadStop
    obtain ⟨hgo, hbuf, hhandled⟩ := h.iterate_nil
    rw [loopFor, iterationsFor]
    simp only [hstop, hgo, Bool.false_eq_true, if_false, hhandled, untilTerminating,
      List.append_nil, List.mem_singleton, forall_eq]
    exact ⟨rfl, hbuf⟩
  | cons m ms ih =>
    obtain ⟨n, rfl⟩ : ∃ k, n = k + 1 := ⟨n - 1, by omega⟩
    obtain ⟨hstop, h⟩ := h.loadStop
    obtain ⟨hgo, hstep, hhandled⟩ := h.iterate
    rw [List.length_cons] at hn
    rw [loopFor, iterationsFor]
    by_cases ht : m.terminating
    · rw [ht] at hgo
      simp only [hstop, hgo, Bool.not_true, Bool.false_eq_true, if_false, hhandled,
        untilTerminating, ht, if_true, List.mem_singleton, forall_eq]
      exact ⟨rfl, hstep.bufferRemaining⟩
    · obtain ⟨hrun, hbufs⟩ := ih hstep (show ms.length < n by omega)
      simp only [hstop, hgo, ht, Bool.not_false, Bool.false_eq_true, if_false, if_true, hrun,
        hhandled, untilTerminating, List.append_assoc, List.singleton_append, List.mem_cons,
        forall_eq_or_imp]
      exact ⟨rfl, hstep.bufferRemaining, hbufs⟩

theorem length_le_flatMap_frameBytes (ms : List Message) :
    8 * ms.length ≤ (ms.flatMap fun m => frameBytes m.payload).length := by
  induction ms with
  | nil => simp
  | cons m ms ih =>
    have hkey := m.key.length_bytes
    rw [List.flatMap_cons, List.length_append, length_frameBytes, m.payload_eq,
      List.length_append, List.length_cons]
    omega

/-- The bound of `messageLoop` is beyond the messages to come. -/
theorem InStep.length_lt {ms : List Message} {c : DeskflowClient} (h : InStep ms c) :
    ms.length < c.stream.pending.length / 8 + 1 := by
  have hle := length_le_flatMap_frameBytes ms
  rw [← SocketStream.pending_view, h.view, View.pending, List.nil_append]
  dsimp only
  omega

/-- A stream of well-formed messages is handled message by message, however
`recv` cuts it, and no byte stays behind in the read buffer. -/
theorem messageLoop_handles {c : DeskflowClient} {ms : List Message}
    (hms : ∀ m ∈ ms, m.WellFormed) (hbuf : c.stream.bufferRemaining = 0)
    (hconn : c.stream.connected = true)
    (hrecv : arriving c.stream.recvs = ms.flatMap fun m => frameBytes m.payload)
    (hsends : Accepting c.stream.sends) (hstop : ∀ b ∈ c.world.stopLoads, b = false) :
    c.messageLoop.handled = c.handled ++ untilTerminating ms ∧
      ∀ s ∈ c.iterations, s.stream.bufferRemaining = 0 := by
  rw [SocketStream.bufferRemaining_eq, List.length_eq_zero_iff] at hbuf
  have hview : c.stream.view = ⟨[], ms.flatMap fun m => frameBytes m.payload⟩ :=
    congrArg₂ View.mk hbuf (by rw [if_pos hconn, hrecv])
  have hin : InStep ms c := ⟨hms, hview, ⟨hconn, hsends⟩, hstop⟩
  exact loopFor_handles hin hin.length_lt

/-- Four messages, the third of them terminating, in three pieces. -/
theorem messageLoop_handles_pieces :
    let ms : List Message := [.calv, .dkdl 97 0 38 (ascii "en"), .cbye, .cout]
    let wire := ms.flatMap fun m => frameBytes m.payload
    let c : DeskflowClient := { stream :=
      { connected := true
        recvs := [.data (wire.take 3), .eintr, .data ((wire.drop 3).take 9), .data (wire.drop 12)]
        sends := [.accept 2, .eintr] } }
    c.messageLoop.handled = c.handled ++ [.calv, .dkdl 97 0 38 (ascii "en"), .cbye] ∧
      ∀ s ∈ c.iterations, s.stream.bufferRemaining = 0 := by
  intro ms wire c
  have hms : ∀ m ∈ ms, m.WellFormed := by
    intro m hm
    simp only [ms, List.mem_cons, List.not_mem_nil, or_false] at hm
    rcases hm with rfl | rfl | rfl | rfl <;>
      exact ⟨by simp [Message.args, ascii], by decide +kernel⟩
  exact messageLoop_handles hms rfl rfl (by decide +kernel) (by simp [c, Accepting])
    (by simp [c])

end DeskflowClient

end Deskflow
