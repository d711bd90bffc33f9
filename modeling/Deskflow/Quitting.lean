import Deskflow.FrameTransport
import Deskflow.Leftovers

/-! The worker after `stop`: the steps that it still takes, and what they do. -/

namespace Deskflow

open History DeskflowClient

/-- The most steps that the worker takes once it is to stop. -/
def Phase.remaining : Phase → Nat
  | .idle => 0
  | .ready => 1
  | .leaving _ => 1
  | .greeting => 2
  | .closing => 2
  | .looping => 3
  | .answering keepGoing => if keepGoing then 4 else 3

theorem Phase.remaining_le (p : Phase) : p.remaining ≤ 4 := by
  cases p with
  | answering keepGoing => cases keepGoing <;> simp [remaining]
  | _ => simp [remaining]

/-- What is left to report: the end of `runOnce` and a handshake that was cut off, and, if
the step in progress had found the flag unset before, a read that was cut off, the wait or
the end of `run`. A setter may still be called. -/
def Event.isFarewell (late : Bool) : Event → Bool
  | .returned => true
  | .clipboardSync _ => true
  | .status s => s = ascii "error: handshake failed" ||
      late && (s = ascii "disconnected" || (ascii "reconnecting in ").isPrefixOf s)
  | _ => false

def Farewell (late : Bool) (log log' : List Event) : Prop :=
  Grows (fun e => e.isFarewell late = true) log log'

namespace Farewell

variable {late : Bool} {log log' : List Event}

theorem single {e : Event} (h : e.isFarewell late = true) (log : List Event) :
    Farewell late log (log ++ [e]) :=
  Grows.single (p := fun e : Event => e.isFarewell late = true) h log

theorem widen (h : Farewell false log log') : Farewell true log log' := by
  refine Grows.mono h fun e he => ?_
  cases e with
  | status s =>
    have hshake : s = ascii "error: handshake failed" := by simpa [Event.isFarewell] using he
    simp [Event.isFarewell, hshake]
  | _ => exact he

end Farewell

namespace SocketStream

theorem writeAll_of_closed {s : SocketStream} (h : s.connected = false) {data : Bytes}
    (hdata : data ≠ []) : s.writeAll data = (false, s) := by
  simp [writeAll, hdata, h]

theorem writeFrame_of_closed {s : SocketStream} (h : s.connected = false) (data : Bytes) :
    s.writeFrame data = (false, s) := by
  by_cases hlen : data.length ≤ 4 * 1024 * 1024
  · have hprefix : BigEndian.encode 4 data.length ≠ [] := by
      apply List.ne_nil_of_length_pos
      rw [BigEndian.length_encode]
      omega
    rw [writeFrame_of_le hlen, writeAll_of_closed h hprefix]
    rfl
  · exact writeFrame_of_lt (Nat.not_le.mp hlen) s

end SocketStream

namespace DeskflowClient

variable {c : DeskflowClient}

theorem write_of_closed (h : c.stream.connected = false) (o : Outgoing) :
    c.write o = (false, c) := by
  simp only [write, SocketStream.writeFrame_of_closed h, Bool.false_eq_true, if_false]

theorem grabClipboard_of_closed (h : c.stream.connected = false) : c.grabClipboard.2 = c := by
  unfold grabClipboard
  split_ifs
  · rfl
  · rw [write_of_closed h]

theorem acknowledge_of_closed (h : c.stream.connected = false) (keepGoing : Bool) :
    (acknowledge (keepGoing, c)).2 = c := by
  unfold acknowledge
  split_ifs
  · rw [write_of_closed h]
  · rfl

/-- Without a connection and without bytes left over there is no Hello. -/
theorem handshake_of_closed (h : c.stream.connected = false)
    (hunread : c.stream.buffer.unread = []) :
    c.handshake.1 = false ∧ c.handshake.2 = { c with stream := c.handshake.2.stream } := by
  have hview : c.stream.view = ⟨[], []⟩ := by
    rw [SocketStream.view, hunread, h]
    rfl
  obtain ⟨hnone, -⟩ := SocketStream.readFrame_end hview
  unfold handshake
  rcases hread : readFrame.run c.stream with ⟨_ | frame, s⟩
  · exact ⟨rfl, rfl⟩
  · rw [hread] at hnone
    cases hnone

theorem loadStop_of_flagged {k : Nat} (h : List.replicate (k + 1) true <+: c.world.stopLoads) :
    c.loadStop.1 = true ∧ List.replicate k true <+: c.loadStop.2.world.stopLoads := by
  obtain ⟨rest, hrest⟩ := h
  rw [List.replicate_succ, List.cons_append] at hrest
  simp [loadStop, World.loadStop, ← hrest]

theorem finish_of_flagged {k : Nat} (h : List.replicate (k + 1) true <+: c.world.stopLoads) :
    c.finish.world.log = c.world.log := by
  have hload := loadStop_of_flagged (c := { c with running := false }) h
  unfold finish
  dsimp only
  rw [if_pos hload.1]
  rfl

theorem loadStop_of_early {k : Nat} {loads : List Bool}
    (h : c.world.stopLoads = List.replicate (k + 1) false ++ loads) :
    c.loadStop.1 = false ∧ c.loadStop.2.world.stopLoads = List.replicate k false ++ loads := by
  rw [List.replicate_succ, List.cons_append] at h
  simp [loadStop, World.loadStop, h]

/-- A read of a closed stream fails, and the flag is set when the worker looks. -/
theorem receive_of_closed (h : c.stream.connected = false) (hunread : c.stream.buffer.unread = [])
    (hflag : c.loadStop.1 = true) : ∃ s, s.connected = false ∧ s.buffer.unread = [] ∧
      c.receive =
        (false, ({ c with stream := s }.loadStop.2).setStatus (ascii "disconnected")) := by
  have hview : c.stream.view = ⟨[], []⟩ := by
    rw [SocketStream.view, hunread, h]
    rfl
  obtain ⟨s, hsame, hleft, he⟩ := c.receive_eq_digest
  rw [hview] at hleft he
  have hload : { c with stream := s }.loadStop.1 = true := hflag
  refine ⟨s, hsame.connected.trans h, congrArg View.buf hleft, ?_⟩
  rw [he]
  show deliver .lost _ = _
  rw [deliver, if_pos hload]

/-- The wait ends with the flag set, if the tests before that were those of the wait. -/
theorem backOff_of_early {n k m : Nat} (hk : k ≤ n)
    (h : c.world.stopLoads = List.replicate k false ++ List.replicate (m + 1) true) :
    List.replicate m true <+: (c.backOff n).world.stopLoads ∧
      (c.backOff n).world.log = c.world.log := by
  have hflagged {c : DeskflowClient} (h : c.world.stopLoads = List.replicate (m + 1) true) :
      List.replicate m true <+: c.world.stopLoads := by
    rw [h, List.replicate_succ']
    exact List.prefix_append _ _
  induction n generalizing c k with
  | zero =>
    obtain rfl : k = 0 := Nat.le_zero.mp hk
    exact ⟨hflagged h, rfl⟩
  | succ n ih =>
    rw [backOff]
    cases k with
    | zero =>
      have hload : List.replicate (m + 1) true <+: c.world.stopLoads := h ▸ List.prefix_refl _
      rw [if_pos (loadStop_of_flagged hload).1]
      exact ⟨(loadStop_of_flagged hload).2, rfl⟩
    | succ k =>
      obtain ⟨hload, hloads⟩ := loadStop_of_early h
      rw [if_neg (by simp [hload])]
      exact ih (Nat.le_of_succ_le_succ hk) hloads

theorem finish_of_unset (h : c.loadStop.1 = false) :
    c.finish.world.log = c.world.log ++ [.status (ascii "disconnected")] := by
  have hunset : { c with running := false }.loadStop.1 = false := h
  unfold finish
  dsimp only
  rw [if_neg (by simp [hunset])]
  rfl

/-- The reconnect loop ends at the flag, if not before it. -/
theorem retry_of_flagged {k : Nat} (h : List.replicate (k + 1) true <+: c.world.stopLoads)
    (again : Bool) : (retry (again, c)).1 = false ∧
      (retry (again, c)).2.world.log = c.world.log ∧
        List.replicate k true <+: (retry (again, c)).2.world.stopLoads := by
  have hauto : List.replicate (k + 1) true <+: c.loadAuto.2.world.stopLoads := h
  have hload := loadStop_of_flagged hauto
  have hfewer : List.replicate k true <+: List.replicate (k + 1) true := by
    rw [List.replicate_succ']
    exact List.prefix_append _ _
  unfold retry
  by_cases hagain : (!c.loadAuto.1 || !again) = true
  · rw [if_pos hagain]
    exact ⟨rfl, rfl, hfewer.trans hauto⟩
  · rw [if_neg hagain, if_pos hload.1]
    exact ⟨rfl, rfl, hload.2⟩

end DeskflowClient

/-- `stop` has closed the stream, and the worker will find the flag set wherever it
looks. -/
structure Quitting (σ : System) : Prop where
  closed : σ.client.stream.connected = false
  unread : σ.client.stream.buffer.unread = []
  flagged : List.replicate (2 * σ.phase.remaining) true <+: σ.client.world.stopLoads

namespace Quitting

variable {σ σ' : System}

theorem fewer {k n : Nat} {loads : List Bool} (hle : k ≤ n)
    (h : List.replicate n true <+: loads) : List.replicate k true <+: loads := by
  have hprefix : List.replicate k true <+: List.replicate n true := by
    rw [← Nat.add_sub_cancel' hle, List.replicate_add]
    exact List.prefix_append _ _
  exact hprefix.trans h

theorem of_stream {s : SocketStream} (hstream : σ.client.stream = s) (hclosed : s.connected = false)
    (hunread : s.buffer.unread = [])
    (hflagged : List.replicate (2 * σ.phase.remaining) true <+: σ.client.world.stopLoads) :
    Quitting σ := by
  subst hstream
  exact ⟨hclosed, hunread, hflagged⟩

theorem same (h : Quitting σ) (hphase : σ'.phase = σ.phase)
    (hstream : σ'.client.stream = σ.client.stream)
    (hloads : σ'.client.world.stopLoads = σ.client.world.stopLoads) : Quitting σ' := by
  refine of_stream hstream h.closed h.unread ?_
  rw [hphase, hloads]
  exact h.flagged

/-- A step of the worker brings it nearer to its end. -/
theorem work (h : Quitting σ) (conn : Connection) : Quitting (σ.work conn) ∧
    (σ.work conn).phase.remaining ≤ σ.phase.remaining - 1 ∧
      Farewell false σ.client.world.log (σ.work conn).client.world.log := by
  obtain ⟨c, phase, push⟩ := σ
  obtain ⟨hclosed, hunread, hflagged⟩ := h
  cases phase with
  | idle => exact ⟨⟨hclosed, hunread, hflagged⟩, Nat.le_refl _, .refl _⟩
  | ready =>
    have hload := loadStop_of_flagged hflagged
    have hlog : c.loadStop.2.finish.world.log = c.world.log := finish_of_flagged hload.2
    have hstream : c.loadStop.2.finish.stream = c.stream := finish_stream _
    simp only [System.work]
    rw [if_pos hload.1]
    refine ⟨of_stream hstream hclosed hunread List.nil_prefix, Nat.le_refl _, ?_⟩
    show Farewell false c.world.log c.loadStop.2.finish.world.log
    rw [hlog]
    exact .refl _
  | greeting =>
    obtain ⟨hfailed, hsame⟩ := handshake_of_closed hclosed hunread
    have hworld : c.handshake.2.world = c.world := by rw [hsame]
    have hphase : (2 : Nat) ≤ 2 * 2 := by omega
    simp only [System.work]
    rw [if_neg (by simp [hfailed])]
    refine ⟨⟨rfl, rfl, ?_⟩, Nat.le_refl _, ?_⟩
    · show List.replicate (2 * 1) true <+: c.handshake.2.world.stopLoads
      rw [hworld]
      exact fewer hphase hflagged
    · show Farewell false c.world.log (c.handshake.2.world.log ++ [.status _] ++ [.returned])
      rw [hworld]
      have hreport : (Event.status (ascii "error: handshake failed")).isFarewell false = true := by
        simp [Event.isFarewell]
      exact (Farewell.single hreport _).trans (Farewell.single rfl _)
  | looping =>
    have hload := loadStop_of_flagged hflagged
    simp only [System.work]
    rw [if_pos hload.1]
    exact ⟨⟨hclosed, hunread, fewer (by simp [Phase.remaining]) hload.2⟩, Nat.le_refl _, .refl _⟩
  | answering keepGoing =>
    cases keepGoing with
    | false =>
      have hphase : (2 : Nat) * 2 ≤ 2 * 3 := by omega
      exact ⟨⟨hclosed, hunread, fewer hphase hflagged⟩, Nat.le_refl _, .refl _⟩
    | true =>
      have hsame := acknowledge_of_closed hclosed true
      simp only [System.work]
      rw [hsame]
      split_ifs
      · exact ⟨⟨hclosed, hunread, fewer (by simp [Phase.remaining]) hflagged⟩, Nat.le_refl _,
          .refl _⟩
      · exact ⟨⟨hclosed, hunread, fewer (by simp [Phase.remaining]) hflagged⟩,
          by simp [Phase.remaining], .refl _⟩
  | closing =>
    have hload := loadStop_of_flagged (c := c.closeStream) hflagged
    have htwo : (2 : Nat) ≤ 3 := by omega
    exact ⟨⟨rfl, rfl, fewer htwo hload.2⟩, Nat.le_refl _, Farewell.single rfl _⟩
  | leaving again =>
    obtain ⟨hends, hlog, hloads⟩ := retry_of_flagged hflagged again
    have hstream : (retry (again, c)).2.finish.stream = c.stream :=
      (finish_stream _).trans (retry_stream _)
    simp only [System.work]
    rw [if_neg (by simp [hends])]
    refine ⟨of_stream hstream hclosed hunread List.nil_prefix, Nat.le_refl _, ?_⟩
    show Farewell false c.world.log (retry (again, c)).2.finish.world.log
    rw [finish_of_flagged hloads, hlog]
    exact .refl _

/-- An upload finds the stream closed too. -/
theorem upload (h : Quitting σ) : Quitting σ.upload ∧ σ.upload.phase = σ.phase ∧
    σ.upload.client.world.log = σ.client.world.log := by
  unfold System.upload
  split
  · exact ⟨h, rfl, rfl⟩
  · rw [grabClipboard_of_closed h.closed]
    exact ⟨h.same rfl rfl rfl, rfl, rfl⟩
  · split_ifs
    · exact ⟨h.same rfl rfl rfl, rfl, rfl⟩
    · exact ⟨h.same rfl rfl rfl, rfl, rfl⟩
  · exact ⟨h.same rfl rfl rfl, rfl, rfl⟩
  · dsimp only
    rw [write_of_closed h.closed]
    exact ⟨h.same rfl rfl rfl, rfl, rfl⟩

end Quitting

namespace Action

/-- The worker is not started anew, and what it will load is left as `stop` made it. -/
def Ending : Action → Prop
  | .start .. => False
  | .call (.loads ..) => False
  | _ => True

def isWork : Action → Bool
  | .work _ => true
  | _ => false

end Action

namespace Quitting

variable {σ : System}

theorem step (h : Quitting σ) {a : Action} (ha : a.Ending) : Quitting (σ.step a) ∧
    (σ.step a).phase.remaining ≤ σ.phase.remaining - (if a.isWork then 1 else 0) ∧
      Farewell false σ.client.world.log (σ.step a).client.world.log := by
  cases a with
  | work conn => exact h.work conn
  | upload =>
    obtain ⟨hquits, hphase, hlog⟩ := h.upload
    refine ⟨hquits, ?_, ?_⟩
    · rw [System.step, hphase]
      exact Nat.le_refl _
    · rw [System.step, hlog]
      exact .refl _
  | push text =>
    show Quitting (σ.beginPush text) ∧
      (σ.beginPush text).phase.remaining ≤ σ.phase.remaining - 0 ∧
        Farewell false _ (σ.beginPush text).client.world.log
    unfold System.beginPush
    split_ifs
    · exact ⟨h, Nat.le_refl _, .refl _⟩
    · exact ⟨h, Nat.le_refl _, .refl _⟩
    · exact ⟨h.same rfl rfl rfl, Nat.le_refl _, .refl _⟩
  | start host port screenName => exact ha.elim
  | call k =>
    cases k with
    | loads stopLoads autoLoads => exact ha.elim
    | stop => exact ⟨⟨rfl, rfl, h.flagged⟩, Nat.le_refl _, .refl _⟩
    | setClipboardSync enable => exact ⟨h.same rfl rfl rfl, Nat.le_refl _, Farewell.single rfl _⟩
    | _ => exact ⟨h.same rfl rfl rfl, Nat.le_refl _, .refl _⟩

theorem run (h : Quitting σ) {actions : List Action} (hending : ∀ a ∈ actions, a.Ending) :
    (σ.run actions).phase.remaining ≤ σ.phase.remaining - actions.countP Action.isWork ∧
      Farewell false σ.client.world.log (σ.run actions).client.world.log := by
  induction actions generalizing σ with
  | nil => exact ⟨Nat.le_refl _, .refl _⟩
  | cons a actions ih =>
    obtain ⟨ha, hrest⟩ := List.forall_mem_cons.mp hending
    obtain ⟨hquits, hnearer, hlog⟩ := h.step ha
    obtain ⟨hremaining, hmore⟩ := ih hquits hrest
    refine ⟨?_, hlog.trans hmore⟩
    rw [List.countP_cons]
    show ((σ.step a).run actions).phase.remaining ≤ _
    omega

end Quitting

end Deskflow
