import Deskflow.Effects
import Deskflow.StreamOutput

/-! An iteration of the message loop is a decoding step on the view of the
stream followed by the effects of what arrived; the loop ends by itself. -/

namespace Deskflow

namespace View

variable {α : Type}

def run (r : Reader Bytes α) (v : View) : Option α × View :=
  ((r.run v.pending).1, v.drop (v.pending.length - (r.run v.pending).2.length))

/-- A successful run uses up a prefix and would do so whatever follows. -/
theorem run_eq_some {r : Reader Bytes α} (h : Reader.Local r) {v v' : View} {a : α}
    (hv : v.run r = (some a, v')) :
    ∃ used, v.pending = used ++ v'.pending ∧ v' = v.drop used.length ∧
      ∀ tail, r.run (used ++ tail) = (some a, tail) := by
  obtain ⟨ha, rfl⟩ := Prod.mk.inj hv
  rcases hr : r.run v.pending with ⟨_ | b, rest⟩
  · simp [hr] at ha
  · rw [hr, Option.some.injEq] at ha
    subst ha
    obtain ⟨used, hused, htail⟩ := h _ _ _ hr
    have hn : v.pending.length - rest.length = used.length := by
      rw [hused, List.length_append, Nat.add_sub_cancel]
    refine ⟨used, ?_, ?_, htail⟩
    · rw [View.pending_drop, hn]
      conv_lhs => rw [hused]
      rw [hused, List.drop_left]
    · rw [hn]

end View

namespace SocketStream

/-- The decoder on the stream does what it does on the view. -/
theorem run_view {α : Type} {r : Reader SocketStream α} {r' : Reader Bytes α}
    (h : ∀ s, Reader.Simulates (ReadOn s) r r') (s : SocketStream) :
    (r.run s).1 = (s.view.run r').1 ∧ (r.run s).2.view = (s.view.run r').2 ∧
      SameOutput s (r.run s).2 := by
  obtain ⟨hv, hout, hview⟩ := run_of_simulates s (h s)
  exact ⟨hv, hview, hout⟩

/-- The two runs together. -/
theorem exists_run {α : Type} {r : Reader SocketStream α} {r' : Reader Bytes α}
    (h : ∀ s, Reader.Simulates (ReadOn s) r r') (s : SocketStream) :
    ∃ a t, r.run s = (a, t) ∧ s.view.run r' = (a, t.view) ∧ SameOutput s t := by
  obtain ⟨hv, hview, hout⟩ := s.run_view h
  exact ⟨_, _, rfl, Prod.ext hv.symm hview.symm, hout⟩

end SocketStream

/-- What an iteration of the message loop finds. -/
inductive Arrival
  | lost
  | short
  | unknown (key : Bytes)
  | failed (key : Bytes)
  | message (key : Bytes) (m : Message)
  deriving DecidableEq, Repr

/-- What the key and the bytes behind it give. -/
def View.dispatch (key : Bytes) (v : View) : Arrival × View :=
  match Key.ofBytes key with
  | none => (.unknown key, v)
  | some k =>
    match v.run (readMessage k) with
    | (some m, v) => (.message key m, v)
    | (none, v) => (.failed key, v)

/-- The reads of an iteration, up to the first that fails. -/
def View.arrival (v : View) : Arrival × View :=
  match v.run readFrame with
  | (none, v) => (.lost, v)
  | (some frame, v) =>
    match (v.push frame).run (Reader.exact 4) with
    | (none, v) => (.short, v)
    | (some key, v) => v.dispatch key

theorem View.arrival_message {v v' : View} {key : Bytes} {m : Message}
    (h : v.arrival = (.message key m, v')) : v'.pending.length + 8 ≤ v.pending.length := by
  unfold View.arrival at h
  split at h
  · simp at h
  · rename_i frame v₁ hframe
    split at h
    · simp at h
    · rename_i key' v₂ hkey
      unfold View.dispatch at h
      split at h
      · simp at h
      · rename_i k hk
        split at h
        · rename_i m' v₃ hm
          obtain ⟨-, rfl⟩ := Prod.mk.inj h
          obtain ⟨used₁, hused₁, -, hall₁⟩ := View.run_eq_some readFrame_local hframe
          obtain ⟨used₂, hused₂, -, hall₂⟩ := View.run_eq_some (Reader.Local.exact 4) hkey
          obtain ⟨used₃, hused₃, -, -⟩ := View.run_eq_some (readMessage_local k) hm
          have hlen₁ := (readFrame_eq_some (hall₁ [])).1
          simp only [List.append_nil] at hlen₁
          have hlen₂ : 4 ≤ used₂.length := by
            by_contra hlt
            have hone := hall₂ []
            rw [List.append_nil, Reader.run_exact_of_lt (Nat.not_le.mp hlt)] at hone
            simp at hone
          have hpush := View.length_pending_push frame v₁
          replace hused₁ := congrArg List.length hused₁
          replace hused₂ := congrArg List.length hused₂
          replace hused₃ := congrArg List.length hused₃
          rw [hlen₁, List.length_append, length_frameBytes] at hused₁
          rw [List.length_append] at hused₂ hused₃
          omega
        · simp at h

namespace DeskflowClient

/-- The rest of an iteration once the reads are done. -/
def deliver : Arrival → DeskflowClient → Bool × DeskflowClient
  | .lost, c =>
    if c.loadStop.1 then (false, c.loadStop.2.setStatus (ascii "disconnected"))
    else (false, c.loadStop.2.setStatus (ascii "error: connection lost"))
  | .short, c => (false, c)
  | .unknown key, c =>
    (false, (c.emit (.dispatched key)).setStatus
      (ascii "error: unknown message '" ++ key ++ ascii "'"))
  | .failed key, c => (false, c.emit (.dispatched key))
  | .message key m, c => acknowledge ((c.emit (.dispatched key)).handle m)

/-- The same without the acknowledgement. -/
def digest : Arrival → DeskflowClient → Bool × DeskflowClient
  | .message key m, c => (c.emit (.dispatched key)).handle m
  | a, c => c.deliver a

theorem acknowledge_digest (a : Arrival) (c : DeskflowClient) :
    acknowledge (c.digest a) = c.deliver a := by
  cases a with
  | lost =>
    simp only [digest, deliver]
    split_ifs <;> rfl
  | _ => rfl

theorem receive_eq_digest (c : DeskflowClient) :
    ∃ s, SocketStream.SameOutput c.stream s ∧ s.view = c.stream.view.arrival.2 ∧
      c.receive = { c with stream := s }.digest c.stream.view.arrival.1 := by
  obtain ⟨frame, s, hrun, hview, hout⟩ := c.stream.exists_run
    (fun s => readFrame_simulates (SocketStream.readExact_simulates s))
  unfold receive View.arrival
  rw [hrun, hview]
  cases frame with
  | none => exact ⟨s, hout, rfl, rfl⟩
  | some frame =>
    obtain ⟨key, t, hrun₁, hview₁, hout₁⟩ := (s.pushToBuffer frame).exists_run
      (fun s => SocketStream.readExact_simulates s 4)
    replace hout₁ := (hout.trans (SocketStream.sameOutput_pushToBuffer frame s)).trans hout₁
    change (s.pushToBuffer frame).readExact 4 = _ at hrun₁
    rw [SocketStream.view_pushToBuffer] at hview₁
    dsimp only
    rw [hrun₁, hview₁]
    cases key with
    | none => exact ⟨t, hout₁, rfl, rfl⟩
    | some key =>
      dsimp only
      unfold handleMessage View.dispatch
      cases Key.ofBytes key with
      | none => exact ⟨t, hout₁, rfl, rfl⟩
      | some k =>
        obtain ⟨m, u, hrun₂, hview₂, hout₂⟩ := t.exists_run
          (fun s => readMessage_simulates (SocketStream.readExact_simulates s) k)
        dsimp only [emit]
        rw [hrun₂, hview₂]
        cases m with
        | none => exact ⟨u, hout₁.trans hout₂, rfl, rfl⟩
        | some m => exact ⟨u, hout₁.trans hout₂, rfl, rfl⟩

theorem iterate_eq_deliver (c : DeskflowClient) :
    ∃ s, SocketStream.SameOutput c.stream s ∧ s.view = c.stream.view.arrival.2 ∧
      c.iterate = { c with stream := s }.deliver c.stream.view.arrival.1 := by
  obtain ⟨s, hout, hview, he⟩ := c.receive_eq_digest
  exact ⟨s, hout, hview, by rw [iterate, he, acknowledge_digest]⟩

theorem write_sameInput (o : Outgoing) (c : DeskflowClient) :
    SocketStream.SameInput c.stream (c.write o).2.stream := by
  unfold write
  dsimp only
  split_ifs <;> exact SocketStream.writeFrame_sameInput o.payload c.stream

theorem perform_sameInput (m : Message) (c : DeskflowClient) :
    SocketStream.SameInput c.stream (c.perform m).2.stream := by
  cases hr : c.reply m with
  | none =>
    rw [(perform_internal hr).stream]
    exact .refl _
  | some o =>
    rw [perform_of_reply hr]
    exact write_sameInput o c

theorem acknowledge_sameInput (r : Bool × DeskflowClient) :
    SocketStream.SameInput r.2.stream (acknowledge r).2.stream := by
  unfold acknowledge
  split_ifs
  · exact write_sameInput .cnop r.2
  · exact .refl _

theorem deliver_sameInput (a : Arrival) (c : DeskflowClient) :
    SocketStream.SameInput c.stream (c.deliver a).2.stream := by
  cases a with
  | lost =>
    simp only [deliver]
    split_ifs <;> exact .refl _
  | short => exact .refl _
  | unknown key => exact .refl _
  | failed key => exact .refl _
  | message key m =>
    exact (perform_sameInput m (c.emit (.dispatched key))).trans
      (acknowledge_sameInput ((c.emit (.dispatched key)).handle m))

theorem iterate_view (c : DeskflowClient) :
    c.iterate.2.stream.view = c.stream.view.arrival.2 := by
  obtain ⟨s, -, hview, he⟩ := c.iterate_eq_deliver
  rw [he, (deliver_sameInput _ _).view]
  exact hview

theorem arrival_of_iterate {c : DeskflowClient} (h : c.iterate.1 = true) :
    ∃ key m, c.stream.view.arrival.1 = .message key m := by
  obtain ⟨s, -, -, he⟩ := c.iterate_eq_deliver
  rw [he] at h
  cases ha : c.stream.view.arrival.1 with
  | lost =>
    simp only [ha, deliver] at h
    split_ifs at h
  | short => simp [ha, deliver] at h
  | unknown key => simp [ha, deliver] at h
  | failed key => simp [ha, deliver] at h
  | message key m => exact ⟨key, m, rfl⟩

theorem iterate_consumes {c : DeskflowClient} (h : c.iterate.1 = true) :
    c.iterate.2.stream.pending.length + 8 ≤ c.stream.pending.length := by
  obtain ⟨key, m, ha⟩ := arrival_of_iterate h
  rw [← SocketStream.pending_view, ← SocketStream.pending_view, iterate_view]
  exact View.arrival_message (Prod.ext ha rfl)

/-- The `while` loop: it ends at a set stop flag or when an iteration says so. -/
inductive Loop : DeskflowClient → DeskflowClient → Prop
  | stop {c : DeskflowClient} : c.loadStop.1 = true → Loop c c.loadStop.2
  | last {c : DeskflowClient} : c.loadStop.1 = false → c.loadStop.2.iterate.1 = false →
      Loop c c.loadStop.2.iterate.2
  | next {c c' : DeskflowClient} : c.loadStop.1 = false → c.loadStop.2.iterate.1 = true →
      Loop c.loadStop.2.iterate.2 c' → Loop c c'

theorem loopFor_loop {n : Nat} {c : DeskflowClient} (h : c.stream.pending.length / 8 < n) :
    Loop c (c.loopFor n) := by
  induction n generalizing c with
  | zero => omega
  | succ n ih =>
    by_cases hstop : c.loadStop.1 = true
    · rw [loopFor, if_pos hstop]
      exact .stop hstop
    · rw [loopFor, if_neg hstop]
      rw [Bool.not_eq_true] at hstop
      by_cases hgo : c.loadStop.2.iterate.1 = true
      · have hless := iterate_consumes hgo
        have hload : c.loadStop.2.stream.pending = c.stream.pending := rfl
        rw [hload] at hless
        simpa only [if_pos hgo] using Loop.next hstop hgo (ih (by omega))
      · simpa only [if_neg hgo] using Loop.last hstop (Bool.not_eq_true _ ▸ hgo)

/-- The bound of `messageLoop` is always enough. -/
theorem messageLoop_loop (c : DeskflowClient) : Loop c c.messageLoop :=
  loopFor_loop (Nat.lt_succ_self _)

end DeskflowClient

end Deskflow
