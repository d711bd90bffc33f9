import Deskflow.MessageLoop

/-! The message loop on a sequence of frames. Where every frame is used up
exactly, the read buffer is empty between iterations and each frame is decoded
from its own bytes. -/

namespace Deskflow

namespace Event

def isDecode : Event → Bool
  | .dispatched _ => true
  | .handled _ => true
  | _ => false

def handledMessage : Event → Option Message
  | .handled m => some m
  | _ => none

theorem isDecode_of_isEffect {e : Event} (h : e.isEffect) : e.isDecode = false := by
  cases e <;> simp_all [isEffect, isInternal, isDecode]

end Event

def handledIn (log : List Event) : List Message := log.filterMap Event.handledMessage

def Arrival.decodes : Arrival → List Event
  | .lost => []
  | .short => []
  | .unknown key => [.dispatched key]
  | .failed key => [.dispatched key]
  | .message key m => [.dispatched key, .handled m]

namespace DeskflowClient

/-- The keys dispatched and the messages handled so far. -/
def decoded (c : DeskflowClient) : List Event := c.world.log.filter Event.isDecode

def handled (c : DeskflowClient) : List Message := handledIn c.world.log

theorem handled_eq (c : DeskflowClient) :
    c.handled = c.decoded.filterMap Event.handledMessage := by
  rw [handled, handledIn, decoded, List.filterMap_filter]
  congr 1
  funext e
  cases e <;> rfl

theorem decoded_of_extends {c c' : DeskflowClient}
    (h : World.Extends (Event.isEffect ·) c.world c'.world) : c'.decoded = c.decoded :=
  h.log.filter_eq fun _ => Event.isDecode_of_isEffect

theorem decoded_emit (e : Event) (c : DeskflowClient) :
    (c.emit e).decoded = c.decoded ++ if e.isDecode then [e] else [] := by
  simp only [decoded, emit, World.emit, List.filter_append, List.filter_cons, List.filter_nil]

theorem deliver_decoded (a : Arrival) (c : DeskflowClient) :
    (c.deliver a).2.decoded = c.decoded ++ a.decodes := by
  cases a with
  | lost =>
    simp only [deliver, Arrival.decodes, List.append_nil]
    split
    · exact (decoded_emit _ c.loadStop.2).trans (List.append_nil _)
    · exact (decoded_emit _ c.loadStop.2).trans (List.append_nil _)
  | short => simp [deliver, Arrival.decodes]
  | unknown key =>
    simp only [deliver, setStatus, decoded_emit, Event.isDecode, if_true, Arrival.decodes,
      Bool.false_eq_true, if_false, List.append_nil]
  | failed key => simp only [deliver, decoded_emit, Event.isDecode, if_true, Arrival.decodes]
  | message key m =>
    have hack := decoded_of_extends (acknowledge_world ((c.emit (.dispatched key)).handle m))
    have hperform := decoded_of_extends (perform_world m (c.emit (.dispatched key)))
    change (acknowledge ((c.emit (.dispatched key)).handle m)).2.decoded = _
    rw [hack, handle, decoded_emit, hperform, decoded_emit]
    simp only [Event.isDecode, if_true, Arrival.decodes, List.append_assoc,
      List.singleton_append]

theorem iterate_decoded (c : DeskflowClient) :
    c.iterate.2.decoded = c.decoded ++ c.stream.view.arrival.1.decodes := by
  obtain ⟨s, -, -, he⟩ := c.iterate_eq_deliver
  rw [he, deliver_decoded]
  rfl

end DeskflowClient

/-- The frames decoded one by one, each from its own bytes, with what a message
does not use dropped, up to the first that ends the connection. -/
def isolated : List Bytes → List Event
  | [] => []
  | frame :: frames =>
    if frame.length < 4 then []
    else
      match Key.ofBytes (frame.take 4) with
      | none => [.dispatched (frame.take 4)]
      | some k =>
        match ((readMessage k).run (frame.drop 4)).1 with
        | none => [.dispatched (frame.take 4)]
        | some m =>
          .dispatched (frame.take 4) :: .handled m ::
            if m.terminating then [] else isolated frames

/-- The frame ends the loop by its own bytes, whatever follows it. -/
def EndsLoop (frame : Bytes) : Prop :=
  4 ≤ frame.length ∧ ∀ k, Key.ofBytes (frame.take 4) = some k →
    (∀ tail, ((readMessage k).run (frame.drop 4 ++ tail)).1 = none) ∨
      ∃ m surplus, (readMessage k).run (frame.drop 4) = (some m, surplus) ∧ m.terminating

/-- Nothing can be decoded from the frame alone. -/
def Incomplete (frame : Bytes) : Prop :=
  4 ≤ frame.length → ∃ k, Key.ofBytes (frame.take 4) = some k ∧
    ((readMessage k).run (frame.drop 4)).1 = none

/-- A message is decoded from the frame alone, and no key from the bytes behind it. -/
def Overlong (frame : Bytes) : Prop :=
  4 ≤ frame.length ∧ ∃ k m surplus, Key.ofBytes (frame.take 4) = some k ∧
    (readMessage k).run (frame.drop 4) = (some m, surplus) ∧
    (View.mk surplus []).arrival.1.decodes = []

/-- The first `n` frames are encodings of messages, up to one that ends the loop by its
own bytes or the last one sent, which may be cut short or have bytes to spare. -/
inductive Aligned : Nat → List Bytes → Prop
  | zero {frames : List Bytes} : Aligned 0 frames
  | nil {n : Nat} : Aligned n []
  | fits {n : Nat} {m : Message} {frames : List Bytes} : m.WellFormed → Aligned n frames →
      Aligned (n + 1) (m.payload :: frames)
  | ends {n : Nat} {frame : Bytes} {frames : List Bytes} : EndsLoop frame →
      Aligned (n + 1) (frame :: frames)
  | last {n : Nat} {frame : Bytes} : Incomplete frame → Aligned (n + 1) [frame]
  | overlong {n : Nat} {frame : Bytes} : Overlong frame → Aligned (n + 1) [frame]

theorem Aligned.all {frames : List Bytes} (h : Aligned frames.length frames) (n : Nat) :
    Aligned n frames := by
  induction frames generalizing n with
  | nil => exact .nil
  | cons frame frames ih =>
    rw [List.length_cons] at h
    cases n with
    | zero => exact .zero
    | succ n =>
      cases h with
      | fits hm hrest => exact .fits hm (ih hrest n)
      | ends hends => exact .ends hends
      | last hinc => exact .last hinc
      | overlong hlong => exact .overlong hlong

namespace View

variable {α : Type}

theorem run_of_append {r : Reader Bytes α} {v : View} (used tail : Bytes) {a : α}
    (hv : v.pending = used ++ tail) (h : r.run (used ++ tail) = (some a, tail)) :
    v.run r = (some a, v.drop used.length) := by
  rw [View.run, hv, h, List.length_append, Nat.add_sub_cancel]

theorem run_frame {payload : Bytes} (h : payload.length ≤ 4 * 1024 * 1024) (rest : Bytes) :
    (View.mk [] (frameBytes payload ++ rest)).run readFrame = (some payload, ⟨[], rest⟩) := by
  rw [run_of_append (frameBytes payload) rest rfl (readFrame_frameBytes h rest), drop_sock]

theorem run_key {key : Bytes} (h : key.length = 4) (args rest : Bytes) :
    (View.mk (key ++ args) rest).run (Reader.exact 4) = (some key, ⟨args, rest⟩) := by
  have hkey := Reader.run_exact_append key (args ++ rest)
  rw [h] at hkey
  have hpend : (View.mk (key ++ args) rest).pending = key ++ (args ++ rest) :=
    List.append_assoc key args rest
  rw [run_of_append key (args ++ rest) hpend hkey, drop_buf]

theorem arrival_payload {m : Message} (h : m.WellFormed) (rest : Bytes) :
    (View.mk [] (frameBytes m.payload ++ rest)).arrival =
      (.message m.key.bytes m, ⟨[], rest⟩) := by
  have hargs : (View.mk (writef m.key.argFormat m.args) rest).run (readMessage m.key) =
      (some m, ⟨[], rest⟩) := by
    rw [run_of_append (writef m.key.argFormat m.args) rest rfl (readMessage_append h rest)]
    simpa using drop_buf (writef m.key.argFormat m.args) [] rest
  rw [View.arrival, run_frame h.frame]
  simp only [push, List.nil_append]
  rw [m.payload_eq, run_key m.key.length_bytes]
  simp only [dispatch, Key.ofBytes_bytes, hargs]

theorem arrival_frame {frame : Bytes} (h : frame.length ≤ 4 * 1024 * 1024)
    (hkey : 4 ≤ frame.length) (rest : Bytes) :
    (View.mk [] (frameBytes frame ++ rest)).arrival =
      (View.mk (frame.drop 4) rest).dispatch (frame.take 4) := by
  have hfour : (frame.take 4).length = 4 := by simp [hkey]
  have hrun := run_key hfour (frame.drop 4) rest
  rw [List.take_append_drop] at hrun
  have hpush : (View.mk [] rest).push frame = ⟨frame, rest⟩ := rfl
  rw [View.arrival, run_frame h]
  dsimp only
  rw [hpush, hrun]

theorem arrival_short {frame : Bytes} (h : frame.length < 4) :
    ((View.mk [] (frameBytes frame)).arrival).1 = .short := by
  have hframe := run_frame (show frame.length ≤ 4 * 1024 * 1024 by omega) []
  rw [List.append_nil] at hframe
  have hrun : ((View.mk frame []).run (Reader.exact 4)).1 = none := by
    have hpend : (View.mk frame []).pending = frame := List.append_nil _
    rw [View.run, hpend, Reader.run_exact_of_lt h]
  rw [View.arrival, hframe]
  simp only [push, List.nil_append]
  rcases hk : (View.mk frame []).run (Reader.exact 4) with ⟨_ | key, v⟩
  · rfl
  · simp [hk] at hrun

theorem arrival_empty : ((View.mk [] []).arrival).1 = .lost := rfl

end View

theorem isolated_payload {m : Message} (h : m.WellFormed) (frames : List Bytes) :
    isolated (m.payload :: frames) =
      .dispatched m.key.bytes :: .handled m ::
        if m.terminating then [] else isolated frames := by
  have hkey := m.key.length_bytes
  have hargs := readMessage_append h []
  rw [List.append_nil] at hargs
  rw [isolated, m.payload_eq, if_neg (by rw [List.length_append]; omega),
    List.take_left' hkey, List.drop_left' hkey]
  simp only [Key.ofBytes_bytes, hargs]

namespace DeskflowClient

theorem perform_fst {m : Message} {c : DeskflowClient} (h : c.reply m = none) :
    (c.perform m).1 = !m.terminating := by
  cases m with
  | qinf => cases h
  | calv => cases h
  | dclp id seq mark data =>
    simp only [perform]
    split_ifs <;> rfl
  | _ => rfl

theorem iterate_of_terminating {c : DeskflowClient} {key : Bytes} {m : Message}
    (ha : c.stream.view.arrival.1 = .message key m) (hm : m.terminating) :
    c.iterate.1 = false := by
  obtain ⟨s, -, -, he⟩ := c.iterate_eq_deliver
  have hreply (c : DeskflowClient) : c.reply m = none := by
    cases m with
    | qinf => cases hm
    | calv => cases hm
    | _ => rfl
  have hfst (c : DeskflowClient) : (c.handle m).1 = false := by
    rw [handle, perform_fst (hreply c), hm, Bool.not_true]
  rw [he, ha, deliver, acknowledge, hfst]
  exact hfst _

theorem iterate_of_no_message {c : DeskflowClient}
    (h : ∀ key m, c.stream.view.arrival.1 ≠ .message key m) : c.iterate.1 = false := by
  by_contra hgo
  obtain ⟨key, m, ha⟩ := arrival_of_iterate (by simpa using hgo)
  exact h key m ha

/-- A frame that ends the loop by its own bytes does so before any other frame. -/
theorem iterate_of_endsLoop {c : DeskflowClient} {frame : Bytes} {frames : List Bytes}
    (hends : EndsLoop frame) (hlen : frame.length ≤ 4 * 1024 * 1024)
    (hview : c.stream.view = ⟨[], frameBytes frame ++ frames.flatMap frameBytes⟩) :
    c.iterate.1 = false ∧ c.stream.view.arrival.1.decodes <+: isolated (frame :: frames) := by
  obtain ⟨hkey, hdec⟩ := hends
  have ha := View.arrival_frame hlen hkey (frames.flatMap frameBytes)
  rw [← hview, View.dispatch] at ha
  rw [isolated, if_neg (Nat.not_lt.mpr hkey)]
  cases hk : Key.ofBytes (frame.take 4) with
  | none =>
    simp only [hk] at ha
    exact ⟨iterate_of_no_message (by simp [ha]), by simp [ha, Arrival.decodes]⟩
  | some k =>
    simp only [hk] at ha ⊢
    rcases hdec k hk with hfail | ⟨m, surplus, hm, ht⟩
    · have hrun : ((View.mk (frame.drop 4) (frames.flatMap frameBytes)).run
          (readMessage k)).1 = none := hfail _
      have halone := hfail []
      rw [List.append_nil] at halone
      rcases hr : (View.mk (frame.drop 4) (frames.flatMap frameBytes)).run (readMessage k)
        with ⟨_ | m, v⟩
      · simp only [hr] at ha
        simp only [halone]
        exact ⟨iterate_of_no_message (by simp [ha]), by simp [ha, Arrival.decodes]⟩
      · simp [hr] at hrun
    · obtain ⟨used, hused, hall⟩ := readMessage_local k _ _ _ hm
      have hpend : (View.mk (frame.drop 4) (frames.flatMap frameBytes)).pending =
          used ++ (surplus ++ frames.flatMap frameBytes) := by
        rw [View.pending, hused, List.append_assoc]
      simp only [View.run_of_append used _ hpend (hall _)] at ha
      simp only [hm, ht, if_true]
      exact ⟨iterate_of_terminating (congrArg Prod.fst ha) ht, by simp [ha, Arrival.decodes]⟩

/-- A last frame that is cut short ends the loop. -/
theorem iterate_of_incomplete {c : DeskflowClient} {frame : Bytes} (hinc : Incomplete frame)
    (hlen : frame.length ≤ 4 * 1024 * 1024) (hview : c.stream.view = ⟨[], frameBytes frame⟩) :
    c.iterate.1 = false ∧ c.stream.view.arrival.1.decodes <+: isolated [frame] := by
  by_cases hkey : 4 ≤ frame.length
  · obtain ⟨k, hk, hfail⟩ := hinc hkey
    have ha := View.arrival_frame hlen hkey []
    rw [List.append_nil, ← hview, View.dispatch] at ha
    have hrun : ((View.mk (frame.drop 4) []).run (readMessage k)).1 = none := by
      rw [View.run, View.pending, List.append_nil]
      exact hfail
    rw [isolated, if_neg (Nat.not_lt.mpr hkey)]
    simp only [hk, hfail] at ha ⊢
    rcases hr : (View.mk (frame.drop 4) []).run (readMessage k) with ⟨_ | m, v⟩
    · simp only [hr] at ha
      exact ⟨iterate_of_no_message (by simp [ha]), by simp [ha, Arrival.decodes]⟩
    · simp [hr] at hrun
  · have ha : c.stream.view.arrival.1 = .short := by
      rw [hview]
      exact View.arrival_short (Nat.not_le.mp hkey)
    exact ⟨iterate_of_no_message (by simp [ha]), by simp [ha, Arrival.decodes]⟩

/-- A last frame with bytes to spare is decoded, and they are left in the buffer. -/
theorem iterate_of_overlong {c : DeskflowClient} {frame : Bytes} (hlong : Overlong frame)
    (hlen : frame.length ≤ 4 * 1024 * 1024) (hview : c.stream.view = ⟨[], frameBytes frame⟩) :
    c.stream.view.arrival.1.decodes = isolated [frame] ∧
      c.iterate.2.stream.view.arrival.1.decodes = [] := by
  obtain ⟨hkey, k, m, surplus, hk, hm, hnone⟩ := hlong
  have ha := View.arrival_frame hlen hkey []
  rw [List.append_nil, ← hview, View.dispatch] at ha
  obtain ⟨used, hused, hall⟩ := readMessage_local k _ _ _ hm
  have hpend : (View.mk (frame.drop 4) []).pending = used ++ surplus := by
    rw [View.pending, hused, List.append_nil]
  have hdrop : (View.mk (frame.drop 4) []).drop used.length = ⟨surplus, []⟩ := by
    rw [hused, View.drop_buf]
  simp only [hk, View.run_of_append used surplus hpend (hall surplus), hdrop] at ha
  rw [iterate_view, ha]
  refine ⟨?_, hnone⟩
  rw [isolated, if_neg (Nat.not_lt.mpr hkey)]
  simp [hk, hm, isolated, Arrival.decodes]

/-- Where no key can be read an iteration is the last and decodes nothing. -/
theorem loopFor_of_decodes_nil {c : DeskflowClient} (h : c.stream.view.arrival.1.decodes = [])
    (n : Nat) : (c.loopFor n).decoded = c.decoded := by
  cases n with
  | zero => rfl
  | succ n =>
    have hdec := c.loadStop.2.iterate_decoded
    have hend : c.loadStop.2.iterate.1 = false :=
      iterate_of_no_message (c := c.loadStop.2) fun key m ha => by
        have hsome : c.stream.view.arrival.1.decodes ≠ [] := by
          rw [show c.stream.view.arrival.1 = .message key m from ha]
          simp [Arrival.decodes]
        exact hsome h
    rw [show c.loadStop.2.stream.view.arrival.1.decodes = [] from h, List.append_nil] at hdec
    rw [loopFor]
    dsimp only
    rw [hend]
    split_ifs with hstop hgo
    · rfl
    · cases hgo
    · exact hdec

/-- An iteration on aligned frames ends the loop, uses up the first frame or leaves the
buffer with bytes of which no key can be read. -/
theorem iterate_aligned {c : DeskflowClient} {n : Nat} {frames : List Bytes}
    (h : Aligned (n + 1) frames) (hlen : ∀ frame ∈ frames, frame.length ≤ 4 * 1024 * 1024)
    (hview : c.stream.view = ⟨[], frames.flatMap frameBytes⟩) :
    (c.iterate.1 = false ∧ c.stream.view.arrival.1.decodes <+: isolated frames) ∨
      (∃ rest, Aligned n rest ∧ (∀ frame ∈ rest, frame ∈ frames) ∧
        c.iterate.2.stream.view = ⟨[], rest.flatMap frameBytes⟩ ∧
        isolated frames = c.stream.view.arrival.1.decodes ++ isolated rest) ∨
      c.stream.view.arrival.1.decodes = isolated frames ∧
        c.iterate.2.stream.view.arrival.1.decodes = [] := by
  cases h with
  | nil =>
    have ha : c.stream.view.arrival.1 = .lost := by rw [hview]; exact View.arrival_empty
    exact .inl ⟨iterate_of_no_message (by simp [ha]), by simp [ha, Arrival.decodes]⟩
  | @fits _ m frames hm hrest =>
    rw [List.flatMap_cons] at hview
    have ha := View.arrival_payload hm (frames.flatMap frameBytes)
    rw [← hview] at ha
    rw [isolated_payload hm, ha]
    by_cases ht : m.terminating
    · exact .inl ⟨iterate_of_terminating (congrArg Prod.fst ha) ht, by simp [Arrival.decodes, ht]⟩
    · refine .inr (.inl ⟨frames, hrest, fun _ => List.mem_cons_of_mem _, ?_, ?_⟩)
      · rw [iterate_view, ha]
      · simp [Arrival.decodes, ht]
  | @ends _ frame frames hends =>
    rw [List.flatMap_cons] at hview
    exact .inl (iterate_of_endsLoop hends (hlen frame (by simp)) hview)
  | @last _ frame hinc =>
    rw [List.flatMap_cons, List.flatMap_nil, List.append_nil] at hview
    exact .inl (iterate_of_incomplete hinc (hlen frame (by simp)) hview)
  | @overlong _ frame hlong =>
    rw [List.flatMap_cons, List.flatMap_nil, List.append_nil] at hview
    exact .inr (.inr (iterate_of_overlong hlong (hlen frame (by simp)) hview))

theorem loopFor_isolates {c : DeskflowClient} {n : Nat} {frames : List Bytes}
    (hframes : Aligned n frames) (hlen : ∀ frame ∈ frames, frame.length ≤ 4 * 1024 * 1024)
    (hview : c.stream.view = ⟨[], frames.flatMap frameBytes⟩) :
    ∃ es, (c.loopFor n).decoded = c.decoded ++ es ∧ es <+: isolated frames := by
  induction n generalizing c frames with
  | zero => exact ⟨[], (List.append_nil c.decoded).symm, List.nil_prefix⟩
  | succ n ih =>
    have hdec := c.loadStop.2.iterate_decoded
    rw [loopFor]
    dsimp only
    split_ifs with hstop hgo
    · exact ⟨[], (List.append_nil c.decoded).symm, List.nil_prefix⟩
    · rcases iterate_aligned (c := c.loadStop.2) hframes hlen hview with
        ⟨hend, -⟩ | ⟨rest, hrest, hsub, hview', hiso⟩ | ⟨hiso, hnone⟩
      · simp [hend] at hgo
      · obtain ⟨es, hes, hpre⟩ := ih hrest (fun frame hf => hlen frame (hsub frame hf)) hview'
        refine ⟨c.loadStop.2.stream.view.arrival.1.decodes ++ es, ?_, ?_⟩
        · rw [hes, hdec, List.append_assoc]
          rfl
        · rw [hiso]
          exact (List.prefix_append_right_inj _).mpr hpre
      · exact ⟨_, (loopFor_of_decodes_nil hnone n).trans hdec, hiso ▸ List.prefix_refl _⟩
    · rcases iterate_aligned (c := c.loadStop.2) hframes hlen hview with
        ⟨-, hpre⟩ | ⟨rest, -, -, -, hiso⟩ | ⟨hiso, -⟩
      · exact ⟨_, hdec, hpre⟩
      · exact ⟨_, hdec, by rw [hiso]; exact List.prefix_append _ _⟩
      · exact ⟨_, hdec, hiso ▸ List.prefix_refl _⟩

/-- Where the first `n` frames are encodings of messages, each of the first `n` iterations
decodes its own frame, whatever is sent behind them; where all are, each iteration does. -/
theorem messageLoop_isolates {c : DeskflowClient} {frames : List Bytes}
    (hlen : ∀ frame ∈ frames, frame.length ≤ 4 * 1024 * 1024)
    (hbuf : c.stream.bufferRemaining = 0) (hconn : c.stream.connected = true)
    (hrecv : arriving c.stream.recvs = frames.flatMap frameBytes) :
    (∀ n, Aligned n frames →
      ∃ es, (c.loopFor n).decoded = c.decoded ++ es ∧ es <+: isolated frames) ∧
    (Aligned frames.length frames →
      ∃ es, c.messageLoop.decoded = c.decoded ++ es ∧ es <+: isolated frames) := by
  rw [SocketStream.bufferRemaining_eq, List.length_eq_zero_iff] at hbuf
  have hview : c.stream.view = ⟨[], frames.flatMap frameBytes⟩ :=
    congrArg₂ View.mk hbuf (by rw [if_pos hconn, hrecv])
  exact ⟨fun n hframes => loopFor_isolates hframes hlen hview,
    fun hframes => loopFor_isolates (hframes.all _) hlen hview⟩

/-- A `CNOP` frame with a whole `CBYE` frame behind the key: the next iteration
dispatches `CBYE`, which no frame starts with. -/
theorem messageLoop_not_isolated :
    ∃ (c : DeskflowClient) (frames : List Bytes),
      (∀ frame ∈ frames, frame.length ≤ 4 * 1024 * 1024) ∧ c.stream.bufferRemaining = 0 ∧
      c.stream.connected = true ∧ arriving c.stream.recvs = frames.flatMap frameBytes ∧
      ¬∃ es, c.messageLoop.decoded = c.decoded ++ es ∧ es <+: isolated frames := by
  let frames := [ascii "CNOP" ++ frameBytes (ascii "CBYE"), ascii "CNOP"]
  let c : DeskflowClient :=
    { stream := { connected := true, recvs := [.data (frames.flatMap frameBytes)] } }
  refine ⟨c, frames, by decide +kernel, by decide +kernel, rfl, by decide +kernel, ?_⟩
  rintro ⟨es, hes, hpre⟩
  have hloop : c.messageLoop.decoded =
      [.dispatched (ascii "CNOP"), .handled .cnop, .dispatched (ascii "CBYE"), .handled .cbye] := by
    decide +kernel
  have hiso : isolated frames =
      [.dispatched (ascii "CNOP"), .handled .cnop, .dispatched (ascii "CNOP"), .handled .cnop] := by
    decide +kernel
  have hstart : c.decoded = [] := rfl
  rw [hloop, hstart, List.nil_append] at hes
  rw [← hes, hiso] at hpre
  revert hpre
  decide +kernel

/-- Three frames, the last of them cut short. -/
theorem messageLoop_isolates_cut_frame :
    let frames := [(Message.dmdn 1).payload, Message.calv.payload, ascii "DMUP"]
    let c : DeskflowClient :=
      { stream := { connected := true, recvs := [.data (frames.flatMap frameBytes)] } }
    (∃ es, (c.loopFor 2).decoded = [] ++ es ∧ es <+: isolated frames) ∧
      ∃ es, c.messageLoop.decoded = [] ++ es ∧ es <+: isolated frames := by
  intro frames c
  have hisolates := @messageLoop_isolates c frames (by decide +kernel) (by decide +kernel) rfl
    (by decide +kernel)
  have hdmdn : (Message.dmdn 1).WellFormed := ⟨by simp [Message.args], by decide +kernel⟩
  have hcalv : Message.calv.WellFormed := ⟨by simp [Message.args], by decide +kernel⟩
  have hcut : Incomplete (ascii "DMUP") := fun _ => ⟨.DMUP, by decide +kernel, by decide +kernel⟩
  exact ⟨hisolates.1 2 (.fits hdmdn (.fits hcalv .zero)),
    hisolates.2 (.fits hdmdn (.fits hcalv (.last hcut)))⟩

end DeskflowClient

end Deskflow
