import Deskflow.StreamOutput

/-! Frames sent over one socket by one thread and read at its other end, however
the kernel cuts the bytes, and what is on the wire when a `send` fails. -/

namespace Deskflow

def acceptedPayloads (payloads : List Bytes) : List Bytes :=
  payloads.filter fun data => data.length ≤ 4 * 1024 * 1024

theorem acceptedPayloads_append (payloads payloads' : List Bytes) :
    acceptedPayloads (payloads ++ payloads') =
      acceptedPayloads payloads ++ acceptedPayloads payloads' := List.filter_append ..

theorem acceptedPayloads_cons_of_le {data : Bytes} (h : data.length ≤ 4 * 1024 * 1024)
    (payloads : List Bytes) :
    acceptedPayloads (data :: payloads) = data :: acceptedPayloads payloads := by
  apply List.filter_cons_of_pos
  exact decide_eq_true h

theorem acceptedPayloads_cons_of_lt {data : Bytes} (h : 4 * 1024 * 1024 < data.length)
    (payloads : List Bytes) : acceptedPayloads (data :: payloads) = acceptedPayloads payloads := by
  apply List.filter_cons_of_neg
  rw [decide_eq_true_eq]
  omega

theorem length_of_mem_acceptedPayloads {payloads : List Bytes} {data : Bytes}
    (h : data ∈ acceptedPayloads payloads) : data.length ≤ 4 * 1024 * 1024 :=
  of_decide_eq_true (List.mem_filter.mp h).2

/-- What the frames of the payloads put on the wire. -/
def framesBytes (payloads : List Bytes) : Bytes := (acceptedPayloads payloads).flatMap frameBytes

theorem framesBytes_append (payloads payloads' : List Bytes) :
    framesBytes (payloads ++ payloads') = framesBytes payloads ++ framesBytes payloads' := by
  rw [framesBytes, acceptedPayloads_append, List.flatMap_append]
  rfl

theorem sendLoop_calls (data : Bytes) (ss : List Send) :
    ∃ calls, ss = calls ++ (sendLoop data ss).2.2 ∧
      ((sendLoop data ss).1 = true ↔ Accepting calls) := by
  induction data, ss using sendLoop.induct with
  | case1 ss => exact ⟨[], by simp [sendLoop, Accepting]⟩
  | case2 data hne =>
    obtain ⟨b, bs, rfl⟩ := List.exists_cons_of_ne_nil hne
    exact ⟨[], by simp [sendLoop, Accepting]⟩
  | case3 data ss hne ih =>
    obtain ⟨b, bs, rfl⟩ := List.exists_cons_of_ne_nil hne
    obtain ⟨calls, hcalls, hok⟩ := ih
    refine ⟨.eintr :: calls, congrArg (List.cons Send.eintr) hcalls, hok.trans ?_⟩
    simp [Accepting]
  | case4 data ss hne =>
    obtain ⟨b, bs, rfl⟩ := List.exists_cons_of_ne_nil hne
    exact ⟨[.error], by simp [sendLoop, Accepting]⟩
  | case5 data k ss hne ih =>
    obtain ⟨b, bs, rfl⟩ := List.exists_cons_of_ne_nil hne
    obtain ⟨calls, hcalls, hok⟩ := ih
    refine ⟨.accept k :: calls, congrArg (List.cons (Send.accept k)) hcalls, hok.trans ?_⟩
    simp [Accepting]

theorem sendLoop_prefix (data : Bytes) (ss : List Send) : (sendLoop data ss).2.1 <+: data := by
  induction data, ss using sendLoop.induct with
  | case1 ss => simp [sendLoop]
  | case2 data hne =>
    obtain ⟨b, bs, rfl⟩ := List.exists_cons_of_ne_nil hne
    simp [sendLoop]
  | case3 data ss hne ih =>
    obtain ⟨b, bs, rfl⟩ := List.exists_cons_of_ne_nil hne
    exact ih
  | case4 data ss hne =>
    obtain ⟨b, bs, rfl⟩ := List.exists_cons_of_ne_nil hne
    simp [sendLoop]
  | case5 data k ss hne ih =>
    obtain ⟨b, bs, rfl⟩ := List.exists_cons_of_ne_nil hne
    obtain ⟨more, hmore⟩ := ih
    refine ⟨more, ?_⟩
    show (b :: bs).take (k + 1) ++ _ ++ more = b :: bs
    rw [List.append_assoc, hmore, List.take_append_drop]

namespace SocketStream

/-- The `send` calls made on the way from `s` to `t`. -/
def calls (s t : SocketStream) : List Send := s.sends.take (s.sends.length - t.sends.length)

theorem calls_of_append {s t : SocketStream} {made : List Send} (h : s.sends = made ++ t.sends) :
    calls s t = made := by
  rw [calls, h, List.length_append, Nat.add_sub_cancel, List.take_left]

theorem calls_self (s : SocketStream) : calls s s = [] := calls_of_append rfl

theorem writeAll_calls {s : SocketStream} (hconn : s.connected) (data : Bytes) :
    s.sends = calls s (s.writeAll data).2 ++ (s.writeAll data).2.sends ∧
      ((s.writeAll data).1 = true ↔ Accepting (calls s (s.writeAll data).2)) := by
  by_cases hdata : data = []
  · have hsame : s.writeAll data = (true, s) := if_pos hdata
    rw [hsame, calls_self]
    simp [Accepting]
  · obtain ⟨made, hmade, hok⟩ := sendLoop_calls data s.sends
    have heq : s.writeAll data = ((sendLoop data s.sends).1,
        { s with sends := (sendLoop data s.sends).2.2
                 wire := s.wire ++ (sendLoop data s.sends).2.1 }) := by
      simp [writeAll, hdata, hconn]
    have hcalls : calls s (s.writeAll data).2 = made := by
      apply calls_of_append
      rw [heq]
      exact hmade
    rw [hcalls, heq]
    exact ⟨hmade, hok⟩

theorem writeAll_wire (data : Bytes) (s : SocketStream) :
    ∃ sent, (s.writeAll data).2.wire = s.wire ++ sent ∧ sent <+: data := by
  unfold writeAll
  split_ifs
  · exact ⟨[], (List.append_nil _).symm, List.nil_prefix⟩
  · exact ⟨[], (List.append_nil _).symm, List.nil_prefix⟩
  · exact ⟨_, rfl, sendLoop_prefix data s.sends⟩

theorem writeFrame_of_lt {data : Bytes} (h : 4 * 1024 * 1024 < data.length) (s : SocketStream) :
    s.writeFrame data = (false, s) := if_pos h

theorem writeFrame_of_le {data : Bytes} (h : data.length ≤ 4 * 1024 * 1024) (s : SocketStream) :
    s.writeFrame data =
      if (s.writeAll (BigEndian.encode 4 data.length)).1 then
        (s.writeAll (BigEndian.encode 4 data.length)).2.writeAll data
      else s.writeAll (BigEndian.encode 4 data.length) := by
  rw [writeFrame, if_neg (Nat.not_lt.mpr h)]
  rcases s.writeAll (BigEndian.encode 4 data.length) with ⟨_ | _, t⟩ <;> rfl

/-- A frame that fits is written whole unless a `send` fails. -/
theorem writeFrame_calls {s : SocketStream} (hconn : s.connected) (data : Bytes) :
    s.sends = calls s (s.writeFrame data).2 ++ (s.writeFrame data).2.sends ∧
      ((s.writeFrame data).1 = true ↔
        data.length ≤ 4 * 1024 * 1024 ∧ Accepting (calls s (s.writeFrame data).2)) := by
  by_cases hlen : data.length ≤ 4 * 1024 * 1024
  · obtain ⟨hlenb, hok⟩ := writeAll_calls hconn (BigEndian.encode 4 data.length)
    have hsame := writeAll_sameInput (BigEndian.encode 4 data.length) s
    rw [writeFrame_of_le hlen]
    revert hlenb hok hsame
    generalize s.writeAll (BigEndian.encode 4 data.length) = r
    intro hlenb hok hsame
    by_cases hr : r.1 = true
    · rw [if_pos hr]
      obtain ⟨hdata, hdone⟩ := writeAll_calls (hsame.connected.trans hconn) data
      have happ : s.sends = (calls s r.2 ++ calls r.2 (r.2.writeAll data).2) ++
          (r.2.writeAll data).2.sends := by
        rw [List.append_assoc, ← hdata]
        exact hlenb
      rw [calls_of_append happ]
      refine ⟨happ, hdone.trans ?_⟩
      have hfirst := hok.mp hr
      constructor
      · intro hsecond
        refine ⟨hlen, ?_⟩
        intro call hcall
        rcases List.mem_append.mp hcall with h | h
        · exact hfirst call h
        · exact hsecond call h
      · rintro ⟨-, hall⟩ call hcall
        exact hall call (List.mem_append_right _ hcall)
    · rw [if_neg hr]
      exact ⟨hlenb, hok.trans (by simp [hlen])⟩
  · rw [writeFrame_of_lt (Nat.not_le.mp hlen), calls_self]
    simp [hlen]

theorem writeFrame_wire (data : Bytes) (s : SocketStream) :
    ∃ sent, (s.writeFrame data).2.wire = s.wire ++ sent ∧ sent <+: framesBytes [data] := by
  by_cases hlen : data.length ≤ 4 * 1024 * 1024
  · have hbytes : framesBytes [data] = BigEndian.encode 4 data.length ++ data := by
      rw [framesBytes, acceptedPayloads_cons_of_le hlen]
      simp [acceptedPayloads, frameBytes]
    rw [hbytes, writeFrame_of_le hlen]
    by_cases hr : (s.writeAll (BigEndian.encode 4 data.length)).1 = true
    · rw [if_pos hr]
      obtain ⟨sent, hwire, hsent⟩ :=
        writeAll_wire data (s.writeAll (BigEndian.encode 4 data.length)).2
      refine ⟨BigEndian.encode 4 data.length ++ sent, ?_, ?_⟩
      · rw [hwire, writeAll_of_ok hr, List.append_assoc]
      · exact (List.prefix_append_right_inj _).mpr hsent
    · rw [if_neg hr]
      obtain ⟨sent, hwire, hsent⟩ := writeAll_wire (BigEndian.encode 4 data.length) s
      exact ⟨sent, hwire, hsent.trans (List.prefix_append _ _)⟩
  · rw [writeFrame_of_lt (Nat.not_le.mp hlen)]
    exact ⟨[], (List.append_nil _).symm, List.nil_prefix⟩

/-- `writeFrame` on each payload in turn, with the results. -/
def writeFrames : List Bytes → SocketStream → List Bool × SocketStream
  | [], s => ([], s)
  | data :: payloads, s =>
    let r := s.writeFrame data
    let rs := writeFrames payloads r.2
    (r.1 :: rs.1, rs.2)

/-- `readFrame` again and again, with the results. -/
def readFrames : Nat → SocketStream → List (Option Bytes) × SocketStream
  | 0, s => ([], s)
  | n + 1, s =>
    let r := readFrame.run s
    let rs := readFrames n r.2
    (r.1 :: rs.1, rs.2)

theorem writeFrames_connected (payloads : List Bytes) (s : SocketStream) :
    (writeFrames payloads s).2.connected = s.connected := by
  induction payloads generalizing s with
  | nil => rfl
  | cons data payloads ih => exact (ih _).trans (writeFrame_sameInput data s).connected

theorem writeFrames_calls {s : SocketStream} (hconn : s.connected) (payloads : List Bytes) :
    s.sends = calls s (writeFrames payloads s).2 ++ (writeFrames payloads s).2.sends := by
  induction payloads generalizing s with
  | nil => rw [writeFrames, calls_self, List.nil_append]
  | cons data payloads ih =>
    obtain ⟨hfirst, -⟩ := writeFrame_calls hconn data
    have hrest := ih (s := (s.writeFrame data).2)
      ((writeFrame_sameInput data s).connected.trans hconn)
    have happ : s.sends = (calls s (s.writeFrame data).2 ++
        calls (s.writeFrame data).2 (writeFrames (data :: payloads) s).2) ++
        (writeFrames (data :: payloads) s).2.sends := by
      rw [List.append_assoc]
      exact hfirst.trans (congrArg _ hrest)
    rw [calls_of_append happ]
    exact happ

theorem calls_writeFrames_cons {s : SocketStream} (hconn : s.connected) (data : Bytes)
    (payloads : List Bytes) :
    calls s (writeFrames (data :: payloads) s).2 =
      calls s (s.writeFrame data).2 ++
        calls (s.writeFrame data).2 (writeFrames payloads (s.writeFrame data).2).2 := by
  apply calls_of_append
  rw [List.append_assoc]
  exact (writeFrame_calls hconn data).1.trans (congrArg _ (writeFrames_calls
    ((writeFrame_sameInput data s).connected.trans hconn) payloads))

/-- Where no `send` fails, every payload that fits goes out whole and the others not at all. -/
theorem writeFrames_of_accepting {s : SocketStream} (hconn : s.connected) {payloads : List Bytes}
    (h : Accepting (calls s (writeFrames payloads s).2)) :
    (writeFrames payloads s).1 = payloads.map (fun data => decide (data.length ≤ 4 * 1024 * 1024)) ∧
      (writeFrames payloads s).2.wire = s.wire ++ framesBytes payloads := by
  induction payloads generalizing s with
  | nil => exact ⟨rfl, (List.append_nil _).symm⟩
  | cons data payloads ih =>
    rw [calls_writeFrames_cons hconn] at h
    have hfirst : Accepting (calls s (s.writeFrame data).2) :=
      fun call hcall => h call (List.mem_append_left _ hcall)
    obtain ⟨hoks, hwires⟩ := ih (s := (s.writeFrame data).2)
      ((writeFrame_sameInput data s).connected.trans hconn)
      (fun call hcall => h call (List.mem_append_right _ hcall))
    have hok := (writeFrame_calls hconn data).2
    rw [writeFrames]
    dsimp only
    rw [hoks, hwires, List.map_cons]
    by_cases hlen : data.length ≤ 4 * 1024 * 1024
    · have hdone : (s.writeFrame data).1 = true := hok.mpr ⟨hlen, hfirst⟩
      rw [hdone, decide_eq_true hlen, writeFrame_of_ok hdone, framesBytes, framesBytes,
        acceptedPayloads_cons_of_le hlen, List.flatMap_cons, List.append_assoc]
      exact ⟨rfl, rfl⟩
    · rw [writeFrame_of_lt (Nat.not_le.mp hlen), decide_eq_false hlen, framesBytes, framesBytes,
        acceptedPayloads_cons_of_lt (Nat.not_le.mp hlen)]
      exact ⟨rfl, rfl⟩

theorem readFrame_view {s : SocketStream} {data rest : Bytes}
    (hlen : data.length ≤ 4 * 1024 * 1024) (hview : s.view = ⟨[], frameBytes data ++ rest⟩) :
    (readFrame.run s).1 = some data ∧ (readFrame.run s).2.view = ⟨[], rest⟩ := by
  obtain ⟨hval, -, hleft⟩ := run_of_simulates s (readFrame_simulates (readExact_simulates s))
  have hpending : s.pending = frameBytes data ++ rest := by
    rw [← pending_view, hview]
    rfl
  rw [hpending, readFrame_frameBytes hlen] at hval hleft
  refine ⟨hval, ?_⟩
  rw [hleft, hview, List.length_append, Nat.add_sub_cancel, View.drop_sock]

theorem readFrame_end {s : SocketStream} (hview : s.view = ⟨[], []⟩) :
    (readFrame.run s).1 = none ∧ (readFrame.run s).2.view = ⟨[], []⟩ := by
  obtain ⟨hval, -, hleft⟩ := run_of_simulates s (readFrame_simulates (readExact_simulates s))
  have hpending : s.pending = [] := by
    rw [← pending_view, hview]
    rfl
  rw [hpending] at hval hleft
  refine ⟨hval, ?_⟩
  rw [hleft, hview]
  rfl

theorem readFrames_end {s : SocketStream} (hview : s.view = ⟨[], []⟩) (n : Nat) :
    (readFrames n s).1 = List.replicate n none := by
  induction n generalizing s with
  | zero => rfl
  | succ n ih =>
    obtain ⟨hnone, hview'⟩ := readFrame_end hview
    rw [readFrames, List.replicate_succ]
    show (readFrame.run s).1 :: (readFrames n (readFrame.run s).2).1 = _
    rw [hnone, ih hview']

theorem readFrames_of_view {payloads : List Bytes}
    (hlen : ∀ data ∈ payloads, data.length ≤ 4 * 1024 * 1024) {s : SocketStream}
    (hview : s.view = ⟨[], payloads.flatMap frameBytes⟩) (n : Nat) :
    (readFrames (payloads.length + n) s).1 = payloads.map some ++ List.replicate n none := by
  induction payloads generalizing s with
  | nil =>
    rw [List.length_nil, Nat.zero_add, List.map_nil, List.nil_append]
    exact readFrames_end hview n
  | cons data payloads ih =>
    obtain ⟨hsome, hview'⟩ := readFrame_view (hlen data (List.mem_cons_self ..)) hview
    rw [List.length_cons, Nat.add_right_comm, readFrames, List.map_cons, List.cons_append]
    show (readFrame.run s).1 :: (readFrames _ (readFrame.run s).2).1 = _
    rw [hsome, ih (fun data hdata => hlen data (List.mem_cons_of_mem _ hdata)) hview']

/-- One thread's frames cross a socket whole and in order, whatever part of the bytes each
call takes, until a `send` fails. Every call with a failing `send` returns false; after the
first of them the wire holds all of the frames before and a prefix of the rest. -/
theorem writeFrames_readFrames (payloads : List Bytes) {s : SocketStream}
    (hconn : s.connected) :
    (Accepting (calls s (writeFrames payloads s).2) →
      (writeFrames payloads s).1 =
          payloads.map (fun data => decide (data.length ≤ 4 * 1024 * 1024)) ∧
        (writeFrames payloads s).2.wire = s.wire ++ framesBytes payloads ∧
        ∀ r : SocketStream, r.connected → r.bufferRemaining = 0 →
          (writeFrames payloads s).2.wire = s.wire ++ arriving r.recvs →
          ∀ n, (readFrames ((acceptedPayloads payloads).length + n) r).1 =
            (acceptedPayloads payloads).map some ++ List.replicate n none) ∧
    ∀ before data after, payloads = before ++ data :: after →
      let t := (writeFrames before s).2
      Send.error ∈ calls t (t.writeFrame data).2 →
      (t.writeFrame data).1 = false ∧
        (Accepting (calls s t) → ∃ sent, (t.writeFrame data).2.wire = s.wire ++ sent ∧
          framesBytes before <+: sent ∧ sent <+: framesBytes payloads) := by
  constructor
  · intro hsends
    obtain ⟨hoks, hwire⟩ := writeFrames_of_accepting hconn hsends
    refine ⟨hoks, hwire, ?_⟩
    intro r hr hbuf harrive n
    have hbytes : arriving r.recvs = framesBytes payloads := by
      rw [hwire] at harrive
      exact (List.append_cancel_left harrive).symm
    have hview : r.view = ⟨[], framesBytes payloads⟩ := by
      rw [bufferRemaining_eq, List.length_eq_zero_iff] at hbuf
      exact congrArg₂ View.mk hbuf (by rw [if_pos hr, hbytes])
    apply readFrames_of_view _ hview
    intro data hdata
    exact length_of_mem_acceptedPayloads hdata
  · intro before data after hsplit t hfail
    have ht : t.connected := (writeFrames_connected before s).trans hconn
    constructor
    · have hok := (writeFrame_calls ht data).2
      by_contra hne
      rw [Bool.not_eq_false] at hne
      exact (hok.mp hne).2 Send.error hfail rfl
    · intro hbefore
      obtain ⟨-, hwire⟩ := writeFrames_of_accepting hconn hbefore
      obtain ⟨sent, hlast, hsent⟩ := writeFrame_wire data t
      refine ⟨framesBytes before ++ sent, ?_, List.prefix_append _ _, ?_⟩
      · rw [hlast, hwire, List.append_assoc]
      · have hall : framesBytes payloads =
            framesBytes before ++ (framesBytes [data] ++ framesBytes after) := by
          rw [hsplit, ← List.singleton_append, framesBytes_append, framesBytes_append]
        rw [hall, List.prefix_append_right_inj]
        exact hsent.trans (List.prefix_append _ _)

/-- Three frames in pieces, one of them empty; then a failure inside the third. -/
theorem writeFrames_readFrames_pieces :
    (readFrames 4 { connected := true, recvs := [.data [0], .eintr, .data [0, 0, 2, 7],
        .data [8, 0, 0, 0, 0, 0, 0, 0], .data [1, 9]] }).1 =
        [some [7, 8], some [], some [9], none] ∧
      ∃ sent, ((writeFrames [[7, 8], []] { connected := true, sends :=
          [.accept 2, .accept 9, .eintr, .accept 0, .accept 3, .accept 4, .accept 1, .error]
          }).2.writeFrame [9]).2.wire = [] ++ sent ∧
        framesBytes [[7, 8], []] <+: sent ∧ sent <+: framesBytes [[7, 8], [], [9]] := by
  constructor
  · have h := writeFrames_readFrames [[7, 8], [], [9]] (s := { connected := true, sends :=
      [.accept 0, .eintr, .accept 5, .accept 0, .accept 3] }) rfl
    exact (h.1 (by decide +kernel)).2.2 _ rfl (by decide) (by decide +kernel) 1
  · have h := writeFrames_readFrames [[7, 8], [], [9]] (s := { connected := true, sends :=
      [.accept 2, .accept 9, .eintr, .accept 0, .accept 3, .accept 4, .accept 1, .error] }) rfl
    exact (h.2 [[7, 8], []] [9] [] rfl (by decide +kernel)).2 (by decide +kernel)

end SocketStream

end Deskflow
