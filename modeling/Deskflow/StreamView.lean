import Deskflow.SocketStream

/-! Reading a stream is reading the string of its pending bytes, however the
kernel cuts them; the view also tells which of them are buffered. -/

namespace Deskflow

theorem arriving_data (bs : Bytes) : arriving [.data bs] = bs := by
  cases bs <;> simp [arriving]

theorem recvLoop_of_le {n : Nat} {rs : List Recv} (h : n ≤ (arriving rs).length) :
    (recvLoop n rs).1 = some ((arriving rs).take n) ∧
      arriving (recvLoop n rs).2 = (arriving rs).drop n := by
  induction n, rs using recvLoop.induct with
  | case1 rs => simp [recvLoop]
  | case2 n => simp [arriving] at h
  | case3 n rs ih => simpa [recvLoop, arriving] using ih h
  | case4 n rs => simp [arriving] at h
  | case5 n rs => simp [arriving] at h
  | case6 n b bs rs hle more rs' hr ih =>
    have hrest : n - bs.length ≤ (arriving rs).length := by
      simp only [arriving, List.length_append, List.length_cons] at h
      omega
    have hi := ih hrest
    rw [hr] at hi
    obtain ⟨hmore, hdrop⟩ := hi
    simp only [Option.some.injEq] at hmore
    simp only [recvLoop, if_pos hle, hr, arriving, List.cons_append, List.take_succ_cons,
      List.drop_succ_cons, List.take_append, List.drop_append, List.take_of_length_le hle,
      List.drop_of_length_le hle, List.nil_append]
    exact ⟨by rw [hmore], hdrop⟩
  | case7 n b bs rs hle rs' hr ih =>
    have hrest : n - bs.length ≤ (arriving rs).length := by
      simp only [arriving, List.length_append, List.length_cons] at h
      omega
    have hi := ih hrest
    rw [hr] at hi
    simp at hi
  | case8 n b bs rs hgt =>
    have hlt : n < bs.length := Nat.not_le.mp hgt
    obtain ⟨b', bs', hd⟩ := List.exists_cons_of_length_pos
      (show 0 < (bs.drop n).length by rw [List.length_drop]; omega)
    simp only [recvLoop, if_neg hgt, arriving, List.cons_append, List.take_succ_cons,
      List.drop_succ_cons, List.take_append_of_le_length hlt.le,
      List.drop_append_of_le_length hlt.le]
    rw [hd, arriving]
    exact ⟨trivial, rfl⟩

theorem recvLoop_of_lt {n : Nat} {rs : List Recv} (h : (arriving rs).length < n) :
    (recvLoop n rs).1 = none ∧ arriving (recvLoop n rs).2 = [] := by
  induction n, rs using recvLoop.induct with
  | case1 rs => simp at h
  | case2 n => simp [recvLoop, arriving]
  | case3 n rs ih => simpa [recvLoop, arriving] using ih h
  | case4 n rs => simp [recvLoop, arriving]
  | case5 n rs => simp [recvLoop, arriving]
  | case6 n b bs rs hle more rs' hr ih =>
    have hi := ih (by simp only [arriving, List.length_append, List.length_cons] at h; omega)
    rw [hr] at hi
    simp at hi
  | case7 n b bs rs hle rs' hr ih =>
    have hi := ih (by simp only [arriving, List.length_append, List.length_cons] at h; omega)
    rw [hr] at hi
    simpa [recvLoop, hle, hr] using hi.2
  | case8 n b bs rs hgt =>
    simp only [arriving, List.length_append, List.length_cons] at h
    omega

/-- Unread bytes of the buffer and bytes the socket still delivers. -/
structure View where
  buf : Bytes
  sock : Bytes
  deriving DecidableEq, Repr

namespace View

def pending (v : View) : Bytes := v.buf ++ v.sock

/-- Consuming `n` bytes, the buffered ones first. -/
def drop (n : Nat) (v : View) : View := ⟨v.buf.drop n, v.sock.drop (n - v.buf.length)⟩

def push (data : Bytes) (v : View) : View := ⟨v.buf ++ data, v.sock⟩

@[simp] theorem pending_drop (n : Nat) (v : View) : (v.drop n).pending = v.pending.drop n := by
  simp [drop, pending, List.drop_append]

@[simp] theorem drop_zero (v : View) : v.drop 0 = v := by simp [drop]

theorem drop_drop (m n : Nat) (v : View) : (v.drop m).drop n = v.drop (m + n) := by
  simp only [drop, List.drop_drop, List.length_drop, View.mk.injEq, true_and]
  congr 1
  omega

theorem drop_of_length_le {n : Nat} {v : View} (h : v.pending.length ≤ n) :
    v.drop n = ⟨[], []⟩ := by
  rw [pending, List.length_append] at h
  simp [drop, List.drop_of_length_le (show v.buf.length ≤ n by omega),
    List.drop_of_length_le (show v.sock.length ≤ n - v.buf.length by omega)]

theorem drop_buf (buf rest sock : Bytes) :
    (View.mk (buf ++ rest) sock).drop buf.length = ⟨rest, sock⟩ := by
  simp [drop]

theorem drop_sock (bytes rest : Bytes) :
    (View.mk [] (bytes ++ rest)).drop bytes.length = ⟨[], rest⟩ := by
  simp [drop]

theorem length_pending_push (data : Bytes) (v : View) :
    (v.push data).pending.length = v.pending.length + data.length := by
  simp only [push, pending, List.length_append]
  omega

end View

namespace SocketStream

def view (s : SocketStream) : View :=
  ⟨s.buffer.unread, if s.connected then arriving s.recvs else []⟩

theorem pending_view (s : SocketStream) : s.view.pending = s.pending := rfl

theorem bufferRemaining_eq (s : SocketStream) : s.bufferRemaining = s.view.buf.length := by
  simp [bufferRemaining, ReadBuffer.remaining, view, ReadBuffer.unread]

@[simp] theorem view_pushToBuffer (data : Bytes) (s : SocketStream) :
    (s.pushToBuffer data).view = s.view.push data := by
  have h := s.buffer.pos_le
  simp only [pushToBuffer, ReadBuffer.push, view, View.push, ReadBuffer.unread,
    List.drop_append_of_le_length h]
  rfl

/-- Reading has no effect on the writing side. -/
structure SameOutput (s t : SocketStream) : Prop where
  connected : t.connected = s.connected
  sends : t.sends = s.sends
  wire : t.wire = s.wire

theorem SameOutput.refl (s : SocketStream) : SameOutput s s := ⟨rfl, rfl, rfl⟩

theorem SameOutput.trans {s t u : SocketStream} (h : SameOutput s t) (h' : SameOutput t u) :
    SameOutput s u :=
  ⟨h'.connected.trans h.connected, h'.sends.trans h.sends, h'.wire.trans h.wire⟩

theorem sameOutput_pushToBuffer (data : Bytes) (s : SocketStream) :
    SameOutput s (s.pushToBuffer data) := ⟨rfl, rfl, rfl⟩

theorem readExact_sameOutput (n : Nat) (s : SocketStream) : SameOutput s (s.readExact n).2 := by
  unfold readExact
  dsimp only
  split_ifs
  · exact ⟨rfl, rfl, rfl⟩
  · exact ⟨rfl, rfl, rfl⟩
  · split <;> exact ⟨rfl, rfl, rfl⟩

theorem unread_take (n : Nat) (b : ReadBuffer) : (b.take n).2.unread = b.unread.drop n := by
  have hle := b.pos_le
  simp only [ReadBuffer.take, ReadBuffer.unread, ReadBuffer.remaining, List.drop_drop]
  rcases Nat.le_total n (b.bytes.length - b.pos) with h | h
  · rw [Nat.min_eq_left h]
  · rw [Nat.min_eq_right h, List.drop_of_length_le (by omega), List.drop_of_length_le (by omega)]

theorem readExact_of_le {n : Nat} {s : SocketStream} (h : n ≤ s.view.pending.length) :
    (s.readExact n).1 = some (s.view.pending.take n) ∧
      (s.readExact n).2.view = s.view.drop n := by
  have hgot : (s.buffer.take n).1 = s.buffer.unread.take n := rfl
  simp only [View.pending, List.length_append, view] at h
  unfold readExact
  dsimp only
  rw [hgot, List.length_take]
  by_cases hbuf : n ≤ s.buffer.unread.length
  · simp only [Nat.min_eq_left hbuf, ↓reduceIte, view, View.pending, View.drop, unread_take,
      List.take_append_of_le_length hbuf, Nat.sub_eq_zero_of_le hbuf, List.drop_zero, and_self]
  · have hmin : min n s.buffer.unread.length = s.buffer.unread.length := by omega
    have hne : s.buffer.unread.length ≠ n := by omega
    have hconn : s.connected = true := by
      by_contra hc
      simp only [hc, ↓reduceIte, List.length_nil] at h
      omega
    simp only [hconn, ↓reduceIte] at h
    have hmore : n - s.buffer.unread.length ≤ (arriving s.recvs).length := by omega
    obtain ⟨hv, hr⟩ := recvLoop_of_le hmore
    simp only [hmin, hne, hconn, ↓reduceIte, Bool.not_true, Bool.false_eq_true]
    rcases hl : recvLoop (n - s.buffer.unread.length) s.recvs with ⟨_ | more, rs⟩
    · simp [hl] at hv
    · rw [hl] at hv hr
      simp only [Option.some.injEq] at hv
      subst hv
      simp only [view, View.pending, View.drop, unread_take, hconn, ↓reduceIte, hr,
        List.take_append, and_self]

theorem readExact_of_lt {n : Nat} {s : SocketStream} (h : s.view.pending.length < n) :
    (s.readExact n).1 = none ∧ (s.readExact n).2.view = s.view.drop n := by
  have hgot : (s.buffer.take n).1 = s.buffer.unread.take n := rfl
  rw [View.drop_of_length_le h.le]
  simp only [View.pending, List.length_append, view] at h
  have hbuf : s.buffer.unread.length ≤ n := by omega
  have hempty : (s.buffer.take n).2.unread = [] := by
    rw [unread_take, List.drop_of_length_le hbuf]
  unfold readExact
  dsimp only
  rw [hgot, List.length_take, Nat.min_eq_right hbuf, if_neg (by omega)]
  split_ifs with hc
  · simp only [Bool.not_eq_true'] at hc
    simp [view, hempty, hc]
  · simp only [Bool.not_eq_true', Bool.not_eq_false] at hc
    simp only [hc, ↓reduceIte] at h
    have hmore : (arriving s.recvs).length < n - s.buffer.unread.length := by omega
    obtain ⟨hv, hr⟩ := recvLoop_of_lt hmore
    rcases hl : recvLoop (n - s.buffer.unread.length) s.recvs with ⟨_ | more, rs⟩
    · rw [hl] at hr
      simp [view, hempty, hr]
    · simp [hl] at hv

/-- A stream that has read on from `s₀`, with the string left to read. -/
def ReadOn (s₀ s : SocketStream) (bs : Bytes) : Prop :=
  SameOutput s₀ s ∧ ∃ k, s.view = s₀.view.drop k ∧ bs = s₀.view.pending.drop k

theorem readExact_simulates (s₀ : SocketStream) (n : Nat) :
    Reader.Simulates (ReadOn s₀) (Reader.exact n) (Reader.exact n) := by
  rintro s bs ⟨hout, k, hview, rfl⟩
  have hp : s.view.pending = s₀.view.pending.drop k := by rw [hview, View.pending_drop]
  have hout' := hout.trans (readExact_sameOutput n s)
  change (s.readExact n).1 = _ ∧ ReadOn s₀ (s.readExact n).2 _
  by_cases hn : n ≤ s.view.pending.length
  · obtain ⟨hv, hs⟩ := readExact_of_le hn
    rw [hp] at hn hv
    rw [Reader.run_exact_of_le hn]
    refine ⟨hv, hout', k + n, ?_, ?_⟩
    · rw [hs, hview, View.drop_drop]
    · rw [List.drop_drop]
  · obtain ⟨hv, hs⟩ := readExact_of_lt (Nat.not_le.mp hn)
    rw [hp] at hn
    rw [Reader.run_exact_of_lt (Nat.not_le.mp hn)]
    refine ⟨hv, hout', k + n, ?_, ?_⟩
    · rw [hs, hview, View.drop_drop]
    · rw [List.length_drop] at hn
      rw [List.drop_of_length_le (by omega)]

/-- A decoder gives on a stream what it gives on the pending bytes, and leaves
the stream where the string decoder stops. -/
theorem run_of_simulates {α : Type} {r : Reader SocketStream α} {r' : Reader Bytes α}
    (s : SocketStream) (h : Reader.Simulates (ReadOn s) r r') :
    (r.run s).1 = (r'.run s.pending).1 ∧ SameOutput s (r.run s).2 ∧
      (r.run s).2.view = s.view.drop (s.pending.length - (r'.run s.pending).2.length) := by
  have h₀ : ReadOn s s s.view.pending := ⟨.refl s, 0, by simp, by simp⟩
  obtain ⟨hv, hout, k, hview, hrest⟩ := h s s.view.pending h₀
  rw [pending_view] at hv hrest
  refine ⟨hv, hout, ?_⟩
  rw [hview, hrest, List.length_drop]
  rcases Nat.le_total k s.pending.length with hk | hk
  · rw [Nat.sub_sub_self hk]
  · rw [View.drop_of_length_le (by rwa [pending_view]),
      View.drop_of_length_le (by rw [pending_view]; omega)]

end SocketStream

theorem readFrame_simulates {σ τ : Type} [ByteSource σ] [ByteSource τ] {R : σ → τ → Prop}
    (h : ∀ n, Reader.Simulates R (Reader.exact n) (Reader.exact n)) :
    Reader.Simulates R readFrame readFrame :=
  (h 4).bind fun _ => .ite _ (.fail R) (.ite _ (h _) (.pure R []))

theorem readFrame_local : Reader.Local readFrame :=
  (Reader.Local.exact 4).bind fun _ => .ite _ .fail (.ite _ (.exact _) (.pure []))

def frameBytes (payload : Bytes) : Bytes := BigEndian.encode 4 payload.length ++ payload

@[simp] theorem length_frameBytes (payload : Bytes) :
    (frameBytes payload).length = 4 + payload.length := by
  simp [frameBytes]

theorem readFrame_frameBytes {payload : Bytes} (h : payload.length ≤ 4 * 1024 * 1024)
    (rest : Bytes) : readFrame.run (frameBytes payload ++ rest) = (some payload, rest) := by
  have hlen : BigEndian.decode (BigEndian.encode 4 payload.length) = payload.length :=
    BigEndian.decode_encode_of_lt (by omega)
  have hpre := Reader.run_exact_append (BigEndian.encode 4 payload.length) (payload ++ rest)
  rw [BigEndian.length_encode] at hpre
  rw [readFrame, frameBytes, List.append_assoc, Reader.run_bind_some hpre, hlen,
    if_neg (Nat.not_lt.mpr h)]
  split_ifs with hpos
  · exact Reader.run_exact_append payload rest
  · rw [List.length_eq_zero_iff.mp (Nat.eq_zero_of_not_pos hpos)]
    rfl

theorem readFrame_eq_some {bs frame rest : Bytes} (h : readFrame.run bs = (some frame, rest)) :
    bs = frameBytes frame ++ rest ∧ frame.length ≤ 4 * 1024 * 1024 := by
  obtain ⟨lenb, mid, hlen, h⟩ := Reader.run_bind_eq_some h
  have hbs : 4 ≤ bs.length := by
    by_contra hlt
    rw [Reader.run_exact_of_lt (by omega)] at hlen
    simp at hlen
  rw [Reader.run_exact_of_le hbs] at hlen
  simp only [Prod.mk.injEq, Option.some.injEq] at hlen
  obtain ⟨rfl, rfl⟩ := hlen
  have hfour : (bs.take 4).length = 4 := by simp [hbs]
  have hback : BigEndian.encode 4 (BigEndian.decode (bs.take 4)) = bs.take 4 := by
    simpa only [hfour] using BigEndian.encode_decode (bs.take 4)
  dsimp only at h
  split_ifs at h with hbig hpos
  · simp at h
  · have hn : BigEndian.decode (bs.take 4) ≤ (bs.drop 4).length := by
      by_contra hlt
      rw [Reader.run_exact_of_lt (Nat.not_le.mp hlt)] at h
      simp at h
    rw [Reader.run_exact_of_le hn] at h
    simp only [Prod.mk.injEq, Option.some.injEq] at h
    obtain ⟨rfl, rfl⟩ := h
    rw [frameBytes, List.length_take, Nat.min_eq_left hn, hback, List.append_assoc,
      List.take_append_drop, List.take_append_drop]
    exact ⟨rfl, Nat.not_lt.mp hbig⟩
  · simp only [Reader.run_pure, Prod.mk.injEq, Option.some.injEq] at h
    obtain ⟨rfl, rfl⟩ := h
    rw [Nat.eq_zero_of_not_pos hpos] at hback
    refine ⟨?_, by simp⟩
    rw [frameBytes, List.length_nil, hback]
    simp

end Deskflow
