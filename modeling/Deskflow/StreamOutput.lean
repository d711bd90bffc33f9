import Deskflow.MessageCodec

/-! The writing side of the stream: writes leave what can be read alone and,
where no `send` fails, put whole frames on the wire. -/

namespace Deskflow

/-- Partial and interrupted calls only. -/
def Accepting (ss : List Send) : Prop := ∀ s ∈ ss, s ≠ .error

instance : DecidablePred Accepting := fun ss => inferInstanceAs (Decidable (∀ s ∈ ss, s ≠ .error))

theorem sendLoop_of_accepting (data : Bytes) {ss : List Send} (h : Accepting ss) :
    (sendLoop data ss).1 = true ∧ (sendLoop data ss).2.1 = data ∧
      Accepting (sendLoop data ss).2.2 := by
  induction data, ss using sendLoop.induct with
  | case1 ss => exact ⟨by simp [sendLoop], by simp [sendLoop], by simpa [sendLoop] using h⟩
  | case2 data hne => cases data <;> simp [sendLoop, Accepting]
  | case3 data ss hne ih =>
    have hss : Accepting ss := fun s hs => h s (List.mem_cons_of_mem _ hs)
    cases data with
    | nil => exact absurd rfl hne
    | cons b bs => exact ih hss
  | case4 data ss hne => exact absurd rfl (h .error (by simp))
  | case5 data k ss hne ih =>
    have hss : Accepting ss := fun s hs => h s (List.mem_cons_of_mem _ hs)
    cases data with
    | nil => exact absurd rfl hne
    | cons b bs =>
      obtain ⟨hok, hout, hrest⟩ := ih hss
      simp only [sendLoop]
      exact ⟨hok, by rw [hout, List.take_append_drop], hrest⟩

theorem sendLoop_of_ok {data : Bytes} {ss : List Send} (h : (sendLoop data ss).1 = true) :
    (sendLoop data ss).2.1 = data := by
  induction data, ss using sendLoop.induct with
  | case1 ss => simp [sendLoop]
  | case2 data hne => cases data <;> simp [sendLoop]
  | case3 data ss hne ih =>
    obtain ⟨b, bs, rfl⟩ := List.exists_cons_of_ne_nil hne
    exact ih h
  | case4 data ss hne =>
    obtain ⟨b, bs, rfl⟩ := List.exists_cons_of_ne_nil hne
    simp [sendLoop] at h
  | case5 data k ss hne ih =>
    obtain ⟨b, bs, rfl⟩ := List.exists_cons_of_ne_nil hne
    simp only [sendLoop] at h ⊢
    rw [ih h, List.take_append_drop]

namespace SocketStream

/-- Writing has no effect on the reading side. -/
structure SameInput (s t : SocketStream) : Prop where
  connected : t.connected = s.connected
  buffer : t.buffer = s.buffer
  recvs : t.recvs = s.recvs

theorem SameInput.refl (s : SocketStream) : SameInput s s := ⟨rfl, rfl, rfl⟩

theorem SameInput.trans {s t u : SocketStream} (h : SameInput s t) (h' : SameInput t u) :
    SameInput s u :=
  ⟨h'.connected.trans h.connected, h'.buffer.trans h.buffer, h'.recvs.trans h.recvs⟩

theorem SameInput.view {s t : SocketStream} (h : SameInput s t) : t.view = s.view := by
  rw [SocketStream.view, h.connected, h.buffer, h.recvs, ← SocketStream.view]

theorem writeAll_sameInput (data : Bytes) (s : SocketStream) :
    SameInput s (s.writeAll data).2 := by
  unfold writeAll
  split_ifs <;> exact ⟨rfl, rfl, rfl⟩

theorem writeFrame_sameInput (data : Bytes) (s : SocketStream) :
    SameInput s (s.writeFrame data).2 := by
  unfold writeFrame
  split_ifs
  · exact .refl s
  · have hprefix := writeAll_sameInput (BigEndian.encode 4 data.length) s
    split <;> rename_i t ht
    · rwa [ht] at hprefix
    · rw [ht] at hprefix
      exact hprefix.trans (writeAll_sameInput data t)

theorem writeAll_of_accepting {s : SocketStream} (hc : s.connected) (h : Accepting s.sends)
    (data : Bytes) :
    (s.writeAll data).1 = true ∧ (s.writeAll data).2.wire = s.wire ++ data ∧
      Accepting (s.writeAll data).2.sends := by
  obtain ⟨hok, hout, hrest⟩ := sendLoop_of_accepting data h
  unfold writeAll
  by_cases hd : data = []
  · simp [hd, h]
  · simp only [hd, hc, if_false, Bool.not_true, Bool.false_eq_true, hout, true_and]
    exact ⟨hok, hrest⟩

theorem writeFrame_of_accepting {s : SocketStream} (hc : s.connected) (h : Accepting s.sends)
    {data : Bytes} (hlen : data.length ≤ 4 * 1024 * 1024) :
    (s.writeFrame data).1 = true ∧ (s.writeFrame data).2.wire = s.wire ++ frameBytes data ∧
      Accepting (s.writeFrame data).2.sends := by
  obtain ⟨hok, hwire, hsends⟩ := writeAll_of_accepting hc h (BigEndian.encode 4 data.length)
  have hin := writeAll_sameInput (BigEndian.encode 4 data.length) s
  unfold writeFrame
  rw [if_neg (Nat.not_lt.mpr hlen)]
  split <;> rename_i t ht
  · simp [ht] at hok
  · rw [ht] at hwire hsends hin
    obtain ⟨hok', hwire', hsends'⟩ :=
      writeAll_of_accepting (hin.connected.trans hc) hsends data
    refine ⟨hok', ?_, hsends'⟩
    rw [hwire', hwire, frameBytes, List.append_assoc]

theorem writeAll_of_ok {data : Bytes} {s : SocketStream} (h : (s.writeAll data).1 = true) :
    (s.writeAll data).2.wire = s.wire ++ data := by
  unfold writeAll at h ⊢
  split_ifs at h ⊢ with hempty hconn
  · rw [hempty, List.append_nil]
  · dsimp only at h ⊢
    rw [sendLoop_of_ok h]

theorem writeFrame_of_ok {data : Bytes} {s : SocketStream} (h : (s.writeFrame data).1 = true) :
    (s.writeFrame data).2.wire = s.wire ++ frameBytes data := by
  unfold writeFrame at h ⊢
  split_ifs at h ⊢ with hbig
  rcases hw : s.writeAll (BigEndian.encode 4 data.length) with ⟨ok, t⟩
  cases ok with
  | false => simp [hw] at h
  | true =>
    have hprefix := writeAll_of_ok (congrArg Prod.fst hw)
    rw [hw] at h hprefix
    dsimp only at h hprefix ⊢
    rw [writeAll_of_ok h, hprefix, frameBytes, List.append_assoc]

end SocketStream

namespace Outgoing

theorem length_payload_dinf (w h x y : Int) : (Outgoing.dinf w h x y).payload.length = 18 := by
  have hd : directives kMsgDInfo =
      (ascii "DINF").map .literal ++ List.replicate 7 (.int 2) := by rfl
  have hn : (ascii "DINF").length = 4 := rfl
  have hint (v : Int) : (putInt 2 v).length = 2 := by
    rw [putInt_of_width (by simp), BigEndian.length_encode]
  rw [payload, writef, hd, writeDirectives_literals]
  simp [writeDirectives, hn, hint]

theorem length_payload_cclp (id : UInt8) (seq : UInt32) :
    (Outgoing.cclp id seq).payload.length = 9 := by
  have hd : directives kMsgCClipboard = (ascii "CCLP").map .literal ++ [.int 1, .int 4] := by rfl
  have hn : (ascii "CCLP").length = 4 := rfl
  have hint {w : Nat} (hw : w = 1 ∨ w = 2 ∨ w = 4) (v : Int) : (putInt w v).length = w := by
    rw [putInt_of_width hw, BigEndian.length_encode]
  rw [payload, writef, hd, writeDirectives_literals]
  simp [writeDirectives, hn, hint]

theorem length_payload_helloBack (protocolName : Bytes) (minor : Int16) (screenName : Bytes) :
    (Outgoing.helloBack protocolName minor screenName).payload.length =
      screenName.length + 15 := by
  have hd : directives kMsgHelloBack = [.str 7, .int 2, .int 2, .str 0] := by rfl
  have hint (v : Int) : (putInt 2 v).length = 2 := by
    rw [putInt_of_width (by simp), BigEndian.length_encode]
  rw [payload, writef, hd]
  simp [writeDirectives, length_putFixed, putSized, hint]
  omega

end Outgoing

end Deskflow
