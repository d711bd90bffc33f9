import Deskflow.Isolation

/-! What the handshake makes of the first frame. -/

namespace Deskflow

open DeskflowClient

theorem readDirective_fixed {len : Nat} (h : 0 < len) {bs : Bytes} (hbs : len ≤ bs.length) :
    (readDirective (.str len)).run bs = (some [.str (bs.take len)], bs.drop len) := by
  rw [readDirective, if_pos h, Reader.run_bind_some (Reader.run_pure len bs),
    Reader.run_bind_some (Reader.run_exact_of_le hbs)]
  rfl

theorem readDirective_word {bs : Bytes} (hbs : 2 ≤ bs.length) :
    (readDirective (.int 2)).run bs =
      (some [.int (BigEndian.decode (bs.take 2))], bs.drop 2) := by
  have hword : (readInt 2).run bs = (some (BigEndian.decode (bs.take 2)), bs.drop 2) := by
    rw [readInt, if_pos (by simp), Reader.run_bind_some (Reader.run_exact_of_le hbs)]
    rfl
  rw [readDirective, Reader.run_bind_some hword]
  rfl

def helloName (frame : Bytes) : Bytes := frame.take 7

def helloMajor (frame : Bytes) : Int16 := i16 (BigEndian.decode ((frame.drop 7).take 2))

def helloMinor (frame : Bytes) : Int16 := i16 (BigEndian.decode ((frame.drop 9).take 2))

theorem readf_hello_of_le {bs : Bytes} (h : 11 ≤ bs.length) :
    (readf kMsgHello).run bs =
      (some [.str (bs.take 7), .int (BigEndian.decode ((bs.drop 7).take 2)),
        .int (BigEndian.decode ((bs.drop 9).take 2))], bs.drop 11) := by
  have hd : directives kMsgHello = [.str 7, .int 2, .int 2] := by rfl
  have hname := readDirective_fixed (show 0 < 7 by decide) (show 7 ≤ bs.length by omega)
  have hmajor := readDirective_word (show 2 ≤ (bs.drop 7).length by rw [List.length_drop]; omega)
  have hminor := readDirective_word (show 2 ≤ (bs.drop 9).length by rw [List.length_drop]; omega)
  rw [List.drop_drop] at hmajor hminor
  have hdone : (readDirectives []).run (bs.drop 11) = (some [], bs.drop 11) := rfl
  rw [readf, hd]
  exact readDirectives_cons hname (readDirectives_cons hmajor (readDirectives_cons hminor hdone))

/-- Any first frame of eleven bytes or more is taken for a Hello. -/
theorem View.hello_frame {frame : Bytes} (hlong : 11 ≤ frame.length)
    (hlen : frame.length ≤ 4 * 1024 * 1024) (rest : Bytes) :
    (View.mk [] (frameBytes frame ++ rest)).hello =
      (some (helloName frame, helloMajor frame, helloMinor frame), ⟨frame.drop 11, rest⟩) := by
  have hread : (View.mk frame rest).run (readf kMsgHello) =
      (some [.str (frame.take 7), .int (BigEndian.decode ((frame.drop 7).take 2)),
        .int (BigEndian.decode ((frame.drop 9).take 2))], ⟨frame.drop 11, rest⟩) := by
    have hpending : (View.mk frame rest).pending = frame.take 11 ++ (frame.drop 11 ++ rest) := by
      rw [← List.append_assoc, List.take_append_drop]
      rfl
    have hwhole := readf_hello_of_le (show 11 ≤ (frame ++ rest).length by
      rw [List.length_append]; omega)
    rw [List.take_append_of_le_length (by omega), List.drop_append_of_le_length (by omega),
      List.drop_append_of_le_length (by omega), List.drop_append_of_le_length (by omega),
      List.take_append_of_le_length (by rw [List.length_drop]; omega),
      List.take_append_of_le_length (by rw [List.length_drop]; omega)] at hwhole
    have hsplit : frame ++ rest = frame.take 11 ++ (frame.drop 11 ++ rest) := hpending
    rw [hsplit] at hwhole
    rw [View.run_of_append _ _ hpending hwhole, List.length_take_of_le hlong]
    simp [View.drop, Nat.sub_eq_zero_of_le hlong]
  rw [View.hello, View.run_frame hlen]
  simp only [View.push, List.nil_append, hread]
  rfl

theorem View.hello_serverBytes (ms : List Message) :
    (View.mk [] (serverBytes ms)).hello =
      (some (ascii "Barrier", 1, 8), ⟨[], ms.flatMap fun m => frameBytes m.payload⟩) := by
  let hello := writef kMsgHello [.str (ascii "Barrier"), .int 1, .int 8]
  have hlong : hello.length = 11 := by decide +kernel
  have hdecoded : (helloName hello, helloMajor hello, helloMinor hello) =
      (ascii "Barrier", (1 : Int16), (8 : Int16)) := by decide +kernel
  rw [serverBytes, View.hello_frame hlong.ge (by omega), hdecoded,
    List.drop_of_length_le hlong.le]

namespace DeskflowClient

theorem handshake_serverBytes {c : DeskflowClient} (h : Ready c) (hgreets : c.Greets)
    {ms : List Message} (hview : c.stream.view = ⟨[], serverBytes ms⟩) :
    c.handshake.1 = true ∧
      c.handshake.2.stream.view = ⟨[], ms.flatMap fun m => frameBytes m.payload⟩ ∧
      Ready c.handshake.2 := by
  obtain ⟨s, hout, hs, he⟩ := c.handshake_eq
  rw [hview, View.hello_serverBytes] at hs he
  have hready : Ready { c with stream := s } :=
    ⟨hout.connected.trans h.connected, hout.sends ▸ h.accepting⟩
  obtain ⟨hok, hready'⟩ := answerHello_of_ready hready hgreets (ascii "Barrier") 1 8
  rw [show decide _ = true by decide +kernel] at hok
  rw [he]
  exact ⟨hok, (answerHello_sameInput _ _ _ _).view.trans hs, hready'⟩

end DeskflowClient

def knownName (name : Bytes) : Prop := name = ascii "Synergy" ∨ name = ascii "Barrier"

instance (name : Bytes) : Decidable (knownName name) := inferInstanceAs (Decidable (_ ∨ _))

namespace DeskflowClient

/-- The answer to a Hello: its name, version 1 with the smaller minor, and the screen name. -/
def helloBackTo (frame screenName : Bytes) : Bytes :=
  writef kMsgHelloBack
    [.str (helloName frame), .int 1, .int (min (helloMinor frame).toInt 8), .str screenName]

/-- A known name and version 1 are accepted and answered with one frame; what
does not match is left unanswered, and there is no reconnecting. -/
structure Screens (frame : Bytes) (c : DeskflowClient) : Prop where
  accepts : c.handshake.1 = true ↔ knownName (helloName frame) ∧ (helloMajor frame).toInt = 1
  answers : c.handshake.1 = true →
    c.handshake.2.stream.wire = c.stream.wire ++ frameBytes (helloBackTo frame c.screenName)
  refuses : ¬(knownName (helloName frame) ∧ (helloMajor frame).toInt = 1) →
    c.handshake.2.stream.wire = c.stream.wire ∧ c.handshake.2.shouldReconnect = false

theorem payload_helloBack (frame screenName : Bytes) :
    (Outgoing.helloBack (helloName frame)
      (if (helloMinor frame).toInt < kProtocolMinorVersion then helloMinor frame
        else i16 kProtocolMinorVersion) screenName).payload = helloBackTo frame screenName := by
  have hminor : (if (helloMinor frame).toInt < kProtocolMinorVersion then helloMinor frame
      else i16 kProtocolMinorVersion).toInt = min (helloMinor frame).toInt 8 := by
    have height : kProtocolMinorVersion = 8 := rfl
    split_ifs with hlt
    · rw [height] at hlt
      omega
    · rw [height] at hlt
      rw [Int.min_eq_right (Int.not_lt.mp hlt)]
      rfl
  rw [Outgoing.payload, hminor]
  rfl

section Handshake

variable {c : DeskflowClient} {frame rest : Bytes}

theorem handshake_of_frame (hlong : 11 ≤ frame.length) (hlen : frame.length ≤ 4 * 1024 * 1024)
    (hview : c.stream.view = ⟨[], frameBytes frame ++ rest⟩) :
    ∃ s, SocketStream.SameOutput c.stream s ∧ c.handshake =
      { c with stream := s }.answerHello (helloName frame) (helloMajor frame)
        (helloMinor frame) := by
  obtain ⟨s, hout, -, he⟩ := c.handshake_eq
  rw [hview, View.hello_frame hlong hlen] at he
  exact ⟨s, hout, he⟩

/-- The guard of `readFrame` ends the handshake without a word. -/
theorem handshake_of_large (hlen : 4 * 1024 * 1024 < frame.length) (hfits : frame.length < 2 ^ 32)
    (hview : c.stream.view = ⟨[], frameBytes frame ++ rest⟩) :
    c.handshake.1 = false ∧ c.handshake.2.shouldReconnect = c.shouldReconnect := by
  have hnone : (c.stream.view.run readFrame).1 = none := by
    have hpre := Reader.run_exact_append (BigEndian.encode 4 frame.length) (frame ++ rest)
    rw [BigEndian.length_encode] at hpre
    have hdec : BigEndian.decode (BigEndian.encode 4 frame.length) = frame.length :=
      BigEndian.decode_encode_of_lt (by omega)
    rw [hview, View.run, View.pending, List.nil_append, frameBytes, List.append_assoc, readFrame,
      Reader.run_bind_some hpre, hdec, if_pos hlen]
    rfl
  have hhello : c.stream.view.hello.1 = none := by
    rcases hrun : c.stream.view.run readFrame with ⟨_ | body, v⟩
    · simp only [View.hello, hrun]
    · simp [hrun] at hnone
  obtain ⟨s, -, -, he⟩ := c.handshake_eq
  rw [he, hhello]
  exact ⟨rfl, rfl⟩

theorem length_helloName (hlong : 11 ≤ frame.length) :
    (helloName frame).length = kHelloNameLength :=
  List.length_take_of_le (by omega)

theorem handshake_of_other_version (hlong : 11 ≤ frame.length)
    (hlen : frame.length ≤ 4 * 1024 * 1024)
    (hview : c.stream.view = ⟨[], frameBytes frame ++ rest⟩)
    (hmajor : (helloMajor frame).toInt ≠ 1) :
    c.handshake.1 = false ∧ c.handshake.2.stream.wire = c.stream.wire ∧
      c.handshake.2.shouldReconnect = false := by
  obtain ⟨s, hout, he⟩ := handshake_of_frame hlong hlen hview
  rw [he, answerHello, if_pos (.inr hmajor)]
  exact ⟨rfl, hout.wire, rfl⟩

theorem write_shouldReconnect (o : Outgoing) (c : DeskflowClient) :
    (c.write o).2.shouldReconnect = c.shouldReconnect := by
  unfold write
  dsimp only
  split_ifs <;> rfl

theorem answerHello_of_version_one (hlong : 11 ≤ frame.length)
    (hmajor : (helloMajor frame).toInt = 1) (c : DeskflowClient) :
    c.answerHello (helloName frame) (helloMajor frame) (helloMinor frame) =
      c.write (.helloBack (helloName frame)
        (if (helloMinor frame).toInt < kProtocolMinorVersion then helloMinor frame
          else i16 kProtocolMinorVersion) c.screenName) := by
  refine if_neg ?_
  rintro (hname | hversion)
  · exact hname (length_helloName hlong)
  · exact hversion hmajor

/-- With version 1 the name is not looked at. -/
theorem handshake_of_version_one (h : Ready c) (hlong : 11 ≤ frame.length)
    (hlen : frame.length ≤ 4 * 1024 * 1024)
    (hview : c.stream.view = ⟨[], frameBytes frame ++ rest⟩)
    (hmajor : (helloMajor frame).toInt = 1) (hgreets : c.Greets) :
    c.handshake.1 = true ∧ c.handshake.2.stream.wire =
      c.stream.wire ++ frameBytes (helloBackTo frame c.screenName) := by
  obtain ⟨s, hout, he⟩ := handshake_of_frame hlong hlen hview
  have hfits : (Outgoing.helloBack (helloName frame)
      (if (helloMinor frame).toInt < kProtocolMinorVersion then helloMinor frame
        else i16 kProtocolMinorVersion) c.screenName).payload.length ≤ 4 * 1024 * 1024 := by
    rw [Outgoing.length_payload_helloBack]
    exact hgreets
  obtain ⟨hok, hwire, -⟩ := SocketStream.writeFrame_of_accepting
    (hout.connected.trans h.connected) (hout.sends ▸ h.accepting) hfits
  rw [payload_helloBack] at hok hwire
  rw [he, answerHello_of_version_one hlong hmajor]
  simp only [write, payload_helloBack, hok, if_true]
  exact ⟨trivial, hwire.trans (by rw [hout.wire])⟩

/-- The handshake screens a first frame as it should exactly where the frame is
not over the limit, version 1 comes with a known name, and the answer to such a
Hello fits into a frame. -/
theorem handshake_screens_iff (h : Ready c) (hagain : c.shouldReconnect = true)
    (hlong : 11 ≤ frame.length) (hfits : frame.length < 2 ^ 32)
    (hview : c.stream.view = ⟨[], frameBytes frame ++ rest⟩) :
    Screens frame c ↔ frame.length ≤ 4 * 1024 * 1024 ∧
      ((helloMajor frame).toInt = 1 → knownName (helloName frame) ∧ c.Greets) := by
  constructor
  · rintro ⟨haccepts, -, hrefuses⟩
    have hlen : frame.length ≤ 4 * 1024 * 1024 := by
      by_contra hlarge
      obtain ⟨hno, hkept⟩ := handshake_of_large (Nat.not_le.mp hlarge) hfits hview
      have hbad : ¬(knownName (helloName frame) ∧ (helloMajor frame).toInt = 1) :=
        fun hgood => by simp [hno] at haccepts; exact haccepts hgood.1 hgood.2
      rw [(hrefuses hbad).2, hagain] at hkept
      exact absurd hkept (by decide)
    refine ⟨hlen, ?_⟩
    intro hmajor
    by_cases hgreets : c.Greets
    · have hok := (handshake_of_version_one h hlong hlen hview hmajor hgreets).1
      exact ⟨(haccepts.mp hok).1, hgreets⟩
    · have hno : c.handshake.1 = false := handshake_of_not_greets hgreets
      have hknown : ¬knownName (helloName frame) := fun hknown => by
        simp [hno] at haccepts
        exact haccepts hknown hmajor
      have hstop := (hrefuses fun hgood => hknown hgood.1).2
      obtain ⟨s, -, he⟩ := handshake_of_frame hlong hlen hview
      rw [he, answerHello_of_version_one hlong hmajor, write_shouldReconnect] at hstop
      exact absurd (hagain.symm.trans hstop) (by decide)
  · rintro ⟨hlen, hgood⟩
    by_cases hmajor : (helloMajor frame).toInt = 1
    · obtain ⟨hknown, hgreets⟩ := hgood hmajor
      obtain ⟨hok, hwire⟩ := handshake_of_version_one h hlong hlen hview hmajor hgreets
      exact ⟨⟨fun _ => ⟨hknown, hmajor⟩, fun _ => hok⟩, fun _ => hwire,
        fun hbad => absurd ⟨hknown, hmajor⟩ hbad⟩
    · obtain ⟨hno, hwire, hstop⟩ := handshake_of_other_version hlong hlen hview hmajor
      refine ⟨⟨fun hyes => ?_, fun hboth => absurd hboth.2 hmajor⟩, fun hyes => ?_,
        fun _ => ⟨hwire, hstop⟩⟩
      · simp [hno] at hyes
      · simp [hno] at hyes

end Handshake

def facingHello (frame : Bytes) : DeskflowClient :=
  { screenName := ascii "ohos"
    stream := { connected := true, recvs := [.data (frameBytes frame)] } }

theorem view_facingHello (frame : Bytes) :
    (facingHello frame).stream.view = ⟨[], frameBytes frame ++ []⟩ := by
  rw [List.append_nil]
  exact congrArg (View.mk []) (arriving_data (frameBytes frame))

theorem ready_facingHello (frame : Bytes) : Ready (facingHello frame) :=
  ⟨rfl, by simp [facingHello, Accepting]⟩

theorem greets_facingHello (frame : Bytes) : (facingHello frame).Greets := by
  show (ascii "ohos").length + 15 ≤ 4 * 1024 * 1024
  decide

theorem handshake_screens_barrier :
    Screens (ascii "Barrier" ++ [0, 1, 0, 9]) (facingHello (ascii "Barrier" ++ [0, 1, 0, 9])) :=
  (handshake_screens_iff (ready_facingHello _) rfl (by decide) (by decide)
    (view_facingHello _)).mpr ⟨by decide, fun _ => ⟨by decide, greets_facingHello _⟩⟩

/-- A peer that speaks another protocol of the same version is accepted. -/
theorem handshake_not_screens_foreign :
    ¬Screens (ascii "Foreign" ++ [0, 1, 0, 8]) (facingHello (ascii "Foreign" ++ [0, 1, 0, 8])) := by
  rintro ⟨haccepts, -, -⟩
  have hok := (handshake_of_version_one (ready_facingHello _) (by decide) (by decide)
    (view_facingHello (ascii "Foreign" ++ [0, 1, 0, 8])) (by decide) (greets_facingHello _)).1
  exact absurd (haccepts.mp hok).1 (by decide)

end DeskflowClient

end Deskflow
