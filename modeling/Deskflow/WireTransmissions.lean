import Deskflow.BufferGrowth
import Deskflow.Isolation
import Deskflow.ReplyTrace
import Deskflow.StopEffects

/-! What one call of the client does to the wire, against the frames that it reports as
written. -/

namespace Deskflow

open History

theorem sendLoop_of_failed {data : Bytes} {ss : List Send} (h : (sendLoop data ss).1 = false) :
    (sendLoop data ss).2.1.length < data.length := by
  induction data, ss using sendLoop.induct with
  | case1 ss => simp [sendLoop] at h
  | case2 data hne =>
    obtain ⟨b, bs, rfl⟩ := List.exists_cons_of_ne_nil hne
    simp [sendLoop] at h
  | case3 data ss hne ih =>
    obtain ⟨b, bs, rfl⟩ := List.exists_cons_of_ne_nil hne
    exact ih h
  | case4 data ss hne =>
    obtain ⟨b, bs, rfl⟩ := List.exists_cons_of_ne_nil hne
    simp [sendLoop]
  | case5 data k ss hne ih =>
    obtain ⟨b, bs, rfl⟩ := List.exists_cons_of_ne_nil hne
    have hrest := ih h
    rw [List.length_drop] at hrest
    show ((b :: bs).take (k + 1) ++ _).length < _
    rw [List.length_append, List.length_take]
    omega

/-- A part of a frame, but not the whole. -/
structure Cut (payload bytes : Bytes) : Prop where
  isPart : bytes <+: frameBytes payload
  lt : bytes.length < (frameBytes payload).length

namespace SocketStream

theorem writeAll_of_failed {data : Bytes} {s : SocketStream} (h : (s.writeAll data).1 = false) :
    ∃ sent, (s.writeAll data).2.wire = s.wire ++ sent ∧ sent <+: data ∧
      sent.length < data.length := by
  unfold writeAll at h ⊢
  split_ifs at h ⊢ with hempty hconn
  · exact ⟨[], (List.append_nil _).symm, List.nil_prefix, List.length_pos_iff.mpr hempty⟩
  · exact ⟨_, rfl, sendLoop_prefix data s.sends, sendLoop_of_failed h⟩

theorem writeFrame_of_failed {data : Bytes} {s : SocketStream}
    (h : (s.writeFrame data).1 = false) :
    ∃ sent, (s.writeFrame data).2.wire = s.wire ++ sent ∧ Cut data sent := by
  have hempty : Cut data [] := ⟨List.nil_prefix, by simp⟩
  by_cases hlen : data.length ≤ 4 * 1024 * 1024
  · rw [writeFrame_of_le hlen] at h ⊢
    by_cases hfirst : (s.writeAll (BigEndian.encode 4 data.length)).1 = true
    · rw [if_pos hfirst] at h ⊢
      obtain ⟨sent, hwire, hpart, hlt⟩ := writeAll_of_failed h
      refine ⟨BigEndian.encode 4 data.length ++ sent, ?_, ?_, ?_⟩
      · rw [hwire, writeAll_of_ok hfirst, List.append_assoc]
      · exact (List.prefix_append_right_inj _).mpr hpart
      · rw [frameBytes, List.length_append, List.length_append]
        omega
    · rw [if_neg hfirst] at h ⊢
      obtain ⟨sent, hwire, hpart, hlt⟩ := writeAll_of_failed h
      refine ⟨sent, hwire, hpart.trans (List.prefix_append _ _), ?_⟩
      rw [frameBytes, List.length_append]
      omega
  · rw [writeFrame_of_lt (Nat.not_le.mp hlen)]
    exact ⟨[], (List.append_nil _).symm, hempty⟩

end SocketStream

def wireBytes (os : List Outgoing) : Bytes := os.flatMap fun o => frameBytes o.payload

/-- The given frames in order, with parts of others anywhere between them. -/
inductive Pieces : List Outgoing → Bytes → Prop
  | none : Pieces [] []
  | whole {os : List Outgoing} {wire : Bytes} (o : Outgoing) : Pieces os wire →
      o.payload.length ≤ 4 * 1024 * 1024 → Pieces (os ++ [o]) (wire ++ frameBytes o.payload)
  | part {os : List Outgoing} {wire bytes : Bytes} (o : Outgoing) : Pieces os wire →
      bytes ≠ [] → Cut o.payload bytes → Pieces os (wire ++ bytes)

theorem split_wireBytes {os : List Outgoing} (h : ∀ o ∈ os, o.payload.length ≤ 4 * 1024 * 1024) :
    Split (wireBytes os) (os.map Outgoing.payload) := by
  have hbytes : wireBytes os = (os.map Outgoing.payload).flatMap frameBytes := by
    rw [wireBytes, List.flatMap_map]
  rw [hbytes]
  apply split_flatMap
  intro payload hpayload
  obtain ⟨o, ho, rfl⟩ := List.mem_map.mp hpayload
  exact h o ho

/-- No frame, and no new wire. -/
def Event.Unwritten (e : Event) : Prop := e ≠ .connected ∧ e.sent = none

namespace DeskflowClient

/-- The frames that the client has written on the connection that it opened last. -/
def written (c : DeskflowClient) : List Outgoing := (latest c.world.log).filterMap Event.sent

/-- Nothing was written, and the connection is the same. -/
structure Wordless (c c' : DeskflowClient) : Prop where
  log : Grows Event.Unwritten c.world.log c'.world.log
  wire : c'.stream.wire = c.stream.wire
  sends : c'.stream.sends = c.stream.sends

theorem Wordless.refl (c : DeskflowClient) : Wordless c c := ⟨.refl _, rfl, rfl⟩

theorem Wordless.trans {c c' c'' : DeskflowClient} (h : Wordless c c') (h' : Wordless c' c'') :
    Wordless c c'' :=
  ⟨h.log.trans h'.log, h'.wire.trans h.wire, h'.sends.trans h.sends⟩

/-- A step as the socket sees it: one frame at most, or a connection of the given kind. -/
inductive Transmit (ok : Connection → Prop) (c c' : DeskflowClient) : Prop
  | quiet : Wordless c c' → Transmit ok c c'
  | write (o : Outgoing) (d : DeskflowClient) : Wordless c d → Wordless (d.write o).2 c' →
      Transmit ok c c'
  | opened (conn : Connection) (d : DeskflowClient) : ok conn → Wordless c d →
      Wordless (d.opened conn) c' → Transmit ok c c'

namespace Transmit

variable {ok : Connection → Prop} {b c c' d : DeskflowClient}

theorem refl (c : DeskflowClient) : Transmit ok c c := .quiet (.refl c)

theorem before (h : Wordless b c) (h' : Transmit ok c c') : Transmit ok b c' := by
  cases h' with
  | quiet hquiet => exact .quiet (h.trans hquiet)
  | write o d hd hafter => exact .write o d (h.trans hd) hafter
  | opened conn d hconn hd hafter => exact .opened conn d hconn (h.trans hd) hafter

theorem after (h : Transmit ok c c') (h' : Wordless c' d) : Transmit ok c d := by
  cases h with
  | quiet hquiet => exact .quiet (hquiet.trans h')
  | write o d hd hafter => exact .write o d hd (hafter.trans h')
  | opened conn d hconn hd hafter => exact .opened conn d hconn hd (hafter.trans h')

end Transmit

theorem written_of_quiet {c c' : DeskflowClient}
    (h : Grows Event.Unwritten c.world.log c'.world.log) : c'.written = c.written := by
  obtain ⟨es, hes, hquiet⟩ := h
  have hconn : .connected ∉ es := fun hmem => (hquiet _ hmem).1 rfl
  have hnone : es.filterMap Event.sent = [] :=
    List.filterMap_eq_nil_iff.mpr fun e he => (hquiet e he).2
  rw [written, hes, latest_append hconn, List.filterMap_append, hnone, List.append_nil]
  rfl

theorem written_of_write {o : Outgoing} {c : DeskflowClient} (h : (c.write o).1 = true) :
    (c.write o).2.written = c.written ++ [o] := by
  have hconn : Event.connected ∉ [Event.frame o] := by simp
  rw [written, write_framed h, latest_append hconn, List.filterMap_append]
  rfl

theorem write_of_failed {o : Outgoing} {c : DeskflowClient} (h : (c.write o).1 = false) :
    (c.write o).2 = { c with stream := (c.stream.writeFrame o.payload).2 } := by
  have hfailed : (c.stream.writeFrame o.payload).1 = false := h
  simp only [write, hfailed, Bool.false_eq_true, if_false]

theorem written_opened (conn : Connection) (c : DeskflowClient) : (c.opened conn).written = [] := by
  have hlog : (c.opened conn).world.log =
      c.world.log ++ [.connected] ++ [.status (ascii "connected, handshake...")] := rfl
  rw [written, hlog, latest_concat, latest_concat]
  rfl

/-- `writeFrame` was called for `o` and gave up. -/
def GivesUp (o : Outgoing) (c c' : DeskflowClient) : Prop :=
  ∃ d, Wordless c d ∧ (d.write o).1 = false ∧ Wordless (d.write o).2 c'

theorem GivesUp.part {o : Outgoing} {c c' : DeskflowClient} (h : GivesUp o c c') :
    c'.written = c.written ∧ ∃ cut, c'.stream.wire = c.stream.wire ++ cut ∧ Cut o.payload cut := by
  obtain ⟨d, hd, hfailed, hafter⟩ := h
  obtain ⟨cut, hwire, hcut⟩ := SocketStream.writeFrame_of_failed hfailed
  have hsame : (d.write o).2.written = d.written := by
    rw [write_of_failed hfailed]
    rfl
  refine ⟨?_, cut, ?_, hcut⟩
  · rw [written_of_quiet hafter.log, hsame, written_of_quiet hd.log]
  · rw [hafter.wire, write_stream, hwire, hd.wire]

/-- The frames written are all that is on the wire, and no `send` is going to fail. -/
structure Undisturbed (c : DeskflowClient) : Prop where
  sends : Accepting c.stream.sends
  wire : c.stream.wire = wireBytes c.written
  fits : ∀ o ∈ c.written, o.payload.length ≤ 4 * 1024 * 1024

namespace Undisturbed

variable {c c' : DeskflowClient}

theorem write (h : Undisturbed c) (o : Outgoing) : Undisturbed (c.write o).2 := by
  have hsilent (hsame : c.stream.writeFrame o.payload = (false, c.stream)) :
      (c.write o).2 = c := by
    simp only [DeskflowClient.write, hsame, Bool.false_eq_true, if_false]
  by_cases hconn : c.stream.connected = true
  · by_cases hlen : o.payload.length ≤ 4 * 1024 * 1024
    · obtain ⟨hdone, -, hsends⟩ := SocketStream.writeFrame_of_accepting hconn h.sends hlen
      have hwritten := written_of_write (c := c) (o := o) hdone
      refine ⟨?_, ?_, ?_⟩
      · rw [write_stream]
        exact hsends
      · rw [(write_of_ok hdone).1, hwritten, h.wire, wireBytes, wireBytes,
          List.flatMap_append, List.flatMap_singleton]
      · rw [hwritten]
        intro o' ho'
        rcases List.mem_append.mp ho' with hold | hnew
        · exact h.fits o' hold
        · rw [List.mem_singleton.mp hnew]
          exact hlen
    · rw [hsilent (SocketStream.writeFrame_of_lt (Nat.not_le.mp hlen) _)]
      exact h
  · rw [Bool.not_eq_true] at hconn
    rw [hsilent (SocketStream.writeFrame_of_closed hconn _)]
    exact h

theorem opened {conn : Connection} (hconn : Accepting conn.sends) (c : DeskflowClient) :
    Undisturbed (c.opened conn) := by
  refine ⟨hconn, ?_, ?_⟩
  · rw [written_opened]
    rfl
  · rw [written_opened]
    simp

theorem split (h : Undisturbed c) : Split c.stream.wire (c.written.map Outgoing.payload) := by
  rw [h.wire]
  exact split_wireBytes h.fits

end Undisturbed

end DeskflowClient

end Deskflow
