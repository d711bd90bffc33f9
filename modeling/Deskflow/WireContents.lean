import Deskflow.WireTransmissions

/-! What is on the wire of a connection, over whole runs, against the frames that the
client has written by its own account. -/

namespace Deskflow

open History

namespace DeskflowClient

theorem wordless_of_emits {c c' : DeskflowClient} (h : Emits (fun _ => False) c c')
    (hwire : c'.stream.wire = c.stream.wire) (hsends : c'.stream.sends = c.stream.sends) :
    Wordless c c' := by
  refine ⟨h.log.mono fun e he => ⟨he.1, ?_⟩, hwire, hsends⟩
  cases e with
  | frame o => exact (he.2.2 o rfl).elim
  | _ => rfl

theorem wordless_read {c : DeskflowClient} {s : SocketStream}
    (h : SocketStream.SameOutput c.stream s) : Wordless c { c with stream := s } :=
  wordless_of_emits (.same rfl rfl) h.wire h.sends

theorem wordless_emit {e : Event} (h : e.Unwritten) (c : DeskflowClient) : Wordless c (c.emit e) :=
  ⟨.single h _, rfl, rfl⟩

theorem unwritten_of_isInternal {e : Event} (h : e.isInternal) : e.Unwritten := by
  cases e <;> simp_all [Event.isInternal, Event.Unwritten, Event.sent]

theorem wordless_setStatus (s : Bytes) (c : DeskflowClient) : Wordless c (c.setStatus s) :=
  wordless_emit (unwritten_of_isInternal rfl) c

theorem wordless_finish (c : DeskflowClient) : Wordless c c.finish := by
  have hstream := finish_stream c
  apply wordless_of_emits (finish_emits c)
  · rw [hstream]
  · rw [hstream]

theorem wordless_retry (r : Bool × DeskflowClient) : Wordless r.2 (retry r).2 := by
  have hstream := retry_stream r
  apply wordless_of_emits (retry_emits r)
  · rw [hstream]
  · rw [hstream]

section Steps

variable {ok : Connection → Prop}

theorem transmit_write (o : Outgoing) (c : DeskflowClient) : Transmit ok c (c.write o).2 :=
  .write o c (.refl c) (.refl _)

theorem transmit_perform (m : Message) (c : DeskflowClient) :
    Transmit ok c (c.perform m).2 := by
  cases hr : c.reply m with
  | none =>
    have hinternal := perform_internal hr
    have hstream := hinternal.stream
    refine .quiet ⟨hinternal.world.log.mono fun e he => unwritten_of_isInternal he, ?_, ?_⟩
    · rw [hstream]
    · rw [hstream]
  | some o =>
    rw [perform_of_reply hr]
    exact transmit_write o c

theorem transmit_digest (a : Arrival) (c : DeskflowClient) : Transmit ok c (c.digest a).2 := by
  have hkey (key : Bytes) : (Event.dispatched key).Unwritten := by
    simp [Event.Unwritten, Event.sent]
  have hhandled (m : Message) : (Event.handled m).Unwritten := by
    simp [Event.Unwritten, Event.sent]
  cases a with
  | lost =>
    simp only [digest, deliver]
    have hload : Wordless c c.loadStop.2 := wordless_of_emits (loadStop_emits c) rfl rfl
    split_ifs
    · exact .quiet (hload.trans (wordless_setStatus _ _))
    · exact .quiet (hload.trans (wordless_setStatus _ _))
  | short => exact .refl c
  | unknown key => exact .quiet ((wordless_emit (hkey key) c).trans (wordless_setStatus _ _))
  | failed key => exact .quiet (wordless_emit (hkey key) c)
  | message key m =>
    have hperform : Transmit ok c ((c.emit (.dispatched key)).perform m).2 :=
      .before (wordless_emit (hkey key) c) (transmit_perform m _)
    exact hperform.after (wordless_emit (hhandled m) _)

theorem transmit_receive (c : DeskflowClient) : Transmit ok c c.receive.2 := by
  obtain ⟨s, hsame, -, he⟩ := c.receive_eq_digest
  rw [he]
  exact .before (wordless_read hsame) (transmit_digest _ _)

theorem transmit_acknowledge (r : Bool × DeskflowClient) :
    Transmit ok r.2 (acknowledge r).2 := by
  unfold acknowledge
  split_ifs
  · exact transmit_write .cnop r.2
  · exact .refl _

theorem transmit_answerHello (protocolName : Bytes) (major minor : Int16)
    (c : DeskflowClient) : Transmit ok c (c.answerHello protocolName major minor).2 := by
  unfold answerHello
  split
  · have hset : Wordless c { c with shouldReconnect := false } :=
      wordless_of_emits (.same rfl rfl) rfl rfl
    exact .quiet (hset.trans (wordless_setStatus _ _))
  · exact transmit_write _ c

theorem transmit_handshake (c : DeskflowClient) : Transmit ok c c.handshake.2 := by
  obtain ⟨s, hsame, -, he⟩ := c.handshake_eq
  rw [he]
  cases c.stream.view.hello.1 with
  | none => exact .quiet (wordless_read hsame)
  | some hello =>
    obtain ⟨protocolName, major, minor⟩ := hello
    exact .before (wordless_read hsame) (transmit_answerHello protocolName major minor _)

end Steps

end DeskflowClient

namespace System

open DeskflowClient

variable {ok : Connection → Prop}

theorem transmit_work {conn : Connection} {σ : System} (h : σ.phase = .ready → ok conn) :
    Transmit ok σ.client (σ.work conn).client := by
  have hload : Wordless σ.client σ.client.loadStop.2 :=
    wordless_of_emits (loadStop_emits σ.client) rfl rfl
  unfold work
  split
  · exact .refl _
  · rename_i hready
    split
    · exact .quiet (hload.trans (wordless_finish _))
    · have hset : Wordless σ.client { σ.client.loadStop.2 with shouldReconnect := true } :=
        hload.trans (wordless_of_emits (.same rfl rfl) rfl rfl)
      have hdial : Wordless σ.client { σ.client.loadStop.2 with shouldReconnect := true }.dial :=
        hset.trans (wordless_setStatus _ _)
      dsimp only
      split_ifs
      · exact .opened conn _ (h hready) hdial (.refl _)
      · exact .quiet (hdial.trans (wordless_of_emits (connectFailed_emits _) rfl rfl))
  · have hgreeting : Transmit ok σ.client _ := transmit_handshake σ.client
    dsimp only
    split_ifs
    · exact hgreeting.after (wordless_setStatus _ _)
    · exact hgreeting.after (wordless_of_emits (handshakeFailed_emits _) rfl rfl)
  · split_ifs
    · exact .quiet hload
    · exact .before hload (transmit_receive _)
  · rename_i keepGoing _
    exact transmit_acknowledge (keepGoing, σ.client)
  · exact .quiet (wordless_of_emits (loopExited_emits _) rfl rfl)
  · rename_i again _
    have hretry : Wordless σ.client _ := wordless_retry (again, σ.client)
    dsimp only
    split_ifs
    · exact .quiet hretry
    · exact .quiet (hretry.trans (wordless_finish _))

theorem transmit_upload (σ : System) : Transmit ok σ.client σ.upload.client := by
  unfold upload
  split
  · exact .refl _
  · show Transmit ok σ.client σ.client.grabClipboard.2
    unfold grabClipboard
    split_ifs
    · exact .refl _
    · exact transmit_write _ _
  · split_ifs
    · exact .refl _
    · exact .quiet (wordless_of_emits (.same rfl rfl) rfl rfl)
  · exact .refl _
  · exact transmit_write _ _

/-- At one step of the run, on the connection that is still the last one, `writeFrame` gave
up a frame with a part of it on the wire behind the frames `before`. That part and, behind
it, the frames `after` with parts of others that were given up make `rest`. -/
def TornAt (σ : System) (actions : List Action) (before after : List Outgoing) (rest : Bytes) :
    Prop :=
  ∃ (earlier later : List Action) (a : Action) (o : Outgoing) (cut more : Bytes),
    actions = earlier ++ a :: later ∧
      GivesUp o (σ.run earlier).client (σ.run (earlier ++ [a])).client ∧
      (σ.run earlier).client.written = before ∧
      (σ.run earlier).client.stream.wire = wireBytes before ∧
      (σ.run (earlier ++ [a])).client.stream.wire = wireBytes before ++ cut ∧
      Grows (· ≠ Event.connected) (σ.run (earlier ++ [a])).client.world.log
        (σ.run actions).client.world.log ∧
      Cut o.payload cut ∧ cut ≠ [] ∧ rest = cut ++ more ∧ Pieces after more

theorem TornAt.concat {σ : System} {actions : List Action} {before after after' : List Outgoing}
    {rest bytes : Bytes} (h : TornAt σ actions before after rest) (a : Action)
    (hlog : Grows (· ≠ Event.connected) (σ.run actions).client.world.log
      (σ.run (actions ++ [a])).client.world.log)
    (hmore : ∀ more, Pieces after more → Pieces after' (more ++ bytes)) :
    TornAt σ (actions ++ [a]) before after' (rest ++ bytes) := by
  obtain ⟨earlier, later, b, o, cut, more, hactions, hgives, hwritten, hwire, htorn, hsame, hcut,
    hne, hrest, hpieces⟩ := h
  refine ⟨earlier, later ++ [a], b, o, cut, more ++ bytes, ?_, hgives, hwritten, hwire, htorn,
    hsame.trans hlog, hcut, hne, ?_, hmore more hpieces⟩
  · rw [hactions, List.append_assoc, List.cons_append]
  · rw [hrest, List.append_assoc]

theorem TornAt.still {σ : System} {actions : List Action} {before after : List Outgoing}
    {rest : Bytes} (h : TornAt σ actions before after rest) (a : Action)
    (hlog : Grows (· ≠ Event.connected) (σ.run actions).client.world.log
      (σ.run (actions ++ [a])).client.world.log) : TornAt σ (actions ++ [a]) before after rest := by
  rw [← List.append_nil rest]
  refine h.concat a hlog fun more hpieces => ?_
  rw [List.append_nil]
  exact hpieces

end System

end Deskflow
