import Deskflow.HandledMessages
import Deskflow.Isolation
import Deskflow.Standing

/-! The end of a connection: what it leaves of the verdict on coming back and of the loads
of the stop flag. -/

namespace Deskflow

open DeskflowClient

/-- A connection attempt: what it meets and the client that makes it. -/
structure Round where
  conn : Connection
  client : DeskflowClient

namespace Round

def looped (r : Round) : Bool := r.conn.reachable && (r.client.greeting r.conn).1

/-- The client when the connection is over, before the end of `runOnce`. -/
def ended (r : Round) : DeskflowClient :=
  if !r.conn.reachable then { r.client with shouldReconnect := true }.dial
  else if r.looped then (r.client.greeting r.conn).2.greeted.messageLoop
  else (r.client.greeting r.conn).2

def handled (r : Round) : List Message := r.ended.handled.drop r.client.handled.length

/-- The Hello that the server sent, if it could be read. -/
def hello (r : Round) : Option (Bytes × Int16 × Int16) :=
  if r.conn.reachable then
    ({ r.client with shouldReconnect := true }.dial.opened r.conn).stream.view.hello.1
  else none

/-- The connection ended by `CBYE`, by an `EICV` or by a Hello of another major version. -/
def Dismissed (r : Round) : Prop :=
  .cbye ∈ r.handled ∨ (∃ a b, .eicv a b ∈ r.handled) ∨
    ∃ name major minor, r.hello = some (name, major, minor) ∧ major.toInt ≠ kProtocolMajorVersion

/-- Tests of the stop flag in the back-off. -/
def waits (r : Round) : Nat := (r.ended.reconnectIntervalMs + 99) / 100

/-- The values of the stop flag at the loads from the end of the connection to the
next test of the reconnect loop: in `runOnce` after a message loop, after `runOnce`,
in the back-off and at the test. -/
def stopLoads (r : Round) : List Bool :=
  r.ended.world.stopLoads.take ((if r.looped then 1 else 0) + 1 + r.waits + 1)

end Round

namespace DeskflowClient

/-- How often `runOnce` has returned. -/
def attempts (c : DeskflowClient) : Nat := c.world.log.count .returned

/-- Some messages were handled, the stop flag was loaded or not, and the client is to
come back if it was and none of the messages dismissed it. No attempt has ended. -/
structure Heeds (c c' : DeskflowClient) : Prop where
  handled : ∃ ms, c'.handled = c.handled ++ ms ∧
    c'.shouldReconnect = (c.shouldReconnect && ms.all fun m => !m.dismisses)
  stopLoads : c'.world.stopLoads <:+ c.world.stopLoads
  attempts : c'.attempts = c.attempts

namespace Heeds

variable {c c' c'' : DeskflowClient}

theorem trans (h : Heeds c c') (h' : Heeds c' c'') : Heeds c c'' := by
  obtain ⟨ms, hms, hagain⟩ := h.handled
  obtain ⟨ms', hms', hagain'⟩ := h'.handled
  refine ⟨⟨ms ++ ms', ?_, ?_⟩, h'.stopLoads.trans h.stopLoads, h'.attempts.trans h.attempts⟩
  · rw [hms', hms, List.append_assoc]
  · rw [hagain', hagain, List.all_append, Bool.and_assoc]

theorem same (hhandled : c'.handled = c.handled)
    (hagain : c'.shouldReconnect = c.shouldReconnect)
    (hstop : c'.world.stopLoads <:+ c.world.stopLoads)
    (hattempts : c'.attempts = c.attempts) : Heeds c c' :=
  ⟨⟨[], by simp [hhandled], by simp [hagain]⟩, hstop, hattempts⟩

theorem mark {e : Event} (h : e.isMark) (he : e ≠ .returned) (c : DeskflowClient) :
    Heeds c (c.emit e) := by
  refine .same (handled_emit_of_isMark h c) rfl (List.suffix_refl _) ?_
  exact (History.Grows.single (p := (· ≠ Event.returned)) he c.world.log).count_eq (by simp)

theorem loadStop (c : DeskflowClient) : Heeds c c.loadStop.2 :=
  .same rfl rfl (List.tail_suffix _) rfl

theorem write (o : Outgoing) (c : DeskflowClient) : Heeds c (c.write o).2 :=
  .same (write_emits o c).handled (congrArg Standing.comesBack (write_standing o c))
    ((write_world o c).stopLoads ▸ List.suffix_refl _)
    ((write_world o c).log.count_eq (by simp [Event.isEffect, Event.isInternal]))

theorem handle (m : Message) (c : DeskflowClient) : Heeds c (c.handle m).2 := by
  refine ⟨⟨[m], handle_handled m c, ?_⟩, ?_, ?_⟩
  · rw [List.all_cons, List.all_nil, Bool.and_true]
    exact congrArg Standing.comesBack (perform_standing m c)
  · exact (perform_world m c).stopLoads ▸ List.suffix_refl _
  · have hperform := (perform_world m c).log.mono (q := (· ≠ Event.returned)) fun e he => by
      rintro rfl
      exact Bool.false_ne_true he
    exact (hperform.trans (.single (by simp) _)).count_eq (by simp)

theorem iterate (c : DeskflowClient) : Heeds c c.iterate.2 := by
  obtain ⟨s, -, -, he⟩ := c.iterate_eq_deliver
  have hset : Heeds c { c with stream := s } := .same rfl rfl (List.suffix_refl _) rfl
  rw [he]
  refine hset.trans ?_
  cases c.stream.view.arrival.1 with
  | lost =>
    simp only [deliver]
    split_ifs <;> exact (Heeds.loadStop _).trans (.mark rfl (by simp) _)
  | short => exact .same rfl rfl (List.suffix_refl _) rfl
  | unknown key => exact (Heeds.mark rfl (by simp) _).trans (.mark rfl (by simp) _)
  | failed key => exact .mark rfl (by simp) _
  | message key m =>
    refine ((Heeds.mark (e := .dispatched key) rfl (by simp) _).trans (.handle m _)).trans ?_
    rw [deliver, acknowledge]
    split_ifs
    · exact .write .cnop _
    · exact .same rfl rfl (List.suffix_refl _) rfl

theorem loop (h : Loop c c') : Heeds c c' := by
  induction h with
  | stop => exact .loadStop _
  | last => exact (Heeds.loadStop _).trans (.iterate _)
  | next _ _ _ ih => exact ((Heeds.loadStop _).trans (.iterate _)).trans ih

end Heeds

theorem readf_hello {bs : Bytes} {args : List Arg}
    (hargs : ((readf kMsgHello).run bs).1 = some args) :
    ∃ name more, args = .str name :: more ∧ name.length = kHelloNameLength := by
  obtain ⟨rest, h⟩ : ∃ rest, (readf kMsgHello).run bs = (some args, rest) :=
    ⟨_, Prod.ext hargs rfl⟩
  have hd : directives kMsgHello = .str 7 :: [.int 2, .int 2] := by rfl
  rw [readf, hd, readDirectives] at h
  obtain ⟨first, mid, hfirst, h⟩ := Reader.run_bind_eq_some h
  obtain ⟨more, mid', -, h⟩ := Reader.run_bind_eq_some h
  obtain ⟨n, bs', hn, hstr⟩ := Reader.run_bind_eq_some hfirst
  obtain ⟨name, mid'', hname, hpure⟩ := Reader.run_bind_eq_some hstr
  obtain rfl : n = 7 := by simpa [eq_comm] using congrArg Prod.fst hn
  obtain rfl : first = [.str name] := by simpa [eq_comm] using congrArg Prod.fst hpure
  obtain rfl : args = [.str name] ++ more := by simpa [eq_comm] using congrArg Prod.fst h
  exact ⟨name, more, rfl, (Reader.run_exact_eq_some hname).2⟩

theorem length_hello {v : View} {name : Bytes} {major minor : Int16}
    (h : v.hello.1 = some (name, major, minor)) : name.length = kHelloNameLength := by
  unfold View.hello at h
  rcases hframe : v.run readFrame with ⟨_ | frame, v₁⟩ <;> rw [hframe] at h
  · simp at h
  · dsimp only at h
    rcases hread : (v₁.push frame).run (readf kMsgHello) with ⟨_ | args, v₂⟩ <;> rw [hread] at h
    · simp at h
    · have hargs : ((readf kMsgHello).run (v₁.push frame).pending).1 = some args :=
        congrArg Prod.fst hread
      obtain ⟨name', more, rfl, hlen⟩ := readf_hello hargs
      split at h
      · rename_i heq
        obtain ⟨⟨rfl, -⟩, -⟩ : (name' = _ ∧ _) ∧ _ := by simpa using heq
        obtain ⟨rfl, -⟩ : _ = name ∧ _ := by simpa using h
        exact hlen
      · simp at h

theorem backOff_stopLoads (n : Nat) (c : DeskflowClient) :
    (c.backOff n).world.stopLoads <:+ c.world.stopLoads := by
  induction n generalizing c with
  | zero => exact List.suffix_refl _
  | succ n ih =>
    have htail : c.loadStop.2.world.stopLoads <:+ c.world.stopLoads := List.tail_suffix _
    rw [backOff]
    split_ifs
    · exact htail
    · exact (ih c.loadStop.2).trans htail

/-- The test after the back-off finds the flag unset exactly if it was so all along. -/
theorem backOff_test {n : Nat} {c : DeskflowClient}
    (hstays : c.world.stopLoads.Pairwise (· ≤ ·)) (hne : (c.backOff n).world.stopLoads ≠ []) :
    (c.backOff n).loadStop.1 = false ↔ ∀ b ∈ c.world.stopLoads.take (n + 1), b = false := by
  induction n generalizing c with
  | zero =>
    obtain ⟨b, bs, hloads⟩ := List.exists_cons_of_ne_nil hne
    change c.world.stopLoads = b :: bs at hloads
    change c.world.stopLoads.headD false = false ↔ _
    simp [hloads]
  | succ n ih =>
    cases hloads : c.world.stopLoads with
    | nil =>
      have hsuffix := backOff_stopLoads (n + 1) c
      rw [hloads] at hsuffix
      exact absurd (List.suffix_nil.mp hsuffix) hne
    | cons b bs =>
      have hhead : c.loadStop.1 = b := by
        change c.world.stopLoads.headD false = b
        rw [hloads]
        rfl
      have htail : c.loadStop.2.world.stopLoads = bs := by
        change c.world.stopLoads.tail = bs
        rw [hloads]
        rfl
      rw [hloads, List.pairwise_cons] at hstays
      rw [backOff] at hne ⊢
      cases b with
      | true =>
        rw [if_pos hhead] at hne ⊢
        rw [htail] at hne
        obtain ⟨b, bs', rfl⟩ := List.exists_cons_of_ne_nil hne
        have hset : true ≤ b := hstays.1 b (by simp)
        have hfirst : c.loadStop.2.loadStop.1 = b := by
          change c.loadStop.2.world.stopLoads.headD false = b
          rw [htail]
          rfl
        simp [hfirst, Bool.eq_true_of_true_le hset]
      | false =>
        rw [if_neg (by simp [hhead])] at hne ⊢
        rw [ih (htail ▸ hstays.2) hne, htail]
        simp

theorem retry_stopLoads (r : Bool × DeskflowClient) :
    (retry r).2.world.stopLoads <:+ r.2.world.stopLoads := by
  have htail : r.2.loadAuto.2.loadStop.2.world.stopLoads <:+ r.2.world.stopLoads :=
    List.tail_suffix _
  unfold retry
  split_ifs
  · exact List.suffix_refl _
  · exact htail
  · exact (backOff_stopLoads _ _).trans htail

theorem retry_fst (r : Bool × DeskflowClient) : (retry r).1 =
    (r.2.loadAuto.1 && r.1 && !r.2.loadStop.1) := by
  have hload : r.2.loadAuto.2.loadStop.1 = r.2.loadStop.1 := rfl
  unfold retry
  rw [hload]
  split_ifs with hquit hstop
  · have hno : r.2.loadAuto.1 = false ∨ r.1 = false := by simpa using hquit
    rcases hno with hno | hno <;> simp [hno]
  · simp [hstop]
  · have hgo : r.2.loadAuto.1 = true ∧ r.1 = true := by simpa using hquit
    simp [hgo.1, hgo.2, hstop]

theorem retry_of_again {r : Bool × DeskflowClient} (h : (retry r).1 = true) :
    ∃ status, (retry r).2 = (r.2.loadAuto.2.loadStop.2.setStatus status).backOff
      ((r.2.reconnectIntervalMs + 99) / 100) := by
  unfold retry at h ⊢
  split_ifs at h ⊢
  exact ⟨_, rfl⟩

end DeskflowClient

namespace Round

def opened (r : Round) : DeskflowClient :=
  { r.client with shouldReconnect := true }.dial.opened r.conn

theorem heeds_opened (r : Round) : Heeds { r.client with shouldReconnect := true } r.opened := by
  have hdial (c : DeskflowClient) : Heeds c c.dial := .mark rfl (by simp) c
  have hstream (c : DeskflowClient) :
      Heeds c { c with stream := c.stream.connect r.conn.recvs r.conn.sends } :=
    .same rfl rfl (List.suffix_refl _) rfl
  have hopened (c : DeskflowClient) : Heeds c (c.opened r.conn) :=
    ((hstream c).trans (.mark rfl (by simp) _)).trans (.mark rfl (by simp) _)
  exact (hdial _).trans (hopened _)

/-- The client comes back to a server of its own version unless a message dismisses it. -/
theorem heeds_ended {r : Round}
    (h : ¬∃ name major minor, r.hello = some (name, major, minor) ∧
      major.toInt ≠ kProtocolMajorVersion) :
    Heeds { r.client with shouldReconnect := true } r.ended := by
  unfold ended
  by_cases hreach : r.conn.reachable = true
  · have hgreeting : r.client.greeting r.conn = r.opened.handshake := rfl
    have hhello : r.hello = r.opened.stream.view.hello.1 := if_pos hreach
    obtain ⟨s, -, -, he⟩ := r.opened.handshake_eq
    have hset : Heeds r.opened { r.opened with stream := s } :=
      .same rfl rfl (List.suffix_refl _) rfl
    have hshake : Heeds r.opened r.opened.handshake.2 := by
      rw [he]
      cases hread : r.opened.stream.view.hello.1 with
      | none => exact hset
      | some args =>
        obtain ⟨name, major, minor⟩ := args
        have hmajor : major.toInt = kProtocolMajorVersion := by
          by_contra hmajor
          exact h ⟨name, major, minor, hhello.trans hread, hmajor⟩
        have hname := length_hello hread
        dsimp only
        rw [answerHello, if_neg (by simp [hname, hmajor])]
        exact hset.trans (.write _ _)
    have hgreeted := r.heeds_opened.trans hshake
    rw [hgreeting]
    simp only [hreach, Bool.not_true, Bool.false_eq_true, if_false]
    split_ifs
    · have hloop := Heeds.loop (messageLoop_loop r.opened.handshake.2.greeted)
      exact (hgreeted.trans (.mark rfl (by simp) _)).trans hloop
    · exact hgreeted
  · rw [if_pos (by simp [hreach])]
    exact .mark rfl (by simp) _

theorem ended_of_mismatch {r : Round} {name : Bytes} {major minor : Int16}
    (hhello : r.hello = some (name, major, minor)) (hmajor : major.toInt ≠ kProtocolMajorVersion) :
    r.ended.shouldReconnect = false ∧ r.ended.world.stopLoads = r.client.world.stopLoads ∧
      r.ended.attempts = r.client.attempts := by
  have hreach : r.conn.reachable = true := by
    by_contra hno
    rw [hello, if_neg hno] at hhello
    cases hhello
  have hgreeting : r.client.greeting r.conn = r.opened.handshake := rfl
  obtain ⟨s, -, -, he⟩ := r.opened.handshake_eq
  rw [hello, if_pos hreach] at hhello
  have hread : r.opened.stream.view.hello.1 = some (name, major, minor) := hhello
  rw [hread] at he
  dsimp only at he
  rw [answerHello, if_pos (.inr hmajor)] at he
  have hended : r.ended = r.opened.handshake.2 := by
    simp [ended, looped, hreach, hgreeting, he]
  rw [hended, he]
  exact ⟨rfl, rfl, (Heeds.mark rfl (by simp) _).attempts.trans r.heeds_opened.attempts⟩

theorem ended_comesBack (r : Round) : r.ended.shouldReconnect = true ↔ ¬r.Dismissed := by
  by_cases hmismatch : ∃ name major minor, r.hello = some (name, major, minor) ∧
      major.toInt ≠ kProtocolMajorVersion
  · have hdismissed : r.Dismissed := .inr (.inr hmismatch)
    obtain ⟨name, major, minor, hhello, hmajor⟩ := hmismatch
    simp [(ended_of_mismatch hhello hmajor).1, hdismissed]
  · obtain ⟨ms, hms, hagain⟩ := (heeds_ended hmismatch).handled
    have hhandled : r.handled = ms := by
      have hold : ({ r.client with shouldReconnect := true } : DeskflowClient).handled =
          r.client.handled := rfl
      rw [handled, hms, hold, List.drop_left]
    rw [hagain, Bool.true_and, List.all_eq_true, Dismissed, hhandled]
    constructor
    · intro hall
      rintro (hbye | ⟨a, b, hicv⟩ | hno)
      · exact absurd (hall _ hbye) (by simp [Message.dismisses])
      · exact absurd (hall _ hicv) (by simp [Message.dismisses])
      · exact hmismatch hno
    · intro hno m hm
      rw [not_or, not_or] at hno
      cases m with
      | cbye => exact absurd hm hno.1
      | eicv a b => exact absurd ⟨a, b, hm⟩ hno.2.1
      | _ => rfl

theorem ended_world (r : Round) : r.ended.world.stopLoads <:+ r.client.world.stopLoads ∧
    r.ended.attempts = r.client.attempts := by
  by_cases hmismatch : ∃ name major minor, r.hello = some (name, major, minor) ∧
      major.toInt ≠ kProtocolMajorVersion
  · obtain ⟨name, major, minor, hhello, hmajor⟩ := hmismatch
    obtain ⟨-, hloads, hattempts⟩ := ended_of_mismatch hhello hmajor
    exact ⟨hloads ▸ List.suffix_refl _, hattempts⟩
  · exact ⟨(heeds_ended hmismatch).stopLoads, (heeds_ended hmismatch).attempts⟩

theorem connection_eq (r : Round) : r.client.connection r.conn =
    if !r.conn.reachable then r.ended.connectFailed
    else if r.looped then r.ended.loopExited else r.ended.handshakeFailed := by
  have hgreeting : r.client.greeting r.conn = r.opened.handshake := rfl
  have hconn : r.client.connection r.conn =
      if !r.conn.reachable then { r.client with shouldReconnect := true }.dial.connectFailed
      else established r.opened.handshake := rfl
  rw [hconn]
  unfold ended looped
  rw [hgreeting, established]
  by_cases hreach : r.conn.reachable = true
  · by_cases hok : r.opened.handshake.1 = true
    · simp [hreach, hok]
    · simp [hreach, hok]
  · simp [hreach]

theorem connection_fst (r : Round) : (r.client.connection r.conn).1 =
    (r.ended.shouldReconnect && !(r.looped && r.ended.loadStop.1)) := by
  rw [connection_eq]
  by_cases hreach : r.conn.reachable = true
  · by_cases hlooped : r.looped = true
    · simp only [hreach, hlooped, Bool.not_true, Bool.false_eq_true, if_false, if_true,
        Bool.true_and]
      exact Bool.and_comm _ _
    · simp only [hreach, hlooped, Bool.not_true, Bool.false_eq_true, if_false, Bool.false_and,
        Bool.not_false, Bool.and_true]
      rfl
  · have hended : r.ended = { r.client with shouldReconnect := true }.dial := by
      simp [ended, hreach]
    have hlooped : r.looped = false := by simp [looped, hreach]
    have hagain : r.ended.shouldReconnect = true := by
      rw [hended]
      rfl
    simp only [hreach, hlooped, hagain]
    rfl

theorem connection_world (r : Round) :
    (r.client.connection r.conn).2.loadAuto.1 = r.ended.loadAuto.1 ∧
      (r.client.connection r.conn).2.reconnectIntervalMs = r.ended.reconnectIntervalMs ∧
      (r.client.connection r.conn).2.world.stopLoads =
        if r.looped then r.ended.world.stopLoads.tail else r.ended.world.stopLoads := by
  rw [connection_eq]
  by_cases hreach : r.conn.reachable = true
  · by_cases hlooped : r.looped = true
    · simp only [hreach, hlooped, Bool.not_true, Bool.false_eq_true, if_false, if_true]
      exact ⟨rfl, rfl, rfl⟩
    · simp only [hreach, hlooped, Bool.not_true, Bool.false_eq_true, if_false]
      exact ⟨rfl, rfl, rfl⟩
  · have hlooped : r.looped = false := by simp [looped, hreach]
    simp only [hreach, hlooped]
    exact ⟨rfl, rfl, rfl⟩

theorem connection_stopLoads (r : Round) :
    (r.client.connection r.conn).2.world.stopLoads <:+ r.client.world.stopLoads := by
  rw [r.connection_world.2.2]
  split_ifs
  · exact (List.tail_suffix _).trans r.ended_world.1
  · exact r.ended_world.1

/-- A connection is one attempt. -/
theorem connection_attempts (r : Round) :
    (r.client.connection r.conn).2.attempts = r.client.attempts + 1 := by
  have hreturned (c : DeskflowClient) : (c.emit .returned).attempts = c.attempts + 1 := by
    simp [attempts, emit, World.emit]
  have hstatus (s : Bytes) (c : DeskflowClient) : (c.setStatus s).attempts = c.attempts :=
    (Heeds.mark (e := .status s) rfl (by simp) c).attempts
  have hended : (r.client.connection r.conn).2.attempts = r.ended.attempts + 1 := by
    rw [connection_eq]
    split_ifs
    · exact (hreturned _).trans (congrArg (· + 1) (hstatus _ _))
    · exact hreturned _
    · exact (hreturned _).trans (congrArg (· + 1) (hstatus _ _))
  rw [hended, r.ended_world.2]

theorem forall_take_succ (bs : List Bool) (n : Nat) :
    (∀ b ∈ bs.take (n + 1), b = false) ↔
      bs.headD false = false ∧ ∀ b ∈ bs.tail.take n, b = false := by
  cases bs <;> simp

theorem stopLoads_iff (r : Round) : (∀ b ∈ r.stopLoads, b = false) ↔
    (r.looped && r.ended.loadStop.1) = false ∧ (r.client.connection r.conn).2.loadStop.1 = false ∧
      ∀ b ∈ (r.client.connection r.conn).2.world.stopLoads.tail.take (r.waits + 1), b = false := by
  have hloads := r.connection_world.2.2
  have hstop : (r.client.connection r.conn).2.loadStop.1 =
      (r.client.connection r.conn).2.world.stopLoads.headD false := rfl
  have hended : r.ended.loadStop.1 = r.ended.world.stopLoads.headD false := rfl
  rw [stopLoads, hstop, hloads, hended]
  by_cases hlooped : r.looped = true
  · have hcount : 1 + 1 + r.waits + 1 = (r.waits + 1 + 1) + 1 := by omega
    simp only [hlooped, if_true, hcount, forall_take_succ _ (r.waits + 1 + 1),
      forall_take_succ _ (r.waits + 1), Bool.true_and]
  · have hcount : 0 + 1 + r.waits + 1 = (r.waits + 1) + 1 := by omega
    simp only [hlooped, Bool.false_eq_true, if_false, hcount, forall_take_succ _ (r.waits + 1),
      Bool.false_and, true_and]

theorem again_iff {r : Round} (hstays : r.client.world.stopLoads.Pairwise (· ≤ ·))
    (hcovers : (retry (r.client.connection r.conn)).2.world.stopLoads ≠ []) :
    ((retry (r.client.connection r.conn)).1 = true ∧
        (retry (r.client.connection r.conn)).2.loadStop.1 = false) ↔
      r.ended.loadAuto.1 = true ∧ ¬r.Dismissed ∧ ∀ b ∈ r.stopLoads, b = false := by
  obtain ⟨hauto, hinterval, -⟩ := r.connection_world
  have hwait (hagain : (retry (r.client.connection r.conn)).1 = true) :
      (retry (r.client.connection r.conn)).2.loadStop.1 = false ↔
        ∀ b ∈ (r.client.connection r.conn).2.world.stopLoads.tail.take (r.waits + 1),
          b = false := by
    obtain ⟨status, he⟩ := retry_of_again hagain
    rw [he] at hcovers ⊢
    rw [hinterval] at hcovers ⊢
    refine backOff_test ?_ hcovers
    exact hstays.sublist ((List.tail_suffix _).trans r.connection_stopLoads).sublist
  have hfst : (retry (r.client.connection r.conn)).1 = true ↔ r.ended.loadAuto.1 = true ∧
      ¬r.Dismissed ∧ (r.looped && r.ended.loadStop.1) = false ∧
        (r.client.connection r.conn).2.loadStop.1 = false := by
    rw [retry_fst, hauto, connection_fst, ← ended_comesBack]
    simp only [Bool.and_eq_true, Bool.not_eq_true', and_assoc]
  rw [stopLoads_iff, and_congr_right hwait, hfst]
  simp only [and_assoc]

end Round

end Deskflow
