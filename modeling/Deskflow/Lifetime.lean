import Mathlib.Logic.Relation
import Deskflow.FrameAlignment

/-! What the life of a client is made of: marks, adjustments that concern no
input, and handled messages. A point of the history is a state on the way. -/

namespace Deskflow

open History

namespace Event

/-- Marks and effects that neither inject input nor deliver a clipboard. -/
def isMark : Event → Bool
  | .connected => true
  | .dispatched _ => true
  | .returned => true
  | .frame _ => true
  | .status _ => true
  | _ => false

theorem not_isInput_of_isMark {e : Event} (h : e.isMark) : e.isInput = false := by
  cases e <;> simp_all [isMark, isInput]

end Event

namespace DeskflowClient

/-- A client as it is constructed, with the given answers to its injections. -/
def fresh (injections : List InjectOutcome) : DeskflowClient :=
  { world := { injections := injections } }

/-- The setters and `stop`, which return at once. `loads` is no call of the
source: it sets what the atomic loads will see from now on. -/
inductive Call
  | setScreenSize (w h : Int)
  | setInvertScroll (invert : Bool)
  | setClipboardSync (enable : Bool)
  | setAutoReconnect (intervalMs : Nat)
  | loads (stopLoads autoLoads : List Bool)
  | stop

def call : Call → DeskflowClient → DeskflowClient
  | .setScreenSize w h, c => { c with screenW := w, screenH := h }
  | .setInvertScroll invert, c => { c with invertScroll := invert }
  | .setClipboardSync enable, c => c.setClipboardSync enable
  | .setAutoReconnect intervalMs, c => { c with reconnectIntervalMs := intervalMs }
  | .loads stopLoads autoLoads, c =>
    { c with world := { c.world with stopLoads := stopLoads, autoLoads := autoLoads } }
  | .stop, c => c.closeStream

/-- Everything that concerns input and incoming clipboards is as before. -/
structure Adjusts (c c' : DeskflowClient) : Prop where
  log : c'.world.log = c.world.log
  injections : c'.world.injections = c.world.injections
  keyStates : c'.keyStates = c.keyStates
  mouseButtonsDown : c'.mouseButtonsDown = c.mouseButtonsDown
  clipChunk : c'.clipChunk = c.clipChunk
  clipboardSync : c'.clipboardSync = c.clipboardSync

inductive Move : DeskflowClient → DeskflowClient → Prop
  | mark {c : DeskflowClient} (e : Event) : e.isMark → Move c (c.emit e)
  | adjust {c c' : DeskflowClient} : Adjusts c c' → Move c c'
  | sync (c : DeskflowClient) (enable : Bool) : Move c (c.setClipboardSync enable)
  | handle (c : DeskflowClient) (m : Message) : Move c (c.handle m).2

abbrev Moves : DeskflowClient → DeskflowClient → Prop := Relation.ReflTransGen Move

theorem moves_mark {e : Event} (h : e.isMark) (c : DeskflowClient) : Moves c (c.emit e) :=
  .single (.mark e h)

theorem moves_status (s : Bytes) (c : DeskflowClient) : Moves c (c.setStatus s) :=
  moves_mark rfl c

theorem moves_adjust {c c' : DeskflowClient} (h : Adjusts c c') : Moves c c' :=
  .single (.adjust h)

theorem moves_loadStop (c : DeskflowClient) : Moves c c.loadStop.2 :=
  moves_adjust ⟨rfl, rfl, rfl, rfl, rfl, rfl⟩

theorem moves_loadAuto (c : DeskflowClient) : Moves c c.loadAuto.2 :=
  moves_adjust ⟨rfl, rfl, rfl, rfl, rfl, rfl⟩

theorem moves_write (o : Outgoing) (c : DeskflowClient) : Moves c (c.write o).2 := by
  have hset : Moves c { c with stream := (c.stream.writeFrame o.payload).2 } :=
    moves_adjust ⟨rfl, rfl, rfl, rfl, rfl, rfl⟩
  unfold write
  dsimp only
  split
  · exact hset.trans (moves_mark rfl _)
  · exact hset

theorem moves_acknowledge (r : Bool × DeskflowClient) : Moves r.2 (acknowledge r).2 := by
  unfold acknowledge
  split
  · exact moves_write .cnop r.2
  · exact .refl

theorem moves_digest (a : Arrival) (c : DeskflowClient) : Moves c (c.digest a).2 := by
  cases a with
  | lost =>
    simp only [digest, deliver]
    split <;> exact (moves_loadStop c).trans (moves_status _ _)
  | short => exact .refl
  | unknown key => exact (moves_mark rfl c).trans (moves_status _ _)
  | failed key => exact moves_mark rfl c
  | message key m => exact (moves_mark (e := .dispatched key) rfl c).tail (.handle _ m)

theorem moves_receive (c : DeskflowClient) : Moves c c.receive.2 := by
  obtain ⟨s, -, -, he⟩ := c.receive_eq_digest
  have hset : Moves c { c with stream := s } := moves_adjust ⟨rfl, rfl, rfl, rfl, rfl, rfl⟩
  rw [he]
  exact hset.trans (moves_digest _ _)

theorem moves_stream (s : SocketStream) (c : DeskflowClient) : Moves c { c with stream := s } :=
  moves_adjust ⟨rfl, rfl, rfl, rfl, rfl, rfl⟩

theorem moves_shouldReconnect (again : Bool) (c : DeskflowClient) :
    Moves c { c with shouldReconnect := again } :=
  moves_adjust ⟨rfl, rfl, rfl, rfl, rfl, rfl⟩

theorem moves_answerHello (protocolName : Bytes) (major minor : Int16) (c : DeskflowClient) :
    Moves c (c.answerHello protocolName major minor).2 := by
  unfold answerHello
  split
  · exact (moves_shouldReconnect false c).trans (moves_status _ _)
  · exact moves_write _ c

theorem moves_handshake (c : DeskflowClient) : Moves c c.handshake.2 := by
  unfold handshake
  split
  · exact moves_stream _ c
  · split
    · exact (moves_stream _ c).trans (moves_answerHello _ _ _ _)
    · exact moves_stream _ c

theorem moves_connectFailed (c : DeskflowClient) : Moves c c.connectFailed.2 :=
  (moves_status _ c).trans (moves_mark rfl _)

theorem moves_handshakeFailed (c : DeskflowClient) : Moves c c.handshakeFailed.2 :=
  ((moves_status _ c).trans (moves_stream _ _)).trans (moves_mark rfl _)

theorem moves_loopExited (c : DeskflowClient) : Moves c c.loopExited.2 :=
  ((moves_stream _ c).trans (moves_loadStop _)).trans (moves_mark rfl _)

theorem moves_opened (conn : Connection) (c : DeskflowClient) : Moves c (c.opened conn) :=
  ((moves_stream _ c).trans (moves_mark rfl _)).trans (moves_status _ _)

theorem moves_backOff (n : Nat) (c : DeskflowClient) : Moves c (c.backOff n) := by
  induction n generalizing c with
  | zero => exact .refl
  | succ n ih =>
    rw [backOff]
    split
    · exact moves_loadStop c
    · exact (moves_loadStop c).trans (ih _)

theorem moves_finish (c : DeskflowClient) : Moves c c.finish := by
  have hset : Moves c { c with running := false } := moves_adjust ⟨rfl, rfl, rfl, rfl, rfl, rfl⟩
  unfold finish
  dsimp only
  split
  · exact hset.trans (moves_loadStop _)
  · exact (hset.trans (moves_loadStop _)).trans (moves_status _ _)

theorem moves_retry (r : Bool × DeskflowClient) : Moves r.2 (retry r).2 := by
  unfold retry
  split
  · exact moves_loadAuto r.2
  · split
    · exact (moves_loadAuto r.2).trans (moves_loadStop _)
    · exact (((moves_loadAuto r.2).trans (moves_loadStop _)).trans (moves_status _ _)).trans
        (moves_backOff _ _)

theorem moves_grabClipboard (c : DeskflowClient) : Moves c c.grabClipboard.2 := by
  unfold grabClipboard
  split
  · exact .refl
  · exact moves_write _ c

theorem moves_call (k : Call) (c : DeskflowClient) : Moves c (c.call k) := by
  cases k with
  | setClipboardSync enable => exact .single (.sync c enable)
  | _ => exact moves_adjust ⟨rfl, rfl, rfl, rfl, rfl, rfl⟩

theorem moves_start (host : Bytes) (port : UInt16) (screenName : Bytes) (c : DeskflowClient) :
    Moves c (c.start host port screenName).2 := by
  unfold DeskflowClient.start
  split
  · exact .refl
  · exact moves_adjust ⟨rfl, rfl, rfl, rfl, rfl, rfl⟩

theorem handled_emit_of_isMark {e : Event} (h : e.isMark) (c : DeskflowClient) :
    (c.emit e).handled = c.handled := by
  rw [handled_eq, decoded_emit, List.filterMap_append, ← handled_eq]
  cases e <;> simp_all [Event.isMark, Event.isDecode, Event.handledMessage]

theorem setClipboardSync_handled (enable : Bool) (c : DeskflowClient) :
    (c.setClipboardSync enable).handled = c.handled := by
  rw [handled_eq, setClipboardSync, decoded_emit, List.filterMap_append, handled_eq]
  exact List.append_nil _

theorem Adjusts.handled {c c' : DeskflowClient} (h : Adjusts c c') : c'.handled = c.handled := by
  rw [DeskflowClient.handled, DeskflowClient.handled, h.log]

theorem handle_handled (m : Message) (c : DeskflowClient) :
    (c.handle m).2.handled = c.handled ++ [m] := by
  have hp := decoded_of_extends (perform_world m c)
  rw [handled_eq, handle, decoded_emit, hp, List.filterMap_append, ← handled_eq]
  rfl

theorem handle_log (m : Message) (c : DeskflowClient) :
    ∃ es, (c.handle m).2.world.log = c.world.log ++ es ++ [.handled m] ∧
      ∀ e ∈ es, e.isEffect := by
  obtain ⟨es, hes, heff⟩ := (perform_world m c).log
  refine ⟨es, ?_, heff⟩
  rw [handle, emit, World.emit, hes]

/-- Nothing is injected or handled, and keys and buttons are as before. -/
structure Silent (c c' : DeskflowClient) : Prop where
  injections : c'.world.injections = c.world.injections
  keyStates : c'.keyStates = c.keyStates
  mouseButtonsDown : c'.mouseButtonsDown = c.mouseButtonsDown
  handled : c'.handled = c.handled
  log : Grows (fun e => e.isInput = false) c.world.log c'.world.log

theorem Move.cases_handle {c c' : DeskflowClient} (h : Move c c') :
    Silent c c' ∨ ∃ m, c' = (c.handle m).2 := by
  have hemit {e : Event} (he : e.isInput = false) :
      Grows (fun e => e.isInput = false) c.world.log (c.emit e).world.log :=
    .single (p := fun e : Event => e.isInput = false) he _
  cases h with
  | mark e he =>
    exact .inl ⟨rfl, rfl, rfl, handled_emit_of_isMark he c,
      hemit (Event.not_isInput_of_isMark he)⟩
  | adjust hadj =>
    exact .inl ⟨hadj.injections, hadj.keyStates, hadj.mouseButtonsDown, hadj.handled,
      hadj.log ▸ .refl _⟩
  | sync enable =>
    exact .inl ⟨rfl, rfl, rfl, setClipboardSync_handled enable c,
      hemit (e := .clipboardSync enable) rfl⟩
  | handle m => exact .inr ⟨m, rfl⟩

/-- What outlasts the silent moves and every message. -/
theorem Moves.preserves {p : DeskflowClient → Prop} {c₀ c : DeskflowClient} (h : Moves c₀ c)
    (h₀ : p c₀) (hsilent : ∀ c c', Silent c c' → p c → p c')
    (hhandle : ∀ c m, Moves c₀ c → p c → p (c.handle m).2) : p c := by
  induction h with
  | refl => exact h₀
  | @tail c c' hc hmove ih =>
    rcases hmove.cases_handle with hs | ⟨m, rfl⟩
    · exact hsilent c c' hs ih
    · exact hhandle c m hc ih

theorem Moves.log_extends {c c' : DeskflowClient} (h : Moves c c') :
    c.world.log <+: c'.world.log := by
  induction h with
  | refl => exact List.prefix_refl _
  | @tail b b' _ hmove ih =>
    refine ih.trans ?_
    cases hmove with
    | mark e _ => exact List.prefix_append _ _
    | adjust hadj => exact hadj.log ▸ List.prefix_refl _
    | sync enable => exact List.prefix_append _ _
    | handle m =>
      obtain ⟨es, hes, -⟩ := handle_log m b
      rw [hes, List.append_assoc]
      exact List.prefix_append _ _

/-- Where `runOnce` returned, the history up to there is that of a state. -/
theorem Moves.of_returned {c₀ c : DeskflowClient} (h : Moves c₀ c) (h₀ : c₀.world.log = [])
    {pre : List Event} (hpre : pre ++ [.returned] <+: c.world.log) :
    ∃ b, Moves c₀ b ∧ b.world.log = pre := by
  induction h with
  | refl => simp [h₀] at hpre
  | @tail c c' hc hmove ih =>
    cases hmove with
    | mark e he =>
      rcases prefix_append_cases hpre with hold | ⟨fs, rfl, hnew⟩
      · exact ih hold
      · obtain rfl : fs = [] := by
          have hlen := hnew.length_le
          simpa using hlen
        exact ⟨c, hc, by simp⟩
    | adjust hadj => exact ih (hadj.log ▸ hpre)
    | sync enable =>
      have hgrow : Grows (fun e => e ≠ .returned) c.world.log
          (c.setClipboardSync enable).world.log := .single (by simp) _
      exact ih (hgrow.prefix_of_not (by simp) hpre)
    | handle m =>
      obtain ⟨es, hes, heff⟩ := handle_log m c
      have hgrow : Grows (fun e => e ≠ .returned) c.world.log (c.handle m).2.world.log := by
        refine ⟨es ++ [.handled m], by rw [hes, List.append_assoc], fun e he => ?_⟩
        rcases List.mem_append.mp he with he | he
        · rintro rfl
          simpa [Event.isEffect, Event.isInternal] using heff _ he
        · simp_all
      exact ih (hgrow.prefix_of_not (by simp) hpre)

/-- Where a message was handled, the history up to there is that of a state
that has just handled it. -/
theorem Moves.of_handled {c₀ c : DeskflowClient} (h : Moves c₀ c) (h₀ : c₀.world.log = [])
    {pre : List Event} {m : Message} (hpre : pre ++ [.handled m] <+: c.world.log) :
    ∃ b, Moves c₀ b ∧ (b.handle m).2.world.log = pre ++ [.handled m] := by
  induction h with
  | refl => simp [h₀] at hpre
  | @tail c c' hc hmove ih =>
    cases hmove with
    | mark e he =>
      have hgrow : Grows (fun e => e ≠ .handled m) c.world.log (c.emit e).world.log :=
        .single (by rintro rfl; simp [Event.isMark] at he) _
      exact ih (hgrow.prefix_of_not (by simp) hpre)
    | adjust hadj => exact ih (hadj.log ▸ hpre)
    | sync enable =>
      have hgrow : Grows (fun e => e ≠ .handled m) c.world.log
          (c.setClipboardSync enable).world.log := .single (by simp) _
      exact ih (hgrow.prefix_of_not (by simp) hpre)
    | handle m' =>
      obtain ⟨es, hes, heff⟩ := handle_log m' c
      have hgrow : Grows (fun e => e ≠ .handled m) c.world.log (c.world.log ++ es) := by
        refine ⟨es, rfl, fun e he => ?_⟩
        rintro rfl
        simpa [Event.isEffect, Event.isInternal] using heff _ he
      rw [hes] at hpre
      rcases prefix_append_cases hpre with hold | ⟨fs, rfl, hnew⟩
      · exact ih (hgrow.prefix_of_not (by simp) hold)
      · obtain rfl : fs = [] := by
          have hlen := hnew.length_le
          simpa using hlen
        obtain rfl : m = m' := by simpa using hnew.subset (List.mem_singleton_self _)
        exact ⟨c, hc, by rw [hes, List.append_nil]⟩

end DeskflowClient

end Deskflow
