import Deskflow.Likeness
import Deskflow.StreamDecoding
import Deskflow.Threads

/-! A connection of a client with a past, compared with that of a fresh one. -/

namespace Deskflow

structure Answers where
  injections : List InjectOutcome := []
  stopLoads : List Bool := []

namespace DeskflowClient

/-- The history is begun afresh, so that it is that of the connection. -/
def facing (a : Answers) (c : DeskflowClient) : DeskflowClient :=
  { c with world := { injections := a.injections, stopLoads := a.stopLoads } }

/-- The injections and clipboard callbacks of one connection. -/
def effects (a : Answers) (conn : Connection) (c : DeskflowClient) : List Event :=
  observed ((c.facing a).connection conn).2.world.log

/-- A fresh client that was given the same settings and stands at the same
pointer position. -/
def renewed (c : DeskflowClient) : DeskflowClient :=
  { running := c.running
    reconnectIntervalMs := c.reconnectIntervalMs
    invertScroll := c.invertScroll
    host := c.host
    port := c.port
    screenName := c.screenName
    screenW := c.screenW
    screenH := c.screenH
    pointerX := c.pointerX
    pointerY := c.pointerY
    clipboardSync := c.clipboardSync }

/-- Nothing recorded on earlier connections can make a difference: no id with a
key code and no button is recorded down, and no transfer under way can still be
delivered. -/
structure Clean (c : DeskflowClient) : Prop where
  keys : ∀ id, c.keyStates id = true → keysymToKeycode id < 0
  buttons : c.buttonsDown = []
  transfer : c.Mute

/-- `HelloBack` fits into a frame. -/
def Greets (c : DeskflowClient) : Prop := c.screenName.length + 15 ≤ 4 * 1024 * 1024

end DeskflowClient

/-- The reads of the handshake. -/
def View.hello (v : View) : Option (Bytes × Int16 × Int16) × View :=
  match v.run readFrame with
  | (none, v) => (none, v)
  | (some frame, v) =>
    match (v.push frame).run (readf kMsgHello) with
    | (some [.str protocolName, .int major, .int minor], v) =>
      (some (protocolName, i16 major, i16 minor), v)
    | (_, v) => (none, v)

namespace DeskflowClient

theorem handshake_eq (c : DeskflowClient) :
    ∃ s, SocketStream.SameOutput c.stream s ∧ s.view = c.stream.view.hello.2 ∧
      c.handshake = match c.stream.view.hello.1 with
        | some (protocolName, major, minor) =>
          { c with stream := s }.answerHello protocolName major minor
        | none => (false, { c with stream := s }) := by
  obtain ⟨frame, s, hrun, hview, hout⟩ := c.stream.exists_run
    (fun s => readFrame_simulates (SocketStream.readExact_simulates s))
  unfold handshake View.hello
  rw [hrun, hview]
  cases frame with
  | none => exact ⟨s, hout, rfl, rfl⟩
  | some frame =>
    obtain ⟨args, t, hrun₁, hview₁, hout₁⟩ := (s.pushToBuffer frame).exists_run
      (fun s => readf_simulates (SocketStream.readExact_simulates s) kMsgHello)
    replace hout₁ := (hout.trans (SocketStream.sameOutput_pushToBuffer frame s)).trans hout₁
    rw [SocketStream.view_pushToBuffer] at hview₁
    dsimp only
    rw [hrun₁, hview₁]
    refine ⟨t, hout₁, ?_, ?_⟩
    · split <;> rename_i hr <;> rw [(Prod.mk.inj hr).2]
    · split <;> split <;> simp_all

/-- Alike, with the same bytes to read and no write that fails. -/
structure Twin (c c' : DeskflowClient) : Prop where
  alike : Alike c c'
  view : c'.stream.view = c.stream.view
  ready : Ready c
  ready' : Ready c'

namespace Alike

variable {c c' : DeskflowClient}

theorem set_stream (s : SocketStream) (c : DeskflowClient) : Alike c { c with stream := s } :=
  ⟨rfl, rfl, rfl, fun _ _ => rfl, rfl, .inl rfl, ⟨rfl, rfl, rfl⟩⟩

theorem setStatus (h : Alike c c') (s s' : Bytes) : Alike (c.setStatus s) (c'.setStatus s') :=
  ((emit_unobserved rfl c).symm.trans h).trans (emit_unobserved rfl c')

theorem loadStop (h : Alike c c') :
    c'.loadStop.1 = c.loadStop.1 ∧ Alike c.loadStop.2 c'.loadStop.2 := by
  obtain ⟨hi, hs, ho⟩ := h.world
  refine ⟨?_, h.set_world ⟨hi, ?_, ho⟩⟩
  · change c'.world.stopLoads.headD false = c.world.stopLoads.headD false
    rw [hs]
  · change c'.world.stopLoads.tail = c.world.stopLoads.tail
    rw [hs]

end Alike

namespace Twin

variable {c c' : DeskflowClient}

theorem set_world (h : Twin c c') {w w' : World} (hw : World.Alike w w') :
    Twin { c with world := w } { c' with world := w' } :=
  ⟨h.alike.set_world hw, h.view, ⟨h.ready.connected, h.ready.accepting⟩,
    ⟨h.ready'.connected, h.ready'.accepting⟩⟩

theorem emit (h : Twin c c') (e : Event) : Twin (c.emit e) (c'.emit e) :=
  h.set_world (h.alike.emit e).world

theorem setStatus (h : Twin c c') (s s' : Bytes) : Twin (c.setStatus s) (c'.setStatus s') :=
  h.set_world (h.alike.setStatus s s').world

theorem loadStop (h : Twin c c') : Twin c.loadStop.2 c'.loadStop.2 :=
  h.set_world h.alike.loadStop.2.world

theorem set_stream (h : Twin c c') {s s' : SocketStream}
    (hout : SocketStream.SameOutput c.stream s) (hout' : SocketStream.SameOutput c'.stream s')
    (hview : s'.view = s.view) : Twin { c with stream := s } { c' with stream := s' } :=
  ⟨((Alike.set_stream s c).symm.trans h.alike).trans (Alike.set_stream s' c'), hview,
    ⟨hout.connected.trans h.ready.connected, by rw [hout.sends]; exact h.ready.accepting⟩,
    ⟨hout'.connected.trans h.ready'.connected, by rw [hout'.sends]; exact h.ready'.accepting⟩⟩

theorem perform (h : Twin c c') (m : Message) :
    (c'.perform m).1 = (c.perform m).1 ∧ Twin (c.perform m).2 (c'.perform m).2 := by
  obtain ⟨hgo, hready⟩ := perform_of_ready h.ready m
  obtain ⟨hgo', hready'⟩ := perform_of_ready h.ready' m
  refine ⟨hgo'.trans hgo.symm, h.alike.perform m, ?_, hready, hready'⟩
  rw [(perform_sameInput m c).view, (perform_sameInput m c').view]
  exact h.view

theorem acknowledge (r r' : Bool × DeskflowClient) (hr : r'.1 = r.1) (h : Twin r.2 r'.2) :
    (acknowledge r').1 = (acknowledge r).1 ∧ Twin (acknowledge r).2 (acknowledge r').2 := by
  obtain ⟨hgo, hready⟩ := acknowledge_of_ready h.ready
  obtain ⟨hgo', hready'⟩ := acknowledge_of_ready h.ready'
  have hsame (r : Bool × DeskflowClient) : Alike r.2 (DeskflowClient.acknowledge r).2 := by
    unfold DeskflowClient.acknowledge
    split_ifs
    · exact Alike.write .cnop r.2
    · exact Alike.refl r.2
  refine ⟨(hgo'.trans hr).trans hgo.symm,
    ((hsame r).symm.trans h.alike).trans (hsame r'), ?_, hready, hready'⟩
  rw [(acknowledge_sameInput r).view, (acknowledge_sameInput r').view]
  exact h.view

theorem deliver (h : Twin c c') (a : Arrival) :
    (c'.deliver a).1 = (c.deliver a).1 ∧ Twin (c.deliver a).2 (c'.deliver a).2 := by
  cases a with
  | lost =>
    simp only [DeskflowClient.deliver, h.alike.loadStop.1]
    split_ifs
    · exact ⟨rfl, h.loadStop.emit _⟩
    · exact ⟨rfl, h.loadStop.emit _⟩
  | short => exact ⟨rfl, h⟩
  | unknown key => exact ⟨rfl, (h.emit _).emit _⟩
  | failed key => exact ⟨rfl, h.emit _⟩
  | message key m =>
    obtain ⟨hgo, hperform⟩ := (h.emit (.dispatched key)).perform m
    exact acknowledge ((c.emit (.dispatched key)).handle m)
      ((c'.emit (.dispatched key)).handle m) hgo (hperform.emit (.handled m))

theorem iterate (h : Twin c c') :
    c'.iterate.1 = c.iterate.1 ∧ Twin c.iterate.2 c'.iterate.2 := by
  obtain ⟨s, hout, hview, he⟩ := c.iterate_eq_deliver
  obtain ⟨s', hout', hview', he'⟩ := c'.iterate_eq_deliver
  rw [h.view] at hview' he'
  rw [he, he']
  exact (h.set_stream hout hout' (hview'.trans hview.symm)).deliver _

theorem loopFor (h : Twin c c') (n : Nat) : Twin (c.loopFor n) (c'.loopFor n) := by
  induction n generalizing c c' with
  | zero => exact h
  | succ n ih =>
    obtain ⟨hgo, hnext⟩ := h.loadStop.iterate
    simp only [DeskflowClient.loopFor, h.alike.loadStop.1, hgo]
    split_ifs
    · exact h.loadStop
    · exact ih hnext
    · exact hnext

theorem messageLoop (h : Twin c c') : Twin c.messageLoop c'.messageLoop := by
  have hpending : c'.stream.pending = c.stream.pending := by
    rw [← SocketStream.pending_view, h.view, SocketStream.pending_view]
  unfold DeskflowClient.messageLoop
  rw [hpending]
  exact h.loopFor _

end Twin

theorem answerHello_of_ready {c : DeskflowClient} (h : Ready c) (hgreets : c.Greets)
    (protocolName : Bytes) (major minor : Int16) :
    (c.answerHello protocolName major minor).1 =
        decide (protocolName.length = kHelloNameLength ∧ major.toInt = kProtocolMajorVersion) ∧
      Ready (c.answerHello protocolName major minor).2 := by
  have hwrite (minor : Int16) := write_of_ready (o := .helloBack protocolName minor c.screenName) h
    (by rw [Outgoing.length_payload_helloBack]; exact hgreets)
  unfold answerHello
  by_cases hbad : protocolName.length ≠ kHelloNameLength ∨ major.toInt ≠ kProtocolMajorVersion
  · rw [if_pos hbad, ← not_and_or] at *
    exact ⟨(decide_eq_false hbad).symm, h.connected, h.accepting⟩
  · rw [if_neg hbad]
    rw [not_or, not_not, not_not] at hbad
    exact ⟨(hwrite _).1.trans (decide_eq_true hbad).symm, (hwrite _).2⟩

theorem answerHello_of_not_greets {c : DeskflowClient} (h : ¬c.Greets) (protocolName : Bytes)
    (major minor : Int16) : (c.answerHello protocolName major minor).1 = false := by
  have hwrite (minor : Int16) :
      (c.write (.helloBack protocolName minor c.screenName)).1 = false := by
    rw [Greets, ← Outgoing.length_payload_helloBack protocolName minor, Nat.not_le] at h
    simp only [write, SocketStream.writeFrame, if_pos h]
  unfold answerHello
  split_ifs
  · rfl
  · exact hwrite _
  · exact hwrite _

theorem answerHello_sameInput (protocolName : Bytes) (major minor : Int16) (c : DeskflowClient) :
    SocketStream.SameInput c.stream (c.answerHello protocolName major minor).2.stream := by
  unfold answerHello
  split_ifs
  · exact .refl _
  · exact write_sameInput _ c
  · exact write_sameInput _ c

theorem handshake_of_not_greets {c : DeskflowClient} (h : ¬c.Greets) : c.handshake.1 = false := by
  obtain ⟨s, -, -, he⟩ := c.handshake_eq
  rw [he]
  split
  · exact answerHello_of_not_greets (c := { c with stream := s }) h _ _ _
  · rfl

namespace Alike

variable {c c' : DeskflowClient}

theorem answerHello (protocolName : Bytes) (major minor : Int16) (c : DeskflowClient) :
    Alike c (c.answerHello protocolName major minor).2 := by
  unfold DeskflowClient.answerHello
  split_ifs
  · have hstop : Alike c { c with shouldReconnect := false } :=
      ⟨rfl, rfl, rfl, fun _ _ => rfl, rfl, .inl rfl, ⟨rfl, rfl, rfl⟩⟩
    exact hstop.trans (emit_unobserved rfl _)
  · exact write _ c
  · exact write _ c

theorem handshake (c : DeskflowClient) : Alike c c.handshake.2 := by
  obtain ⟨s, -, -, he⟩ := c.handshake_eq
  rw [he]
  split
  · exact (set_stream s c).trans (answerHello _ _ _ _)
  · exact set_stream s c

theorem dial (c : DeskflowClient) : Alike c { c with shouldReconnect := true }.dial := by
  have hset : Alike c { c with shouldReconnect := true } :=
    ⟨rfl, rfl, rfl, fun _ _ => rfl, rfl, .inl rfl, ⟨rfl, rfl, rfl⟩⟩
  exact hset.trans (emit_unobserved rfl _)

theorem opened (conn : Connection) (c : DeskflowClient) : Alike c (c.opened conn) :=
  ((set_stream _ c).trans (emit_unobserved rfl _)).trans (emit_unobserved rfl _)

end Alike

theorem Twin.handshake {c c' : DeskflowClient} (h : Twin c c') (hgreets : c.Greets)
    (hname : c'.screenName = c.screenName) :
    c'.handshake.1 = c.handshake.1 ∧ Twin c.handshake.2 c'.handshake.2 := by
  have hgreets' : c'.Greets := by rwa [Greets, hname]
  have halike := ((Alike.handshake c).symm.trans h.alike).trans (Alike.handshake c')
  obtain ⟨s, hout, hview, he⟩ := c.handshake_eq
  obtain ⟨s', hout', hview', he'⟩ := c'.handshake_eq
  rw [h.view] at hview' he'
  have hset := h.set_stream hout hout' (hview'.trans hview.symm)
  rw [he, he'] at halike ⊢
  cases hhello : c.stream.view.hello.1 with
  | none => exact ⟨rfl, hset⟩
  | some args =>
    obtain ⟨protocolName, major, minor⟩ := args
    rw [hhello] at halike
    obtain ⟨hok, hready⟩ := answerHello_of_ready (c := { c with stream := s }) hset.ready hgreets
      protocolName major minor
    obtain ⟨hok', hready'⟩ := answerHello_of_ready (c := { c' with stream := s' }) hset.ready'
      hgreets' protocolName major minor
    refine ⟨hok'.trans hok.symm, halike, ?_, hready, hready'⟩
    dsimp only
    rw [(answerHello_sameInput _ _ _ _).view, (answerHello_sameInput _ _ _ _).view]
    exact hset.view

/-- The handshake of a connection, with its result. -/
def greeting (conn : Connection) (c : DeskflowClient) : Bool × DeskflowClient :=
  ({ c with shouldReconnect := true }.dial.opened conn).handshake

theorem alike_greeting (conn : Connection) (c : DeskflowClient) : Alike c (c.greeting conn).2 :=
  ((Alike.dial c).trans (Alike.opened conn _)).trans (Alike.handshake _)

/-- Outside the message loop a connection leaves no trace. -/
theorem observed_connection (conn : Connection) (c : DeskflowClient) :
    observed (c.connection conn).2.world.log =
      observed (if conn.reachable ∧ (c.greeting conn).1 then
        (c.greeting conn).2.greeted.messageLoop else c).world.log := by
  by_cases hreach : conn.reachable = true
  · have hconn : c.connection conn = established (c.greeting conn) := by
      simp only [connection, runOnce, greeting, hreach, Bool.not_true, Bool.false_eq_true, if_false]
    rw [hconn, established]
    by_cases hok : (c.greeting conn).1 = true
    · simp only [hreach, hok, Bool.not_true, Bool.false_eq_true, and_self, if_true, if_false]
      exact (World.Alike.emit_unobserved (e := .returned) rfl
        (c.greeting conn).2.greeted.messageLoop.closeStream.loadStop.2.world).observed
    · simp only [hok, Bool.not_false, Bool.false_eq_true, and_false, if_true, if_false]
      have hfailed : Alike (c.greeting conn).2 (c.greeting conn).2.handshakeFailed.2 :=
        ((Alike.emit_unobserved rfl _).trans (Alike.set_stream _ _)).trans
          (Alike.emit_unobserved rfl _)
      exact ((alike_greeting conn c).trans hfailed).world.observed
  · have hconn : c.connection conn = { c with shouldReconnect := true }.dial.connectFailed := by
      simp [connection, runOnce, hreach]
    have hfailed : Alike c { c with shouldReconnect := true }.dial.connectFailed.2 :=
      ((Alike.dial c).trans (Alike.emit_unobserved rfl _)).trans (Alike.emit_unobserved rfl _)
    rw [if_neg (fun h => hreach h.1), hconn]
    exact hfailed.world.observed

theorem effects_of_not_greets {c : DeskflowClient} (h : ¬c.Greets) (a : Answers)
    (conn : Connection) : effects a conn c = [] := by
  have hok : ((c.facing a).greeting conn).1 = false := handshake_of_not_greets h
  rw [effects, observed_connection, hok, if_neg (by simp)]
  rfl

/-- Alike clients that both begin a connection with nothing buffered. -/
theorem effects_of_alike {c c' : DeskflowClient} (h : ∀ a, Alike (c.facing a) (c'.facing a))
    (hname : c'.screenName = c.screenName) (hbuf : c.stream.buffer.unread = [])
    (hbuf' : c'.stream.buffer.unread = []) {conn conn' : Connection}
    (hreach : conn'.reachable = conn.reachable)
    (hrecvs : arriving conn'.recvs = arriving conn.recvs) (hsends : Accepting conn.sends)
    (hsends' : Accepting conn'.sends) (a : Answers) : effects a conn' c' = effects a conn c := by
  by_cases hgreets : c.Greets
  · have hopened : Twin ({ c.facing a with shouldReconnect := true }.dial.opened conn)
        ({ c'.facing a with shouldReconnect := true }.dial.opened conn') := by
      refine ⟨?_, ?_, ⟨rfl, hsends⟩, ⟨rfl, hsends'⟩⟩
      · exact (((Alike.dial _).trans (Alike.opened conn _)).symm.trans (h a)).trans
          ((Alike.dial _).trans (Alike.opened conn' _))
      · exact congrArg₂ View.mk (hbuf'.trans hbuf.symm) hrecvs
    obtain ⟨hok, hgreeted⟩ := hopened.handshake hgreets hname
    have hgreeting : ((c'.facing a).greeting conn').1 = ((c.facing a).greeting conn).1 := hok
    rw [effects, effects, observed_connection, observed_connection, hgreeting, hreach]
    split_ifs
    · exact (hgreeted.setStatus _ _).messageLoop.alike.world.observed
    · rfl
  · rw [effects_of_not_greets hgreets, effects_of_not_greets (by rwa [Greets, hname])]

theorem alike_renewed {c : DeskflowClient} (h : c.Clean) (a : Answers) :
    Alike (c.facing a) (c.renewed.facing a) := by
  refine ⟨rfl, rfl, rfl, fun id hid => ?_, h.buttons.symm, .inr ⟨h.transfer, ?_⟩, ⟨rfl, rfl, rfl⟩⟩
  · symm
    by_contra hdown
    have hneg := h.keys id (by simpa [renewed, facing] using hdown)
    omega
  · intro _ hactive
    simp [renewed, facing] at hactive

end DeskflowClient

end Deskflow
