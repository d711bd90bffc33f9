import Deskflow.BufferBytes

/-! How far the read buffer grows while a connection is open. -/

namespace Deskflow

open DeskflowClient

namespace DeskflowClient

def sinceOpened (c : DeskflowClient) : List Message := handledIn (latest c.world.log)

theorem handledIn_latest_of_grows {p : Outgoing → Prop} {log log' : List Event}
    (h : History.Grows (Writes p) log log') : handledIn (latest log') = handledIn (latest log) := by
  obtain ⟨es, rfl, hes⟩ := h
  have hconn : .connected ∉ es := fun hmem => (hes _ hmem).1 rfl
  have hnone : handledIn es = [] := by
    apply List.filterMap_eq_nil_iff.mpr
    intro e he
    cases e with
    | handled m => exact absurd rfl ((hes _ he).2.1 m)
    | _ => rfl
  rw [latest_append hconn, handledIn, List.filterMap_append]
  exact (congrArg (handledIn (latest log) ++ ·) hnone).trans (List.append_nil _)

theorem Emits.sinceOpened {p : Outgoing → Prop} {c c' : DeskflowClient} (h : Emits p c c') :
    c'.sinceOpened = c.sinceOpened := handledIn_latest_of_grows h.log

theorem opened_sinceOpened (conn : Connection) (c : DeskflowClient) :
    (c.opened conn).sinceOpened = [] := by
  have hlog : (c.opened conn).world.log =
      (c.world.log ++ [.connected]) ++ [.status (ascii "connected, handshake...")] := rfl
  rw [DeskflowClient.sinceOpened, hlog, latest_concat, latest_concat]
  rfl

theorem handle_sinceOpened (key : Bytes) (m : Message) (c : DeskflowClient) :
    ((c.emit (.dispatched key)).handle m).2.sinceOpened = c.sinceOpened ++ [m] := by
  obtain ⟨es, hlog, heff⟩ := handle_log m (c.emit (.dispatched key))
  have hgrow : History.Grows (Writes fun _ => True) c.world.log
      (c.world.log ++ ([.dispatched key] ++ es)) := by
    refine ⟨_, rfl, ?_⟩
    intro e he
    rcases List.mem_append.mp he with he | he
    · rw [List.mem_singleton.mp he]
      simp [Writes]
    · have hone := heff e he
      cases e <;> simp_all [Writes, Event.isEffect, Event.isInternal]
  have hold := handledIn_latest_of_grows hgrow
  have hshape : ((c.emit (.dispatched key)).handle m).2.world.log =
      (c.world.log ++ ([.dispatched key] ++ es)) ++ [.handled m] := by
    rw [hlog, emit, World.emit, List.append_assoc (c.world.log)]
  rw [DeskflowClient.sinceOpened, hshape, latest_concat, if_neg (by simp), handledIn,
    List.filterMap_append]
  exact congrArg (· ++ [m]) hold

def bodies (ms : List Message) : Nat := 11 + (ms.map fun m => m.payload.length).sum

theorem bodies_concat (ms : List Message) (m : Message) :
    bodies (ms ++ [m]) = bodies ms + m.payload.length := by
  simp only [bodies, List.map_append, List.sum_append, List.map_singleton, List.sum_singleton]
  omega

/-- A server that sends a Hello and then messages, each in a frame of its own. -/
def Connection.WellFormed (conn : Connection) : Prop :=
  ∃ (hello : Bytes) (ms : List Message), hello.length = 11 ∧ (∀ m ∈ ms, m.WellFormed) ∧
    arriving conn.recvs = frameBytes hello ++ ms.flatMap fun m => frameBytes m.payload

def ToCome (c : DeskflowClient) : Prop :=
  ∃ ms : List Message, (∀ m ∈ ms, m.WellFormed) ∧
    c.stream.view = ⟨[], ms.flatMap fun m => frameBytes m.payload⟩

/-- The buffer still stores everything that was read on the connection. -/
def Filled (c : DeskflowClient) : Prop :=
  c.stream.buffer.bytes.length = bodies c.sinceOpened

/-- A connection is open: before the Hello, between two frames, or at the end. -/
def Opened : Phase → DeskflowClient → Prop
  | .greeting, c => c.stream.buffer.bytes = [] ∧ c.sinceOpened = [] ∧
      ∃ (hello : Bytes) (ms : List Message), hello.length = 11 ∧ (∀ m ∈ ms, m.WellFormed) ∧
        c.stream.view = ⟨[], frameBytes hello ++ ms.flatMap fun m => frameBytes m.payload⟩
  | .looping, c => Filled c ∧ ToCome c
  | .answering again, c => Filled c ∧ (again = true → ToCome c)
  | .closing, c => Filled c
  | _, _ => False

theorem Filled.congr {c c' : DeskflowClient} (h : Filled c)
    (hbuf : c'.stream.buffer.bytes = c.stream.buffer.bytes)
    (hsince : c'.sinceOpened = c.sinceOpened) : Filled c' := by
  rw [Filled, hbuf, hsince]
  exact h

theorem ToCome.congr {c c' : DeskflowClient} (h : ToCome c)
    (hview : c'.stream.view = c.stream.view) : ToCome c' := by
  rw [ToCome, hview]
  exact h

theorem receive_filled {c : DeskflowClient} (hfilled : Filled c) (hcome : ToCome c) :
    Filled c.receive.2 ∧ (c.receive.1 = true → ToCome c.receive.2) := by
  obtain ⟨ms, hms, hview⟩ := hcome
  have hbytes := c.receive_bytes
  obtain ⟨s, -, hs, he⟩ := c.receive_eq_digest
  cases ms with
  | nil =>
    have ha : c.stream.view.arrival = (.lost, ⟨[], []⟩) := by
      rw [hview]
      rfl
    rw [nextFrame_of_empty hview, List.append_nil] at hbytes
    rw [ha] at he
    have hlost : c.receive.1 = false ∧ c.receive.2.sinceOpened = c.sinceOpened := by
      rw [he]
      simp only [digest, deliver]
      split_ifs <;> exact ⟨rfl, handledIn_latest_of_grows (p := fun _ => True)
        (.single (writes_status _ _) _)⟩
    exact ⟨hfilled.congr hbytes hlost.2, fun hgo => by simp [hlost.1] at hgo⟩
  | cons m ms =>
    have hm := hms m (by simp)
    rw [List.flatMap_cons] at hview
    have ha := View.arrival_payload hm (ms.flatMap fun m => frameBytes m.payload)
    rw [← hview] at ha
    rw [nextFrame_of_view hm.frame hview] at hbytes
    rw [ha] at he hs
    have hsince : c.receive.2.sinceOpened = c.sinceOpened ++ [m] := by
      rw [he]
      exact handle_sinceOpened _ m _
    refine ⟨?_, fun _ => ⟨ms, fun m hm => hms m (List.mem_cons_of_mem _ hm), ?_⟩⟩
    · rw [Filled, hbytes, hsince, List.length_append, bodies_concat, hfilled]
    · rw [he]
      exact (perform_sameInput m _).view.trans hs

theorem handshake_filled {c : DeskflowClient} (h : Opened .greeting c) :
    Filled c.handshake.2 ∧ ToCome c.handshake.2 := by
  obtain ⟨hempty, hsince, hello, ms, hlen, hms, hview⟩ := h
  have hbytes := c.handshake_bytes
  rw [nextFrame_of_view (by omega) hview, hempty, List.nil_append] at hbytes
  have hsame := (handshake_emits c).sinceOpened
  obtain ⟨s, -, hs, he⟩ := c.handshake_eq
  rw [hview, View.hello_frame (by omega) (by omega)] at hs he
  dsimp only at hs he
  rw [List.drop_of_length_le (by omega)] at hs
  refine ⟨?_, ms, hms, ?_⟩
  · rw [Filled, hbytes, hsame, hsince, hlen]
    rfl
  · rw [he, (answerHello_sameInput _ _ _ _).view]
    exact hs

end DeskflowClient

namespace System

/-- While a connection is open the buffer stores every frame that was read on
it; otherwise it is empty. -/
structure Stores (σ : System) : Prop where
  closed : σ.client.stream.connected = false → σ.client.stream.buffer.bytes = []
  opened : σ.client.stream.connected = true → Opened σ.phase σ.client

namespace Stores

variable {σ : System}

theorem view_of_closed (h : Stores σ) (hc : σ.client.stream.connected = false) :
    σ.client.stream.view = ⟨[], []⟩ := by
  have hempty := h.closed hc
  simp [SocketStream.view, ReadBuffer.unread, hempty, hc]

theorem same {σ' : System} (h : Stores σ) (hphase : σ'.phase = σ.phase)
    (hin : SocketStream.SameInput σ.client.stream σ'.client.stream)
    (hsince : σ'.client.sinceOpened = σ.client.sinceOpened) : Stores σ' := by
  refine ⟨fun hc => ?_, fun hc => ?_⟩
  · rw [hin.buffer]
    exact h.closed (hin.connected.symm.trans hc)
  · have hold := h.opened (hin.connected.symm.trans hc)
    have hbuf := congrArg ReadBuffer.bytes hin.buffer
    rw [hphase]
    cases hp : σ.phase with
    | greeting =>
      rw [hp] at hold
      obtain ⟨hempty, hnone, hello, ms, hlen, hms, hview⟩ := hold
      exact ⟨hbuf.trans hempty, hsince.trans hnone, hello, ms, hlen, hms, hin.view.trans hview⟩
    | looping =>
      rw [hp] at hold
      exact ⟨hold.1.congr hbuf hsince, hold.2.congr hin.view⟩
    | answering again =>
      rw [hp] at hold
      exact ⟨hold.1.congr hbuf hsince, fun hagain => (hold.2 hagain).congr hin.view⟩
    | closing =>
      rw [hp] at hold
      exact Filled.congr hold hbuf hsince
    | _ =>
      rw [hp] at hold
      exact hold.elim

theorem of_closed {c : DeskflowClient} {phase : Phase} {push : Option Push}
    (hc : c.stream.connected = false) (hempty : c.stream.buffer.bytes = []) :
    Stores ⟨c, phase, push⟩ :=
  ⟨fun _ => hempty, fun hopen => absurd (hopen.symm.trans hc) (by decide)⟩

theorem work (h : Stores σ) {conn : Connection} (hconn : conn.WellFormed) :
    Stores (σ.work conn) := by
  obtain ⟨c, phase, push⟩ := σ
  cases phase with
  | idle => exact h
  | ready =>
    have hc : c.stream.connected = false := Bool.eq_false_of_not_eq_true h.opened
    have hempty := h.closed hc
    simp only [System.work]
    split_ifs
    · have hstream : c.loadStop.2.finish.stream = c.stream := finish_stream _
      exact of_closed (hstream ▸ hc) (hstream ▸ hempty)
    · obtain ⟨hello, ms, hlen, hms, hrecvs⟩ := hconn
      have hunread : c.stream.buffer.unread = [] :=
        (congrArg (List.drop _) hempty).trans List.drop_nil
      exact ⟨fun hc => Bool.noConfusion hc, fun _ => ⟨hempty, opened_sinceOpened _ _, hello, ms,
        hlen, hms, congrArg₂ View.mk hunread hrecvs⟩⟩
    · exact of_closed hc hempty
  | greeting =>
    simp only [System.work]
    split_ifs with hok
    · refine ⟨fun hc => ?_, fun hopen => ?_⟩
      · have hc' := (handshake_connected c).symm.trans hc
        have hbytes := c.handshake_bytes
        rw [nextFrame_of_empty (h.view_of_closed hc'), h.closed hc'] at hbytes
        exact hbytes
      · obtain ⟨hfilled, hcome⟩ :=
          handshake_filled (h.opened ((handshake_connected c).symm.trans hopen))
        have hsince : c.handshake.2.greeted.sinceOpened = c.handshake.2.sinceOpened :=
          (Emits.setStatus (p := fun _ => True) _ _).sinceOpened
        exact ⟨hfilled.congr rfl hsince, hcome.congr rfl⟩
    · exact of_closed rfl rfl
  | looping =>
    simp only [System.work]
    split_ifs
    · refine ⟨h.closed, ?_⟩
      intro hopen
      exact (h.opened hopen).1.congr rfl rfl
    · refine ⟨fun hc => ?_, fun hopen => ?_⟩
      · have hc' := (receive_connected c.loadStop.2).symm.trans hc
        have hbytes := c.loadStop.2.receive_bytes
        have hnext : c.loadStop.2.nextFrame = [] := nextFrame_of_empty (h.view_of_closed hc')
        rw [hnext, List.append_nil] at hbytes
        exact hbytes.trans (h.closed hc')
      · obtain ⟨hfilled, hcome⟩ := h.opened ((receive_connected c.loadStop.2).symm.trans hopen)
        exact receive_filled (hfilled.congr rfl rfl) (hcome.congr rfl)
  | answering keepGoing =>
    have hin := acknowledge_sameInput (keepGoing, c)
    have hsince := (acknowledge_emits (keepGoing, c)).sinceOpened
    have hbuf := congrArg ReadBuffer.bytes hin.buffer
    refine ⟨fun hc => hbuf.trans (h.closed (hin.connected.symm.trans hc)), fun hopen => ?_⟩
    obtain ⟨hfilled, hcome⟩ := h.opened (hin.connected.symm.trans hopen)
    simp only [System.work]
    split_ifs with hgo
    · refine ⟨hfilled.congr hbuf hsince, (hcome ?_).congr hin.view⟩
      cases keepGoing with
      | true => rfl
      | false => simp [acknowledge] at hgo
    · exact hfilled.congr hbuf hsince
  | closing => exact of_closed rfl rfl
  | leaving again =>
    have hc : c.stream.connected = false := Bool.eq_false_of_not_eq_true h.opened
    have hempty := h.closed hc
    have hretry : (retry (again, c)).2.stream = c.stream := retry_stream (again, c)
    simp only [System.work]
    split_ifs
    · exact of_closed (hretry ▸ hc) (hretry ▸ hempty)
    · have hstream : (retry (again, c)).2.finish.stream = c.stream :=
        (finish_stream _).trans hretry
      exact of_closed (hstream ▸ hc) (hstream ▸ hempty)

theorem upload (h : Stores σ) : Stores σ.upload := by
  have hwrite (o : Outgoing) : SocketStream.SameInput σ.client.stream (σ.client.write o).2.stream ∧
      (σ.client.write o).2.sinceOpened = σ.client.sinceOpened :=
    ⟨write_sameInput o σ.client, (write_emits o σ.client).sinceOpened⟩
  unfold System.upload
  split
  · exact h
  · unfold grabClipboard
    split_ifs
    · exact h.same rfl (.refl _) rfl
    · exact h.same rfl (hwrite _).1 (hwrite _).2
  · split_ifs
    · exact h.same rfl (.refl _) rfl
    · exact h.same rfl (.refl _) rfl
  · exact h.same rfl (.refl _) rfl
  · exact h.same rfl (hwrite _).1 (hwrite _).2

theorem step (h : Stores σ) (hsettled : Settled σ) {a : Action}
    (ha : ∀ conn, a = .work conn → conn.WellFormed) : Stores (σ.step a) := by
  cases a with
  | work conn => exact h.work (ha conn rfl)
  | upload => exact h.upload
  | push text =>
    simp only [System.step, beginPush]
    split_ifs
    · exact h
    · exact h
    · exact h.same rfl (.refl _) rfl
  | start host port screenName =>
    rw [System.step]
    rcases σ.start_cases host port screenName with hstart | ⟨hstopped, hstart⟩
    · rw [hstart]
      exact h
    · have hc : σ.client.stream.connected = false := by
        apply Bool.eq_false_of_not_eq_true
        intro hopen
        have hnone := h.opened hopen
        rw [hsettled.idle_of_stopped hstopped] at hnone
        exact hnone
      rw [hstart]
      exact of_closed hc (h.closed hc)
  | call k =>
    cases k with
    | stop => exact of_closed rfl rfl
    | setClipboardSync enable =>
      refine h.same rfl ⟨rfl, rfl, rfl⟩ ?_
      exact handledIn_latest_of_grows (p := fun _ => True) (.single (by simp [Writes]) _)
    | _ => exact h.same rfl ⟨rfl, rfl, rfl⟩ rfl

end Stores

theorem stores_run (injections : List InjectOutcome) {actions : List Action}
    (h : ∀ conn, .work conn ∈ actions → conn.WellFormed) :
    Stores ((initial injections).run actions) := by
  induction actions using List.reverseRecOn with
  | nil => exact Stores.of_closed rfl rfl
  | append_singleton actions a ih =>
    rw [run_concat]
    refine (ih fun conn hmem => h conn (by simp [hmem])).step (settled_run injections actions) ?_
    rintro conn rfl
    exact h conn (by simp)

/-- In every state of an open connection, the read buffer is within one maximal
frame exactly as long as the Hello and the messages handled on the connection are. -/
theorem buffer_bounded_iff (injections : List InjectOutcome) {actions : List Action}
    (h : ∀ conn, .work conn ∈ actions → conn.WellFormed)
    (hopen : ((initial injections).run actions).client.stream.connected = true) :
    ((initial injections).run actions).client.stream.buffer.bytes.length ≤ 4 * 1024 * 1024 ↔
      bodies ((initial injections).run actions).client.sinceOpened ≤ 4 * 1024 * 1024 := by
  have hopened := (stores_run injections h).opened hopen
  cases hp : ((initial injections).run actions).phase with
  | greeting =>
    rw [hp] at hopened
    rw [hopened.1, hopened.2.1]
    decide
  | looping =>
    rw [hp] at hopened
    rw [hopened.1]
  | answering again =>
    rw [hp] at hopened
    rw [hopened.1]
  | closing =>
    rw [hp] at hopened
    rw [show _ = _ from hopened]
  | _ =>
    rw [hp] at hopened
    exact hopened.elim

end System

namespace DeskflowClient

theorem iterate_bytes (c : DeskflowClient) :
    c.iterate.2.stream.buffer.bytes = c.stream.buffer.bytes ++ c.nextFrame :=
  (congrArg ReadBuffer.bytes (acknowledge_sameInput c.receive).buffer).trans c.receive_bytes

theorem iterate_connected (c : DeskflowClient) :
    c.iterate.2.stream.connected = c.stream.connected :=
  (acknowledge_sameInput c.receive).connected.trans c.receive_connected

theorem loopFor_bytes {n : Nat} {ms : List Message} {c : DeskflowClient} (h : InStep ms c)
    (hms : ∀ m ∈ ms, m.terminating = false) (hn : ms.length < n) :
    (c.loopFor n).stream.buffer.bytes = c.stream.buffer.bytes ++ ms.flatMap Message.payload ∧
      (c.loopFor n).stream.connected = c.stream.connected := by
  induction ms generalizing n c with
  | nil =>
    obtain ⟨n, rfl⟩ : ∃ k, n = k + 1 := ⟨n - 1, by omega⟩
    rw [h.loopFor_nil]
    obtain ⟨-, h⟩ := h.loadStop
    have hbytes := c.loadStop.2.iterate_bytes
    rw [nextFrame_of_empty h.view] at hbytes
    exact ⟨hbytes, c.loadStop.2.iterate_connected⟩
  | cons m ms ih =>
    obtain ⟨n, rfl⟩ : ∃ k, n = k + 1 := ⟨n - 1, by omega⟩
    rw [h.loopFor_cons (hms m (by simp))]
    obtain ⟨-, h⟩ := h.loadStop
    obtain ⟨-, hstep, -⟩ := h.iterate
    have hview := h.view
    rw [List.flatMap_cons] at hview
    have hbytes := c.loadStop.2.iterate_bytes
    rw [nextFrame_of_view (h.wellFormed m (by simp)).frame hview] at hbytes
    rw [List.length_cons] at hn
    obtain ⟨hrest, hconn⟩ := ih hstep (fun m hm => hms m (List.mem_cons_of_mem _ hm))
      (show ms.length < n by omega)
    rw [hrest, hbytes, List.append_assoc, ← List.flatMap_cons]
    exact ⟨rfl, hconn.trans c.loadStop.2.iterate_connected⟩

/-- A session that no message ends keeps all of its frames in the buffer. -/
theorem session_bytes {c : DeskflowClient} (h : Ready c) (hgreets : c.Greets)
    {ms : List Message} (hwell : ∀ m ∈ ms, m.WellFormed) (hms : ∀ m ∈ ms, m.terminating = false)
    (hview : c.stream.view = ⟨[], serverBytes ms⟩) (hempty : c.stream.buffer.bytes = [])
    (hstop : c.world.stopLoads = []) :
    c.handshake.1 = true ∧ c.handshake.2.greeted.messageLoop.stream.connected = true ∧
      c.handshake.2.greeted.messageLoop.stream.buffer.bytes.length = bodies ms := by
  obtain ⟨hok, hview', hready⟩ := handshake_serverBytes h hgreets hview
  have hnone : c.handshake.2.world.stopLoads = [] :=
    (Alike.handshake c).world.stopLoads.trans hstop
  have hin : InStep ms c.handshake.2.greeted :=
    ⟨hwell, hview', ⟨hready.connected, hready.accepting⟩, fun b hb => by
      simp [greeted, setStatus, emit, World.emit, hnone] at hb⟩
  obtain ⟨hbytes, hconn⟩ := loopFor_bytes hin hms hin.length_lt
  let hello := writef kMsgHello [.str (ascii "Barrier"), .int 1, .int 8]
  have hlong : hello.length = 11 := by decide +kernel
  have hhello : c.handshake.2.stream.buffer.bytes = hello := by
    have hnext : c.nextFrame = hello := nextFrame_of_view (by omega) hview
    rw [handshake_bytes, hempty, hnext, List.nil_append]
  refine ⟨hok, hconn.trans hready.connected, ?_⟩
  have hgreeted : c.handshake.2.greeted.stream.buffer.bytes = hello := hhello
  rw [messageLoop, hbytes, hgreeted, List.length_append, hlong, List.length_flatMap, bodies]

end DeskflowClient

namespace System

theorem exists_run_stores {ms : List Message} (hwell : ∀ m ∈ ms, m.WellFormed)
    (hms : ∀ m ∈ ms, m.terminating = false) :
    ∃ actions, (∀ conn, Action.work conn ∈ actions → conn.WellFormed) ∧
      ((initial []).run actions).client.stream.connected = true ∧
      ((initial []).run actions).client.stream.buffer.bytes.length = bodies ms := by
  let conn : Connection := ⟨true, [.data (serverBytes ms)], []⟩
  obtain ⟨d, hd, hready, hgreets, hview, hempty, hstop⟩ :
      ∃ d, (initial []).run [.start (ascii "server") 24800 (ascii "ohos"), .work conn] =
          ⟨d, .greeting, none⟩ ∧ Ready d ∧ d.Greets ∧ d.stream.view = ⟨[], serverBytes ms⟩ ∧
        d.stream.buffer.bytes = [] ∧ d.world.stopLoads = [] :=
    ⟨_, rfl, ⟨rfl, by simp [Accepting, opened, SocketStream.connect, emit, setStatus, conn]⟩,
      (show (ascii "ohos").length + 15 ≤ 4 * 1024 * 1024 by decide),
      congrArg (View.mk []) (arriving_data (serverBytes ms)), rfl, rfl⟩
  obtain ⟨hok, hconn, hbytes⟩ := session_bytes hready hgreets hwell hms hview hempty hstop
  obtain ⟨n, hn⟩ := run_loop (messageLoop_loop d.handshake.2.greeted) conn none
  refine ⟨[.start (ascii "server") 24800 (ascii "ohos"), .work conn] ++
    ([.work conn] ++ List.replicate n (.work conn)), ?_, ?_⟩
  · intro conn' hmem
    obtain rfl : conn' = conn := by
      simp only [List.mem_append, List.mem_cons, List.mem_replicate, Action.work.injEq,
        reduceCtorEq, List.not_mem_nil, or_false, false_or] at hmem
      rcases hmem with rfl | rfl | ⟨-, rfl⟩ <;> rfl
    exact ⟨_, ms, by decide +kernel, hwell, arriving_data (serverBytes ms)⟩
  · have hgreeting : (System.mk d .greeting none).run [.work conn] =
        ⟨d.handshake.2.greeted, .looping, none⟩ := by
      simp only [run, List.foldl_cons, List.foldl_nil, step, work, hok, if_true]
    rw [run_append, hd, run_append, hgreeting, hn]
    exact ⟨hconn, hbytes⟩

theorem buffer_bounded_iff_opened :
    let actions : List Action := [.start (ascii "server") 24800 (ascii "ohos"),
      .work ⟨true, [.data (serverBytes [])], []⟩, .work ⟨true, [.data (serverBytes [])], []⟩]
    ((initial []).run actions).client.stream.buffer.bytes.length ≤ 4 * 1024 * 1024 := by
  intro actions
  have hfew : bodies ((initial []).run actions).client.sinceOpened ≤ 4 * 1024 * 1024 := by
    decide +kernel
  refine (buffer_bounded_iff [] (fun conn hmem => ?_) (by decide +kernel)).mpr hfew
  have hconn : conn = ⟨true, [.data (serverBytes [])], []⟩ := by
    simp only [actions, List.mem_cons, Action.work.injEq, reduceCtorEq, List.not_mem_nil, or_false,
      false_or] at hmem
    rcases hmem with rfl | rfl <;> rfl
  rw [hconn]
  exact ⟨_, [], by decide +kernel, by simp, arriving_data (serverBytes [])⟩

/-- After half a million mouse moves the buffer is over the limit. -/
theorem buffer_not_bounded :
    ¬∀ (injections : List InjectOutcome) (actions : List Action),
      (∀ conn, Action.work conn ∈ actions → conn.WellFormed) →
      ((initial injections).run actions).client.stream.connected = true →
      ((initial injections).run actions).client.stream.buffer.bytes.length ≤ 4 * 1024 * 1024 := by
  intro hbounded
  obtain ⟨n, hn⟩ : ∃ n, 4 * 1024 * 1024 < 11 + n * 8 := ⟨524288, by norm_num⟩
  have hmove : ∀ m ∈ List.replicate n (Message.dmmv 5 5),
      m.WellFormed ∧ m.terminating = false := by
    intro m hm
    rw [(List.mem_replicate.mp hm).2]
    exact ⟨⟨by simp [Message.args], by decide +kernel⟩, rfl⟩
  obtain ⟨actions, hconns, hopen, hbytes⟩ :=
    exists_run_stores (fun m hm => (hmove m hm).1) fun m hm => (hmove m hm).2
  have hlen : (Message.dmmv 5 5).payload.length = 8 := by decide +kernel
  have hle := hbounded [] actions hconns hopen
  rw [hbytes, bodies, List.map_replicate, hlen, List.sum_replicate_nat] at hle
  omega

end System

end Deskflow
