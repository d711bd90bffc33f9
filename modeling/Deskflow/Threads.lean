import Deskflow.Lifetime

/-! The two threads step by step: the worker in its reconnect loop and the JS
thread in `pushClipboard`, in any order. A frame is written in one step. -/

namespace Deskflow

/-- Where the worker stands: before the test of the reconnect loop, before the
handshake, before the test of the message loop, after a handler, after the
message loop, after `runOnce`. -/
inductive Phase
  | idle
  | ready
  | greeting
  | looping
  | answering (keepGoing : Bool)
  | closing
  | leaving (again : Bool)
  deriving DecidableEq, Repr

/-- What is left of a call of `pushClipboard` that has passed its test. -/
inductive Push
  | grab (text : Bytes)
  | send (text : Bytes)
  | frames (os : List Outgoing)
  deriving DecidableEq, Repr

structure System where
  client : DeskflowClient
  phase : Phase := .idle
  push : Option Push := none

/-- A step of the worker, which meets `conn` where it connects, a step of an
upload, or a call of the JS thread. -/
inductive Action
  | work (conn : DeskflowClient.Connection)
  | upload
  | push (text : Bytes)
  | start (host : Bytes) (port : UInt16) (screenName : Bytes)
  | call (k : DeskflowClient.Call)

namespace System

open DeskflowClient

def leave (r : Bool × DeskflowClient) (σ : System) : System :=
  { σ with client := r.2, phase := .leaving r.1 }

def work (conn : Connection) (σ : System) : System :=
  match σ.phase with
  | .idle => σ
  | .ready =>
    if σ.client.loadStop.1 then { σ with client := σ.client.loadStop.2.finish, phase := .idle }
    else
      let c := { σ.client.loadStop.2 with shouldReconnect := true }.dial
      if conn.reachable then { σ with client := c.opened conn, phase := .greeting }
      else σ.leave c.connectFailed
  | .greeting =>
    let r := σ.client.handshake
    if r.1 then { σ with client := r.2.greeted, phase := .looping } else σ.leave r.2.handshakeFailed
  | .looping =>
    if σ.client.loadStop.1 then { σ with client := σ.client.loadStop.2, phase := .closing }
    else
      let r := σ.client.loadStop.2.receive
      { σ with client := r.2, phase := .answering r.1 }
  | .answering keepGoing =>
    let r := acknowledge (keepGoing, σ.client)
    { σ with client := r.2, phase := if r.1 then .looping else .closing }
  | .closing => σ.leave σ.client.loopExited
  | .leaving again =>
    let r := retry (again, σ.client)
    if r.1 then { σ with client := r.2, phase := .ready }
    else { σ with client := r.2.finish, phase := .idle }

def upload (σ : System) : System :=
  match σ.push with
  | none => σ
  | some (.grab text) => { σ with client := σ.client.grabClipboard.2, push := some (.send text) }
  | some (.send text) =>
    if !σ.client.handshakeDone || text.isEmpty then { σ with push := none }
    else
      { σ with
        client := { σ.client with lastClipboardText := text }
        push := some (.frames (transferFrames σ.client.seqNum text)) }
  | some (.frames []) => { σ with push := none }
  | some (.frames (o :: os)) =>
    let r := σ.client.write o
    { σ with client := r.2, push := if r.1 then some (.frames os) else none }

def beginPush (text : Bytes) (σ : System) : System :=
  if σ.push.isSome then σ
  else if !σ.client.clipboardSync || !σ.client.handshakeDone || text.isEmpty then σ
  else { σ with push := some (.grab text) }

def start (host : Bytes) (port : UInt16) (screenName : Bytes) (σ : System) : System :=
  let r := σ.client.start host port screenName
  if r.1 then { σ with client := r.2, phase := .ready } else σ

def step (σ : System) : Action → System
  | .work conn => σ.work conn
  | .upload => σ.upload
  | .push text => σ.beginPush text
  | .start host port screenName => σ.start host port screenName
  | .call k => { σ with client := σ.client.call k }

def run (actions : List Action) (σ : System) : System := actions.foldl step σ

def initial (injections : List InjectOutcome) : System := { client := fresh injections }

theorem run_append (as bs : List Action) (σ : System) : σ.run (as ++ bs) = (σ.run as).run bs :=
  List.foldl_append

theorem run_concat (actions : List Action) (a : Action) (σ : System) :
    σ.run (actions ++ [a]) = (σ.run actions).step a :=
  List.foldl_concat ..

theorem work_moves (conn : Connection) (σ : System) : Moves σ.client (σ.work conn).client := by
  unfold work
  split
  · exact .refl
  · split
    · exact (moves_loadStop _).trans (moves_finish _)
    · have hdial : Moves σ.client { σ.client.loadStop.2 with shouldReconnect := true }.dial :=
        ((moves_loadStop _).trans (moves_shouldReconnect true _)).trans (moves_status _ _)
      dsimp only
      split
      · exact hdial.trans (moves_opened conn _)
      · exact hdial.trans (moves_connectFailed _)
  · dsimp only
    split
    · exact (moves_handshake _).trans (moves_status _ _)
    · exact (moves_handshake _).trans (moves_handshakeFailed _)
  · split
    · exact moves_loadStop _
    · exact (moves_loadStop _).trans (moves_receive _)
  · rename_i keepGoing _
    exact moves_acknowledge (keepGoing, σ.client)
  · exact moves_loopExited _
  · rename_i again _
    have hretry := moves_retry (again, σ.client)
    dsimp only
    split
    · exact hretry
    · exact hretry.trans (moves_finish _)

theorem start_cases (host : Bytes) (port : UInt16) (screenName : Bytes) (σ : System) :
    σ.start host port screenName = σ ∨
      σ.client.running = false ∧ σ.start host port screenName =
        ⟨{ σ.client with
            host := host, port := port, screenName := screenName, running := true },
          .ready, σ.push⟩ := by
  by_cases hrunning : σ.client.running = true
  · left
    simp only [start, DeskflowClient.start, hrunning, if_true, Bool.false_eq_true, if_false]
  · right
    rw [Bool.not_eq_true] at hrunning
    refine ⟨hrunning, ?_⟩
    simp only [start, DeskflowClient.start, hrunning, Bool.false_eq_true, if_false, if_true]

theorem upload_moves (σ : System) : Moves σ.client σ.upload.client := by
  unfold upload
  split
  · exact .refl
  · exact moves_grabClipboard _
  · split
    · exact .refl
    · exact moves_adjust ⟨rfl, rfl, rfl, rfl, rfl, rfl⟩
  · exact .refl
  · exact moves_write _ _

theorem step_moves (σ : System) (a : Action) : Moves σ.client (σ.step a).client := by
  cases a with
  | work conn => exact work_moves conn σ
  | upload => exact upload_moves σ
  | push text =>
    simp only [step, beginPush]
    split_ifs <;> exact .refl
  | start host port screenName =>
    have hstart := moves_start host port screenName σ.client
    simp only [step, start]
    split
    · exact hstart
    · exact .refl
  | call k => exact moves_call k σ.client

theorem run_frames (os : List Outgoing) (c : DeskflowClient) (p : Phase) :
    ∃ n, (System.mk c p (some (.frames os))).run (List.replicate n .upload) =
      ⟨(c.writeAll os).2, p, none⟩ := by
  induction os generalizing c with
  | nil => exact ⟨1, rfl⟩
  | cons o os ih =>
    rcases hw : c.write o with ⟨_ | _, c'⟩
    · refine ⟨1, ?_⟩
      simp [run, step, upload, hw, writeAll]
    · obtain ⟨n, hn⟩ := ih c'
      refine ⟨n + 1, ?_⟩
      rw [writeAll, hw, ← hn]
      simp [run, List.replicate_succ, step, upload, hw]

/-- Undisturbed, the steps of an upload make up the call. -/
theorem run_pushClipboard (text : Bytes) (c : DeskflowClient) (p : Phase) :
    ∃ n, (System.mk c p none).run (.push text :: List.replicate n .upload) =
      ⟨c.pushClipboard text, p, none⟩ := by
  by_cases hguard : (!c.clipboardSync || !c.handshakeDone || text.isEmpty) = true
  · refine ⟨0, ?_⟩
    simp only [run, List.replicate_zero, List.foldl_cons, List.foldl_nil, step, beginPush,
      Option.isSome_none, Bool.false_eq_true, if_false, if_pos hguard, pushClipboard]
  · have hbegin : (System.mk c p none).beginPush text = ⟨c, p, some (.grab text)⟩ := by
      simp only [beginPush, Option.isSome_none, Bool.false_eq_true, if_false, if_neg hguard]
    by_cases hsend : (!c.grabClipboard.2.handshakeDone || text.isEmpty) = true
    · refine ⟨2, ?_⟩
      simp only [run, List.replicate, List.foldl_cons, List.foldl_nil, step, hbegin, upload,
        if_pos hsend, pushClipboard, if_neg hguard, sendClipboard]
    · obtain ⟨n, hn⟩ := run_frames (transferFrames c.grabClipboard.2.seqNum text)
        { c.grabClipboard.2 with lastClipboardText := text } p
      refine ⟨n + 2, ?_⟩
      have htwo : List.replicate (n + 2) Action.upload =
          [.upload, .upload] ++ List.replicate n .upload := rfl
      rw [htwo, ← List.cons_append, run_append]
      simp only [run, List.foldl_cons, List.foldl_nil, step, hbegin, upload, if_neg hsend,
        pushClipboard, if_neg hguard, sendClipboard]
      exact hn

theorem run_loop {c c' : DeskflowClient} (h : Loop c c') (conn : Connection)
    (push : Option Push) :
    ∃ n, (System.mk c .looping push).run (List.replicate n (.work conn)) =
      ⟨c', .closing, push⟩ := by
  induction h with
  | @stop c hstop =>
    refine ⟨1, ?_⟩
    simp only [run, List.replicate, List.foldl_cons, List.foldl_nil, step, work, if_pos hstop]
  | @last c hstop hgo =>
    refine ⟨2, ?_⟩
    rw [iterate] at hgo ⊢
    simp only [run, List.replicate, List.foldl_cons, List.foldl_nil, step, work, hstop, hgo,
      Bool.false_eq_true, if_false]
  | @next c c' hstop hgo _ ih =>
    obtain ⟨n, hn⟩ := ih
    refine ⟨n + 2, ?_⟩
    have htwo : List.replicate (n + 2) (Action.work conn) =
        [.work conn, .work conn] ++ List.replicate n (.work conn) := rfl
    rw [iterate] at hgo hn
    rw [htwo, run_append, ← hn]
    simp only [run, List.foldl_cons, List.foldl_nil, step, work, hstop, hgo,
      Bool.false_eq_true, if_false, if_true]

theorem run_connection {c : DeskflowClient} (h : c.loadStop.1 = false) (conn : Connection)
    (push : Option Push) :
    ∃ n, (System.mk c .ready push).run (List.replicate n (.work conn)) =
      ⟨(c.loadStop.2.connection conn).2, .leaving (c.loadStop.2.connection conn).1, push⟩ := by
  let d := { c.loadStop.2 with shouldReconnect := true }.dial
  have hready : (System.mk c .ready push).work conn =
      if conn.reachable then ⟨d.opened conn, .greeting, push⟩
      else (System.mk c .ready push).leave d.connectFailed := by
    simp only [work, h, Bool.false_eq_true, if_false, d]
  by_cases hreach : conn.reachable = true
  · rw [if_pos hreach] at hready
    have hconn : c.loadStop.2.connection conn = established (d.opened conn).handshake := by
      simp only [connection, runOnce, hreach, Bool.not_true, Bool.false_eq_true, if_false, d]
    rw [hconn]
    by_cases hshake : (d.opened conn).handshake.1 = true
    · obtain ⟨n, hn⟩ := run_loop
        (messageLoop_loop (d.opened conn).handshake.2.greeted) conn push
      refine ⟨n + 3, ?_⟩
      have hsplit : List.replicate (n + 3) (Action.work conn) =
          ([.work conn, .work conn] ++ List.replicate n (.work conn)) ++ [.work conn] := by
        rw [show n + 3 = 2 + n + 1 by omega, List.replicate_succ', List.replicate_add]
        rfl
      have htwo : (System.mk c .ready push).run [.work conn, .work conn] =
          ⟨(d.opened conn).handshake.2.greeted, .looping, push⟩ := by
        simp only [run, List.foldl_cons, List.foldl_nil, step, hready]
        simp only [work, hshake, if_true]
      rw [hsplit, run_append, run_append, htwo, hn]
      simp only [run, List.foldl_cons, List.foldl_nil, step, work, leave, established, hshake,
        Bool.not_true, Bool.false_eq_true, if_false]
    · refine ⟨2, ?_⟩
      simp only [run, List.replicate, List.foldl_cons, List.foldl_nil, step, hready]
      simp [work, leave, established, hshake]
  · rw [if_neg hreach] at hready
    refine ⟨1, ?_⟩
    have hconn : c.loadStop.2.connection conn = d.connectFailed := by
      simp only [connection, runOnce, hreach, d]
      simp
    simp only [run, List.replicate, List.foldl_cons, List.foldl_nil, step, hready, hconn, leave]

/-- A run of the worker, or the part of it that meets the given connections, is
a sequence of its steps. -/
theorem run_run (conns : List Connection) (c : DeskflowClient) (push : Option Push) :
    ∃ actions, ((System.mk c .ready push).run actions).client = c.run conns := by
  induction conns generalizing c with
  | nil =>
    by_cases hstop : c.loadStop.1 = true
    · refine ⟨[.work ⟨false, [], []⟩], ?_⟩
      simp only [run, List.foldl_cons, List.foldl_nil, step, work, if_pos hstop,
        DeskflowClient.run]
    · refine ⟨[.call (.loads c.world.stopLoads.tail c.world.autoLoads)], ?_⟩
      rw [DeskflowClient.run, if_neg hstop]
      rfl
  | cons conn conns ih =>
    by_cases hstop : c.loadStop.1 = true
    · refine ⟨[.work conn], ?_⟩
      simp only [run, List.foldl_cons, List.foldl_nil, step, work, if_pos hstop,
        DeskflowClient.run]
    · obtain ⟨n, hn⟩ := run_connection (Bool.not_eq_true _ ▸ hstop) conn push
      let r := retry (c.loadStop.2.connection conn)
      by_cases hagain : r.1 = true
      · obtain ⟨actions, hactions⟩ := ih r.2
        refine ⟨(List.replicate n (.work conn) ++ [.work conn]) ++ actions, ?_⟩
        have hretry : ((System.mk c .ready push).run
            (List.replicate n (.work conn) ++ [.work conn])) = ⟨r.2, .ready, push⟩ := by
          rw [run_append, hn]
          simp only [run, List.foldl_cons, List.foldl_nil, step, work]
          exact if_pos hagain
        rw [run_append, hretry, hactions, DeskflowClient.run, if_neg hstop]
        exact (if_pos hagain).symm
      · refine ⟨List.replicate n (.work conn) ++ [.work conn], ?_⟩
        have hretry : ((System.mk c .ready push).run
            (List.replicate n (.work conn) ++ [.work conn])) = ⟨r.2.finish, .idle, push⟩ := by
          rw [run_append, hn]
          simp only [run, List.foldl_cons, List.foldl_nil, step, work]
          exact if_neg hagain
        rw [hretry, DeskflowClient.run, if_neg hstop]
        exact (if_neg hagain).symm

theorem run_moves (actions : List Action) (σ : System) : Moves σ.client (σ.run actions).client := by
  induction actions generalizing σ with
  | nil => exact .refl
  | cons a actions ih => exact (step_moves σ a).trans (ih (σ.step a))

end System

namespace DeskflowClient

/-- The client at some point of some run of the two threads. -/
def Life (injections : List InjectOutcome) (c : DeskflowClient) : Prop :=
  ∃ actions, ((System.initial injections).run actions).client = c

theorem Life.moves {injections : List InjectOutcome} {c : DeskflowClient}
    (h : Life injections c) : Moves (fresh injections) c := by
  obtain ⟨actions, rfl⟩ := h
  exact System.run_moves actions (System.initial injections)

theorem Life.call {injections : List InjectOutcome} {c : DeskflowClient} (h : Life injections c)
    (k : Call) : Life injections (c.call k) := by
  obtain ⟨actions, rfl⟩ := h
  exact ⟨actions ++ [.call k], by rw [System.run_append]; rfl⟩

/-- The bytes of a server that greets the client and sends `ms`. -/
def serverBytes (ms : List Message) : Bytes :=
  frameBytes (writef kMsgHello [.str (ascii "Barrier"), .int 1, .int 8]) ++
    ms.flatMap fun m => frameBytes m.payload

/-- A client after `start` and one connection to such a server. -/
def serve (ms : List Message) (c : DeskflowClient) : DeskflowClient :=
  (c.start (ascii "server") 24800 (ascii "ohos")).2.run [⟨true, [.data (serverBytes ms)], []⟩]

theorem Life.serve {injections : List InjectOutcome} {c : DeskflowClient} (h : Life injections c)
    (hidle : c.running = false) (ms : List Message) : Life injections (c.serve ms) := by
  obtain ⟨actions, rfl⟩ := h
  let σ := (System.initial injections).run actions
  let started := (σ.client.start (ascii "server") 24800 (ascii "ohos")).2
  have hstart : σ.step (.start (ascii "server") 24800 (ascii "ohos")) =
      ⟨started, .ready, σ.push⟩ := by
    have hok : (σ.client.start (ascii "server") 24800 (ascii "ohos")).1 = true := by
      simp only [DeskflowClient.start, hidle, Bool.false_eq_true, if_false, σ]
    simp only [System.step, System.start, hok, if_true, started]
  obtain ⟨more, hmore⟩ := System.run_run [⟨true, [.data (serverBytes ms)], []⟩] started σ.push
  refine ⟨actions ++ .start (ascii "server") 24800 (ascii "ohos") :: more, ?_⟩
  rw [System.run_append]
  change ((σ.step _).run more).client = _
  rw [hstart, hmore]
  rfl

def session (ms : List Message) : DeskflowClient := (fresh []).serve ms

theorem life_session (ms : List Message) : Life [] (session ms) :=
  Life.serve ⟨[], rfl⟩ rfl ms

end DeskflowClient

namespace System

open DeskflowClient

/-- The JS thread switches the clipboard setting on, the worker is started and
meets a connection on which the server sends `ms`. -/
def serving (ms : List Message) (steps : Nat) : List Action :=
  .call (.setClipboardSync true) :: .start (ascii "server") 24800 (ascii "ohos") ::
    List.replicate steps (.work ⟨true, [.data (serverBytes ms)], []⟩)

end System

end Deskflow
