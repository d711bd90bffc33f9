import Deskflow.Stopping

/-! `connectDeskflow` on the JS thread and the worker threads that it starts. A worker has
left its loop before it reports, so two of them can be alive. -/

namespace Deskflow

/-- Where a worker stands: in its loop, before the store of `m_running`, before the last
test of the stop flag, or past its end. `asked` tells whether the flag was set at the
store. -/
inductive WorkerStage
  | running (phase : Phase)
  | clearing
  | reporting (asked : Bool)
  | gone
  deriving DecidableEq, Repr

/-- A worker with the arguments of the call that started it. -/
structure WorkerThread where
  target : Target
  stage : WorkerStage
  deriving DecidableEq, Repr

def WorkerThread.active (w : WorkerThread) : Bool :=
  match w.stage with
  | .running _ => true
  | .clearing => true
  | _ => false

/-- Where the JS thread stands in `connectDeskflow`: outside it, before the test of the
wait, before the test after it, and in `start` before its test and its three stores. -/
inductive CallStage
  | free
  | polling
  | deciding
  | starting
  | arming
  | launching
  | spawning
  deriving DecidableEq, Repr

/-- The answers: "client starting", "previous client is still stopping" and "client
already running". -/
inductive ConnectReply
  | starting
  | stillStopping
  | alreadyRunning
  deriving DecidableEq, Repr

/-- A report of "disconnected": by which worker, whether at the end of `run` or by `runOnce`
for a read that failed, and whether the worker had been asked to stop. -/
structure Report where
  worker : Nat
  last : Bool
  asked : Bool
  deriving DecidableEq, Repr

/-- The flags, the members that `start` sets, the threads, the answers with the number of
sleeps before them, and the reports of "disconnected". -/
structure Handover where
  running : Bool := false
  stopRequested : Bool := false
  target : Option Target := none
  workers : List WorkerThread := []
  stage : CallStage := .free
  requested : Target := ⟨[], 0, []⟩
  slept : Nat := 0
  replies : List (ConnectReply × Nat) := []
  reports : List Report := []

namespace Handover

def move (k : Nat) (w : WorkerThread) (stage : WorkerStage) (σ : Handover) : Handover :=
  { σ with workers := σ.workers.set k { w with stage := stage } }

/-- A step of the `k`-th worker. The loop tests the stop flag where it begins a round, and
`runOnce` where a read of the message loop has failed. -/
inductive Work : Handover → Handover → Prop
  | next {σ : Handover} (k : Nat) (w : WorkerThread) (p q : Phase) : σ.workers[k]? = some w →
      w.stage = .running p → p.Next q → q ≠ .idle →
      (p = .ready ∨ q = .ready → σ.stopRequested = false) →
      Work σ (σ.move k w (.running q))
  | lost {σ : Handover} (k : Nat) (w : WorkerThread) : σ.workers[k]? = some w →
      w.stage = .running .looping → σ.stopRequested = true →
      Work σ { σ.move k w (.running .closing) with
        reports := σ.reports ++ [⟨k, false, true⟩] }
  | finish {σ : Handover} (k : Nat) (w : WorkerThread) (p : Phase) : σ.workers[k]? = some w →
      w.stage = .running p → p.Next .idle → (p = .ready → σ.stopRequested = true) →
      Work σ (σ.move k w .clearing)
  | clear {σ : Handover} (k : Nat) (w : WorkerThread) : σ.workers[k]? = some w →
      w.stage = .clearing →
      Work σ { σ.move k w (.reporting σ.stopRequested) with running := false }
  | report {σ : Handover} (k : Nat) (w : WorkerThread) (asked : Bool) :
      σ.workers[k]? = some w → w.stage = .reporting asked →
      Work σ { σ.move k w .gone with
        reports := if σ.stopRequested then σ.reports else σ.reports ++ [⟨k, true, asked⟩] }

def answer (reply : ConnectReply) (σ : Handover) : Handover :=
  { σ with stage := .free, replies := σ.replies ++ [(reply, σ.slept)] }

/-- A step of the JS thread. -/
inductive Call : Handover → Handover → Prop
  | disconnect {σ : Handover} : σ.stage = .free → Call σ { σ with stopRequested := true }
  | connect {σ : Handover} (target : Target) : σ.stage = .free →
      Call σ { σ with stopRequested := true, stage := .polling, requested := target, slept := 0 }
  | sleep {σ : Handover} : σ.stage = .polling → σ.slept < 15 → σ.running = true →
      Call σ { σ with slept := σ.slept + 1 }
  | polled {σ : Handover} : σ.stage = .polling → ¬(σ.slept < 15 ∧ σ.running = true) →
      Call σ { σ with stage := .deciding }
  | refuse {σ : Handover} : σ.stage = .deciding → σ.running = true →
      Call σ (σ.answer .stillStopping)
  | proceed {σ : Handover} : σ.stage = .deciding → σ.running = false →
      Call σ { σ with stage := .starting }
  | already {σ : Handover} : σ.stage = .starting → σ.running = true →
      Call σ (σ.answer .alreadyRunning)
  | assign {σ : Handover} : σ.stage = .starting → σ.running = false →
      Call σ { σ with target := some σ.requested, stage := .arming }
  | arm {σ : Handover} : σ.stage = .arming →
      Call σ { σ with stopRequested := false, stage := .launching }
  | launch {σ : Handover} : σ.stage = .launching →
      Call σ { σ with running := true, stage := .spawning }
  | spawn {σ : Handover} : σ.stage = .spawning →
      Call σ (answer .starting
        { σ with workers := σ.workers ++ [⟨σ.requested, .running .ready⟩] })

inductive Step : Handover → Handover → Prop
  | work {σ σ' : Handover} : Work σ σ' → Step σ σ'
  | call {σ σ' : Handover} : Call σ σ' → Step σ σ'

abbrev Steps : Handover → Handover → Prop := Relation.ReflTransGen Step

def active (σ : Handover) : Nat := σ.workers.countP WorkerThread.active

/-- Between its test and the start of the thread `start` has the client to itself. -/
def Launching (σ : Handover) : Prop :=
  σ.stage = .starting ∨ σ.stage = .arming ∨ σ.stage = .launching

/-- What the answer of a call tells about its wait. -/
def ReplyHolds : ConnectReply × Nat → Prop
  | (.starting, slept) => slept ≤ 15
  | (.stillStopping, slept) => slept = 15
  | (.alreadyRunning, _) => False

structure Sole (σ : Handover) : Prop where
  count : σ.active + (if σ.stage = .spawning then 1 else 0) = if σ.running then 1 else 0
  launching : σ.Launching → σ.running = false
  slept : σ.slept ≤ 15
  waited : σ.stage = .deciding → σ.running = true → σ.slept = 15
  target : ∀ w ∈ σ.workers, w.active = true → σ.target = some w.target
  assigned : σ.stage = .arming ∨ σ.stage = .launching ∨ σ.stage = .spawning →
    σ.target = some σ.requested
  replies : ∀ r ∈ σ.replies, ReplyHolds r

theorem active_move {σ : Handover} {k : Nat} {w : WorkerThread} (hk : σ.workers[k]? = some w)
    (stage : WorkerStage) :
    (σ.move k w stage).active + (if w.active then 1 else 0) =
      σ.active + if ({ w with stage := stage } : WorkerThread).active then 1 else 0 := by
  obtain ⟨hlt, hget⟩ := List.getElem?_eq_some_iff.mp hk
  have hle := List.boole_getElem_le_countP (p := WorkerThread.active) hlt
  have hset := List.countP_set (p := WorkerThread.active) (a := { w with stage := stage }) hlt
  rw [hget] at hle hset
  show (σ.workers.set k _).countP _ + _ = _
  rw [hset]
  show σ.active - _ + _ + _ = _
  change _ ≤ σ.active at hle
  omega

theorem mem_move {σ : Handover} {k : Nat} {w w' : WorkerThread} {stage : WorkerStage}
    (h : w' ∈ (σ.move k w stage).workers) : w' = { w with stage := stage } ∨ w' ∈ σ.workers :=
  (List.mem_or_eq_of_mem_set h).symm

namespace Sole

variable {σ σ' : Handover}

theorem move (h : Sole σ) {k : Nat} {w : WorkerThread} (hk : σ.workers[k]? = some w)
    {stage : WorkerStage}
    (hactive : ({ w with stage := stage } : WorkerThread).active = w.active) :
    Sole (σ.move k w stage) := by
  have hmove := active_move hk stage
  rw [hactive] at hmove
  refine ⟨?_, h.launching, h.slept, h.waited, fun w' hw' hon => ?_, h.assigned, h.replies⟩
  · have hcount := h.count
    have hsame : (σ.move k w stage).active = σ.active := by omega
    rw [hsame]
    exact hcount
  · rcases mem_move hw' with rfl | hold
    · exact h.target w (List.mem_of_getElem? hk) (hactive ▸ hon)
    · exact h.target w' hold hon

/-- A worker in its loop leaves no room for another, or for `start`. -/
theorem running_of_active (h : Sole σ) (hactive : 0 < σ.active) :
    σ.running = true ∧ σ.stage ≠ .spawning ∧ σ.active = 1 := by
  have hcount := h.count
  by_cases hrunning : σ.running = true
  · rw [if_pos hrunning] at hcount
    by_cases hspawning : σ.stage = .spawning
    · rw [if_pos hspawning] at hcount
      omega
    · rw [if_neg hspawning] at hcount
      exact ⟨hrunning, hspawning, by omega⟩
  · rw [if_neg hrunning] at hcount
    omega

theorem active_of_not_running (h : Sole σ) (hrunning : σ.running = false) : σ.active = 0 := by
  have hcount := h.count
  rw [hrunning, if_neg Bool.false_ne_true] at hcount
  omega

theorem not_active (h : Sole σ) (hrunning : σ.running = false) {w : WorkerThread}
    (hw : w ∈ σ.workers) : w.active = false := by
  have hnone := h.active_of_not_running hrunning
  rw [active, List.countP_eq_zero] at hnone
  rw [← Bool.not_eq_true]
  exact hnone w hw

theorem work (h : Sole σ) (hstep : Work σ σ') : Sole σ' := by
  cases hstep with
  | next k w p q hk hw hpq hq hflag =>
    exact h.move hk (by simp [WorkerThread.active, hw])
  | lost k w hk hw hflag =>
    have hmoved : Sole (σ.move k w (.running .closing)) :=
      h.move hk (by simp [WorkerThread.active, hw])
    exact ⟨hmoved.count, hmoved.launching, hmoved.slept, hmoved.waited, hmoved.target,
      hmoved.assigned, hmoved.replies⟩
  | finish k w p hk hw hp hflag => exact h.move hk (by simp [WorkerThread.active, hw])
  | clear k w hk hw =>
    have hmove := active_move hk (.reporting σ.stopRequested)
    rw [if_pos (by simp [WorkerThread.active, hw]), if_neg (by simp [WorkerThread.active])] at hmove
    obtain ⟨hrunning, hspawning, hone⟩ := h.running_of_active (by omega)
    refine ⟨?_, fun _ => rfl, h.slept, fun _ hfalse => Bool.noConfusion hfalse, ?_, h.assigned,
      h.replies⟩
    · show (σ.move k w _).active + (if σ.stage = .spawning then 1 else 0) = 0
      rw [if_neg hspawning]
      omega
    · intro w' hw' hon
      rcases mem_move hw' with rfl | hold
      · cases hon
      · exact h.target w' hold hon
  | report k w asked hk hw =>
    have hmoved : Sole (σ.move k w .gone) := h.move hk (by simp [WorkerThread.active, hw])
    exact ⟨hmoved.count, hmoved.launching, hmoved.slept, hmoved.waited, hmoved.target,
      hmoved.assigned, hmoved.replies⟩

theorem answer (h : Sole σ) {reply : ConnectReply} (hreply : ReplyHolds (reply, σ.slept))
    (hstage : σ.stage ≠ .spawning) : Sole (σ.answer reply) := by
  have hcount := h.count
  rw [if_neg hstage] at hcount
  refine ⟨hcount, fun hl => ?_, h.slept, fun hd => ?_, h.target, fun ha => ?_, fun r hr => ?_⟩
  · rcases hl with hl | hl | hl <;> cases hl
  · cases hd
  · rcases ha with ha | ha | ha <;> cases ha
  · rcases List.mem_append.mp hr with hold | hnew
    · exact h.replies r hold
    · rw [List.mem_singleton.mp hnew]
      exact hreply

theorem call (h : Sole σ) (hstep : Call σ σ') : Sole σ' := by
  have hcount := h.count
  cases hstep with
  | disconnect hfree =>
    exact ⟨hcount, h.launching, h.slept, h.waited, h.target, h.assigned, h.replies⟩
  | connect target hfree =>
    rw [if_neg (by simp [hfree])] at hcount
    exact ⟨hcount, by simp [Launching], Nat.zero_le _, by simp, h.target, by simp, h.replies⟩
  | sleep hpolling hlt hrunning =>
    refine ⟨hcount, h.launching, ?_, fun hdeciding => ?_, h.target, h.assigned, h.replies⟩
    · show σ.slept + 1 ≤ 15
      omega
    · rw [hpolling] at hdeciding
      cases hdeciding
  | polled hpolling hdone =>
    rw [if_neg (by simp [hpolling])] at hcount
    refine ⟨hcount, by simp [Launching], h.slept, fun _ hrunning => ?_, h.target, by simp,
      h.replies⟩
    have hslept := h.slept
    have hnot : ¬σ.slept < 15 := fun hlt => hdone ⟨hlt, hrunning⟩
    show σ.slept = 15
    omega
  | refuse hdeciding hrunning => exact h.answer (h.waited hdeciding hrunning) (by simp [hdeciding])
  | proceed hdeciding hrunning =>
    rw [if_neg (by simp [hdeciding])] at hcount
    exact ⟨hcount, fun _ => hrunning, h.slept, by simp, h.target, by simp, h.replies⟩
  | already hstarting hrunning =>
    rw [h.launching (.inl hstarting)] at hrunning
    cases hrunning
  | assign hstarting hrunning =>
    rw [if_neg (by simp [hstarting])] at hcount
    refine ⟨hcount, fun _ => hrunning, h.slept, by simp, fun w hw hon => ?_, fun _ => rfl,
      h.replies⟩
    rw [h.not_active hrunning hw] at hon
    cases hon
  | arm harming =>
    rw [if_neg (by simp [harming])] at hcount
    exact ⟨hcount, fun _ => h.launching (.inr (.inl harming)), h.slept, by simp, h.target,
      fun _ => h.assigned (.inl harming), h.replies⟩
  | launch hlaunching =>
    have hnone := h.active_of_not_running (h.launching (.inr (.inr hlaunching)))
    refine ⟨?_, by simp [Launching], h.slept, by simp, h.target,
      fun _ => h.assigned (.inr (.inl hlaunching)), h.replies⟩
    show σ.active + 1 = 1
    omega
  | spawn hspawning =>
    rw [if_pos hspawning] at hcount
    have hassigned := h.assigned (.inr (.inr hspawning))
    have hnone : σ.active = 0 := by
      split_ifs at hcount
      · omega
    refine ⟨?_, by simp [Launching, Handover.answer], h.slept, by simp [Handover.answer], ?_,
      by simp [Handover.answer], fun r hr => ?_⟩
    · show (σ.workers ++ [_]).countP _ + 0 = _
      rw [List.countP_append]
      show σ.active + 1 + 0 = _
      rw [hnone]
      rw [hnone] at hcount
      exact hcount
    · intro w hw hon
      rcases List.mem_append.mp hw with hold | hnew
      · have hpos : 0 < σ.active := List.countP_pos_iff.mpr ⟨w, hold, hon⟩
        omega
      · rw [List.mem_singleton.mp hnew]
        exact hassigned
    · rcases List.mem_append.mp hr with hold | hnew
      · exact h.replies r hold
      · rw [List.mem_singleton.mp hnew]
        exact h.slept

end Sole

theorem sole_steps {σ : Handover} (h : Steps {} σ) : Sole σ := by
  induction h with
  | refl => exact ⟨rfl, by simp [Launching], Nat.zero_le _, by simp, by simp, by simp, by simp⟩
  | tail _ hstep ih =>
    cases hstep with
    | work hwork => exact ih.work hwork
    | call hcall => exact ih.call hcall

/-- In every interleaving one worker at most is in its loop, `m_running` tells whether
there is one or is about to be, `start` sets the members while there is none, and the
worker in its loop has the arguments of its own call. -/
theorem active_steps {σ : Handover} (h : Steps {} σ) :
    σ.active ≤ 1 ∧ (σ.running = true ↔ σ.active = 1 ∨ σ.stage = .spawning) ∧
      (σ.Launching → σ.active = 0) ∧
      ∀ w ∈ σ.workers, w.active = true → σ.target = some w.target := by
  have hsole := sole_steps h
  have hcount := hsole.count
  refine ⟨?_, ?_, fun hl => hsole.active_of_not_running (hsole.launching hl), hsole.target⟩
  · split_ifs at hcount <;> omega
  · by_cases hrunning : σ.running = true
    · rw [if_pos hrunning] at hcount
      refine iff_of_true hrunning ?_
      by_cases hspawning : σ.stage = .spawning
      · exact .inr hspawning
      · rw [if_neg hspawning] at hcount
        exact .inl hcount
    · rw [if_neg hrunning] at hcount
      refine iff_of_false hrunning ?_
      rintro (hone | hspawning)
      · omega
      · rw [if_pos hspawning] at hcount
        omega

def somewhere : Target := ⟨ascii "10.0.0.2", 24800, ascii "HarmonyPC"⟩

/-- A client that has been started, with the worker before its first connection. -/
theorem steps_started (σ : Handover) (hfree : σ.stage = .free) (hrunning : σ.running = false) :
    Steps σ { σ with
      running := true, stopRequested := false, target := some somewhere
      workers := σ.workers ++ [⟨somewhere, .running .ready⟩]
      requested := somewhere, slept := 0, replies := σ.replies ++ [(.starting, 0)]
      stage := .free } := by
  refine .head (.call (.connect somewhere hfree)) ?_
  refine .head (.call (.polled rfl (by simp [hrunning]))) ?_
  refine .head (.call (.proceed rfl hrunning)) (.head (.call (.assign rfl hrunning)) ?_)
  exact .head (.call (.arm rfl)) (.head (.call (.launch rfl)) (.single (.call (.spawn rfl))))

def started : Handover :=
  { running := true, target := some somewhere, workers := [⟨somewhere, .running .ready⟩]
    requested := somewhere, replies := [(.starting, 0)] }

theorem active_steps_started : started.active ≤ 1 ∧
    ∀ w ∈ started.workers, w.active = true → started.target = some w.target := by
  have h := active_steps (σ := started) (steps_started {} rfl rfl)
  exact ⟨h.1, h.2.2.2⟩

/-- A call never finds the client running once it has passed its wait; it gives up only
after fifteen sleeps, and never sleeps longer. -/
theorem replies_steps {σ : Handover} (h : Steps {} σ) : ∀ r ∈ σ.replies, ReplyHolds r :=
  (sole_steps h).replies

theorem steps_slept (σ : Handover) (hpolling : σ.stage = .polling) (hrunning : σ.running = true)
    (n : Nat) (hle : σ.slept + n ≤ 15) : Steps σ { σ with slept := σ.slept + n } := by
  induction n with
  | zero => exact .refl
  | succ n ih =>
    have hlt : σ.slept + n < 15 := by omega
    exact (ih hlt.le).tail (.call (.sleep hpolling hlt hrunning))

/-- A second call gives up, for the worker of the first is still in its loop. -/
def refused : Handover :=
  { started with
    stopRequested := true, slept := 15, replies := [(.starting, 0), (.stillStopping, 15)] }

theorem steps_refused : Steps {} refused := by
  let waiting : Handover := { started with stopRequested := true, stage := .polling, slept := 0 }
  let waited : Handover := { waiting with slept := 15 }
  have hconnect : Step started waiting := .call (.connect somewhere rfl)
  have hslept : Steps waiting waited := steps_slept waiting rfl rfl 15 (Nat.le_refl 15)
  have hpolled : Step waited { waited with stage := .deciding } :=
    .call (.polled rfl fun hwait => Nat.lt_irrefl 15 hwait.1)
  have hrefuse : Step { waited with stage := .deciding } refused := .call (.refuse rfl rfl)
  exact ((((steps_started {} rfl rfl).tail hconnect).trans hslept).tail hpolled).tail hrefuse

theorem replies_steps_refused : refused.replies = [(.starting, 0), (.stillStopping, 15)] ∧
    ∀ r ∈ refused.replies, ReplyHolds r :=
  ⟨rfl, replies_steps steps_refused⟩

theorem workers_move {σ : Handover} {k : Nat} {w : WorkerThread} (hk : σ.workers[k]? = some w)
    (stage : WorkerStage) : (σ.move k w stage).workers[k]? = some { w with stage := stage } := by
  obtain ⟨hlt, -⟩ := List.getElem?_eq_some_iff.mp hk
  exact List.getElem?_set_self hlt

end Handover

namespace System

open DeskflowClient

theorem work_ready {σ : System} (hphase : σ.phase = .ready) (conn : Connection) :
    (σ.work conn).phase = .idle ↔ σ.client.loadStop.1 = true := by
  by_cases hstop : σ.client.loadStop.1 = true
  · refine iff_of_true ?_ hstop
    simp only [work, hphase, hstop, if_true]
  · refine iff_of_false ?_ hstop
    rw [Bool.not_eq_true] at hstop
    simp only [work, hphase, hstop, Bool.false_eq_true, if_false]
    split_ifs <;> simp [leave]

theorem work_leaving {σ : System} {again : Bool} (hphase : σ.phase = .leaving again)
    {conn : Connection} (h : (σ.work conn).phase = .ready) : σ.client.loadStop.1 = false := by
  by_contra hstop
  rw [Bool.not_eq_false] at hstop
  have hauto : σ.client.loadAuto.2.loadStop.1 = true := hstop
  have hretry : (retry (again, σ.client)).1 = false := by
    unfold retry
    simp only [hauto, if_true]
    split_ifs <;> rfl
  simp only [work, hphase, hretry] at h
  cases h

theorem leaving_of_work_ready {σ : System} {conn : Connection} (hphase : σ.phase ≠ .ready)
    (h : (σ.work conn).phase = .ready) : ∃ again, σ.phase = .leaving again := by
  rcases σ.work_next conn with hsame | hnext
  · rw [h] at hsame
    exact absurd hsame.symm hphase
  · rw [h] at hnext
    cases hp : σ.phase <;> rw [hp] at hnext <;> cases hnext
    exact ⟨_, rfl⟩

end System

namespace Handover

/-- A worker takes the steps that the worker of the sequential model takes, as long as
that one reads the same stop flag. -/
theorem work_steps (conn : DeskflowClient.Connection) (σ : System) (hbusy : σ.phase ≠ .idle)
    {η : Handover} {k : Nat} {w : WorkerThread} (hk : η.workers[k]? = some w)
    (hw : w.stage = .running σ.phase) (hflag : σ.client.loadStop.1 = η.stopRequested) :
    ∃ η', Steps η η' ∧
      ((σ.work conn).phase = .idle → η'.running = false ∧
        η'.workers[k]? = some { w with stage := .gone }) ∧
      ((σ.work conn).phase ≠ .idle → η'.running = η.running ∧
        η'.workers[k]? = some { w with stage := .running (σ.work conn).phase }) := by
  rcases σ.work_next conn with hsame | hnext
  · refine ⟨η, .refl, fun hidle => absurd (hsame.symm.trans hidle) hbusy, fun _ => ⟨rfl, ?_⟩⟩
    rw [hsame, ← hw]
    exact hk
  by_cases hidle : (σ.work conn).phase = .idle
  · rw [hidle] at hnext
    let cleared : Handover :=
      { (η.move k w .clearing).move k { w with stage := .clearing }
          (.reporting η.stopRequested) with running := false }
    have hclearing := workers_move hk .clearing
    have hreporting : cleared.workers[k]? = some { w with stage := .reporting η.stopRequested } :=
      workers_move hclearing _
    have hover : Step η (η.move k w .clearing) := by
      refine .work (.finish k w σ.phase hk hw hnext fun hp => ?_)
      rw [← hflag]
      exact (System.work_ready hp conn).mp hidle
    have hclear : Step (η.move k w .clearing) cleared := .work (.clear k _ hclearing rfl)
    have hreport := Work.report (σ := cleared) k _ _ hreporting rfl
    refine ⟨_, .head hover (.head hclear (.single (.work hreport))), fun _ => ⟨rfl, ?_⟩,
      fun hne => absurd hidle hne⟩
    exact workers_move hreporting _
  · refine ⟨_, .single (.work (.next k w σ.phase _ hk hw hnext hidle ?_)),
      fun h => absurd h hidle, fun _ => ⟨rfl, workers_move hk _⟩⟩
    intro htest
    rw [← hflag]
    by_cases hp : σ.phase = .ready
    · rw [← Bool.not_eq_true]
      exact fun hstop => hidle ((System.work_ready hp conn).mpr hstop)
    · obtain ⟨again, hagain⟩ := System.leaving_of_work_ready hp (htest.resolve_left hp)
      exact System.work_leaving hagain (htest.resolve_left hp)

end Handover

end Deskflow
