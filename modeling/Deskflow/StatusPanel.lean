import Deskflow.StatusReports

/-! The page against the client over whole runs: when the state shown is the real one. -/

namespace Deskflow

open History

open DeskflowClient

def Phase.Allows : Phase → Panel → Prop
  | .greeting, p => p = ⟨.connecting, false⟩
  | .looping, p => p = ⟨.connected, true⟩
  | .answering keepGoing, p => keepGoing = true → p = ⟨.connected, true⟩
  | .closing, _ => True
  | _, p => p.session = false

namespace System

/-- What holds between any two steps; an upload never writes a `HelloBack`. -/
structure Shown (σ : System) : Prop where
  truthful : Truthful σ.client.world.log
  allowed : σ.phase.Allows (panel σ.client.world.log)
  uploading : ∀ os, σ.push = some (.frames os) → ∀ o ∈ os, o.isHelloBack = false

/-- The worker says nothing false: the host it dials is plain, the name in a Hello of
another major version has no word of a connection, and no wait begins. -/
structure PlainWork (σ : System) : Prop where
  dial : σ.phase = .ready → σ.client.loadStop.1 = false → PlainHost σ.client.host
  hello : σ.phase = .greeting → ∀ hello ∈ σ.client.stream.view.hello.1,
    hello.2.1.toInt ≠ kProtocolMajorVersion → Lacks connectedWords (lower hello.1)
  wait : ∀ again, σ.phase = .leaving again →
    (σ.client.loadAuto.1 && again && !σ.client.loadStop.1) = false

instance (σ : System) : Decidable σ.PlainWork :=
  decidable_of_iff
    ((σ.phase = .ready → σ.client.loadStop.1 = false → PlainHost σ.client.host) ∧
      (σ.phase = .greeting → ∀ hello ∈ σ.client.stream.view.hello.1,
        hello.2.1.toInt ≠ kProtocolMajorVersion → Lacks connectedWords (lower hello.1)) ∧
      ∀ again, σ.phase = .leaving again →
        (σ.client.loadAuto.1 && again && !σ.client.loadStop.1) = false)
    ⟨fun h => ⟨h.1, h.2.1, h.2.2⟩, fun h => ⟨h.dial, h.hello, h.wait⟩⟩

def PlainRun : List Action → System → Prop
  | [], _ => True
  | .work conn :: actions, σ => σ.PlainWork ∧ PlainRun actions (σ.work conn)
  | a :: actions, σ => PlainRun actions (σ.step a)

namespace Shown

variable {σ : System}

theorem shows (h : Shown σ) : Shows (panel σ.client.world.log) σ.client.world.log :=
  ⟨h.truthful, rfl⟩

theorem of_shows (h : Shown σ) {p : Panel} {c : DeskflowClient} {phase : Phase}
    (hshows : Shows p c.world.log) (hphase : phase.Allows p) : Shown ⟨c, phase, σ.push⟩ :=
  ⟨hshows.truthful, hshows.panel ▸ hphase, h.uploading⟩

theorem work (h : Shown σ) (hplain : σ.PlainWork) (conn : Connection) : Shown (σ.work conn) := by
  have hshows := h.shows
  have hallowed := h.allowed
  have hof {p : Panel} {c : DeskflowClient} {phase : Phase} (hp : Shows p c.world.log)
      (hphase : phase.Allows p) : Shown ⟨c, phase, σ.push⟩ := h.of_shows hp hphase
  obtain ⟨c, phase, push⟩ := σ
  cases phase with
  | idle => exact h
  | ready =>
    have hout : (panel c.world.log).session = false := hallowed
    simp only [System.work]
    split_ifs with hstop hreach
    · obtain ⟨connState, hfinish⟩ := finish_shows (c := c.loadStop.2) hshows
      exact hof hfinish hout
    · have hdialled := dial_shows hshows hout (hplain.dial rfl (Bool.not_eq_true _ ▸ hstop))
      exact hof (opened_shows hdialled conn) rfl
    · have hdialled := dial_shows hshows hout (hplain.dial rfl (Bool.not_eq_true _ ▸ hstop))
      obtain ⟨connState, hfailed⟩ := connectFailed_shows hdialled
      exact hof hfailed rfl
  | greeting =>
    have hhandshake := handshake_shows (h := hallowed ▸ hshows) (hplain.hello rfl)
    simp only [System.work]
    split_ifs at hhandshake ⊢ with hok
    · exact hof (greeted_shows hhandshake) rfl
    · obtain ⟨connState, hshows'⟩ := hhandshake
      obtain ⟨connState', hfailed⟩ := handshakeFailed_shows hshows'
      exact hof hfailed rfl
  | looping =>
    have hin : Shows ⟨.connected, true⟩ c.world.log := hallowed ▸ hshows
    simp only [System.work]
    split_ifs
    · exact hof (c := c.loadStop.2) hin trivial
    · obtain ⟨p, hreceive, hgo⟩ := receive_shows (c := c.loadStop.2) hin
      exact hof hreceive hgo
  | answering keepGoing =>
    have hack := hshows.quiet (acknowledge_quiet (keepGoing, c))
    simp only [System.work]
    split_ifs with hgo
    · refine hof hack (hallowed ?_)
      unfold acknowledge at hgo
      split_ifs at hgo with hdone
      · rw [Bool.and_eq_true] at hdone
        exact hdone.1
      · exact hgo
    · exact hof hack trivial
  | closing => exact hof (hshows.mark (e := .returned) (by simp)) rfl
  | leaving again =>
    have hnone : (retry (again, c)).1 = false :=
      (retry_fst (again, c)).trans (hplain.wait again rfl)
    simp only [System.work, hnone, Bool.false_eq_true, if_false]
    have hretry : Shows (panel c.world.log) (retry (again, c)).2.world.log :=
      (retry_log hnone).symm ▸ hshows
    obtain ⟨connState, hfinish⟩ := finish_shows hretry
    exact hof hfinish hallowed

theorem upload (h : Shown σ) : Shown σ.upload := by
  have hshows := h.shows
  have hquiet {c : DeskflowClient} {push : Option Push} (hc : Quiet σ.client c)
      (hpush : ∀ os, push = some (.frames os) → ∀ o ∈ os, o.isHelloBack = false) :
      Shown ⟨c, σ.phase, push⟩ := by
    have hsame := hshows.quiet hc
    exact ⟨hsame.truthful, hsame.panel ▸ h.allowed, hpush⟩
  unfold System.upload
  split
  · exact h
  · refine hquiet ?_ (by simp)
    unfold grabClipboard
    split_ifs
    · exact .refl _
    · exact write_quiet fun _ => rfl
  · rename_i text _
    split_ifs
    · exact hquiet (.refl _) (by simp)
    · refine hquiet (.refl _) fun os hos o ho => ?_
      obtain rfl : transferFrames σ.client.seqNum text = os := by simpa using hos
      simp only [transferFrames, List.mem_append, List.mem_singleton, List.mem_map] at ho
      rcases ho with (rfl | ⟨chunk, -, rfl⟩) | rfl <;> rfl
  · exact hquiet (.refl _) (by simp)
  · rename_i o os hpush
    have hos := h.uploading _ hpush
    refine hquiet (write_quiet fun _ => hos o (by simp)) ?_
    split_ifs
    · rintro os' heq o' ho'
      obtain rfl : os = os' := by simpa using heq
      exact hos o' (List.mem_cons_of_mem _ ho')
    · simp

theorem start (h : Shown σ) (hset : Settled σ) (host : Bytes) (port : UInt16)
    (screenName : Bytes) : Shown (σ.start host port screenName) := by
  simp only [System.start, DeskflowClient.start]
  by_cases hrunning : σ.client.running = true
  · simp only [hrunning, if_true, Bool.false_eq_true, if_false]
    exact h
  · have hidle : σ.phase = .idle := by
      by_contra hphase
      exact hrunning (hset.running hphase)
    have hout : (panel σ.client.world.log).session = false := by
      have hallowed := h.allowed
      rwa [hidle] at hallowed
    simp only [hrunning, Bool.false_eq_true, if_false, if_true]
    exact ⟨h.truthful, hout, h.uploading⟩

theorem beginPush (h : Shown σ) (text : Bytes) : Shown (σ.beginPush text) := by
  unfold System.beginPush
  split_ifs
  · exact h
  · exact h
  · exact ⟨h.truthful, h.allowed, by simp⟩

theorem call (h : Shown σ) (k : Call) : Shown { σ with client := σ.client.call k } := by
  cases k with
  | setClipboardSync enable =>
    exact h.of_shows (h.shows.quiet (quiet_emit (e := .clipboardSync enable) rfl _)) h.allowed
  | _ => exact ⟨h.truthful, h.allowed, h.uploading⟩

theorem run {actions : List Action} (h : Shown σ) (hset : Settled σ)
    (hplain : PlainRun actions σ) : Shown (σ.run actions) := by
  induction actions generalizing σ with
  | nil => exact h
  | cons a actions ih =>
    have hset' := hset.step a
    cases a with
    | work conn => exact ih (h.work hplain.1 conn) hset' hplain.2
    | upload => exact ih h.upload hset' hplain
    | push text => exact ih (h.beginPush text) hset' hplain
    | start host port screenName => exact ih (h.start hset host port screenName) hset' hplain
    | call k => exact ih (h.call k) hset' hplain

end Shown

/-- As long as no wait begins, the hosts dialled are plain and no Hello of another
major version names itself a connection, the page shows the real state at every
status. -/
theorem run_truthful {injections : List InjectOutcome} {actions : List Action}
    (h : PlainRun actions (initial injections)) :
    Truthful ((initial injections).run actions).client.world.log := by
  have hinitial : Shown (initial injections) :=
    ⟨throughout_nil, rfl, by simp [initial]⟩
  exact (hinitial.run (settled_run injections []) h).truthful

/-- A server that closes the connection itself. -/
theorem run_truthful_cbye :
    Truthful ((initial []).run (serving [.cout, .cbye] 8)).client.world.log := by
  refine run_truthful ⟨?_, ?_, ?_, ?_, ?_, ?_, ?_, ?_, trivial⟩
  all_goals decide +kernel

/-- After the loss of a connection the wait is shown as one. -/
theorem not_truthful_reconnecting :
    ¬Truthful ((initial []).run (serving [] 6)).client.world.log := by
  let log := ((initial []).run (serving [] 6)).client.world.log
  have hlast : log.dropLast ++ [.status (ascii "reconnecting in 3000ms")] = log := by
    decide +kernel
  have hshown : (panel log).shown = .connected := by decide +kernel
  have hout : (panel log.dropLast).session = false := by decide +kernel
  intro h
  have hpre : log.dropLast ++ [.status (ascii "reconnecting in 3000ms")] <+: log := by rw [hlast]
  obtain ⟨hsame, -⟩ := h log.dropLast _ hpre _ rfl
  rw [hlast] at hsame
  have hin := (hsame.mp hshown).1
  rw [hout] at hin
  cases hin

end System

end Deskflow
