import Deskflow.ConnectionFrames

/-! The order of the frames on every connection, over all interleavings. -/

namespace Deskflow

open History

/-- What holds between any two steps of a run that opens no connection after a
`DSOP`. -/
structure Orderly (σ : System) : Prop where
  order : ProtocolOrder σ.client.world.log
  done : σ.client.handshakeDone = true → Optioned σ.client.world.log
  pushing : σ.push ≠ none → Optioned σ.client.world.log
  greeting : σ.phase = .greeting → ¬Framed (latest σ.client.world.log) ∧
    ∀ m, .handled m ∉ latest σ.client.world.log
  greeted : σ.phase = .looping ∨ (∃ go, σ.phase = .answering go) ∨ σ.phase = .closing →
    Framed (latest σ.client.world.log)
  handled : (∃ m, .handled m ∈ latest σ.client.world.log) → Framed (latest σ.client.world.log)

namespace Orderly

open DeskflowClient

variable {σ : System}

theorem initial (injections : List InjectOutcome) : Orderly (System.initial injections) := by
  refine ⟨throughout_nil, ?_, ?_, ?_, ?_, ?_⟩ <;>
    simp [System.initial, fresh, latest]

/-- In the phases of a connection before `HelloBack` no upload is under way. -/
theorem not_optioned (h : Orderly σ) (hlast : OptionedLast σ.client.world.log)
    (hgreeting : σ.phase = .greeting) : ¬Optioned σ.client.world.log := by
  intro hdone
  obtain ⟨options, hmem⟩ := hlast.latest hdone
  exact (h.greeting hgreeting).2 _ hmem

/-- A step that stays on the connection and handles no message. -/
theorem emits (h : Orderly σ) {p : Outgoing → Prop} {c' : DeskflowClient}
    (he : Emits p σ.client c')
    (hp : ∀ o, p o → o.isHelloBack ∨
      (Framed (latest σ.client.world.log) ∧ (o.isRuntime → Optioned (latest σ.client.world.log))))
    {ph : Phase} {push' : Option Push} (hpush : push' ≠ none → Optioned σ.client.world.log)
    (hgreeting : ph = .greeting → σ.phase = .greeting ∧ ∀ o, ¬p o)
    (hgreeted : ph = .looping ∨ (∃ go, ph = .answering go) ∨ ph = .closing →
      Framed (latest c'.world.log)) : Orderly ⟨c', ph, push'⟩ := by
  obtain ⟨hdone, es, hes, hall⟩ := he
  have hconn : .connected ∉ es := fun hc => (hall _ hc).1 rfl
  have hhandled (m : Message) : .handled m ∉ es := fun hm => (hall _ hm).2.1 m rfl
  have hlatest : latest c'.world.log = latest σ.client.world.log ++ es := by
    rw [hes, latest_append hconn]
  refine ⟨?_, fun hd => ?_, fun hb => ?_, fun hg => ?_, hgreeted, fun hm => ?_⟩
  · change ProtocolOrder c'.world.log
    rw [hes]
    exact h.order.append hconn fun o ho => hp o ((hall _ ho).2.2 o rfl)
  · change Optioned c'.world.log
    rw [hes]
    exact (h.done (hdone ▸ hd)).append es
  · change Optioned c'.world.log
    rw [hes]
    exact (hpush hb).append es
  · obtain ⟨hphase, hnone⟩ := hgreeting hg
    obtain ⟨hframed, hno⟩ := h.greeting hphase
    change ¬Framed (latest c'.world.log) ∧ ∀ m, .handled m ∉ latest c'.world.log
    rw [hlatest]
    refine ⟨fun ⟨o, ho⟩ => ?_, fun m hm => ?_⟩
    · rcases List.mem_append.mp ho with hold | hnew
      · exact hframed ⟨o, hold⟩
      · exact hnone o ((hall _ hnew).2.2 o rfl)
    · rcases List.mem_append.mp hm with hold | hnew
      · exact hno m hold
      · exact hhandled m hnew
  · obtain ⟨m, hm⟩ := hm
    change .handled m ∈ latest c'.world.log at hm
    change Framed (latest c'.world.log)
    rw [hlatest] at hm ⊢
    rcases List.mem_append.mp hm with hold | hnew
    · exact (h.handled ⟨m, hold⟩).append es
    · exact absurd hnew (hhandled m)

theorem quiet (h : Orderly σ) {c' : DeskflowClient} (he : Emits (fun _ => False) σ.client c')
    {ph : Phase} {push' : Option Push} (hpush : push' ≠ none → Optioned σ.client.world.log)
    (hph : ph = .idle ∨ ph = .ready ∨ (∃ again, ph = .leaving again) ∨ ph = σ.phase) :
    Orderly ⟨c', ph, push'⟩ := by
  refine h.emits he (fun _ => False.elim) hpush (fun hg => ⟨?_, fun _ => id⟩) fun hg => ?_
  · rcases hph with rfl | rfl | ⟨_, rfl⟩ | rfl
    · cases hg
    · cases hg
    · cases hg
    · exact hg
  · have hframed : Framed (latest σ.client.world.log) := by
      rcases hph with rfl | rfl | ⟨_, rfl⟩ | rfl
      · simp at hg
      · simp at hg
      · simp at hg
      · exact h.greeted hg
    exact hframed.emits he

theorem upload (h : Orderly σ) (hlast : OptionedLast σ.client.world.log) : Orderly σ.upload := by
  by_cases hidle : σ.push = none
  · simpa only [System.upload, hidle] using h
  · have hopt := h.pushing hidle
    obtain ⟨options, hmem⟩ := hlast.latest hopt
    have hframed := h.handled ⟨_, hmem⟩
    have hkeep {c' : DeskflowClient} {push' : Option Push}
        (he : Emits (fun _ => True) σ.client c') : Orderly ⟨c', σ.phase, push'⟩ := by
      refine h.emits he (fun o _ => .inr ⟨hframed, fun _ => ⟨options, hmem⟩⟩) (fun _ => hopt)
        (fun hg => absurd hopt (h.not_optioned hlast hg)) fun _ => hframed.emits he
    unfold System.upload
    split
    · exact h
    · refine hkeep ?_
      unfold grabClipboard
      split
      · exact .same rfl rfl
      · exact (write_emits _ _).mono fun _ _ => trivial
    · split
      · exact hkeep (.same rfl rfl)
      · exact hkeep (.same rfl rfl)
    · exact hkeep (.same rfl rfl)
    · exact hkeep ((write_emits _ _).mono fun _ _ => trivial)

/-- A connect: nothing has been written on the new connection. -/
theorem opened (h : Orderly σ) {c : DeskflowClient} (hc : Emits (fun _ => False) σ.client c)
    (conn : Connection) : Orderly ⟨c.opened conn, .greeting, σ.push⟩ := by
  obtain ⟨hdone, es, hes, hall⟩ := hc
  have hlog : (c.opened conn).world.log =
      σ.client.world.log ++ (es ++ [.connected, .status (ascii "connected, handshake...")]) := by
    rw [← List.append_assoc, ← hes]
    simp [DeskflowClient.opened, DeskflowClient.setStatus, emit, World.emit]
  have hlatest : latest (c.opened conn).world.log =
      [.status (ascii "connected, handshake...")] := by
    rw [hlog, ← List.append_assoc, List.append_cons, latest_concat, latest_concat]
    simp
  refine ⟨?_, fun hd => ?_, fun hb => ?_, fun _ => ?_, fun hg => ?_, fun hm => ?_⟩
  · have hgrows : Grows (fun e => ∀ o, e ≠ .frame o) σ.client.world.log
        (c.opened conn).world.log := by
      refine ⟨_, hlog, fun e he => ?_⟩
      rcases List.mem_append.mp he with hold | hnew
      · exact fun o ho => (hall e hold).2.2 o ho
      · rintro o rfl
        simp at hnew
    exact (hgrows.throughout_iff fun _ _ he o ho => absurd ho (he o)).mpr h.order
  · change Optioned (c.opened conn).world.log
    rw [hlog]
    exact (h.done (hdone ▸ hd)).append _
  · change Optioned (c.opened conn).world.log
    rw [hlog]
    exact (h.pushing hb).append _
  · change ¬Framed (latest (c.opened conn).world.log) ∧
      ∀ m, .handled m ∉ latest (c.opened conn).world.log
    rw [hlatest]
    simp [Framed]
  · simp at hg
  · obtain ⟨m, hm⟩ := hm
    change .handled m ∈ latest (c.opened conn).world.log at hm
    rw [hlatest] at hm
    simp at hm

theorem receive (h : Orderly σ) {c : DeskflowClient}
    (hdone : c.handshakeDone = σ.client.handshakeDone)
    (hlog : c.world.log = σ.client.world.log) (hframed : Framed (latest σ.client.world.log))
    (go : Bool) : Orderly ⟨c.receive.2, .answering go, σ.push⟩ := by
  obtain ⟨⟨es, hes, hall⟩, hset⟩ := receive_replies c
  rw [hlog] at hes
  have hconn : .connected ∉ es := fun hc => (hall _ hc).1 rfl
  have hlatest : Framed (latest c.receive.2.world.log) := by
    rw [hes, latest_append hconn]
    exact hframed.append es
  refine ⟨?_, fun hd => ?_, fun hb => ?_, fun hg => ?_, fun _ => hlatest, fun _ => hlatest⟩
  · change ProtocolOrder c.receive.2.world.log
    rw [hes]
    refine h.order.append hconn fun o ho => .inr ⟨hframed, fun hrun => ?_⟩
    simp [Outgoing.not_isRuntime_of_isReply ((hall _ ho).2 o rfl)] at hrun
  · rcases hset hd with hold | hnew
    · change Optioned c.receive.2.world.log
      rw [hes]
      exact (h.done (hdone ▸ hold)).append es
    · exact hnew
  · change Optioned c.receive.2.world.log
    rw [hes]
    exact (h.pushing hb).append es
  · cases hg

theorem work (h : Orderly σ) (hlast : OptionedLast σ.client.world.log) (conn : Connection) :
    Orderly (σ.work conn) := by
  have hload {p : Outgoing → Prop} : Emits p σ.client σ.client.loadStop.2 := loadStop_emits _
  unfold System.work
  split
  · exact h
  · split
    · exact h.quiet (hload.trans (finish_emits _)) h.pushing (.inl rfl)
    · have hset : Emits (fun _ => False) σ.client.loadStop.2
          { σ.client.loadStop.2 with shouldReconnect := true } := .same rfl rfl
      have hdial := (hload.trans hset).trans (.setStatus (ascii "connecting to " ++
        σ.client.host ++ ascii ":" ++ decimal σ.client.port.toNat) _)
      dsimp only
      split
      · exact h.opened hdial conn
      · exact h.quiet (hdial.trans (connectFailed_emits _)) h.pushing (.inr (.inr (.inl ⟨_, rfl⟩)))
  · have hshake := handshake_emits σ.client
    dsimp only
    split
    · rename_i hok
      refine h.emits (hshake.trans (.setStatus _ _)) (fun o => .inl) h.pushing (by simp) fun _ => ?_
      obtain ⟨o, ho⟩ := handshake_framed hok
      have hframed : Framed (latest σ.client.handshake.2.world.log) := by
        rw [ho, latest_concat]
        exact ⟨o, by simp⟩
      exact hframed.emits (p := fun _ => True) (.setStatus _ _)
    · exact h.emits (hshake.trans (handshakeFailed_emits _)) (fun o => .inl) h.pushing (by simp)
        (by simp)
  · rename_i hphase
    have hframed := h.greeted (.inl hphase)
    split
    · exact h.emits (p := fun _ => False) hload (fun _ => False.elim) h.pushing (by simp)
        fun _ => hframed.emits (hload (p := fun _ => False))
    · exact h.receive (c := σ.client.loadStop.2) rfl rfl hframed _
  · rename_i go hphase
    have hframed := h.greeted (.inr (.inl ⟨go, hphase⟩))
    have hack := acknowledge_emits (go, σ.client)
    refine h.emits hack (fun o ⟨_, hdone⟩ => .inr ⟨hframed, fun _ => hlast.latest (h.done hdone)⟩)
      h.pushing (fun hg => ?_) fun _ => hframed.emits hack
    split_ifs at hg
  · exact h.quiet (loopExited_emits _) h.pushing (.inr (.inr (.inl ⟨_, rfl⟩)))
  · rename_i again _
    have hretry : Emits (fun _ => False) σ.client (retry (again, σ.client)).2 :=
      retry_emits (again, σ.client)
    dsimp only
    split
    · exact h.quiet hretry h.pushing (.inr (.inl rfl))
    · exact h.quiet (hretry.trans (finish_emits _)) h.pushing (.inl rfl)

theorem step (h : Orderly σ) (hlast : OptionedLast σ.client.world.log) (a : Action) :
    Orderly (σ.step a) := by
  cases a with
  | work conn => exact h.work hlast conn
  | upload => exact h.upload hlast
  | push text =>
    simp only [System.step, System.beginPush]
    split_ifs with hbusy hguard
    · exact h
    · exact h
    · have hdone : σ.client.handshakeDone = true := by
        simp only [Bool.or_eq_true, Bool.not_eq_true', not_or, Bool.not_eq_false] at hguard
        exact hguard.1.2
      exact h.quiet (.same rfl rfl) (fun _ => h.done hdone) (.inr (.inr (.inr rfl)))
  | start host port screenName =>
    have hstart : Emits (fun _ => False) σ.client (σ.client.start host port screenName).2 :=
      start_emits host port screenName σ.client
    simp only [System.step, System.start]
    split
    · exact h.quiet hstart h.pushing (.inr (.inl rfl))
    · exact h
  | call k => exact h.quiet (call_emits k σ.client) h.pushing (.inr (.inr (.inr rfl)))

end Orderly

namespace System

open DeskflowClient

theorem orderly_run (injections : List InjectOutcome) (actions : List Action)
    (h : OptionedLast ((initial injections).run actions).client.world.log) :
    Orderly ((initial injections).run actions) := by
  induction actions using List.reverseRecOn with
  | nil => exact .initial injections
  | append_singleton actions a ih =>
    rw [run_concat] at h ⊢
    have hpre := (step_moves ((initial injections).run actions) a).log_extends
    have hlast := h.of_prefix hpre
    exact (ih hlast).step hlast a

/-- In every run in which no connection is opened after a `DSOP` was handled, the
frames of every connection come in protocol order. -/
theorem protocolOrder_of_optionedLast (injections : List InjectOutcome) (actions : List Action)
    (h : OptionedLast ((initial injections).run actions).client.world.log) :
    ProtocolOrder ((initial injections).run actions).client.world.log :=
  (orderly_run injections actions h).order

theorem optionedLast_append {log es : List Event} (h : handledIn log = [])
    (hes : .connected ∉ es) : OptionedLast (log ++ es) := by
  intro pre e hpre he
  rcases prefix_append_cases hpre with hold | ⟨fs, -, hnew⟩
  · rintro ⟨options, hmem⟩
    have hhandled : .dsop options ∈ handledIn log :=
      List.mem_filterMap.mpr ⟨_, hold.subset (List.mem_append_left _ hmem), rfl⟩
    simp [h] at hhandled
  · exact absurd (hnew.subset (by simp [he])) hes

/-- An upload on the first connection, after its `DSOP`. -/
theorem protocolOrder_upload :
    ProtocolOrder ((initial []).run (serving [.qinf, .dsop []] 6 ++
      .push (ascii "hi") :: List.replicate 5 .upload)).client.world.log := by
  refine protocolOrder_of_optionedLast _ _ ?_
  rw [← List.take_append_drop 3 (System.client _).world.log]
  refine optionedLast_append ?_ ?_
  · decide +kernel
  · decide +kernel

/-- The flag of the first connection lets an upload write before `HelloBack` on
the second. -/
theorem not_protocolOrder : ∃ injections actions,
    ¬ProtocolOrder ((initial injections).run actions).client.world.log := by
  refine ⟨[], serving [.dsop []] 9 ++ [.push (ascii "hi"), .upload], fun h => ?_⟩
  let log := ((initial []).run
    (serving [.dsop []] 9 ++ [.push (ascii "hi"), .upload])).client.world.log
  have hpre : log.take (log.length - 1) ++ [.frame (.cclp 0 0)] <+: log := by
    decide +kernel
  have hlatest : latest (log.take (log.length - 1)) =
      [.status (ascii "connected, handshake...")] := by
    decide +kernel
  have hfirst := (h _ _ hpre _ rfl).1 (by rw [hlatest]; simp [Framed])
  simp [Outgoing.isHelloBack] at hfirst

end System

end Deskflow
