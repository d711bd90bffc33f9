import Deskflow.ConnectionOrder

/-! A step of the two threads handles one message or none, so that the states of
a run pass through every initial segment of the messages it handles. -/

namespace Deskflow

open DeskflowClient

namespace DeskflowClient

theorem Emits.handled {p : Outgoing → Prop} {c c' : DeskflowClient} (h : Emits p c c') :
    c'.handled = c.handled := by
  refine h.log.filterMap_eq fun e he => ?_
  cases e with
  | handled m => exact absurd rfl (he.2.1 m)
  | _ => rfl

/-- An iteration of the message loop handles a message in the end or none at all. -/
theorem receive_handles (c : DeskflowClient) :
    c.receive.2.handled = c.handled ∨
      ∃ s key m, c.receive = ({ c with stream := s }.emit (.dispatched key)).handle m := by
  obtain ⟨s, -, -, he⟩ := c.receive_eq_digest
  rw [he]
  cases c.stream.view.arrival.1 with
  | message key m => exact .inr ⟨s, key, m, rfl⟩
  | lost =>
    simp only [digest, deliver]
    split_ifs <;> exact .inl (handled_emit_of_isMark rfl _)
  | short => exact .inl rfl
  | unknown key =>
    exact .inl ((handled_emit_of_isMark rfl _).trans (handled_emit_of_isMark rfl _))
  | failed key => exact .inl (handled_emit_of_isMark rfl _)

end DeskflowClient

namespace System

theorem moves_fresh (injections : List InjectOutcome) (actions : List Action) :
    Moves (fresh injections) ((initial injections).run actions).client :=
  run_moves actions (initial injections)

theorem work_handled {σ : System} (h : σ.phase ≠ .looping) (conn : Connection) :
    (σ.work conn).client.handled = σ.client.handled := by
  obtain ⟨c, phase, push⟩ := σ
  cases phase with
  | idle => rfl
  | ready =>
    have hload : Emits (fun _ => True) c c.loadStop.2 := loadStop_emits c
    have hreset : Emits (fun _ => True) c { c.loadStop.2 with shouldReconnect := true } :=
      .same rfl rfl
    have hdial := hreset.trans (.setStatus (ascii "connecting to " ++ c.host ++ ascii ":" ++
      decimal c.port.toNat) _)
    simp only [work]
    split_ifs
    · exact (hload.trans (finish_emits _)).handled
    · have hopen : (({ c.loadStop.2 with shouldReconnect := true }.dial).opened conn).handled =
          { c.loadStop.2 with shouldReconnect := true }.dial.handled :=
        (handled_emit_of_isMark rfl _).trans (handled_emit_of_isMark rfl _)
      exact hopen.trans hdial.handled
    · exact (hdial.trans (connectFailed_emits _)).handled
  | greeting =>
    have hshake := (handshake_emits c).mono (q := fun _ => True) fun _ _ => trivial
    simp only [work]
    split_ifs
    · exact (hshake.trans (.setStatus _ _)).handled
    · exact (hshake.trans (handshakeFailed_emits _)).handled
  | looping => exact absurd rfl h
  | answering keepGoing => exact (acknowledge_emits (keepGoing, c)).handled
  | closing => exact (loopExited_emits (p := fun _ => True) c).handled
  | leaving again =>
    have hretry : Emits (fun _ => True) c (retry (again, c)).2 := retry_emits (again, c)
    simp only [work]
    split_ifs
    · exact hretry.handled
    · exact (hretry.trans (finish_emits _)).handled

theorem upload_handled (σ : System) : σ.upload.client.handled = σ.client.handled := by
  unfold upload
  split
  · rfl
  · unfold grabClipboard
    dsimp only
    split_ifs
    · rfl
    · exact (write_emits _ _).handled
  · split_ifs <;> rfl
  · rfl
  · exact (write_emits _ _).handled

theorem work_of_looping {σ : System} (h : σ.phase = .looping) (conn : Connection) :
    (σ.work conn).client =
      if σ.client.loadStop.1 then σ.client.loadStop.2 else σ.client.loadStop.2.receive.2 := by
  simp only [work, h]
  split_ifs <;> rfl

theorem step_handles (σ : System) (a : Action) :
    (σ.step a).client.handled = σ.client.handled ∨
      ∃ s key m, (σ.step a).client =
        (({ σ.client.loadStop.2 with stream := s }.emit (.dispatched key)).handle m).2 := by
  cases a with
  | work conn =>
    by_cases hphase : σ.phase = .looping
    · rw [step, work_of_looping hphase]
      split_ifs
      · exact .inl rfl
      · rcases receive_handles σ.client.loadStop.2 with hsame | ⟨s, key, m, he⟩
        · exact .inl hsame
        · exact .inr ⟨s, key, m, by rw [he]⟩
    · exact .inl (work_handled hphase conn)
  | upload => exact .inl (upload_handled σ)
  | push text =>
    simp only [step, beginPush]
    split_ifs <;> exact .inl rfl
  | start host port screenName =>
    simp only [step, start]
    split
    · exact .inl (start_emits (p := fun _ => True) host port screenName σ.client).handled
    · exact .inl rfl
  | call k => exact .inl (call_emits (p := fun _ => True) k σ.client).handled

theorem handled_step (σ : System) (a : Action) :
    (σ.step a).client.handled = σ.client.handled ∨
      ∃ m, (σ.step a).client.handled = σ.client.handled ++ [m] := by
  rcases step_handles σ a with hsame | ⟨s, key, m, he⟩
  · exact .inl hsame
  · refine .inr ⟨m, ?_⟩
    rw [he, handle_handled, handled_emit_of_isMark rfl]
    rfl

theorem handled_run_isPrefix {pre actions : List Action} (h : pre <+: actions) (σ : System) :
    (σ.run pre).client.handled <+: (σ.run actions).client.handled := by
  obtain ⟨post, rfl⟩ := h
  induction post using List.reverseRecOn with
  | nil => exact (List.append_nil pre).symm ▸ List.prefix_refl _
  | append_singleton post a ih =>
    have hlast := handled_step (σ.run (pre ++ post)) a
    rw [← List.append_assoc, run_concat]
    refine ih.trans ?_
    rcases hlast with hsame | ⟨m, hm⟩
    · exact hsame ▸ List.prefix_refl _
    · rw [hm]
      exact List.prefix_append _ _

/-- What holds of the messages handled at every point of a run holds of every
initial segment of the messages it handles, and the other way round. -/
theorem forall_handled_iff {P : List Message → Prop} (injections : List InjectOutcome)
    (actions : List Action) :
    (∀ pre, pre <+: actions → P ((initial injections).run pre).client.handled) ↔
      ∀ ms, ms <+: ((initial injections).run actions).client.handled → P ms := by
  constructor
  · intro h
    induction actions using List.reverseRecOn with
    | nil =>
      intro ms hms
      obtain rfl : ms = [] := List.prefix_nil.mp hms
      exact h [] (List.prefix_refl _)
    | append_singleton actions a ih =>
      have hold := ih fun pre hpre => h pre (hpre.trans (List.prefix_append _ _))
      have hnew := h (actions ++ [a]) (List.prefix_refl _)
      intro ms hms
      rw [run_concat] at hms hnew
      rcases handled_step ((initial injections).run actions) a with hsame | ⟨m, hm⟩
      · rw [hsame] at hms
        exact hold ms hms
      · rw [hm] at hms hnew
        rcases List.prefix_concat_iff.mp hms with rfl | hms
        · exact hnew
        · exact hold ms hms
  · intro h pre hpre
    exact h _ (handled_run_isPrefix hpre _)

end System

end Deskflow
