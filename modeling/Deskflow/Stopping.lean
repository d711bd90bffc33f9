import Deskflow.StopSteps

/-! When a `stop` among the steps of the worker is not lost. -/

namespace Deskflow

namespace Worker

theorem dialing_iff {w : Worker} : w.Dialing ↔ w = .connecting ∨ ∃ n, w = .storing n := by
  cases w <;> simp [Dialing]

def loaded : Worker → Option Nat
  | .entering _ fd => fd
  | .blocked _ n => some n
  | _ => none

end Worker

namespace Stopper

def tested : Stopper → Bool
  | .before => false
  | .testing => false
  | _ => true

def closed : Stopper → Bool
  | .resetting => true
  | .done => true
  | _ => false

theorem tested_of_closed {s : Stopper} (h : s.closed = true) : s.tested = true := by
  cases s <;> simp_all [closed, tested]

end Stopper

namespace Control

/-- Until `stop` closes the descriptor a `recv` uses the one that is stored, and from
then on neither is open. After the test the worker does not dial any more. -/
structure Sound (σ : Control) : Prop where
  requested : σ.stopper ≠ .before → σ.stopRequested = true
  loaded : σ.stopper.closed = false → ∀ n ∈ σ.worker.loaded, σ.fd = some n
  tested : σ.stopper.tested = true → ¬σ.worker.Dialing
  closed : σ.stopper.closed = true →
    (∀ n ∈ σ.fd, n ∉ σ.opened) ∧ ∀ n ∈ σ.worker.loaded, n ∉ σ.opened

theorem closeFd_subset (σ : Control) : σ.closeFd ⊆ σ.opened := by
  unfold closeFd
  split
  · exact Finset.erase_subset _ _
  · exact Finset.Subset.refl _

theorem not_mem_closeFd {σ : Control} {n : Nat} (h : σ.fd = some n) : n ∉ σ.closeFd := by
  rw [closeFd, h]
  exact Finset.notMem_erase n σ.opened

namespace Sound

variable {σ σ' : Control}

theorem move (h : Sound σ) {w : Worker}
    (hload : ∀ n ∈ w.loaded, n ∈ σ.worker.loaded ∨ σ.fd = some n)
    (hdial : w.Dialing → σ.worker.Dialing ∨ σ.stopRequested = false) :
    Sound { σ with worker := w } := by
  refine ⟨h.requested, fun hopen n hn => ?_, fun htested hw => ?_, fun hclosed => ?_⟩
  · rcases hload n hn with hold | hfd
    · exact h.loaded hopen n hold
    · exact hfd
  · rcases hdial hw with hold | hrunning
    · exact h.tested htested hold
    · have hstopped := h.requested (by rintro heq; simp [heq, Stopper.tested] at htested)
      rw [hrunning] at hstopped
      cases hstopped
  · obtain ⟨hfd, hloaded⟩ := h.closed hclosed
    refine ⟨hfd, fun n hn => ?_⟩
    rcases hload n hn with hold | hstored
    · exact hloaded n hold
    · exact hfd n hstored

theorem not_closed (h : Sound σ) (hdial : σ.worker.Dialing) : σ.stopper.closed = false := by
  by_contra hclosed
  rw [Bool.not_eq_false] at hclosed
  exact h.tested (Stopper.tested_of_closed hclosed) hdial

theorem work (h : Sound σ) (hstep : Work σ σ') : Sound σ' := by
  cases hstep with
  | dial hworker hrunning => exact h.move (by simp [Worker.loaded]) fun _ => .inr hrunning
  | accepted n hworker hfresh =>
    have hdial : σ.worker.Dialing := by simp [hworker, Worker.Dialing]
    have hopen := h.not_closed hdial
    refine ⟨h.requested, by simp [Worker.loaded], fun htested => ?_, fun hclosed => ?_⟩
    · exact absurd hdial (h.tested htested)
    · rw [hopen] at hclosed
      cases hclosed
  | store n hworker =>
    have hdial : σ.worker.Dialing := by simp [hworker, Worker.Dialing]
    have hopen := h.not_closed hdial
    refine ⟨h.requested, by simp [Worker.loaded], fun _ => id, fun hclosed => ?_⟩
    rw [hopen] at hclosed
    cases hclosed
  | load r hworker => exact h.move (fun n hn => .inr hn) False.elim
  | enter r n hworker hopen =>
    exact h.move (fun m hm => .inl (by rw [hworker]; exact hm)) False.elim
  | shut r hworker =>
    refine ⟨h.requested, by simp [Worker.loaded], fun _ => id, fun hclosed => ?_⟩
    refine ⟨fun n hn hmem => ?_, by simp [Worker.loaded]⟩
    exact (h.closed hclosed).1 n hn (σ.closeFd_subset hmem)
  | reset r hworker =>
    exact ⟨h.requested, by simp [Worker.loaded], fun _ => id, fun _ => by simp [Worker.loaded]⟩
  | _ => exact h.move (by simp [Worker.loaded]) False.elim

theorem stop (h : Sound σ) (hdial : σ.stopper = .testing → ¬σ.worker.Dialing)
    (hstep : Stop σ σ') : Sound σ' := by
  cases hstep with
  | request hbefore =>
    refine ⟨fun _ => rfl, fun _ => h.loaded (by rw [hbefore]; rfl), ?_, ?_⟩
    · exact fun htested => by cases htested
    · exact fun hclosed => by cases hclosed
  | holds n htesting hfd =>
    refine ⟨fun _ => h.requested (by simp [htesting]), fun _ => h.loaded (by rw [htesting]; rfl),
      fun _ => hdial htesting, fun hclosed => by cases hclosed⟩
  | holdsNone htesting hfd =>
    refine ⟨fun _ => h.requested (by simp [htesting]), fun hopen => Bool.noConfusion hopen,
      fun _ => hdial htesting, fun _ => ⟨by simp [hfd], fun n hn => ?_⟩⟩
    have hstored := h.loaded (by rw [htesting]; rfl) n hn
    rw [hfd] at hstored
    cases hstored
  | close hclosing =>
    refine ⟨fun _ => h.requested (by simp [hclosing]), fun hopen => Bool.noConfusion hopen,
      fun _ => h.tested (by rw [hclosing]; rfl), fun _ => ⟨?_, fun n hn => ?_⟩⟩
    · exact fun n hn => not_mem_closeFd hn
    · exact not_mem_closeFd (h.loaded (by rw [hclosing]; rfl) n hn)
  | reset hresetting =>
    obtain ⟨-, hloaded⟩ := h.closed (by rw [hresetting]; rfl)
    exact ⟨fun _ => h.requested (by simp [hresetting]), fun hopen => Bool.noConfusion hopen,
      fun _ => h.tested (by rw [hresetting]; rfl), fun _ => ⟨by simp, hloaded⟩⟩

theorem not_lost (h : Sound σ) : ¬σ.Lost := by
  rintro ⟨hdone, hrecv⟩
  obtain ⟨hfd, hloaded⟩ := h.closed (by rw [hdone]; rfl)
  unfold AtRecv at hrecv
  split at hrecv
  · obtain ⟨n, hn, hopen⟩ := hrecv
    exact hfd n hn hopen
  · rename_i r fd hworker
    obtain ⟨n, hn, hopen⟩ := hrecv
    exact hloaded n (by rw [hworker]; exact hn) hopen
  · rename_i r n hworker
    exact hloaded n (by rw [hworker]; rfl) hrecv
  · exact hrecv

end Sound

theorem sound_timely {σ : Control} (h : Relation.ReflTransGen Timely {} σ) : Sound σ := by
  induction h with
  | refl => exact ⟨by simp, by simp [Worker.loaded], by simp [Stopper.tested],
      by simp [Stopper.closed]⟩
  | tail _ hstep ih =>
    cases hstep with
    | work hwork => exact ih.work hwork
    | stop hdial hstop => exact ih.stop hdial hstop

/-- A completed `stop` that did not test the descriptor while the worker was dialling
leaves it in no `recv` on an open descriptor. -/
theorem not_lost_of_timely {σ : Control} (h : Relation.ReflTransGen Timely {} σ) : ¬σ.Lost :=
  (sound_timely h).not_lost

/-- The worker waits for the Hello on the descriptor that `stop` closes. -/
theorem not_lost_at_hello :
    ¬Lost ⟨true, none, Finset.erase {5} 5, .blocked .hello 5, .done⟩ := by
  refine not_lost_of_timely (.head (.work (.dial rfl rfl)) ?_)
  refine .head (.work (.accepted 5 rfl (Finset.notMem_empty 5))) ?_
  refine .head (.work (.store 5 rfl)) (.head (.work (.load .hello rfl)) ?_)
  refine .head (.work (.enter .hello 5 rfl (Finset.mem_insert_self 5 ∅))) ?_
  refine .head (.stop (by simp) (.request rfl)) ?_
  refine .head (.stop (fun _ => id) (.holds 5 rfl rfl)) ?_
  exact .head (.stop (by simp) (.close rfl)) (.single (.stop (by simp) (.reset rfl)))

/-- Between connections nothing is stored, and what is to be stored is open. -/
structure Idle (σ : Control) : Prop where
  fd : (σ.worker = .test ∨ σ.worker.Dialing ∨ (∃ r, σ.worker = .leaving r) ∨
    (∃ again, σ.worker = .retrying again) ∨ σ.worker = .waiting) → σ.fd = none
  opened : ∀ n, σ.worker = .storing n → n ∈ σ.opened

theorem Idle.work {σ σ' : Control} (h : Idle σ) (hstep : Work σ σ') : Idle σ' := by
  cases hstep with
  | dial hworker => exact ⟨fun _ => h.fd (.inl hworker), by simp⟩
  | refused hworker =>
    exact ⟨fun _ => h.fd (.inr (.inl (by simp [hworker, Worker.Dialing]))), by simp⟩
  | accepted n hworker =>
    refine ⟨fun _ => h.fd (.inr (.inl (by simp [hworker, Worker.Dialing]))), fun m hm => ?_⟩
    obtain rfl : n = m := by simpa using hm
    exact Finset.mem_insert_self n σ.opened
  | holdsNone r hworker hfd => exact ⟨fun _ => hfd, by simp⟩
  | reset r hworker => exact ⟨fun _ => rfl, by simp⟩
  | leave r again hworker => exact ⟨fun _ => h.fd (.inr (.inr (.inl ⟨r, hworker⟩))), by simp⟩
  | retry hworker => exact ⟨fun _ => h.fd (.inr (.inr (.inr (.inl ⟨true, hworker⟩)))), by simp⟩
  | waited hworker => exact ⟨fun _ => h.fd (.inr (.inr (.inr (.inr hworker)))), by simp⟩
  | _ => exact ⟨by simp [Worker.Dialing], by simp⟩

theorem Idle.stop {σ σ' : Control} (h : Idle σ) (hstep : Stop σ σ') : Idle σ' := by
  cases hstep with
  | close hclosing =>
    refine ⟨h.fd, fun n hn => ?_⟩
    have hworker : σ.worker = .storing n := hn
    have hfd := h.fd (.inr (.inl (by simp [hworker, Worker.Dialing])))
    rw [closeFd, hfd]
    exact h.opened n hn
  | reset => exact ⟨fun _ => rfl, h.opened⟩
  | _ => exact ⟨h.fd, h.opened⟩

theorem idle_steps {σ : Control} (h : Steps {} σ) : Idle σ := by
  induction h with
  | refl => exact ⟨fun _ => rfl, by simp⟩
  | tail _ hstep ih =>
    cases hstep with
    | work hwork => exact ih.work hwork
    | stop hstop => exact ih.stop hstop

theorem lost_of_storing {σ : Control} {n : Nat} (hdone : σ.stopper = .done)
    (hworker : σ.worker = .storing n) (hopen : n ∈ σ.opened) :
    ∃ σ', Steps σ σ' ∧ σ'.worker = .blocked .hello n ∧ σ'.Lost := by
  let stored : Control := { σ with fd := some n, worker := .reading .hello }
  let loaded : Control := { stored with worker := .entering .hello (some n) }
  refine ⟨{ loaded with worker := .blocked .hello n }, ?_, rfl, hdone, hopen⟩
  have hstore : Steps σ stored := .single (.work (.store n hworker))
  have hload : Steps stored loaded := .single (.work (.load .hello rfl))
  exact (hstore.trans hload).tail (.work (.enter .hello n rfl hopen))

/-- After an untimely test the worker can wait for the Hello for good. -/
theorem lost_of_dialing {σ σ' : Control} (h : Steps {} σ) (hstop : Stop σ σ')
    (htesting : σ.stopper = .testing) (hdial : σ.worker.Dialing) :
    ∃ σ'' n, Steps σ' σ'' ∧ σ''.worker = .blocked .hello n ∧ σ''.Lost := by
  have hidle := idle_steps h
  have hfd := hidle.fd (.inr (.inl hdial))
  obtain rfl : σ' = { σ with stopper := .done } := by
    cases hstop with
    | holdsNone => rfl
    | holds n _ hn =>
      rw [hfd] at hn
      cases hn
    | request hbefore =>
      rw [htesting] at hbefore
      cases hbefore
    | close hclosing =>
      rw [htesting] at hclosing
      cases hclosing
    | reset hresetting =>
      rw [htesting] at hresetting
      cases hresetting
  rcases Worker.dialing_iff.mp hdial with hworker | ⟨n, hworker⟩
  · obtain ⟨n, hn⟩ := Infinite.exists_notMem_finset σ.opened
    obtain ⟨σ'', hsteps, hblocked⟩ := lost_of_storing (n := n)
      (σ := { σ with opened := insert n σ.opened, worker := .storing n, stopper := .done })
      rfl rfl (Finset.mem_insert_self n σ.opened)
    exact ⟨σ'', n, .head (.work (.accepted n hworker hn)) hsteps, hblocked⟩
  · obtain ⟨σ'', hsteps, hblocked⟩ := lost_of_storing (σ := { σ with stopper := .done }) rfl
      hworker (hidle.opened n hworker)
    exact ⟨σ'', n, hsteps, hblocked⟩

/-- `stop` runs while the worker is in `connect`. -/
theorem lost_while_connecting : ∃ σ, Steps {} σ ∧ σ.Lost := by
  have hdial : Steps {} { worker := .connecting } := .single (.work (.dial rfl rfl))
  have hrequest : Steps {} { worker := .connecting, stopRequested := true, stopper := .testing } :=
    hdial.tail (.stop (.request rfl))
  obtain ⟨σ, n, hsteps, -, hlost⟩ := lost_of_dialing hrequest (.holdsNone rfl rfl) rfl trivial
  exact ⟨σ, (hrequest.tail (.stop (.holdsNone rfl rfl))).trans hsteps, hlost⟩

end Control

end Deskflow
