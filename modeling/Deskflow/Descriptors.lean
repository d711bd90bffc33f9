import Deskflow.AddressAttempts
import Deskflow.Stopping

/-! The descriptors that the worker and `stop` leave open, step by step. -/

namespace Deskflow

namespace Control

/-- The open descriptors of the process that are those of the stream. -/
def Tracks (table : Descriptors) (opened : Finset Nat) : Prop :=
  ∀ n, n ∈ opened ↔ table.entry n ≠ none

/-- A call of `connect` is what the worker does from there to the Hello, or to the end
of `runOnce`. -/
theorem connect_steps {σ : Control} (hworker : σ.worker = .connecting) {e : Endpoint}
    (htracks : Tracks e.table σ.opened) (timeoutMs : Nat) (result : Option (List AddrInfo)) :
    ∃ σ', Steps σ σ' ∧ Tracks (e.connect timeoutMs result).2.table σ'.opened ∧
      if (e.connect timeoutMs result).1 then
        σ'.worker = .reading .hello ∧ σ'.fd = (e.connect timeoutMs result).2.fd
      else σ'.worker = .retrying true ∧ σ'.fd = σ.fd := by
  rcases (e.connect_cases timeoutMs result).1 with
    ⟨hok, -, -, hentry⟩ | ⟨hok, n, -, ai, -, -, -, -, hfree, hfd, hentry⟩
  · refine ⟨_, .single (.work (.refused hworker)), fun m => ?_, ?_⟩
    · rw [hentry]
      exact htracks m
    · rw [hok]
      exact ⟨rfl, rfl⟩
  · have hnew : n ∉ σ.opened := fun hmem => (htracks n).mp hmem hfree
    let stored : Control := { σ with opened := insert n σ.opened, worker := .storing n }
    have haccept : Steps σ stored := .single (.work (.accepted n hworker hnew))
    refine ⟨_, haccept.tail (.work (.store n rfl)), fun m => ?_, ?_⟩
    · rw [hentry]
      by_cases hmn : m = n
      · rw [hmn, Function.update_self]
        exact iff_of_true (Finset.mem_insert_self n _) (by simp)
      · rw [Function.update_of_ne hmn, ← htracks m]
        exact ⟨fun hm => Finset.mem_of_mem_insert_of_ne hm hmn, Finset.mem_insert_of_mem⟩
    · rw [if_pos hok]
      exact ⟨rfl, hfd.symm⟩

/-- A call of `close` is what the worker does from there to the result of `runOnce`. -/
theorem close_steps {σ : Control} {r : Reading} (hworker : σ.worker = .closing r) {e : Endpoint}
    (hfd : σ.fd = e.fd) (htracks : Tracks e.table σ.opened) :
    ∃ σ', Steps σ σ' ∧ Tracks e.close.table σ'.opened ∧ σ'.worker = .leaving r ∧
      σ'.fd = e.close.fd := by
  unfold Endpoint.close
  cases hstored : e.fd with
  | none =>
    have hleave : Step σ _ := .work (.holdsNone r hworker (hfd.trans hstored))
    exact ⟨_, .single hleave, htracks, rfl, hfd⟩
  | some n =>
    let shutting : Control := { σ with worker := .shutting r }
    let closed : Control := { shutting with opened := shutting.closeFd, worker := .resetting r }
    have hholds : Step σ shutting := .work (.holds r n hworker (hfd.trans hstored))
    have hshut : Step shutting closed := .work (.shut r rfl)
    have hreset : Step closed { closed with fd := none, worker := .leaving r } :=
      .work (.reset r rfl)
    have herase : shutting.closeFd = σ.opened.erase n := by
      rw [closeFd, show shutting.fd = some n from hfd.trans hstored]
    refine ⟨_, ((Relation.ReflTransGen.single hholds).tail hshut).tail hreset,
      fun m => ?_, rfl, rfl⟩
    show m ∈ shutting.closeFd ↔ (e.table.close n).entry m ≠ none
    rw [herase, Finset.mem_erase, Descriptors.close_entry]
    by_cases hmn : m = n
    · rw [hmn, Function.update_self]
      simp
    · rw [Function.update_of_ne hmn, ← htracks m]
      exact and_iff_right hmn

/-- An open descriptor is the one that is stored or to be stored, and it is closed before
the store of -1. -/
structure Owned (σ : Control) : Prop where
  requested : σ.stopper ≠ .before → σ.stopRequested = true
  owned : ∀ n ∈ σ.opened, σ.fd = some n ∨ σ.worker = .storing n
  closing : σ.stopper = .closing ∨ σ.stopper = .resetting → ¬σ.worker.Dialing
  shut : (σ.stopper = .resetting ∨ (∃ r, σ.worker = .resetting r) ∨ σ.worker = .ended) →
    σ.opened = ∅

namespace Owned

variable {σ σ' : Control}

theorem opened_of_none (h : Owned σ) (hfd : σ.fd = none)
    (hworker : ∀ n, σ.worker ≠ .storing n) : σ.opened = ∅ := by
  apply Finset.eq_empty_of_forall_notMem
  intro n hn
  rcases h.owned n hn with hstored | hstoring
  · rw [hfd] at hstored
    cases hstored
  · exact hworker n hstoring

theorem closeFd_eq (h : Owned σ) (hworker : ∀ n, σ.worker ≠ .storing n) : σ.closeFd = ∅ := by
  apply Finset.eq_empty_of_forall_notMem
  intro n hn
  rcases h.owned n (σ.closeFd_subset hn) with hstored | hstoring
  · exact not_mem_closeFd hstored hn
  · exact hworker n hstoring

/-- A step of the worker alone that begins and ends outside `connect`. -/
theorem move (h : Owned σ) {w : Worker} (hold : ∀ n, σ.worker ≠ .storing n)
    (hdial : w.Dialing → σ.stopRequested = false) (hreset : ∀ r, w ≠ .resetting r)
    (hended : w = .ended → σ.fd = none) : Owned { σ with worker := w } := by
  refine ⟨h.requested, fun n hn => ?_, fun hclosing hw => ?_, fun hshut => ?_⟩
  · exact .inl ((h.owned n hn).resolve_right (hold n))
  · have hstopped : σ.stopRequested = true := by
      apply h.requested
      rintro hbefore
      rcases hclosing with hs | hs <;> exact Stopper.noConfusion (hbefore.symm.trans hs)
    rw [hdial hw] at hstopped
    cases hstopped
  · rcases hshut with hstopper | ⟨r, hr⟩ | hw
    · exact h.shut (.inl hstopper)
    · exact absurd hr (hreset r)
    · exact h.opened_of_none (hended hw) hold

theorem work (h : Owned σ) (hidle : Idle σ) (hstep : Work σ σ') : Owned σ' := by
  cases hstep with
  | dial hworker hrunning =>
    exact h.move (by simp [hworker]) (fun _ => hrunning) (by simp) (by simp)
  | quit hworker =>
    exact h.move (by simp [hworker]) (by simp [Worker.Dialing]) (by simp)
      fun _ => hidle.fd (.inl hworker)
  | giveUp again hworker =>
    exact h.move (by simp [hworker]) (by simp [Worker.Dialing]) (by simp)
      fun _ => hidle.fd (.inr (.inr (.inr (.inl ⟨again, hworker⟩))))
  | accepted n hworker hnew =>
    have hdial : σ.worker.Dialing := by simp [hworker, Worker.Dialing]
    have hnone := h.opened_of_none (hidle.fd (.inr (.inl hdial))) (by simp [hworker])
    refine ⟨h.requested, fun m hm => .inr ?_, fun hclosing => absurd hdial (h.closing hclosing),
      fun hshut => ?_⟩
    · obtain rfl : m = n := by simpa [hnone] using hm
      rfl
    · rcases hshut with hstopper | ⟨r, hr⟩ | hw
      · exact absurd hdial (h.closing (.inr hstopper))
      · cases hr
      · cases hw
  | store n hworker =>
    have hdial : σ.worker.Dialing := by simp [hworker, Worker.Dialing]
    refine ⟨h.requested, fun m hm => .inl ?_, fun _ => id, fun hshut => ?_⟩
    · rcases h.owned m hm with hstored | hstoring
      · rw [hidle.fd (.inr (.inl hdial))] at hstored
        cases hstored
      · rw [hworker] at hstoring
        exact congrArg some (Worker.storing.inj hstoring)
    · rcases hshut with hstopper | ⟨r, hr⟩ | hw
      · exact h.shut (.inl hstopper)
      · cases hr
      · cases hw
  | shut r hworker =>
    have hnone := h.closeFd_eq (by simp [hworker])
    exact ⟨h.requested, by simp [hnone], fun _ => id, fun _ => hnone⟩
  | reset r hworker =>
    have hnone := h.shut (.inr (.inl ⟨r, hworker⟩))
    exact ⟨h.requested, by simp [hnone], fun _ => id, fun _ => hnone⟩
  | _ =>
    exact h.move (by simp [*]) (by simp [Worker.Dialing]) (by simp) (by simp)

theorem stop (h : Owned σ) (hidle : Idle σ) (hstep : Stop σ σ') : Owned σ' := by
  cases hstep with
  | request hbefore =>
    refine ⟨fun _ => rfl, h.owned, by simp, fun hshut => h.shut (.inr ?_)⟩
    exact hshut.resolve_left (by simp)
  | holds n htesting hfd =>
    have hrequested : σ.stopRequested = true := h.requested (by simp [htesting])
    refine ⟨fun _ => hrequested, h.owned, fun _ hdial => ?_, fun hshut => h.shut (.inr ?_)⟩
    · rw [hidle.fd (.inr (.inl hdial))] at hfd
      cases hfd
    · exact hshut.resolve_left (by simp)
  | holdsNone htesting hfd =>
    have hrequested : σ.stopRequested = true := h.requested (by simp [htesting])
    refine ⟨fun _ => hrequested, h.owned, by simp, fun hshut => h.shut (.inr ?_)⟩
    exact hshut.resolve_left (by simp)
  | close hclosing =>
    have hrequested : σ.stopRequested = true := h.requested (by simp [hclosing])
    have hdial := h.closing (.inl hclosing)
    have hnone : σ.closeFd = ∅ :=
      h.closeFd_eq fun n hn => hdial (Worker.dialing_iff.mpr (.inr ⟨n, hn⟩))
    exact ⟨fun _ => hrequested, by simp [hnone], fun _ => hdial, fun _ => hnone⟩
  | reset hresetting =>
    have hrequested : σ.stopRequested = true := h.requested (by simp [hresetting])
    have hnone := h.shut (.inl hresetting)
    exact ⟨fun _ => hrequested, by simp [hnone], by simp, fun _ => hnone⟩

theorem card_le_one (h : Owned σ) (hidle : Idle σ) : σ.opened.card ≤ 1 := by
  rw [Finset.card_le_one]
  intro m hm n hn
  by_cases hdial : σ.worker.Dialing
  · have hfd := hidle.fd (.inr (.inl hdial))
    have hstoring (k : Nat) (hk : k ∈ σ.opened) : σ.worker = .storing k :=
      (h.owned k hk).resolve_left (by simp [hfd])
    exact Worker.storing.inj ((hstoring m hm).symm.trans (hstoring n hn))
  · have hstored (k : Nat) (hk : k ∈ σ.opened) : σ.fd = some k :=
      (h.owned k hk).resolve_right fun hworker => hdial (Worker.dialing_iff.mpr (.inr ⟨k, hworker⟩))
    exact Option.some.inj ((hstored m hm).symm.trans (hstored n hn))

end Owned

theorem owned_steps {σ : Control} (h : Steps {} σ) : Owned σ := by
  induction h with
  | refl => exact ⟨by simp, by simp, by simp, by simp⟩
  | tail hsteps hstep ih =>
    cases hstep with
    | work hwork => exact ih.work (idle_steps hsteps) hwork
    | stop hstop => exact ih.stop (idle_steps hsteps) hstop

/-- However `stop` falls among the steps of the worker, at most one descriptor is open,
`m_fd` is about to hold it or holds it, and a worker that has ended leaves none. -/
theorem opened_steps {σ : Control} (h : Steps {} σ) :
    (∀ n ∈ σ.opened, σ.fd = some n ∨ σ.worker = .storing n) ∧ σ.opened.card ≤ 1 ∧
      (σ.worker = .ended → σ.opened = ∅) := by
  have howned := owned_steps h
  exact ⟨howned.owned, howned.card_le_one (idle_steps h), fun hworker =>
    howned.shut (.inr (.inr hworker))⟩

/-- `stop` closes the descriptor on which the worker waits, and the worker ends. -/
theorem opened_steps_stopped : (⟨true, none, ∅, .ended, .done⟩ : Control).opened = ∅ := by
  refine (opened_steps (σ := ⟨true, none, ∅, .ended, .done⟩) ?_).2.2 rfl
  refine .head (.work (.dial rfl rfl)) (.head (.work (.accepted 5 rfl (by simp))) ?_)
  refine .head (.work (.store 5 rfl)) (.head (.work (.load .hello rfl)) ?_)
  refine .head (.work (.enter .hello 5 rfl (by simp))) (.head (.stop (.request rfl)) ?_)
  refine .head (.stop (.holds 5 rfl rfl)) (.head (.stop (.close rfl)) ?_)
  refine .head (.stop (.reset rfl)) (.head (.work (.failed .hello 5 rfl)) ?_)
  refine .head (.work (.holdsNone .hello rfl rfl)) ?_
  refine .head (.work (.leave .hello false rfl (by simp))) ?_
  exact .single (.work (.giveUp false rfl))

end Control

end Deskflow
