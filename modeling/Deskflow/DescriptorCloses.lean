import Deskflow.Descriptors

/-! Two calls of `SocketStream::close`, and the descriptors that their `::close` is on. -/

namespace Deskflow

namespace Control

/-- A thread is past the test of `SocketStream::close` and about to call `::close`. -/
def Shuts (σ : Control) : Prop := (∃ r, σ.worker = .shutting r) ∨ σ.stopper = .closing

/-- A thread is past its `::close` and about to store -1. -/
def Resets (σ : Control) : Prop := (∃ r, σ.worker = .resetting r) ∨ σ.stopper = .resetting

/-- The call of `::close` that comes next is on -1 or on a descriptor that is closed. -/
def Stale (σ : Control) : Prop := σ.Shuts ∧ ∀ n ∈ σ.fd, n ∉ σ.opened

/-- Both threads are past the test of `SocketStream::close` and have not left it. -/
def Overlaps (σ : Control) : Prop :=
  ((∃ r, σ.worker = .shutting r) ∨ ∃ r, σ.worker = .resetting r) ∧
    (σ.stopper = .closing ∨ σ.stopper = .resetting)

/-- A step that does not let the two threads meet in `SocketStream::close`. -/
def Apart (σ σ' : Control) : Prop := Step σ σ' ∧ ¬σ'.Overlaps

theorem overlaps_of_shuts {σ : Control} (hshuts : σ.Shuts) (hresets : σ.Resets) :
    σ.Overlaps := by
  rcases hshuts with ⟨r, hworker⟩ | hstopper <;> rcases hresets with ⟨q, hreset⟩ | hreset
  · rw [hworker] at hreset
    cases hreset
  · exact ⟨.inl ⟨r, hworker⟩, .inr hreset⟩
  · exact ⟨.inr ⟨q, hreset⟩, .inl hstopper⟩
  · rw [hstopper] at hreset
    cases hreset

theorem stopper_ne_closing {σ : Control} (hapart : ¬σ.Overlaps)
    (hworker : (∃ r, σ.worker = .shutting r) ∨ ∃ r, σ.worker = .resetting r) :
    σ.stopper ≠ .closing := fun hstopper => hapart ⟨hworker, .inl hstopper⟩

theorem worker_ne_shutting {σ : Control} (hapart : ¬σ.Overlaps)
    (hstopper : σ.stopper = .closing ∨ σ.stopper = .resetting) (r : Reading) :
    σ.worker ≠ .shutting r := fun hworker => hapart ⟨.inl ⟨r, hworker⟩, hstopper⟩

/-- What is stored is open until it is closed, and stays stored until then. -/
structure Holding (σ : Control) : Prop where
  stored : ∀ n, σ.fd = some n → n ∈ σ.opened ∨ σ.Resets
  shuts : σ.Shuts → ∃ n, σ.fd = some n

namespace Holding

variable {σ σ' : Control}

theorem not_stale (h : Holding σ) (hapart : ¬σ.Overlaps) : ¬σ.Stale := by
  rintro ⟨hshuts, hclosed⟩
  obtain ⟨n, hn⟩ := h.shuts hshuts
  rcases h.stored n hn with hopen | hresets
  · exact hclosed n hn hopen
  · exact hapart (overlaps_of_shuts hshuts hresets)

/-- A step of the worker alone outside `SocketStream::close`, or into it. -/
theorem move (h : Holding σ) {w : Worker} (hold : ∀ r, σ.worker ≠ .resetting r)
    (hshuts : (∃ r, w = .shutting r) → ∃ n, σ.fd = some n) :
    Holding { σ with worker := w } := by
  refine ⟨fun n hn => ?_, fun hs => ?_⟩
  · rcases h.stored n hn with hopen | ⟨r, hr⟩ | hstopper
    · exact .inl hopen
    · exact absurd hr (hold r)
    · exact .inr (.inr hstopper)
  · rcases hs with hw | hstopper
    · exact hshuts hw
    · exact h.shuts (.inr hstopper)

theorem work (h : Holding σ) (hidle : Idle σ) (hapart : ¬σ.Overlaps) (hstep : Work σ σ') :
    Holding σ' := by
  cases hstep with
  | accepted n hworker hnew =>
    have hmove := h.move (w := .storing n) (by simp [hworker]) (by simp)
    refine ⟨fun m hm => ?_, hmove.shuts⟩
    exact (hmove.stored m hm).imp_left (Finset.mem_insert_of_mem (b := n))
  | store n hworker =>
    refine ⟨fun m hm => .inl ?_, fun _ => ⟨n, rfl⟩⟩
    obtain rfl : n = m := Option.some.inj hm
    exact hidle.opened n hworker
  | holds r n hworker hfd => exact h.move (by simp [hworker]) fun _ => ⟨n, hfd⟩
  | shut r hworker =>
    have hstopper := stopper_ne_closing hapart (.inl ⟨r, hworker⟩)
    exact ⟨fun _ _ => .inr (.inl ⟨r, rfl⟩), by simp [Shuts, hstopper]⟩
  | reset r hworker =>
    have hstopper := stopper_ne_closing hapart (.inr ⟨r, hworker⟩)
    exact ⟨by simp, by simp [Shuts, hstopper]⟩
  | _ => exact h.move (by simp [*]) (by simp)

theorem stop (h : Holding σ) (hapart : ¬σ.Overlaps) (hstep : Stop σ σ') : Holding σ' := by
  cases hstep with
  | close hclosing =>
    have hworker := worker_ne_shutting hapart (.inl hclosing)
    exact ⟨fun _ _ => .inr (.inr rfl), by simp [Shuts, hworker]⟩
  | reset hresetting =>
    have hworker := worker_ne_shutting hapart (.inr hresetting)
    exact ⟨by simp, by simp [Shuts, hworker]⟩
  | holds n htesting hfd =>
    refine ⟨fun m hm => ?_, fun _ => ⟨n, hfd⟩⟩
    exact (h.stored m hm).imp_right fun hresets => hresets.imp_right (by simp [htesting])
  | request hold | holdsNone hold =>
    refine ⟨fun m hm => ?_, fun hshuts => ?_⟩
    · exact (h.stored m hm).imp_right fun hresets => hresets.imp_right (by simp [hold])
    · exact h.shuts (hshuts.imp_right (by simp))

end Holding

theorem steps_of_apart {σ : Control} (h : Relation.ReflTransGen Apart {} σ) : Steps {} σ :=
  Relation.ReflTransGen.mono (fun _ _ hstep => And.left hstep) _ _ h

theorem holding_apart {σ : Control} (h : Relation.ReflTransGen Apart {} σ) :
    Holding σ ∧ ¬σ.Overlaps := by
  induction h with
  | refl => exact ⟨⟨by simp, by simp [Shuts]⟩, by simp [Overlaps]⟩
  | tail hsteps hstep ih =>
    refine ⟨?_, hstep.2⟩
    cases hstep.1 with
    | work hwork => exact ih.1.work (idle_steps (steps_of_apart hsteps)) ih.2 hwork
    | stop hstop => exact ih.1.stop ih.2 hstop

theorem Owned.stale_of_resets {σ : Control} (h : Owned σ) (hshuts : σ.Shuts)
    (hresets : σ.Resets) : σ.Stale := by
  have hempty : σ.opened = ∅ := by
    rcases hresets with hworker | hstopper
    · exact h.shut (.inr (.inl hworker))
    · exact h.shut (.inl hstopper)
  refine ⟨hshuts, fun n _ => ?_⟩
  rw [hempty]
  exact Finset.notMem_empty n

/-- The first of two threads at `::close` leaves the other there. -/
theorem shuts_of_step {σ σ' : Control} (h : Step σ σ') (hworker : ∃ r, σ.worker = .shutting r)
    (hstopper : σ.stopper = .closing) : σ'.Shuts ∧ σ'.Resets := by
  obtain ⟨r, hr⟩ := hworker
  cases h with
  | work hwork =>
    cases hwork with
    | shut q => exact ⟨.inr hstopper, .inl ⟨q, rfl⟩⟩
    | _ => simp_all
  | stop hstop =>
    cases hstop with
    | close => exact ⟨.inl ⟨r, hr⟩, .inr rfl⟩
    | _ => simp_all

/-- As long as `stop` and the worker are not in `SocketStream::close` at the same time,
every `::close` is on an open descriptor. Once they are, and one of them has still to
call it, some call is not. -/
theorem closes_apart :
    (∀ σ, Relation.ReflTransGen Apart {} σ → ¬σ.Stale) ∧
      ∀ σ σ', Steps {} σ → σ.Overlaps → σ.Shuts → Step σ σ' → σ.Stale ∨ σ'.Stale := by
  refine ⟨fun σ h => ?_, fun σ σ' h hoverlaps hshuts hstep => ?_⟩
  · have hholding := holding_apart h
    exact hholding.1.not_stale hholding.2
  · by_cases hresets : σ.Resets
    · exact .inl ((owned_steps h).stale_of_resets hshuts hresets)
    · obtain ⟨hworker, hstopper⟩ := hoverlaps
      have hboth := shuts_of_step hstep (hworker.resolve_right fun hr => hresets (.inl hr))
        (hstopper.resolve_right fun hr => hresets (.inr hr))
      exact .inr ((owned_steps (h.tail hstep)).stale_of_resets hboth.1 hboth.2)

/-- A `stop` as the connection fails: the worker is at `::close`, `stop` comes to it too. -/
theorem closes_apart_failed :
    ¬(⟨true, some 5, {5}, .shutting .hello, .testing⟩ : Control).Stale ∧
      (⟨true, some 5, ∅, .resetting .hello, .closing⟩ : Control).Stale := by
  have hfailed :
      Relation.ReflTransGen Apart {} ⟨true, some 5, {5}, .shutting .hello, .testing⟩ := by
    refine .head ⟨.work (.dial rfl rfl), by simp [Overlaps]⟩ ?_
    refine .head ⟨.work (.accepted 5 rfl (by simp)), by simp [Overlaps]⟩ ?_
    refine .head ⟨.work (.store 5 rfl), by simp [Overlaps]⟩ ?_
    refine .head ⟨.work (.load .hello rfl), by simp [Overlaps]⟩ ?_
    refine .head ⟨.work (.enter .hello 5 rfl (by simp)), by simp [Overlaps]⟩ ?_
    refine .head ⟨.work (.failed .hello 5 rfl), by simp [Overlaps]⟩ ?_
    refine .head ⟨.work (.holds .hello 5 rfl rfl), by simp [Overlaps]⟩ ?_
    exact .single ⟨.stop (.request rfl), by simp [Overlaps]⟩
  refine ⟨closes_apart.1 _ hfailed, ?_⟩
  have hboth : Steps {} ⟨true, some 5, {5}, .shutting .hello, .closing⟩ :=
    (steps_of_apart hfailed).tail (.stop (.holds 5 rfl rfl))
  have hstale := closes_apart.2 _ ⟨true, some 5, ∅, .resetting .hello, .closing⟩ hboth
    ⟨.inl ⟨.hello, rfl⟩, .inl rfl⟩ (.inr rfl) (.work (.shut .hello rfl))
  exact hstale.resolve_left (by simp [Stale])

end Control

end Deskflow
