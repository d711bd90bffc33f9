import Deskflow.WorkerHandover

/-! What the workers report of their ends: each of them once at most, and a worker that was
asked to stop not after `start` has been called again. -/

namespace Deskflow

namespace Handover

/-- The steps in which no call of `start` resets the stop flag while a worker that was
asked to stop has its last test of it before it. -/
inductive Orderly : Handover → Handover → Prop
  | work {σ σ' : Handover} : Work σ σ' → Orderly σ σ'
  | call {σ σ' : Handover} : Call σ σ' →
      (σ.stage = .arming → ∀ w ∈ σ.workers, w.stage ≠ .reporting true) → Orderly σ σ'

/-- How often the `k`-th worker has reported. -/
def said (k : Nat) (σ : Handover) : Nat := σ.reports.countP (·.worker == k)

/-- What a worker that has reported `n` times can be doing. -/
def Saying (stop : Bool) (n : Nat) : WorkerStage → Prop
  | .running p => n = 0 ∨ n = 1 ∧ stop = true ∧ (p = .closing ∨ ∃ again, p = .leaving again)
  | .clearing => n = 0 ∨ n = 1 ∧ stop = true
  | .reporting asked => n = 0 ∨ n = 1 ∧ asked = true
  | .gone => n ≤ 1

theorem Saying.of_none {stop : Bool} (stage : WorkerStage) : Saying stop 0 stage := by
  cases stage <;> simp [Saying]

theorem Saying.set {stop : Bool} {n : Nat} {stage : WorkerStage} (h : Saying stop n stage) :
    Saying true n stage := by
  cases stage with
  | running p => exact h.imp_right fun hone => ⟨hone.1, rfl, hone.2.2⟩
  | clearing => exact h.imp_right fun hone => ⟨hone.1, rfl⟩
  | reporting asked => exact h
  | gone => exact h

theorem Saying.le {stop : Bool} {n : Nat} {stage : WorkerStage} (h : Saying stop n stage) :
    n ≤ 1 := by
  cases stage <;> simp only [Saying] at h <;> omega

structure Heard (σ : Handover) : Prop where
  asked : ∀ w ∈ σ.workers, w.stage = .reporting true → σ.stopRequested = true
  last : ∀ r ∈ σ.reports, r.last = true → r.asked = false
  said : ∀ k w, σ.workers[k]? = some w → Saying σ.stopRequested (σ.said k) w.stage
  unsaid : ∀ k, σ.workers.length ≤ k → σ.said k = 0

theorem said_concat (σ : Handover) (r : Report) (k : Nat) :
    (σ.reports ++ [r]).countP (·.worker == k) = σ.said k + if r.worker = k then 1 else 0 := by
  simp [said, List.countP_append, List.countP_cons]

theorem getElem?_move {σ : Handover} {k i : Nat} {w w' : WorkerThread} {stage : WorkerStage}
    (h : (σ.move k w stage).workers[i]? = some w') :
    i = k ∧ w' = { w with stage := stage } ∨ i ≠ k ∧ σ.workers[i]? = some w' := by
  have hset : (σ.workers.set k { w with stage := stage })[i]? = some w' := h
  by_cases hik : k = i
  · subst hik
    rw [List.getElem?_set_self'] at hset
    cases hold : σ.workers[k]? with
    | none =>
      rw [hold] at hset
      cases hset
    | some old =>
      rw [hold] at hset
      exact .inl ⟨rfl, (Option.some.inj hset).symm⟩
  · rw [List.getElem?_set_ne hik] at hset
    exact .inr ⟨Ne.symm hik, hset⟩

namespace Heard

variable {σ σ' : Handover}

/-- A step of the `k`-th worker, in which it reports something or not. -/
theorem move (h : Heard σ) {k : Nat} {w : WorkerThread} (hk : σ.workers[k]? = some w)
    {stage : WorkerStage} {reports : List Report}
    (hstage : stage = .reporting true → σ.stopRequested = true)
    (hlast : ∀ r ∈ reports, r.last = true → r.asked = false)
    (hsame : ∀ i, i ≠ k → reports.countP (·.worker == i) = σ.said i)
    (hsaid : Saying σ.stopRequested (reports.countP (·.worker == k)) stage) :
    Heard { σ.move k w stage with reports := reports } := by
  refine ⟨fun w' hw' hasked => ?_, hlast, fun i w' hi => ?_, fun i hi => ?_⟩
  · rcases mem_move hw' with rfl | hold
    · exact hstage hasked
    · exact h.asked w' hold hasked
  · rcases getElem?_move hi with ⟨rfl, rfl⟩ | ⟨hne, hold⟩
    · exact hsaid
    · have hcount : reports.countP (·.worker == i) = σ.said i := hsame i hne
      show Saying σ.stopRequested (reports.countP (·.worker == i)) w'.stage
      rw [hcount]
      exact h.said i w' hold
  · have hlength : σ.workers.length ≤ i := by simpa [Handover.move] using hi
    have hlt := (List.getElem?_eq_some_iff.mp hk).1
    exact (hsame i (by omega)).trans (h.unsaid i hlength)

/-- A step in which the worker reports nothing. -/
theorem still (h : Heard σ) {k : Nat} {w : WorkerThread} (hk : σ.workers[k]? = some w)
    {stage : WorkerStage} (hstage : stage = .reporting true → σ.stopRequested = true)
    (hsaid : Saying σ.stopRequested (σ.said k) stage) : Heard (σ.move k w stage) :=
  h.move hk hstage h.last (fun _ _ => rfl) hsaid

/-- A step in which the worker reports once. -/
theorem speak (h : Heard σ) {k : Nat} {w : WorkerThread} (hk : σ.workers[k]? = some w)
    {stage : WorkerStage} {last asked : Bool}
    (hstage : stage = .reporting true → σ.stopRequested = true)
    (hlast : last = true → asked = false) (hnone : σ.said k = 0)
    (hsaid : Saying σ.stopRequested 1 stage) :
    Heard { σ.move k w stage with reports := σ.reports ++ [⟨k, last, asked⟩] } := by
  refine h.move hk hstage ?_ (fun i hi => ?_) ?_
  · exact List.forall_mem_append.mpr ⟨h.last, by simpa using hlast⟩
  · rw [said_concat, if_neg (Ne.symm hi), Nat.add_zero]
  · rw [said_concat, if_pos rfl, hnone]
    exact hsaid

theorem work (h : Heard σ) (hstep : Work σ σ') : Heard σ' := by
  cases hstep with
  | next k w p q hk hw hpq hq hflag =>
    have hsaid := h.said k w hk
    rw [hw] at hsaid
    refine h.still hk (by simp) ?_
    rcases hsaid with hnone | ⟨hone, hstop, hp⟩
    · rw [hnone]
      exact .of_none _
    · refine .inr ⟨hone, hstop, ?_⟩
      rcases hp with rfl | ⟨again, rfl⟩
      · cases hpq with
        | closed again => exact .inr ⟨again, rfl⟩
      · cases hpq with
        | again =>
          rw [hflag (.inr rfl)] at hstop
          cases hstop
        | _ => exact absurd rfl hq
  | lost k w hk hw hflag =>
    have hsaid := h.said k w hk
    rw [hw] at hsaid
    have hnone : σ.said k = 0 := hsaid.resolve_right (by simp)
    exact h.speak hk (by simp) (by simp) hnone (.inr ⟨rfl, hflag, .inl rfl⟩)
  | finish k w p hk hw hp hflag =>
    have hsaid := h.said k w hk
    rw [hw] at hsaid
    exact h.still hk (by simp) (hsaid.imp_right fun hone => ⟨hone.1, hone.2.1⟩)
  | clear k w hk hw =>
    have hsaid := h.said k w hk
    rw [hw] at hsaid
    have hmoved : Heard (σ.move k w (.reporting σ.stopRequested)) := h.still hk (by simp) hsaid
    exact ⟨hmoved.asked, hmoved.last, hmoved.said, hmoved.unsaid⟩
  | report k w asked hk hw =>
    have hsaid := h.said k w hk
    by_cases hstop : σ.stopRequested = true
    · rw [if_pos hstop]
      exact h.still hk (by simp) hsaid.le
    · have hasked : asked = false := by
        by_contra hasked
        rw [Bool.not_eq_false] at hasked
        exact hstop (h.asked w (List.mem_of_getElem? hk) (by rw [hw, hasked]))
      rw [hw, hasked] at hsaid
      rw [if_neg hstop]
      exact h.speak hk (by simp) (fun _ => hasked) (hsaid.resolve_right (by simp)) (Nat.le_refl 1)

/-- The flag is set while the workers stay as they are. -/
theorem set (h : Heard σ) (hworkers : σ'.workers = σ.workers) (hreports : σ'.reports = σ.reports)
    (hstop : σ'.stopRequested = true) : Heard σ' := by
  have hsaid (k : Nat) : σ'.said k = σ.said k := by
    rw [Handover.said, hreports]
    rfl
  refine ⟨fun _ _ _ => hstop, hreports ▸ h.last, fun k w hk => ?_, fun k hk => ?_⟩
  · rw [hsaid, hstop]
    exact (h.said k w (hworkers ▸ hk)).set
  · rw [hsaid]
    exact h.unsaid k (hworkers ▸ hk)

theorem call (h : Heard σ) (hsole : Sole σ) (hstep : Call σ σ')
    (horder : σ.stage = .arming → ∀ w ∈ σ.workers, w.stage ≠ .reporting true) : Heard σ' := by
  cases hstep with
  | disconnect hfree => exact h.set rfl rfl rfl
  | connect target hfree => exact h.set rfl rfl rfl
  | arm harming =>
    refine ⟨fun w hw hasked => absurd hasked (horder harming w hw), h.last, fun k w hk => ?_,
      h.unsaid⟩
    have hidle : w.active = false :=
      hsole.not_active (hsole.launching (.inr (.inl harming))) (List.mem_of_getElem? hk)
    have hsaid := h.said k w hk
    obtain ⟨target, stage⟩ := w
    cases stage with
    | running p => cases hidle
    | clearing => cases hidle
    | reporting asked => exact hsaid
    | gone => exact hsaid
  | spawn hspawning =>
    refine ⟨fun w hw hasked => ?_, h.last, fun k w hk => ?_, fun k hk => ?_⟩
    · rcases List.mem_append.mp hw with hold | hnew
      · exact h.asked w hold hasked
      · rw [List.mem_singleton.mp hnew] at hasked
        cases hasked
    · by_cases hlt : k < σ.workers.length
      · exact h.said k w ((List.getElem?_append_left hlt).symm.trans hk)
      · have hnone : σ.said k = 0 := h.unsaid k (Nat.not_lt.mp hlt)
        show Saying σ.stopRequested (σ.said k) w.stage
        rw [hnone]
        exact .of_none _
    · have hlength : σ.workers.length + 1 ≤ k := by simpa [answer] using hk
      exact h.unsaid k (by omega)
  | _ => exact ⟨h.asked, h.last, h.said, h.unsaid⟩

end Heard

theorem steps_of_orderly {σ : Handover} (h : Relation.ReflTransGen Orderly {} σ) : Steps {} σ := by
  refine Relation.ReflTransGen.mono (fun _ _ hstep => ?_) _ _ h
  cases hstep with
  | work hwork => exact .work hwork
  | call hcall => exact .call hcall

theorem heard_steps {σ : Handover} (h : Relation.ReflTransGen Orderly {} σ) : Heard σ := by
  induction h with
  | refl => exact ⟨by simp, by simp, by simp, fun _ _ => rfl⟩
  | tail hsteps hstep ih =>
    cases hstep with
    | work hwork => exact ih.work hwork
    | call hcall horder => exact ih.call (sole_steps (steps_of_orderly hsteps)) hcall horder

theorem Heard.said_le {σ : Handover} (h : Heard σ) (k : Nat) : σ.said k ≤ 1 := by
  cases hk : σ.workers[k]? with
  | none => exact (h.unsaid k (List.getElem?_eq_none_iff.mp hk)).trans_le (Nat.zero_le 1)
  | some w => exact (h.said k w hk).le

/-- Where `start` never resets the flag under a worker that stops, each worker reports
"disconnected" once at most, and one that was asked to stop not at the end of `run`. In
another run a stopped worker reports the read that failed and, with the next client
running, its end. -/
theorem reports_orderly :
    (∀ σ, Relation.ReflTransGen Orderly {} σ →
      (∀ k, σ.said k ≤ 1) ∧ ∀ r ∈ σ.reports, r.last = true → r.asked = false) ∧
      ∃ σ w, Steps {} σ ∧ σ.reports = [⟨0, false, true⟩, ⟨0, true, true⟩] ∧
        σ.workers[1]? = some w ∧ w.active = true ∧ σ.running = true ∧ σ.stopRequested = false := by
  refine ⟨fun σ h => ⟨(heard_steps h).said_le, (heard_steps h).last⟩, ?_⟩
  let asked : Handover :=
    { started with stopRequested := true, workers := [⟨somewhere, .running .looping⟩] }
  let cleared : Handover :=
    { asked with
      running := false, workers := [⟨somewhere, .reporting true⟩]
      reports := [⟨0, false, true⟩] }
  have hasked : Steps {} asked := by
    refine (steps_started {} rfl rfl).trans ?_
    refine .head (.work (.next (σ := started) 0 _ .ready .greeting rfl rfl .accepted (by simp)
      fun _ => rfl)) ?_
    refine .head (.work (.next 0 ⟨somewhere, .running .greeting⟩ .greeting .looping rfl rfl .greeted
      (by simp) fun _ => rfl)) ?_
    exact .single (.call (.disconnect rfl))
  have hcleared : Steps asked cleared := by
    refine .head (.work (.lost 0 _ rfl rfl rfl)) ?_
    refine .head (.work (.next 0 ⟨somewhere, .running .closing⟩ .closing (.leaving false) rfl rfl
      (.closed false) (by simp) (by simp))) ?_
    refine .head (.work (.finish 0 ⟨somewhere, .running (.leaving false)⟩ _ rfl rfl (.over false)
      (by simp))) ?_
    exact .single (.work (.clear 0 ⟨somewhere, .clearing⟩ rfl rfl))
  have hagain := (hasked.trans hcleared).trans (steps_started cleared rfl rfl)
  refine ⟨_, ⟨somewhere, .running .ready⟩,
    hagain.tail (.work (.report 0 ⟨somewhere, .reporting true⟩ true rfl rfl)), ?_⟩
  exact ⟨rfl, rfl, rfl, rfl, rfl⟩

end Handover

end Deskflow
