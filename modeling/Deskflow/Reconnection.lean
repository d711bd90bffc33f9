import Deskflow.ConnectionEnd

/-! When the reconnect loop attempts a further connection. -/

namespace Deskflow

namespace DeskflowClient

/-- The connection attempts of a run, in order. -/
def rounds : List Connection → DeskflowClient → List Round
  | conns, c =>
    if c.loadStop.1 then []
    else match conns with
      | [] => []
      | conn :: conns =>
        let r := retry (c.loadStop.2.connection conn)
        ⟨conn, c.loadStop.2⟩ :: if r.1 then rounds conns r.2 else []

/-- The rest of a run after a connection. -/
def resume (conns : List Connection) (r : Bool × DeskflowClient) : DeskflowClient :=
  if (retry r).1 then (retry r).2.run conns else (retry r).2.finish

/-- A set stop flag stays set, as only `start` resets it and refuses while the
worker runs; and the schedule has a value for every load of the run. -/
structure StopFlag (conns : List Connection) (c : DeskflowClient) : Prop where
  stays : c.world.stopLoads.Pairwise (· ≤ ·)
  covers : (c.run conns).world.stopLoads ≠ []

theorem run_cons {conn : Connection} {conns : List Connection} {c : DeskflowClient}
    (h : ¬c.loadStop.1 = true) :
    c.run (conn :: conns) = resume conns (c.loadStop.2.connection conn) := by
  rw [run, if_neg h]
  rfl

theorem rounds_cons {conn : Connection} {conns : List Connection} {c : DeskflowClient}
    (h : ¬c.loadStop.1 = true) :
    c.rounds (conn :: conns) = ⟨conn, c.loadStop.2⟩ ::
      if (retry (c.loadStop.2.connection conn)).1 then
        (retry (c.loadStop.2.connection conn)).2.rounds conns else [] := by
  rw [rounds, if_neg h]

theorem finish_stopLoads (c : DeskflowClient) : c.finish.world.stopLoads <:+ c.world.stopLoads := by
  unfold finish
  dsimp only
  split_ifs <;> exact List.tail_suffix _

theorem run_stopLoads (conns : List Connection) (c : DeskflowClient) :
    (c.run conns).world.stopLoads <:+ c.world.stopLoads := by
  have htail (c : DeskflowClient) : c.loadStop.2.world.stopLoads <:+ c.world.stopLoads :=
    List.tail_suffix _
  induction conns generalizing c with
  | nil =>
    rw [run]
    split_ifs
    · exact (finish_stopLoads _).trans (htail c)
    · exact htail c
  | cons conn conns ih =>
    have hround : (retry (c.loadStop.2.connection conn)).2.world.stopLoads <:+
        c.world.stopLoads :=
      ((retry_stopLoads _).trans (Round.connection_stopLoads ⟨conn, c.loadStop.2⟩)).trans (htail c)
    rw [run]
    split_ifs
    · exact (finish_stopLoads _).trans (htail c)
    · dsimp only
      split_ifs
      · exact (ih _).trans hround
      · exact (finish_stopLoads _).trans hround

theorem finish_attempts (c : DeskflowClient) : c.finish.attempts = c.attempts := by
  unfold finish
  dsimp only
  split_ifs
  · rfl
  · exact (Heeds.mark rfl (by simp) _).attempts

theorem backOff_attempts (n : Nat) (c : DeskflowClient) : (c.backOff n).attempts = c.attempts := by
  induction n generalizing c with
  | zero => rfl
  | succ n ih =>
    rw [backOff]
    split_ifs
    · rfl
    · exact ih c.loadStop.2

theorem retry_attempts (r : Bool × DeskflowClient) : (retry r).2.attempts = r.2.attempts := by
  unfold retry
  split_ifs
  · rfl
  · rfl
  · exact (backOff_attempts _ _).trans (Heeds.mark rfl (by simp) _).attempts

/-- The rounds are the attempts of the run. -/
theorem run_attempts (conns : List Connection) (c : DeskflowClient) :
    (c.run conns).attempts = c.attempts + (c.rounds conns).length := by
  induction conns generalizing c with
  | nil =>
    rw [run, rounds]
    split_ifs
    · exact finish_attempts _
    · rfl
  | cons conn conns ih =>
    by_cases hstop : c.loadStop.1 = true
    · rw [run, rounds, if_pos hstop, if_pos hstop]
      exact finish_attempts _
    · have hround : (retry (c.loadStop.2.connection conn)).2.attempts = c.attempts + 1 :=
        (retry_attempts _).trans (Round.connection_attempts ⟨conn, c.loadStop.2⟩)
      rw [run_cons hstop, rounds_cons hstop, resume, List.length_cons]
      split_ifs
      · rw [ih, hround]
        omega
      · rw [finish_attempts, hround]
        rfl

/-- The run goes on from each of its rounds. -/
theorem run_eq_resume {conns : List Connection} {c : DeskflowClient} {i : Nat} {r : Round}
    (hr : (c.rounds conns)[i]? = some r) : conns[i]? = some r.conn ∧
      c.run conns = resume (conns.drop (i + 1)) (r.client.connection r.conn) := by
  induction conns generalizing c i with
  | nil =>
    rw [rounds] at hr
    split_ifs at hr <;> cases hr
  | cons conn conns ih =>
    by_cases hstop : c.loadStop.1 = true
    · rw [rounds, if_pos hstop] at hr
      cases hr
    · rw [rounds_cons hstop] at hr
      rw [run_cons hstop]
      cases i with
      | zero =>
        obtain rfl : ⟨conn, c.loadStop.2⟩ = r := by simpa using hr
        exact ⟨rfl, rfl⟩
      | succ i =>
        rw [List.getElem?_cons_succ] at hr
        by_cases hagain : (retry (c.loadStop.2.connection conn)).1 = true
        · rw [if_pos hagain] at hr
          obtain ⟨hconn, hrun⟩ := ih hr
          rw [resume, if_pos hagain]
          exact ⟨hconn, hrun⟩
        · rw [if_neg hagain] at hr
          cases hr

theorem finish_running (c : DeskflowClient) : c.finish.running = false := by
  unfold finish
  dsimp only
  split_ifs <;> rfl

/-- A run to which further connections make no difference has returned. -/
theorem run_running {conns : List Connection} {c : DeskflowClient}
    (h : ∀ more, c.run (conns ++ more) = c.run conns) : (c.run conns).running = false := by
  induction conns generalizing c with
  | nil =>
    by_cases hstop : c.loadStop.1 = true
    · rw [run, if_pos hstop]
      exact finish_running _
    · have hmore := run_attempts ([] ++ [⟨false, [], []⟩]) c
      have hnone := run_attempts [] c
      rw [h [⟨false, [], []⟩], hnone, List.nil_append, rounds_cons hstop, List.length_cons, rounds,
        if_neg hstop, List.length_nil] at hmore
      omega
  | cons conn conns ih =>
    by_cases hstop : c.loadStop.1 = true
    · rw [run, if_pos hstop]
      exact finish_running _
    · rw [run_cons hstop, resume]
      by_cases hagain : (retry (c.loadStop.2.connection conn)).1 = true
      · rw [if_pos hagain]
        refine ih fun more => ?_
        have hsame := h more
        rw [List.cons_append, run_cons hstop, run_cons hstop, resume, resume, if_pos hagain,
          if_pos hagain] at hsame
        exact hsame
      · rw [if_neg hagain]
        exact finish_running _

theorem rounds_pos {conns : List Connection} (hconns : conns ≠ []) (c : DeskflowClient) :
    0 < (c.rounds conns).length ↔ c.loadStop.1 = false := by
  obtain ⟨conn, conns, rfl⟩ := List.exists_cons_of_ne_nil hconns
  rw [rounds]
  split_ifs with hstop
  · simp [hstop]
  · simp [hstop]

namespace StopFlag

variable {conn : Connection} {conns : List Connection} {c : DeskflowClient}

theorem covers_wait (h : StopFlag (conn :: conns) c) (hstop : ¬c.loadStop.1 = true) :
    (retry (c.loadStop.2.connection conn)).2.world.stopLoads ≠ [] := by
  have hrun := h.covers
  rw [run, if_neg hstop] at hrun
  dsimp only at hrun
  intro hnil
  split_ifs at hrun
  · have hsuffix := run_stopLoads conns (retry (c.loadStop.2.connection conn)).2
    rw [hnil] at hsuffix
    exact hrun (List.suffix_nil.mp hsuffix)
  · have hsuffix := finish_stopLoads (retry (c.loadStop.2.connection conn)).2
    rw [hnil] at hsuffix
    exact hrun (List.suffix_nil.mp hsuffix)

theorem next (h : StopFlag (conn :: conns) c) (hstop : ¬c.loadStop.1 = true)
    (hagain : (retry (c.loadStop.2.connection conn)).1 = true) :
    StopFlag conns (retry (c.loadStop.2.connection conn)).2 := by
  have htail : c.loadStop.2.world.stopLoads <:+ c.world.stopLoads := List.tail_suffix _
  have hsuffix :=
    ((retry_stopLoads _).trans (Round.connection_stopLoads ⟨conn, c.loadStop.2⟩)).trans htail
  have hrun := h.covers
  rw [run, if_neg hstop] at hrun
  dsimp only at hrun
  rw [if_pos hagain] at hrun
  exact ⟨h.stays.sublist hsuffix.sublist, hrun⟩

end StopFlag

theorem rounds_again {conns : List Connection} {c : DeskflowClient} (h : StopFlag conns c) {i : Nat}
    {r : Round} (hr : (c.rounds conns)[i]? = some r) (hi : i + 1 < conns.length) :
    i + 1 < (c.rounds conns).length ↔
      r.ended.loadAuto.1 = true ∧ ¬r.Dismissed ∧ ∀ b ∈ r.stopLoads, b = false := by
  induction conns generalizing c i with
  | nil => simp at hi
  | cons conn conns ih =>
    by_cases hstop : c.loadStop.1 = true
    · rw [rounds, if_pos hstop] at hr
      cases hr
    · rw [rounds_cons hstop] at hr ⊢
      rw [List.length_cons, Nat.add_lt_add_iff_right]
      rw [List.length_cons, Nat.add_lt_add_iff_right] at hi
      cases i with
      | zero =>
        obtain rfl : ⟨conn, c.loadStop.2⟩ = r := by simpa using hr
        rw [← Round.again_iff (r := ⟨conn, c.loadStop.2⟩) (h.stays.sublist (List.tail_sublist _))
          (h.covers_wait hstop)]
        by_cases hagain : (retry (c.loadStop.2.connection conn)).1 = true
        · rw [if_pos hagain, rounds_pos (List.ne_nil_of_length_pos hi)]
          exact (and_iff_right hagain).symm
        · rw [if_neg hagain]
          exact iff_of_false (Nat.lt_irrefl 0) fun hboth => hagain hboth.1
      | succ i =>
        rw [List.getElem?_cons_succ] at hr
        by_cases hagain : (retry (c.loadStop.2.connection conn)).1 = true
        · rw [if_pos hagain] at hr ⊢
          exact ih (h.next hstop hagain) hr hi
        · rw [if_neg hagain] at hr
          cases hr

/-- The rounds are the attempts of the run, each goes on from where the one before it left
the client, and what earlier ones left in `m_shouldReconnect` does not matter. There is a
further attempt after one exactly if, when it ended, automatic reconnection was on, the
stop flag was unset from then to the end of the wait, and the server had not dismissed the
client on that connection. A run that has returned leaves the client not running. -/
theorem run_reconnects {conns : List Connection} {c : DeskflowClient} (h : StopFlag conns c) :
    (c.run conns).attempts = c.attempts + (c.rounds conns).length ∧
    (∀ i r, (c.rounds conns)[i]? = some r → conns[i]? = some r.conn ∧
      (∀ again : Bool, c.run conns = resume (conns.drop (i + 1))
        ({ r.client with shouldReconnect := again }.connection r.conn)) ∧
      (i + 1 < conns.length → (c.attempts + (i + 1) < (c.run conns).attempts ↔
        r.ended.loadAuto.1 = true ∧ ¬r.Dismissed ∧ ∀ b ∈ r.stopLoads, b = false))) ∧
    ((∀ more, c.run (conns ++ more) = c.run conns) → (c.run conns).running = false) := by
  have hattempts := run_attempts conns c
  refine ⟨hattempts, fun i r hr => ?_, run_running⟩
  obtain ⟨hconn, hrun⟩ := run_eq_resume hr
  refine ⟨hconn, fun _ => hrun, fun hi => ?_⟩
  rw [hattempts, Nat.add_lt_add_iff_left]
  exact rounds_again h hr hi

/-- An unreachable server is tried again; after a `CBYE` the run is over. -/
theorem run_reconnects_until_cbye :
    let conns : List Connection :=
      [⟨false, [], []⟩, ⟨true, [.data (serverBytes [.cbye])], []⟩, ⟨false, [], []⟩]
    let c : DeskflowClient :=
      { running := true, reconnectIntervalMs := 100
        world := { stopLoads := List.replicate 12 false } }
    1 < (c.run conns).attempts ∧ ¬2 < (c.run conns).attempts := by
  intro conns c
  have hflag : StopFlag conns c := ⟨by decide, by decide +kernel⟩
  obtain ⟨-, hrounds, -⟩ := run_reconnects hflag
  let first : Round := ⟨⟨false, [], []⟩, c.loadStop.2⟩
  let waited : DeskflowClient := (retry (c.loadStop.2.connection ⟨false, [], []⟩)).2
  let second : Round := ⟨⟨true, [.data (serverBytes [.cbye])], []⟩, waited.loadStop.2⟩
  have hfirst : (c.rounds conns)[0]? = some first := rfl
  have hsecond : (c.rounds conns)[1]? = some second := by
    have hagain : (retry (c.loadStop.2.connection ⟨false, [], []⟩)).1 = true := by decide +kernel
    have hgo : ¬waited.loadStop.1 = true := by decide +kernel
    rw [rounds_cons (by decide), if_pos hagain, rounds_cons hgo]
    rfl
  have hcomes : ¬first.Dismissed := by
    have hhandled : first.handled = [] := by decide +kernel
    rw [Round.Dismissed, hhandled]
    rintro (hbye | ⟨a, b, hicv⟩ | ⟨name, major, minor, hhello, -⟩)
    · cases hbye
    · cases hicv
    · cases hhello
  have hbye : second.Dismissed := .inl (by decide +kernel)
  have hloads : ∀ b ∈ first.stopLoads, b = false := by decide +kernel
  refine ⟨((hrounds 0 first hfirst).2.2 (by decide)).mpr ⟨rfl, hcomes, hloads⟩, fun hmore => ?_⟩
  exact (((hrounds 1 second hsecond).2.2 (by decide)).mp hmore).2.1 hbye

end DeskflowClient

end Deskflow
