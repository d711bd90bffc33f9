import Deskflow.MessageLoop

/-! How often the message loop goes round. An iteration pushes its frame back into
the read buffer, but what is left to read still shrinks. -/

namespace Deskflow.DeskflowClient

/-- The loop goes round `n` times and is back at its test. -/
inductive Iterates : Nat → DeskflowClient → DeskflowClient → Prop
  | zero (c : DeskflowClient) : Iterates 0 c c
  | succ {n : Nat} {c d : DeskflowClient} : c.loadStop.1 = false →
      c.loadStop.2.iterate.1 = true → Iterates n c.loadStop.2.iterate.2 d → Iterates (n + 1) c d

/-- The loop is left after `n` iterations. -/
inductive Leaves : Nat → DeskflowClient → DeskflowClient → Prop
  | stop {c : DeskflowClient} : c.loadStop.1 = true → Leaves 0 c c.loadStop.2
  | last {c : DeskflowClient} : c.loadStop.1 = false → c.loadStop.2.iterate.1 = false →
      Leaves 1 c c.loadStop.2.iterate.2
  | next {n : Nat} {c d : DeskflowClient} : c.loadStop.1 = false →
      c.loadStop.2.iterate.1 = true → Leaves n c.loadStop.2.iterate.2 d → Leaves (n + 1) c d

theorem loadStop_pending (c : DeskflowClient) :
    c.loadStop.2.stream.pending = c.stream.pending := rfl

theorem Iterates.consumes {n : Nat} {c d : DeskflowClient} (h : Iterates n c d) :
    d.stream.pending.length + 8 * n ≤ c.stream.pending.length := by
  induction h with
  | zero c => omega
  | @succ n c d hstop hgo _ ih =>
    have hless := iterate_consumes hgo
    rw [loadStop_pending] at hless
    omega

theorem Loop.leaves {c d : DeskflowClient} (h : Loop c d) :
    ∃ n ≤ c.stream.pending.length / 8 + 1, Leaves n c d := by
  induction h with
  | stop hstop => exact ⟨0, by omega, .stop hstop⟩
  | last hstop hend => exact ⟨1, by omega, .last hstop hend⟩
  | @next c d hstop hgo _ ih =>
    obtain ⟨n, hn, hleaves⟩ := ih
    have hless := iterate_consumes hgo
    rw [loadStop_pending] at hless
    exact ⟨n + 1, by omega, .next hstop hgo hleaves⟩

theorem Leaves.unique {m n : Nat} {c d e : DeskflowClient} (h : Leaves n c d)
    (h' : Leaves m c e) : m = n ∧ e = d := by
  induction h generalizing m with
  | stop hstop =>
    cases h' with
    | stop => exact ⟨rfl, rfl⟩
    | last hrun => exact absurd (hstop.symm.trans hrun) (by decide)
    | next hrun => exact absurd (hstop.symm.trans hrun) (by decide)
  | last hrun hend =>
    cases h' with
    | stop hstop => exact absurd (hstop.symm.trans hrun) (by decide)
    | last => exact ⟨rfl, rfl⟩
    | next _ hgo => exact absurd (hgo.symm.trans hend) (by decide)
  | next hrun hgo _ ih =>
    cases h' with
    | stop hstop => exact absurd (hstop.symm.trans hrun) (by decide)
    | last _ hend => exact absurd (hgo.symm.trans hend) (by decide)
    | next _ _ hrest =>
      obtain ⟨rfl, rfl⟩ := ih hrest
      exact ⟨rfl, rfl⟩

/-- Whatever the server sends and whatever is buffered, the loop starts no more
iterations than one for every eight bytes left to read and one more, and it is left. -/
theorem messageLoop_leaves (c : DeskflowClient) :
    (∀ n d, Iterates n c d → n + 1 ≤ c.stream.pending.length / 8 + 1) ∧
      ∃ n ≤ c.stream.pending.length / 8 + 1, Leaves n c c.messageLoop ∧
        ∀ m d, Leaves m c d → m = n ∧ d = c.messageLoop := by
  constructor
  · intro n d h
    have hless := h.consumes
    omega
  · obtain ⟨n, hn, hleaves⟩ := c.messageLoop_loop.leaves
    refine ⟨n, hn, hleaves, ?_⟩
    intro m d h
    exact hleaves.unique h

end Deskflow.DeskflowClient
