import Deskflow.Quitting

/-! What `stop` leaves to the worker wherever it lands. Between `stop` and the end of a step
lie the loads of the flag that the step made before. -/

namespace Deskflow

open History DeskflowClient

/-- How many tests of the flag the step makes on which the worker stands, apart from the one
before a connection. -/
def System.tests (σ : System) : Nat :=
  match σ.phase with
  | .looping => 1
  | .closing => 1
  | .leaving _ => 1 + (σ.client.reconnectIntervalMs + 99) / 100
  | _ => 0

/-- `stop` has closed the stream in the middle of a step of the worker, which had found the
flag unset `early` times. -/
structure Interrupted (early : Nat) (σ : System) : Prop where
  closed : σ.client.stream.connected = false
  unread : σ.client.stream.buffer.unread = []
  tests : early ≤ σ.tests
  flagged : ∃ flags, 8 ≤ flags ∧
    σ.client.world.stopLoads = List.replicate early false ++ List.replicate flags true

namespace Interrupted

variable {early : Nat} {c : DeskflowClient} {push : Option Push} {conn : Connection}

/-- The read behind the test of the message loop is cut off. -/
theorem looping (h : Interrupted (early + 1) ⟨c, .looping, push⟩) :
    Quitting (System.work conn ⟨c, .looping, push⟩) ∧
      Farewell true c.world.log (System.work conn ⟨c, .looping, push⟩).client.world.log := by
  obtain ⟨hclosed, hunread, hearly, flags, hflags, hloads⟩ := h
  obtain ⟨hload, hrest⟩ := loadStop_of_early hloads
  obtain rfl : early = 0 := by simpa [System.tests] using hearly
  have hset : List.replicate (flags - 1 + 1) true <+: c.loadStop.2.world.stopLoads := by
    rw [hrest, Nat.sub_add_cancel (by omega)]
    exact List.prefix_refl _
  obtain ⟨hstop, hleft⟩ := loadStop_of_flagged hset
  obtain ⟨s, hs, hs', hreceive⟩ := receive_of_closed (c := c.loadStop.2) hclosed hunread hstop
  have hwork : (System.mk c .looping push).work conn =
      ⟨c.loadStop.2.receive.2, .answering c.loadStop.2.receive.1, push⟩ := by
    simp only [System.work, hload, Bool.false_eq_true, if_false]
  rw [hwork, hreceive]
  refine ⟨⟨hs, hs', Quitting.fewer ?_ hleft⟩, Farewell.single (by simp [Event.isFarewell]) _⟩
  show 2 * 3 ≤ flags - 1
  omega

/-- `runOnce` answers that the client is to come back. -/
theorem closing (h : Interrupted (early + 1) ⟨c, .closing, push⟩) :
    Quitting (System.work conn ⟨c, .closing, push⟩) ∧
      Farewell true c.world.log (System.work conn ⟨c, .closing, push⟩).client.world.log := by
  obtain ⟨-, -, hearly, flags, hflags, hloads⟩ := h
  obtain rfl : early = 0 := by simpa [System.tests] using hearly
  refine ⟨⟨rfl, rfl, ?_⟩, Farewell.single rfl _⟩
  show List.replicate (2 * 1) true <+: c.loadStop.2.world.stopLoads
  rw [(loadStop_of_early hloads).2]
  exact Quitting.fewer (by omega) (List.prefix_refl _)

/-- The loop is over anyway, and `run` reports its end. -/
theorem leaving_over {again : Bool} (h : Interrupted (early + 1) ⟨c, .leaving again, push⟩)
    (hends : (!c.loadAuto.1 || !again) = true) :
    Quitting (System.work conn ⟨c, .leaving again, push⟩) ∧
      Farewell true c.world.log (System.work conn ⟨c, .leaving again, push⟩).client.world.log := by
  obtain ⟨hclosed, hunread, -, flags, -, hloads⟩ := h
  have hover : retry (again, c) = (false, c.loadAuto.2) := if_pos hends
  have hstream : c.loadAuto.2.finish.stream = c.stream := finish_stream _
  have hwork : (System.mk c (.leaving again) push).work conn =
      ⟨c.loadAuto.2.finish, .idle, push⟩ := by
    simp only [System.work, hover, Bool.false_eq_true, if_false]
  rw [hwork]
  refine ⟨.of_stream hstream hclosed hunread List.nil_prefix, ?_⟩
  show Farewell true c.world.log c.loadAuto.2.finish.world.log
  rw [finish_of_unset (c := c.loadAuto.2) (loadStop_of_early hloads).1]
  exact Farewell.single (by simp [Event.isFarewell]) _

/-- The client is to come back, and the wait is cut off. -/
theorem leaving_again {again : Bool} (h : Interrupted (early + 1) ⟨c, .leaving again, push⟩)
    (hends : ¬(!c.loadAuto.1 || !again) = true) :
    Quitting (System.work conn ⟨c, .leaving again, push⟩) ∧
      Farewell true c.world.log (System.work conn ⟨c, .leaving again, push⟩).client.world.log := by
  obtain ⟨hclosed, hunread, hearly, flags, hflags, hloads⟩ := h
  obtain ⟨hload, hrest⟩ := loadStop_of_early hloads
  let waits := (c.reconnectIntervalMs + 99) / 100
  let waiting : DeskflowClient := c.loadAuto.2.loadStop.2.setStatus
    (ascii "reconnecting in " ++ decimal c.reconnectIntervalMs ++ ascii "ms")
  have hgo : ¬c.loadAuto.2.loadStop.1 = true := by
    have hunset : c.loadAuto.2.loadStop.1 = false := hload
    simp [hunset]
  have hagain : retry (again, c) = (true, waiting.backOff waits) := by
    unfold retry
    rw [if_neg hends, if_neg hgo]
    rfl
  have hearly' : early ≤ waits := by
    simp only [System.tests] at hearly
    omega
  have hwait : waiting.world.stopLoads =
      List.replicate early false ++ List.replicate (flags - 1 + 1) true := by
    rw [Nat.sub_add_cancel (by omega)]
    exact hrest
  obtain ⟨hleft, hlog⟩ := backOff_of_early hearly' hwait
  have hstream : (waiting.backOff waits).stream = c.stream := by
    have hretry := retry_stream (again, c)
    rwa [hagain] at hretry
  have hwork : (System.mk c (.leaving again) push).work conn =
      ⟨waiting.backOff waits, .ready, push⟩ := by
    simp only [System.work, hagain, if_true]
  rw [hwork]
  refine ⟨.of_stream hstream hclosed hunread (Quitting.fewer ?_ hleft), ?_⟩
  · show 2 * 1 ≤ flags - 1
    omega
  · show Farewell true c.world.log (waiting.backOff waits).world.log
    rw [hlog]
    refine Farewell.single ?_ _
    simp [Event.isFarewell, List.append_assoc, List.isPrefixOf_iff_prefix]

/-- With that step the worker has taken notice. -/
theorem work {σ : System} (h : Interrupted early σ) (conn : Connection) :
    Quitting (σ.work conn) ∧ Farewell true σ.client.world.log (σ.work conn).client.world.log := by
  obtain ⟨c, phase, push⟩ := σ
  cases early with
  | zero =>
    obtain ⟨hclosed, hunread, -, flags, hflags, hloads⟩ := h
    have hquits : Quitting ⟨c, phase, push⟩ := by
      refine ⟨hclosed, hunread, Quitting.fewer (n := flags) ?_ (hloads ▸ List.prefix_refl _)⟩
      have hle := phase.remaining_le
      show 2 * phase.remaining ≤ flags
      omega
    obtain ⟨hquits', -, hlog⟩ := hquits.work conn
    exact ⟨hquits', hlog.widen⟩
  | succ early =>
    cases phase with
    | looping => exact h.looping
    | closing => exact h.closing
    | leaving again =>
      by_cases hends : (!c.loadAuto.1 || !again) = true
      · exact h.leaving_over hends
      · exact h.leaving_again hends
    | _ =>
      have hearly := h.tests
      simp [System.tests] at hearly

end Interrupted

namespace System

/-- `stop`: the flag, which the worker's next loads but the first `early` ones see, and the
close. Those come before it in the step that the worker is taking. -/
def stop (early flags : Nat) (autoLoads : List Bool) (σ : System) : System :=
  let loads := List.replicate early false ++ List.replicate flags true
  (σ.step (.call (.loads loads autoLoads))).step (.call .stop)

end System

end Deskflow
