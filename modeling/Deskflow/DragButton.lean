import Deskflow.ButtonFailures
import Deskflow.MouseEvents

/-! The button that a move carries is read off the messages before it. -/

namespace Deskflow

open History SharedLines

namespace Message

def decides (k : Int) : Message → Bool
  | .dmdn button => (button.toNat : Int) = k
  | .dmup button => (button.toNat : Int) = k
  | .cout => true
  | _ => false

def presses : Message → Bool
  | .dmdn _ => true
  | _ => false

end Message

/-- The most recent `DMDN` or `DMUP` of the button is a `DMDN`, with no `COUT` since. -/
def heldSince (k : Int) (ms : List Message) : Bool :=
  (ms.reverse.find? (Message.decides k)).any Message.presses

def dragged (ms : List Message) : Option MouseButton :=
  ([kButtonLeft, kButtonMiddle, kButtonRight].find? (heldSince · ms)).bind buttonToHarmony

theorem heldSince_concat (k : Int) (ms : List Message) (m : Message) :
    heldSince k (ms ++ [m]) = if m.decides k then m.presses else heldSince k ms := by
  rw [heldSince, List.reverse_append, List.reverse_singleton, List.singleton_append,
    List.find?_cons]
  cases m.decides k <;> rfl

/-- Of a button with a HarmonyOS code the requests say whether it is held. -/
theorem heldSince_eq_level {k : Int} {b : MouseButton} (hb : buttonToHarmony k = some b)
    (ms : List Message) : heldSince k ms = level (buttonRequests ms) b := by
  have hchange (button : UInt8) (down : Bool) (rs : List (MouseButton × Bool)) :
      level (rs ++ (buttonToHarmony button.toNat).toList.map fun b => (b, down)) b =
        if (button.toNat : Int) = k then down else level rs b := by
    split_ifs with hk
    · rw [hk, hb]
      simp only [Option.toList_some, List.map_cons, List.map_nil]
      rw [level_concat_apply, if_pos rfl]
    · cases hb' : buttonToHarmony button.toNat with
      | none => simp only [Option.toList_none, List.map_nil, List.append_nil]
      | some b' =>
        have hne : b ≠ b' := by
          rintro rfl
          exact hk (buttonToHarmony_injective hb' hb)
        simp only [Option.toList_some, List.map_cons, List.map_nil]
        exact level_concat_of_ne hne
  induction ms using List.reverseRecOn with
  | nil => rfl
  | append_singleton ms m ih =>
    rw [heldSince_concat, buttonRequests, List.flatMap_append, List.flatMap_singleton,
      ← buttonRequests]
    cases m with
    | dmdn button =>
      show (if decide ((button.toNat : Int) = k) = true then true else heldSince k ms) =
        level (buttonRequests ms ++ (buttonToHarmony button.toNat).toList.map fun b => (b, true)) b
      rw [hchange, ih]
      simp only [decide_eq_true_eq]
    | dmup button =>
      show (if decide ((button.toNat : Int) = k) = true then false else heldSince k ms) =
        level (buttonRequests ms ++ (buttonToHarmony button.toNat).toList.map fun b => (b, false)) b
      rw [hchange, ih]
      simp only [decide_eq_true_eq]
    | cout =>
      show false =
        level (buttonRequests ms ++ [(.left, false), (.middle, false), (.right, false)]) b
      refine (Bool.eq_false_of_not_eq_true fun hup => ?_).symm
      rw [level_append_low (by simp)] at hup
      cases b <;> simp at hup
    | _ => exact ih.trans (congrArg (level · b) (List.append_nil _).symm)

namespace DeskflowClient

theorem RecordsButtons.heldSince_iff {ms : List Message} {c : DeskflowClient}
    (h : RecordsButtons (buttonRequests ms) c) {k : Int} {b : MouseButton}
    (hb : buttonToHarmony k = some b) :
    heldSince k ms = true ↔ (k, true) ∈ c.mouseButtonsDown.entries := by
  rw [heldSince_eq_level hb]
  constructor
  · intro hup
    obtain ⟨k', hk', hmem⟩ := h.held b hup
    rwa [buttonToHarmony_injective hb hk']
  · intro hmem
    obtain ⟨b', hb', hlev⟩ := h.recorded k true hmem
    obtain rfl : b = b' := by simpa [hb] using hb'
    exact hlev

/-- The record is in the order of the ids, so its first pressed entry is the lowest. -/
theorem RecordsButtons.draggedButton {ms : List Message} {c : DeskflowClient}
    (h : RecordsButtons (buttonRequests ms) c) : c.draggedButton = dragged ms := by
  have hcode (k : Int) (hk : k ∈ [kButtonLeft, kButtonMiddle, kButtonRight]) :
      ∃ b, buttonToHarmony k = some b := by
    simp only [List.mem_cons, List.not_mem_nil, or_false] at hk
    rcases hk with rfl | rfl | rfl <;> exact ⟨_, rfl⟩
  cases hd : c.draggedButton with
  | none =>
    rw [DeskflowClient.draggedButton, List.findSome?_eq_none_iff] at hd
    have hnone : [kButtonLeft, kButtonMiddle, kButtonRight].find? (heldSince · ms) = none := by
      rw [List.find?_eq_none]
      intro k hk hheld
      obtain ⟨b, hb⟩ := hcode k hk
      have hfree := hd _ ((h.heldSince_iff hb).mp hheld)
      simp [hb] at hfree
    rw [dragged, hnone]
    rfl
  | some b =>
    rw [DeskflowClient.draggedButton, List.findSome?_eq_some_iff] at hd
    obtain ⟨before, ⟨k, down⟩, after, hentries, hfirst, hbefore⟩ := hd
    obtain ⟨rfl, hb⟩ : down = true ∧ buttonToHarmony k = some b := by
      cases down <;> simp_all
    have hsorted := c.mouseButtonsDown.sorted
    rw [hentries, List.pairwise_append, List.pairwise_cons] at hsorted
    have hheld : heldSince k ms = true := (h.heldSince_iff hb).mpr (by simp [hentries])
    have hlower (k' : Int) (hlt : k' < k) (b' : MouseButton)
        (hb' : buttonToHarmony k' = some b') : heldSince k' ms = false := by
      apply Bool.eq_false_of_not_eq_true
      intro hheld'
      have hmem := (h.heldSince_iff hb').mp hheld'
      rw [hentries, List.mem_append, List.mem_cons] at hmem
      rcases hmem with hmem | hmem | hmem
      · have hfree := hbefore _ hmem
        simp [hb'] at hfree
      · have hsame : k' = k := congrArg Prod.fst hmem
        omega
      · have habove := hsorted.2.1.1 _ hmem
        dsimp only at habove
        omega
    rcases buttonToHarmony_eq_some.mp hb with ⟨rfl, rfl⟩ | ⟨rfl, rfl⟩ | ⟨rfl, rfl⟩
    · simp [dragged, kButtonLeft, hheld, buttonToHarmony]
    · have hone := hlower 1 (by omega) .left rfl
      simp [dragged, kButtonLeft, kButtonMiddle, hone, hheld, buttonToHarmony]
    · have hone := hlower 1 (by omega) .left rfl
      have htwo := hlower 2 (by omega) .middle rfl
      simp [dragged, kButtonLeft, kButtonMiddle, kButtonRight, hone, htwo, hheld,
        buttonToHarmony]

/-- Every move carries the button that the messages handled before it leave dragged. -/
def CarriesDragged : List Event → Prop :=
  Throughout fun pre e =>
    e.Makes fun ev => ev.action = .move → ev.button = dragged (handledIn pre)

theorem CarriesDragged.grows {log log' : List Event} (h : CarriesDragged log)
    (hg : Grows (fun e => e.isInput = false) log log') : CarriesDragged log' :=
  (hg.throughout_iff fun _ _ => Event.makes_of_not_isInput).mpr h

theorem CarriesDragged.handle {c : DeskflowClient} (h : CarriesDragged c.world.log)
    (hrec : RecordsButtons (buttonRequests c.handled) c) (m : Message) :
    CarriesDragged (c.handle m).2.world.log := by
  obtain ⟨es, hes, hmade⟩ := perform_makes hrec.coded m
  have heffect := (perform_world m c).log
  have hperform : CarriesDragged (c.perform m).2.world.log := by
    rw [hes] at heffect ⊢
    intro pre e hpre
    rcases prefix_append_cases hpre with hold | ⟨fs, rfl, hnew⟩
    · exact h pre e hold
    · have hsame : handledIn (c.world.log ++ fs) = c.handled := by
        have hquiet : ∀ f ∈ fs, Event.handledMessage f = none := by
          intro f hf
          have hmem := hnew.subset (List.mem_append_left _ hf)
          have heff : f.isEffect := by
            obtain ⟨es', hes', heff⟩ := heffect
            obtain rfl := List.append_cancel_left hes'
            exact heff f hmem
          cases f <;> simp_all [Event.isEffect, Event.isInternal, Event.handledMessage]
        rw [handledIn, List.filterMap_append, List.filterMap_eq_nil_iff.mpr hquiet,
          List.append_nil]
        rfl
      refine (hmade e (hnew.subset (by simp))).mono ?_
      intro ev hev hact
      rw [hsame, ← hrec.draggedButton]
      cases hev with
      | move _ hbutton _ => exact hbutton
      | button hof _ => exact absurd hact hof.not_move
      | scroll hne _ _ => exact absurd hact hne
  exact hperform.grows (noInput_emit rfl _).world.log

theorem Moves.carriesDragged {c₀ c : DeskflowClient} (h : Moves c₀ c)
    (h₀ : CarriesDragged c₀.world.log)
    (hrec : RecordsButtons (buttonRequests c₀.handled) c₀) : CarriesDragged c.world.log := by
  refine h.preserves (p := fun c => CarriesDragged c.world.log) h₀ ?_ ?_
  · intro c c' hsilent hcarries
    exact hcarries.grows hsilent.log
  · intro c m hc hcarries
    exact hcarries.handle (Moves.recordsButtons hc hrec) m

end DeskflowClient

/-- In every run each move carries the lowest-numbered button that is held, if
there is one, whatever the injections answer. -/
theorem System.run_carriesDragged (injections : List InjectOutcome) (actions : List Action) :
    DeskflowClient.CarriesDragged ((initial injections).run actions).client.world.log :=
  (moves_fresh injections actions).carriesDragged throughout_nil
    (DeskflowClient.fresh_recordsButtons injections)

end Deskflow
