import Deskflow.FrameAlignment
import Deskflow.Lifetime
import Deskflow.SharedLines

/-! The mouse buttons as latches: what the messages ask of them, what is
recorded and what was injected agree. -/

namespace Deskflow

open SharedLines

/-- The levels a message asks of the buttons; leaving the screen releases all. -/
def Message.buttonRequests : Message → List (MouseButton × Bool)
  | .dmdn button => (buttonToHarmony button.toNat).toList.map fun b => (b, true)
  | .dmup button => (buttonToHarmony button.toNat).toList.map fun b => (b, false)
  | .cout => [(.left, false), (.middle, false), (.right, false)]
  | _ => []

def buttonRequests (ms : List Message) : List (MouseButton × Bool) :=
  ms.flatMap Message.buttonRequests

/-- A button event that reached the system. -/
def Event.buttonChange : Event → Option (MouseButton × Bool)
  | .injected (.mouse ev) true =>
    match ev.action with
    | .buttonDown => ev.button.map fun b => (b, true)
    | .buttonUp => ev.button.map fun b => (b, false)
    | _ => none
  | _ => none

def buttonEvents (log : List Event) : List (MouseButton × Bool) :=
  log.filterMap Event.buttonChange

theorem Event.buttonChange_of_isKey {e : Event} (h : e.isKey) : e.buttonChange = none := by
  cases e with
  | injected i ok => cases i <;> simp_all [isKey, buttonChange]
  | _ => rfl

theorem Event.buttonChange_of_not_isInput {e : Event} (h : e.isInput = false) :
    e.buttonChange = none := by
  cases e <;> simp_all [isInput, buttonChange]

theorem buttonToHarmony_injective {k k' : Int} {b : MouseButton} (h : buttonToHarmony k = some b)
    (h' : buttonToHarmony k' = some b) : k = k' := by
  rw [buttonToHarmony_eq_some] at h h'
  rcases h with ⟨rfl, rfl⟩ | ⟨rfl, rfl⟩ | ⟨rfl, rfl⟩ <;> simpa [eq_comm] using h'

theorem level_append_low {ι : Type} [DecidableEq ι] {rs qs : List (ι × Bool)}
    (hq : ∀ q ∈ qs, q.2 = false) (i : ι) :
    level (rs ++ qs) i = true ↔ level rs i = true ∧ (i, false) ∉ qs := by
  induction qs using List.reverseRecOn with
  | nil => simp
  | append_singleton qs q ih =>
    have hlow : q.2 = false := hq q (by simp)
    have hq' : q = (q.1, false) := Prod.ext rfl hlow
    rw [← List.append_assoc, level_concat_apply]
    split_ifs with hi
    · rw [hlow, hi]
      simp only [Bool.false_eq_true, List.mem_append, List.mem_singleton, false_iff, not_and,
        not_not]
      exact fun _ => .inr hq'.symm
    · rw [ih fun q hmem => hq q (by simp [hmem])]
      simp only [List.mem_append, List.mem_singleton, not_or, and_congr_right_iff, iff_self_and]
      intro _ _ he
      exact hi (congrArg Prod.fst he)

namespace DeskflowClient

/-- The recorded buttons are those that the requests ask down. -/
structure RecordsButtons (rs : List (MouseButton × Bool)) (c : DeskflowClient) : Prop where
  recorded : ∀ k down, (k, down) ∈ c.mouseButtonsDown.entries →
    ∃ b, buttonToHarmony k = some b ∧ level rs b = down
  held : ∀ b, level rs b = true →
    ∃ k, buttonToHarmony k = some b ∧ (k, true) ∈ c.mouseButtonsDown.entries

namespace RecordsButtons

variable {rs : List (MouseButton × Bool)} {c c' : DeskflowClient}

theorem congr (h : RecordsButtons rs c) (hb : c'.mouseButtonsDown = c.mouseButtonsDown) :
    RecordsButtons rs c' :=
  ⟨by rw [hb]; exact h.recorded, by rw [hb]; exact h.held⟩

theorem coded (h : RecordsButtons rs c) :
    ∀ e ∈ c.mouseButtonsDown.entries, (buttonToHarmony e.1).isSome := by
  rintro ⟨k, down⟩ he
  obtain ⟨b, hb, -⟩ := h.recorded k down he
  rw [hb]
  rfl

theorem insert (h : RecordsButtons rs c) {k : Int} {b : MouseButton}
    (hb : buttonToHarmony k = some b) (down : Bool)
    (hc : c'.mouseButtonsDown = c.mouseButtonsDown.insert k down) :
    RecordsButtons (rs ++ [(b, down)]) c' := by
  constructor
  · intro k' down' hmem
    rw [hc, OrderedMap.mem_insert] at hmem
    rcases hmem with ⟨rfl, rfl⟩ | ⟨hk, hmem⟩
    · exact ⟨b, hb, by rw [level_concat_apply, if_pos rfl]⟩
    · obtain ⟨b', hb', hlev⟩ := h.recorded k' down' hmem
      have hne : b' ≠ b := by
        rintro rfl
        exact hk (buttonToHarmony_injective hb' hb)
      exact ⟨b', hb', by rw [level_concat_of_ne hne, hlev]⟩
  · intro b' hlev
    rw [hc]
    simp only [OrderedMap.mem_insert]
    rw [level_concat_apply] at hlev
    split_ifs at hlev with heq
    · exact ⟨k, by rw [hb, heq], .inl ⟨rfl, hlev.symm⟩⟩
    · obtain ⟨k', hb', hmem⟩ := h.held b' hlev
      refine ⟨k', hb', .inr ⟨fun hk => heq ?_, hmem⟩⟩
      rw [hk, hb] at hb'
      exact (Option.some.inj hb').symm

end RecordsButtons

/-- All injections succeed; the recorded buttons and the button events are those
that the requests give. -/
structure TracksButtons (rs : List (MouseButton × Bool)) (c : DeskflowClient) : Prop where
  injections : c.world.injections = []
  recorded : ∀ k down, (k, down) ∈ c.mouseButtonsDown.entries →
    ∃ b, buttonToHarmony k = some b ∧ level rs b = down
  held : ∀ b, level rs b = true →
    ∃ k, buttonToHarmony k = some b ∧ (k, true) ∈ c.mouseButtonsDown.entries
  buttonEvents : level (buttonEvents c.world.log) = level rs

namespace TracksButtons

variable {rs : List (MouseButton × Bool)} {c c' : DeskflowClient}

theorem records (h : TracksButtons rs c) : RecordsButtons rs c := ⟨h.recorded, h.held⟩

theorem congr (h : TracksButtons rs c) (hi : c'.world.injections = c.world.injections)
    (hb : c'.mouseButtonsDown = c.mouseButtonsDown)
    (he : Deskflow.buttonEvents c'.world.log = Deskflow.buttonEvents c.world.log) :
    TracksButtons rs c' :=
  ⟨hi.trans h.injections, by rw [hb]; exact h.recorded, by rw [hb]; exact h.held,
    by rw [he]; exact h.buttonEvents⟩

theorem of_extends (h : TracksButtons rs c)
    (hw : World.Extends (fun e => e.buttonChange = none) c.world c'.world)
    (hb : c'.mouseButtonsDown = c.mouseButtonsDown) : TracksButtons rs c' := by
  have hi := hw.injections
  rw [h.injections, List.suffix_nil] at hi
  exact h.congr (hi.trans h.injections.symm) hb (hw.log.filterMap_eq fun _ he => he)

theorem noInput (h : TracksButtons rs c) (hn : NoInput c c') : TracksButtons rs c' :=
  h.of_extends (hn.world.mono fun _ => Event.buttonChange_of_not_isInput) hn.mouseButtonsDown

theorem keyOnly (h : TracksButtons rs c) (hk : KeyOnly c c') : TracksButtons rs c' := by
  have hb := congrArg DeskflowClient.mouseButtonsDown hk.rest
  exact h.of_extends (hk.world.mono fun _ => Event.buttonChange_of_isKey) hb

theorem moveTo (h : TracksButtons rs c) (x y : Int) : TracksButtons rs (c.moveTo x y) := by
  have hset : TracksButtons rs { c with pointerX := x, pointerY := y } := h.congr rfl rfl rfl
  have hworld (e : InputEvent) (c : DeskflowClient)
      (he : ∀ ok, (Event.injected e ok).buttonChange = none) :
      World.Extends (fun e => e.buttonChange = none) c.world (c.inject e).2.world :=
    .inject he c.world
  refine hset.of_extends (hworld _ _ fun ok => ?_) rfl
  cases ok <;> rfl

theorem injectAxis (h : TracksButtons rs c) (axis : MouseAxis) (value : Int)
    (actions : List MouseAction) : TracksButtons rs (c.injectAxis axis value actions).2 := by
  induction actions generalizing c with
  | nil => exact h
  | cons action actions ih =>
    have hone : TracksButtons rs (c.inject (.mouse
        { action := action, displayX := c.pointerX, displayY := c.pointerY,
          globalX := c.pointerX, globalY := c.pointerY, axis := some (axis, value) })).2 := by
      refine h.of_extends (.inject (fun ok => ?_) c.world) rfl
      cases ok <;> cases action <;> rfl
    rw [DeskflowClient.injectAxis]
    split <;> rename_i hc
    · rw [hc] at hone
      exact ih hone
    · rwa [hc] at hone

theorem injectMouseWheel (h : TracksButtons rs c) (xDelta yDelta : Int) :
    TracksButtons rs (c.injectMouseWheel xDelta yDelta).2 := by
  unfold DeskflowClient.injectMouseWheel
  dsimp only
  split
  · exact h
  · exact h.injectAxis _ _ _

theorem injectMouseButton (h : TracksButtons rs c) (k : Int) (down : Bool) :
    TracksButtons (rs ++ (buttonToHarmony k).toList.map fun b => (b, down))
      (c.injectMouseButton k down).2 := by
  unfold DeskflowClient.injectMouseButton
  cases hb : buttonToHarmony k with
  | none =>
    simp only [Option.toList_none, List.map_nil, List.append_nil]
    split
    · exact h.injectMouseWheel _ _
    · exact h
  | some b =>
    have hi := h.injections
    simp only [Option.toList_some, List.map_cons, List.map_nil]
    refine ⟨?_, (h.records.insert hb down rfl).recorded, (h.records.insert hb down rfl).held, ?_⟩
    · simp only [inject, World.inject, hi, World.emit]
    · have hchange (ev : MouseEvent) (ha : ev.action = if down then .buttonDown else .buttonUp)
          (hbut : ev.button = some b) :
          (Event.injected (.mouse ev) true).buttonChange = some (b, down) := by
        rw [Event.buttonChange, ha, hbut]
        cases down <;> rfl
      simp only [inject, World.inject, hi, World.emit, Deskflow.buttonEvents,
        List.filterMap_append, List.filterMap_cons, List.filterMap_nil]
      rw [hchange _ rfl rfl, level_concat, level_concat, ← h.buttonEvents]
      rfl

/-- What the loop of `leaveScreen` asks of the buttons. -/
def releases (es : List (Int × Bool)) : List (MouseButton × Bool) :=
  es.flatMap fun e => if e.2 then (buttonToHarmony e.1).toList.map fun b => (b, false) else []

theorem releaseButtons (h : TracksButtons rs c) (es : List (Int × Bool)) :
    TracksButtons (rs ++ releases es)
      (es.foldl (fun c e => if e.2 then (c.injectMouseButton e.1 false).2 else c) c) := by
  induction es generalizing rs c with
  | nil => simpa [releases] using h
  | cons e es ih =>
    rw [List.foldl_cons, releases, List.flatMap_cons, ← List.append_assoc]
    cases e.2 with
    | false => exact ih (by simpa using h)
    | true => exact ih (h.injectMouseButton e.1 false)

theorem leaveScreen (h : TracksButtons rs c) :
    TracksButtons (rs ++ [(.left, false), (.middle, false), (.right, false)]) c.leaveScreen := by
  have hlow : ∀ q ∈ releases c.mouseButtonsDown.entries, q.2 = false := by
    intro q hq
    simp only [releases, List.mem_flatMap] at hq
    obtain ⟨e, -, hq⟩ := hq
    split_ifs at hq
    · simp only [List.mem_map] at hq
      obtain ⟨b, -, rfl⟩ := hq
      rfl
    · simp at hq
  have hnone (b : MouseButton) : level (rs ++ releases c.mouseButtonsDown.entries) b = false := by
    by_contra hheld
    rw [Bool.not_eq_false, level_append_low hlow] at hheld
    obtain ⟨k, hk, hmem⟩ := h.held b hheld.1
    refine hheld.2 (List.mem_flatMap.mpr ⟨(k, true), hmem, ?_⟩)
    simp [hk]
  have hall (b : MouseButton) :
      level (rs ++ [(.left, false), (.middle, false), (.right, false)]) b = false := by
    by_contra hheld
    rw [Bool.not_eq_false, level_append_low (by simp)] at hheld
    cases b <;> simp at hheld
  have hset : TracksButtons rs { c with active := false } := h.congr rfl rfl rfl
  obtain ⟨hi, -, -, hev⟩ := hset.releaseButtons c.mouseButtonsDown.entries
  have hdone : TracksButtons (rs ++ [(.left, false), (.middle, false), (.right, false)])
      { c.mouseButtonsDown.entries.foldl (fun c e =>
          if e.2 then (c.injectMouseButton e.1 false).2 else c) { c with active := false } with
        mouseButtonsDown := .empty } := by
    refine ⟨hi, by simp, fun b hb => ?_, ?_⟩
    · simp [hall b] at hb
    · funext b
      exact (congrFun hev b).trans ((hnone b).trans (hall b).symm)
  exact hdone.noInput (noInput_emit rfl _)

theorem enterScreen (h : TracksButtons rs c) (x y : Int16) (seq : UInt32) (mask : Int16) :
    TracksButtons rs (c.enterScreen x y seq mask) := by
  have hset : TracksButtons rs { c with active := true, seqNum := seq } := h.congr rfl rfl rfl
  unfold DeskflowClient.enterScreen
  split
  · exact ((hset.moveTo x.toInt y.toInt).keyOnly (syncModifiers_keyOnly _ _)).noInput
      (noInput_emit rfl _)
  · exact (hset.keyOnly (syncModifiers_keyOnly _ _)).noInput (noInput_emit rfl _)

theorem perform (h : TracksButtons rs c) (m : Message) :
    TracksButtons (rs ++ m.buttonRequests) (c.perform m).2 := by
  have hnone (hm : m.buttonRequests = []) (h' : TracksButtons rs (c.perform m).2) :
      TracksButtons (rs ++ m.buttonRequests) (c.perform m).2 := by
    rwa [hm, List.append_nil]
  cases m with
  | dmdn button => exact h.injectMouseButton _ true
  | dmup button => exact h.injectMouseButton _ false
  | cout => exact h.leaveScreen
  | cinn x y seq mask => exact hnone rfl (h.enterScreen x y seq mask)
  | dmmv x y => exact hnone rfl (h.moveTo _ _)
  | dmrm dx dy => exact hnone rfl (h.moveTo _ _)
  | dmwm xDelta yDelta => exact hnone rfl (h.injectMouseWheel _ _)
  | dkdn id mask button => exact hnone rfl (h.keyOnly (pressKey_keyOnly id mask c))
  | dkup id mask button => exact hnone rfl (h.keyOnly (releaseKey_keyOnly id mask c))
  | dkrp id mask count button lang => exact hnone rfl (h.keyOnly (pressKey_keyOnly id mask c))
  | dkdl id mask button lang => exact hnone rfl (h.keyOnly (pressKey_keyOnly id mask c))
  | _ => exact hnone rfl (h.noInput (perform_noInput rfl c))

theorem handle (h : TracksButtons (Deskflow.buttonRequests c.handled) c) (m : Message) :
    TracksButtons (Deskflow.buttonRequests (c.handle m).2.handled) (c.handle m).2 := by
  rw [handle_handled, Deskflow.buttonRequests, List.flatMap_append, List.flatMap_singleton]
  exact (h.perform m).noInput (noInput_emit rfl _)

end TracksButtons

/-- At every point between moves the buttons are as the handled messages asked. -/
theorem Moves.tracksButtons {c₀ c : DeskflowClient} (h : Moves c₀ c)
    (h₀ : TracksButtons (buttonRequests c₀.handled) c₀) :
    TracksButtons (buttonRequests c.handled) c := by
  refine h.preserves (p := fun c => TracksButtons (buttonRequests c.handled) c) h₀ ?_ ?_
  · intro c c' hsilent htracks
    rw [hsilent.handled]
    refine htracks.congr hsilent.injections hsilent.mouseButtonsDown ?_
    exact hsilent.log.filterMap_eq fun _ => Event.buttonChange_of_not_isInput
  · intro c m _ htracks
    exact htracks.handle m

theorem fresh_tracksButtons : TracksButtons (buttonRequests (fresh []).handled) (fresh []) :=
  ⟨rfl, by simp [fresh], by simp [fresh, handled, handledIn, buttonRequests, level_nil], rfl⟩

end DeskflowClient

end Deskflow
