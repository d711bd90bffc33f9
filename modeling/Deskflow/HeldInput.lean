import Deskflow.ButtonRequests
import Deskflow.KeyRequests
import Deskflow.Threads

/-! What is held at system level, read off the requests of the messages. -/

namespace Deskflow

open SharedLines

/-- For every key code and button the last event, if any, is a release. -/
structure NothingHeld (log : List Event) : Prop where
  keys : ∀ code, level (keyEvents log) code = false
  buttons : ∀ b, level (buttonEvents log) b = false

namespace DeskflowClient

/-- At a mark the keys and buttons are as the messages handled before it asked. -/
theorem tracks_at {c : DeskflowClient} (h : Life [] c) {pre : List Event} {e : Event}
    (he : e = .returned ∨ ∃ m, e = .handled m) (hpre : pre ++ [e] <+: c.world.log) :
    keyEvents (pre ++ [e]) = events keyLine (keyRequests (handledIn (pre ++ [e]))) ∧
      level (buttonEvents (pre ++ [e])) = level (buttonRequests (handledIn (pre ++ [e]))) := by
  rcases he with rfl | ⟨m, rfl⟩
  · obtain ⟨b, hb, rfl⟩ := h.moves.of_returned rfl hpre
    have hmove : Moves (fresh []) (b.emit .returned) := hb.trans (moves_mark rfl b)
    exact ⟨(hmove.tracksKeys fresh_tracksKeys).keyEvents,
      (hmove.tracksButtons fresh_tracksButtons).buttonEvents⟩
  · obtain ⟨b, hb, hlog⟩ := h.moves.of_handled rfl hpre
    have hmove : Moves (fresh []) (b.handle m).2 := hb.tail (.handle b m)
    rw [← hlog]
    exact ⟨(hmove.tracksKeys fresh_tracksKeys).keyEvents,
      (hmove.tracksButtons fresh_tracksButtons).buttonEvents⟩

/-- Nothing is held after `COUT` or at the end of a connection exactly when the
server has released every key and button itself. -/
theorem nothingHeld_iff {c : DeskflowClient} (h : Life [] c) {pre : List Event} {e : Event}
    (he : e = .handled .cout ∨ e = .returned) (hpre : pre ++ [e] <+: c.world.log) :
    NothingHeld (pre ++ [e]) ↔
      (∀ code, ¬Outstanding keyLine (keyRequests (handledIn (pre ++ [e]))) code) ∧
        ∀ b, level (buttonRequests (handledIn (pre ++ [e]))) b = false := by
  have hmark : e = .returned ∨ ∃ m, e = .handled m := by
    rcases he with rfl | rfl
    · exact .inr ⟨_, rfl⟩
    · exact .inl rfl
  obtain ⟨hkeys, hbuttons⟩ := tracks_at h hmark hpre
  simp only [← level_events_iff_outstanding, ← hkeys, ← hbuttons, Bool.not_eq_true]
  exact ⟨fun hnone => ⟨hnone.keys, hnone.buttons⟩, fun hnone => ⟨hnone.1, hnone.2⟩⟩

/-- A key and a button that the server releases or leaves to `COUT`. -/
theorem nothingHeld_after_release :
    let c := session [.dkdn 97 0 38, .dmdn 1, .dkup 97 0 38, .cout]
    let n := c.world.log.idxOf (.handled .cout)
    NothingHeld (c.world.log.take n ++ [.handled .cout]) := by
  intro c n
  have hlife : Life [] c := life_session _
  have hpre : c.world.log.take n ++ [.handled .cout] <+: c.world.log := by
    decide +kernel
  have hevents : events keyLine (keyRequests (handledIn
      (c.world.log.take n ++ [.handled .cout]))) = [(KEYCODE_A, true), (KEYCODE_A, false)] := by
    decide +kernel
  refine (nothingHeld_iff hlife (.inl rfl) hpre).mpr ⟨fun code => ?_, ?_⟩
  · rw [← level_events_iff_outstanding, hevents]
    simp [level]
  · intro b
    cases b <;> decide +kernel

/-- A key pressed before `COUT` stays pressed. -/
theorem held_after_cout :
    ∃ c pre, Life [] c ∧ pre ++ [.handled .cout] <+: c.world.log ∧
      ¬NothingHeld (pre ++ [.handled .cout]) := by
  let c := session [.cinn 0 0 1 0, .dkdn 97 0 38, .cout]
  let n := c.world.log.idxOf (.handled .cout)
  have hlog : c.world.log.take n ++ [.handled .cout] <+: c.world.log := by
    decide +kernel
  have hheld : level (keyEvents (c.world.log.take n ++ [.handled .cout])) KEYCODE_A = true := by
    decide +kernel
  refine ⟨c, c.world.log.take n, life_session _, hlog, fun hnone => ?_⟩
  simp [hnone.keys] at hheld

/-- The events of each key code alternate exactly when no id is pressed while
another id of the code is recorded down. -/
theorem keyEvents_alternating_iff {c : DeskflowClient} (h : Life [] c) :
    Alternating (keyEvents c.world.log) ↔ Exclusive keyLine (keyRequests c.handled) := by
  rw [(h.moves.tracksKeys fresh_tracksKeys).keyEvents]
  exact alternating_events_iff

/-- Two ids of one key, one after the other. -/
theorem keyEvents_alternating_session :
    Alternating (keyEvents (session [.dkdn 65 0 38, .dkup 65 0 38, .dkdn 97 0 38]).world.log) := by
  let up : List (UInt32 × Bool) :=
    [(0xEFE1, false), (0xEFE3, false), (0xEFE9, false), (0xEFE7, false), (0xEFEB, false),
      (0xEFEA, false)]
  have hrequests : keyRequests (session [.dkdn 65 0 38, .dkup 65 0 38, .dkdn 97 0 38]).handled =
      ((([] ++ up) ++ [(65, true)]) ++ (up ++ [(65, false)] ++ up)) ++ [(97, true)] := by
    decide +kernel
  have hup : ∀ r ∈ up, r.2 = false := by simp [up]
  have hups : ∀ r ∈ up ++ [(65, false)] ++ up, r.2 = false := by simp [up]
  rw [keyEvents_alternating_iff (life_session _), hrequests, exclusive_concat,
    exclusive_append_releases hups, exclusive_concat, exclusive_append_releases hup]
  refine ⟨⟨fun pre i post hnil => by simp at hnil, fun _ _ j _ _ _ => ?_⟩, fun _ _ j _ _ _ => ?_⟩
  · simp [level, up]
  · simp +contextual [level, up, Function.update_apply]

/-- Both cases of a letter are pressed: its key goes down twice. -/
theorem keyEvents_not_alternating : ∃ c, Life [] c ∧ ¬Alternating (keyEvents c.world.log) := by
  refine ⟨session [.dkdn 97 0 38, .dkdn 65 0 38], life_session _, fun halt => ?_⟩
  have hevents : keyEvents (session [.dkdn 97 0 38, .dkdn 65 0 38]).world.log =
      [(KEYCODE_A, true), (KEYCODE_A, true)] := by
    decide +kernel
  have htwice := halt [(KEYCODE_A, true)] KEYCODE_A true [] hevents
  simp [level] at htwice

end DeskflowClient

namespace Message

def mask : Message → Option Int16
  | .cinn _ _ _ mask => some mask
  | .dkdn _ mask _ => some mask
  | .dkup _ mask _ => some mask
  | .dkrp _ mask _ _ _ => some mask
  | .dkdl _ mask _ _ => some mask
  | _ => none

/-- The physical button of a press. -/
def pressedButton : Message → Option Int16
  | .dkdn _ _ button => some button
  | .dkrp _ _ _ button _ => some button
  | .dkdl _ _ button _ => some button
  | _ => none

def releasedButton : Message → Option Int16
  | .dkup _ _ button => some button
  | _ => none

def pressRequests : Message → List (UInt32 × Bool)
  | .dkdn id _ _ => [(u32 id.toInt, true)]
  | .dkup id _ _ => [(u32 id.toInt, false)]
  | .dkrp id _ _ _ _ => [(u32 id.toInt, true)]
  | .dkdl id _ _ _ => [(u32 id.toInt, true)]
  | _ => []

theorem keyRequests_of_mask_zero {m : Message} (h : ∀ mask, m.mask = some mask → mask = 0) :
    m.keyRequests = m.pressRequests ∨ m.keyRequests = modifierRequests 0 ++ m.pressRequests := by
  cases m with
  | cinn x y seq mask => exact .inr (by rw [keyRequests, h mask rfl]; rfl)
  | dkdn id mask button => exact .inr (by rw [keyRequests, h mask rfl]; rfl)
  | dkup id mask button => exact .inr (by rw [keyRequests, h mask rfl]; rfl)
  | dkrp id mask count button lang => exact .inr (by rw [keyRequests, h mask rfl]; rfl)
  | dkdl id mask button lang => exact .inr (by rw [keyRequests, h mask rfl]; rfl)
  | _ => exact .inl rfl

end Message

def pressRequests (ms : List Message) : List (UInt32 × Bool) := ms.flatMap Message.pressRequests

/-- All masks are zero, and every press is followed by a release that carries
the same physical button. -/
structure Typing (ms : List Message) : Prop where
  masks : ∀ m ∈ ms, ∀ mask, m.mask = some mask → mask = 0
  released : ∀ pre m post button, ms = pre ++ m :: post → m.pressedButton = some button →
    ∃ m' ∈ post, m'.releasedButton = some button

theorem typing_pair (id id' button : Int16) :
    Typing [.dkdn id 0 button, .dkup id' 0 button] := by
  refine ⟨by simp [Message.mask], fun pre m post b hsplit hb => ?_⟩
  rcases pre with _ | ⟨m₁, pre⟩
  · simp only [List.nil_append, List.cons.injEq] at hsplit
    obtain ⟨rfl, rfl⟩ := hsplit
    exact ⟨.dkup id' 0 button, by simp, hb⟩
  · simp only [List.cons_append, List.cons.injEq] at hsplit
    obtain ⟨-, hsplit⟩ := hsplit
    rcases pre with _ | ⟨m₂, pre⟩
    · simp only [List.nil_append, List.cons.injEq] at hsplit
      obtain ⟨rfl, -⟩ := hsplit
      simp [Message.pressedButton] at hb
    · simp at hsplit

theorem low_of_pressRequests {ms : List Message} :
    ∀ q ∈ modifierRequests 0, level (pressRequests ms) q.1 = q.2 := by
  intro q hq
  have hall : ∀ q ∈ modifierRequests 0, q.2 = false :=
    List.all_iff_forall_prop.mp (by decide)
  rw [hall q hq]
  by_contra hhigh
  rw [Bool.not_eq_false] at hhigh
  have hmem := mem_of_level hhigh
  simp only [pressRequests, List.mem_flatMap] at hmem
  obtain ⟨m, -, hm⟩ := hmem
  have hid : ∃ id : Int16, q.1 = u32 id.toInt := by
    cases m <;> simp [Message.pressRequests] at hm
    · exact ⟨_, hm⟩
    · exact ⟨_, hm⟩
    · exact ⟨_, hm⟩
  obtain ⟨id, hid⟩ := hid
  exact u32_toInt_ne_modifier id q hq hid.symm

/-- With zero masks the modifier requests never change anything. -/
theorem changes_keyRequests {ms : List Message}
    (h : ∀ m ∈ ms, ∀ mask, m.mask = some mask → mask = 0) :
    level (keyRequests ms) = level (pressRequests ms) ∧
      changes (keyRequests ms) = changes (pressRequests ms) := by
  induction ms using List.reverseRecOn with
  | nil => exact ⟨rfl, rfl⟩
  | append_singleton ms m ih =>
    obtain ⟨hl, hc⟩ := ih fun m' hm' => h m' (by simp [hm'])
    have hlow : ∀ q ∈ modifierRequests 0, level (keyRequests ms) q.1 = q.2 := by
      rw [hl]
      exact low_of_pressRequests
    obtain ⟨hl₀, hc₀⟩ := append_of_level hlow
    rw [keyRequests, List.flatMap_append, List.flatMap_singleton, ← keyRequests, pressRequests,
      List.flatMap_append, List.flatMap_singleton, ← pressRequests]
    rcases Message.keyRequests_of_mask_zero (h m (by simp)) with hm | hm
    · rw [hm]
      exact append_congr hl hc _
    · rw [hm, ← List.append_assoc]
      exact append_congr (hl₀.trans hl) (hc₀.trans hc) _

namespace DeskflowClient

/-- With zero masks no key is left pressed exactly when, on every key code, the
last press of a released id or release of a pressed id is a release. -/
theorem no_key_pressed_iff {c : DeskflowClient} (h : Life [] c) {pre : List Event} {m : Message}
    (hpre : pre ++ [.handled m] <+: c.world.log)
    (ht : Typing (handledIn (pre ++ [.handled m]))) :
    (∀ code, level (keyEvents (pre ++ [.handled m])) code = false) ↔
      ∀ code, ¬Outstanding keyLine (pressRequests (handledIn (pre ++ [.handled m]))) code := by
  obtain ⟨hkeys, -⟩ := tracks_at h (.inr ⟨m, rfl⟩) hpre
  have hchanges := (changes_keyRequests ht.masks).2
  simp only [hkeys, events, hchanges]
  simp only [← events.eq_1, ← level_events_iff_outstanding, Bool.not_eq_true]

/-- A key released under the id it was pressed with. -/
theorem no_key_pressed_same_id :
    let c := session [.dkdn 65 0 38, .dkup 65 0 38]
    ∀ code, level (keyEvents (c.world.log.take
      (c.world.log.idxOf (.handled (.dkup 65 0 38))) ++ [.handled (.dkup 65 0 38)])) code =
        false := by
  intro c
  have hlife : Life [] c := life_session _
  have hpre : c.world.log.take (c.world.log.idxOf (.handled (.dkup 65 0 38))) ++
      [.handled (.dkup 65 0 38)] <+: c.world.log := by
    decide +kernel
  have hhandled : handledIn (c.world.log.take (c.world.log.idxOf (.handled (.dkup 65 0 38))) ++
      [.handled (.dkup 65 0 38)]) = [.dkdn 65 0 38, .dkup 65 0 38] := by
    decide +kernel
  have ht : Typing [.dkdn 65 0 38, .dkup 65 0 38] := typing_pair 65 65 38
  refine (no_key_pressed_iff hlife hpre (by rw [hhandled]; exact ht)).mpr fun code => ?_
  have hevents : events keyLine (pressRequests [.dkdn 65 0 38, .dkup 65 0 38]) =
      [(KEYCODE_A, true), (KEYCODE_A, false)] := by
    decide +kernel
  rw [hhandled, ← level_events_iff_outstanding, hevents]
  simp [level]

/-- A capital letter whose release carries the lower-case id, Shift having gone first. -/
theorem key_pressed_other_id :
    ∃ c pre m, Life [] c ∧ pre ++ [.handled m] <+: c.world.log ∧
      Typing (handledIn (pre ++ [.handled m])) ∧
      ¬∀ code, level (keyEvents (pre ++ [.handled m])) code = false := by
  let c := session [.dkdn 65 0 38, .dkup 97 0 38]
  let pre := c.world.log.take (c.world.log.idxOf (.handled (.dkup 97 0 38)))
  have hpre : pre ++ [.handled (.dkup 97 0 38)] <+: c.world.log := by
    decide +kernel
  have hhandled : handledIn (pre ++ [.handled (.dkup 97 0 38)]) =
      [.dkdn 65 0 38, .dkup 97 0 38] := by
    decide +kernel
  have hheld : level (keyEvents (pre ++ [.handled (.dkup 97 0 38)])) KEYCODE_A = true := by
    decide +kernel
  refine ⟨c, pre, .dkup 97 0 38, life_session _, hpre, ?_, fun hnone => ?_⟩
  · rw [hhandled]
    exact typing_pair 65 97 38
  · simp [hnone] at hheld

end DeskflowClient

end Deskflow
