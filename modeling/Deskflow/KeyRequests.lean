import Mathlib.Data.Bool.AllAny
import Deskflow.FrameAlignment
import Deskflow.Lifetime
import Deskflow.SharedLines

/-! Every message is a list of requests to key ids, which the client treats as
latches driving the HarmonyOS key codes as shared lines. -/

namespace Deskflow

open SharedLines

/-- The key code an id is injected as. -/
def keyLine (keysym : UInt32) : Option Int :=
  if keysymToKeycode keysym < 0 then none else some (keysymToKeycode keysym)

/-- What a mask asks of the modifier keysyms, in the order of `syncModifiers`. -/
def modifierRequests (mask : UInt32) : List (UInt32 × Bool) :=
  DeskflowClient.kModBits.map fun bit =>
    (DeskflowClient.maskModifierKeysym bit, mask &&& bit != 0)

/-- The levels a message asks of key ids. -/
def Message.keyRequests : Message → List (UInt32 × Bool)
  | .cinn _ _ _ mask => modifierRequests (u32 mask.toInt)
  | .dkdn id mask _ => modifierRequests (u32 mask.toInt) ++ [(u32 id.toInt, true)]
  | .dkup id mask _ => modifierRequests (u32 mask.toInt) ++ [(u32 id.toInt, false)]
  | .dkrp id mask _ _ _ => modifierRequests (u32 mask.toInt) ++ [(u32 id.toInt, true)]
  | .dkdl id mask _ _ => modifierRequests (u32 mask.toInt) ++ [(u32 id.toInt, true)]
  | _ => []

def keyRequests (ms : List Message) : List (UInt32 × Bool) := ms.flatMap Message.keyRequests

/-- A 16-bit id is never one of the keysyms that the masks control. -/
theorem u32_toInt_ne_modifier (id : Int16) :
    ∀ q ∈ modifierRequests 0, u32 id.toInt ≠ q.1 := by
  intro q hq he
  have hlt := id.toInt_lt
  have hle := id.le_toInt
  have hnat : (u32 id.toInt).toNat = (id.toInt % 2 ^ 32).toNat := by
    rw [u32, UInt32.ofInt, UInt32.toNat_ofNat']
    omega
  have hall : ∀ q ∈ modifierRequests 0, 0xEFE1 ≤ q.1.toNat ∧ q.1.toNat ≤ 0xEFEB :=
    List.all_iff_forall_prop.mp (by decide)
  have hrange := hall q hq
  rw [he] at hnat
  omega

/-- A key event that reached the system. -/
def Event.keyChange : Event → Option (Int × Bool)
  | .injected (.key ev) true => some (ev.keyCode, ev.down)
  | _ => none

def keyEvents (log : List Event) : List (Int × Bool) := log.filterMap Event.keyChange

theorem Event.keyChange_of_isMouse {e : Event} (h : e.isMouse) : e.keyChange = none := by
  cases e with
  | injected i ok => cases i <;> simp_all [isMouse, keyChange]
  | _ => rfl

theorem Event.keyChange_of_not_isInput {e : Event} (h : e.isInput = false) :
    e.keyChange = none := by
  cases e <;> simp_all [isInput, keyChange]

namespace DeskflowClient

/-- One request: nothing happens where the recorded level is the wanted one. -/
def requestKey (c : DeskflowClient) (r : UInt32 × Bool) : DeskflowClient :=
  if c.keyStates r.1 = r.2 then c else c.setKeyState r.1 r.2

theorem syncModifier_eq {bit : UInt32} (h : bit ∈ kModBits) (mask : UInt32) (c : DeskflowClient) :
    c.syncModifier mask bit = c.requestKey (maskModifierKeysym bit, mask &&& bit != 0) := by
  have hkeysyms : ∀ bit ∈ kModBits, maskModifierKeysym bit ≠ kKeyNone :=
    List.all_iff_forall_prop.mp (by decide)
  unfold syncModifier requestKey
  dsimp only
  rw [if_neg (hkeysyms bit h)]
  cases hw : (mask &&& bit != 0) <;> cases hd : c.keyStates (maskModifierKeysym bit) <;> rfl

theorem syncModifiers_eq (mask : UInt32) (c : DeskflowClient) :
    c.syncModifiers mask = (modifierRequests mask).foldl requestKey c := by
  unfold syncModifiers modifierRequests
  rw [List.foldl_map]
  exact List.foldl_ext _ _ c fun c bit hbit => syncModifier_eq hbit mask c

theorem pressKey_eq (id mask : Int16) (c : DeskflowClient) :
    c.pressKey id mask =
      (modifierRequests (u32 mask.toInt) ++ [(u32 id.toInt, true)]).foldl requestKey c := by
  rw [List.foldl_append, ← syncModifiers_eq, List.foldl_cons, List.foldl_nil, pressKey,
    requestKey]
  dsimp only
  cases (c.syncModifiers (u32 mask.toInt)).keyStates (u32 id.toInt) <;> rfl

theorem releaseKey_eq (id mask : Int16) (c : DeskflowClient) :
    c.releaseKey id mask =
      (modifierRequests (u32 mask.toInt) ++ [(u32 id.toInt, false)]).foldl requestKey c := by
  rw [List.foldl_append, ← syncModifiers_eq, List.foldl_cons, List.foldl_nil, releaseKey,
    requestKey]
  dsimp only
  cases (c.syncModifiers (u32 mask.toInt)).keyStates (u32 id.toInt) <;> rfl

/-- All injections succeed; the key states and the key events are those that
the requests give. -/
structure TracksKeys (rs : List (UInt32 × Bool)) (c : DeskflowClient) : Prop where
  injections : c.world.injections = []
  keyStates : c.keyStates = level rs
  keyEvents : keyEvents c.world.log = events keyLine rs

namespace TracksKeys

variable {rs : List (UInt32 × Bool)} {c c' : DeskflowClient}

theorem congr (h : TracksKeys rs c) (hi : c'.world.injections = c.world.injections)
    (hk : c'.keyStates = c.keyStates)
    (he : Deskflow.keyEvents c'.world.log = Deskflow.keyEvents c.world.log) :
    TracksKeys rs c' :=
  ⟨hi.trans h.injections, hk.trans h.keyStates, he.trans h.keyEvents⟩

theorem noInput (h : TracksKeys rs c) (hn : NoInput c c') : TracksKeys rs c' := by
  have hi := hn.world.injections
  rw [h.injections, List.suffix_nil] at hi
  refine h.congr (hi.trans h.injections.symm) hn.keyStates ?_
  exact hn.world.log.filterMap_eq fun _ => Event.keyChange_of_not_isInput

theorem mouseOnly (h : TracksKeys rs c) (hm : MouseOnly c c') : TracksKeys rs c' := by
  have hi := hm.world.injections
  rw [h.injections, List.suffix_nil] at hi
  have hk := congrArg DeskflowClient.keyStates hm.rest
  refine h.congr (hi.trans h.injections.symm) hk ?_
  exact hm.world.log.filterMap_eq fun _ => Event.keyChange_of_isMouse

theorem requestKey (h : TracksKeys rs c) (r : UInt32 × Bool) :
    TracksKeys (rs ++ [r]) (c.requestKey r) := by
  obtain ⟨hi, hk, he⟩ := h
  rw [DeskflowClient.requestKey, hk]
  split_ifs with hr
  · refine ⟨hi, ?_, ?_⟩
    · rw [hk, level_concat, ← hr, Function.update_eq_self]
    · rw [he, events_concat, if_pos hr, List.append_nil]
  · have hevents : events keyLine (rs ++ [r]) = events keyLine rs ++ (onLine keyLine r).toList := by
      rw [events_concat, if_neg hr]
    unfold setKeyState injectKeyEvent
    dsimp only
    by_cases hcode : keysymToKeycode r.1 < 0
    · refine ⟨by rw [if_pos hcode]; exact hi, ?_, ?_⟩
      · rw [level_concat]
        simp only [if_pos hcode, hk]
      · rw [hevents, if_pos hcode, he, onLine, keyLine, if_pos hcode]
        simp
    · refine ⟨?_, ?_, ?_⟩
      · simp only [if_neg hcode, inject, World.inject, hi, World.emit]
      · rw [level_concat]
        simp only [if_neg hcode, inject, hk]
      · rw [hevents, onLine, keyLine, if_neg hcode, ← he]
        simp only [if_neg hcode, inject, World.inject, hi, World.emit, Deskflow.keyEvents,
          List.filterMap_append, List.filterMap_cons, Event.keyChange, List.filterMap_nil,
          Option.map_some, Option.toList_some]

theorem foldl_requestKey (h : TracksKeys rs c) (qs : List (UInt32 × Bool)) :
    TracksKeys (rs ++ qs) (qs.foldl DeskflowClient.requestKey c) := by
  induction qs generalizing rs c with
  | nil => rwa [List.append_nil]
  | cons q qs ih =>
    rw [List.append_cons]
    exact ih (h.requestKey q)

theorem syncModifiers (h : TracksKeys rs c) (mask : UInt32) :
    TracksKeys (rs ++ modifierRequests mask) (c.syncModifiers mask) := by
  rw [syncModifiers_eq]
  exact h.foldl_requestKey _

theorem moveTo (h : TracksKeys rs c) (x y : Int) : TracksKeys rs (c.moveTo x y) := by
  have hset : TracksKeys rs { c with pointerX := x, pointerY := y } := h.congr rfl rfl rfl
  exact hset.mouseOnly (injectMouseMove_mouseOnly x y _)

theorem enterScreen (h : TracksKeys rs c) (x y : Int16) (seq : UInt32) (mask : Int16) :
    TracksKeys (rs ++ modifierRequests (u32 mask.toInt)) (c.enterScreen x y seq mask) := by
  have hset : TracksKeys rs { c with active := true, seqNum := seq } := h.congr rfl rfl rfl
  unfold DeskflowClient.enterScreen
  split
  · exact ((hset.moveTo x.toInt y.toInt).syncModifiers _).noInput (noInput_emit rfl _)
  · exact (hset.syncModifiers _).noInput (noInput_emit rfl _)

theorem leaveScreen (h : TracksKeys rs c) : TracksKeys rs c.leaveScreen := by
  have hset : TracksKeys rs { c with active := false } := h.congr rfl rfl rfl
  have hrelease := hset.mouseOnly (releaseButtons_mouseOnly c.mouseButtonsDown.entries _)
  have hclear (c : DeskflowClient) (h : TracksKeys rs c) :
      TracksKeys rs { c with mouseButtonsDown := .empty } := h.congr rfl rfl rfl
  exact (hclear _ hrelease).noInput (noInput_emit rfl _)

theorem perform (h : TracksKeys rs c) (m : Message) :
    TracksKeys (rs ++ m.keyRequests) (c.perform m).2 := by
  have hnone (hm : m.keyRequests = []) (h' : TracksKeys rs (c.perform m).2) :
      TracksKeys (rs ++ m.keyRequests) (c.perform m).2 := by
    rwa [hm, List.append_nil]
  cases m with
  | cinn x y seq mask => exact h.enterScreen x y seq mask
  | dkdn id mask button =>
    simp only [DeskflowClient.perform, pressKey_eq, Message.keyRequests]
    exact h.foldl_requestKey _
  | dkup id mask button =>
    simp only [DeskflowClient.perform, releaseKey_eq, Message.keyRequests]
    exact h.foldl_requestKey _
  | dkrp id mask count button lang =>
    simp only [DeskflowClient.perform, pressKey_eq, Message.keyRequests]
    exact h.foldl_requestKey _
  | dkdl id mask button lang =>
    simp only [DeskflowClient.perform, pressKey_eq, Message.keyRequests]
    exact h.foldl_requestKey _
  | cout => exact hnone rfl h.leaveScreen
  | dmmv x y => exact hnone rfl (h.moveTo _ _)
  | dmrm dx dy => exact hnone rfl (h.moveTo _ _)
  | dmdn button => exact hnone rfl (h.mouseOnly (injectMouseButton_mouseOnly _ _ c))
  | dmup button => exact hnone rfl (h.mouseOnly (injectMouseButton_mouseOnly _ _ c))
  | dmwm xDelta yDelta => exact hnone rfl (h.mouseOnly (injectMouseWheel_mouseOnly _ _ c))
  | _ => exact hnone rfl (h.noInput (perform_noInput rfl c))

theorem handle (h : TracksKeys (Deskflow.keyRequests c.handled) c) (m : Message) :
    TracksKeys (Deskflow.keyRequests (c.handle m).2.handled) (c.handle m).2 := by
  rw [handle_handled, Deskflow.keyRequests, List.flatMap_append, List.flatMap_singleton]
  exact (h.perform m).noInput (noInput_emit rfl _)

end TracksKeys

/-- At every point between moves the keys are as the handled messages asked. -/
theorem Moves.tracksKeys {c₀ c : DeskflowClient} (h : Moves c₀ c)
    (h₀ : TracksKeys (keyRequests c₀.handled) c₀) : TracksKeys (keyRequests c.handled) c := by
  refine h.preserves (p := fun c => TracksKeys (keyRequests c.handled) c) h₀ ?_ ?_
  · intro c c' hsilent htracks
    rw [hsilent.handled]
    refine htracks.congr hsilent.injections hsilent.keyStates ?_
    exact hsilent.log.filterMap_eq fun _ => Event.keyChange_of_not_isInput
  · intro c m _ htracks
    exact htracks.handle m

theorem fresh_tracksKeys : TracksKeys (keyRequests (fresh []).handled) (fresh []) :=
  ⟨rfl, rfl, rfl⟩

end DeskflowClient

end Deskflow
