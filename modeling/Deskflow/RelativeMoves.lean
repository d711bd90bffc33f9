import Deskflow.ClampedShift
import Deskflow.InfoReply

/-! Two sessions that are told the same relative moves. The moves are held on the screen, so
what the pointers differ in never grows, and moves across the whole screen remove it. -/

namespace Deskflow

open DeskflowClient ClampedShift

namespace Message

/-- The messages that set the pointer without regard to where it was. -/
def places : Message → Bool
  | .cinn x y _ _ => 0 ≤ x.toInt ∧ 0 ≤ y.toInt
  | .dmmv _ _ => true
  | _ => false

def relative : Message → Option (Int × Int)
  | .dmrm dx dy => some (dx.toInt, dy.toInt)
  | _ => none

end Message

def relativeMoves (ms : List Message) : List (Int × Int) := ms.filterMap Message.relative

def along (ds : List Int) (size : Int) (h : 0 ≤ size - 1) (x : Int) : Int :=
  ds.foldl (fun x d => apply ⟨d, 0, size - 1, h⟩ x) x

/-- The screen's own coordinates. -/
structure OnPixels (w h : Int) (p : Int × Int) : Prop where
  left : 0 ≤ p.1
  right : p.1 ≤ w - 1
  top : 0 ≤ p.2
  bottom : p.2 ≤ h - 1

theorem pointer_of_relative {w h : Int} (hw : 0 ≤ w - 1) (hh : 0 ≤ h - 1) {m : Message}
    (hm : m.places = false) (p : Int × Int) :
    m.pointer w h p = (along (m.relative.toList.map Prod.fst) w hw p.1,
      along (m.relative.toList.map Prod.snd) h hh p.2) := by
  cases m with
  | cinn x y seq mask =>
    have hnot : ¬(0 ≤ x.toInt ∧ 0 ≤ y.toInt) := of_decide_eq_false hm
    rw [Message.pointer, if_neg hnot]
    rfl
  | dmmv x y => cases hm
  | _ => rfl

/-- Along each axis the moves are clamped shifts. -/
theorem foldl_pointer {w h : Int} (hw : 0 ≤ w - 1) (hh : 0 ≤ h - 1) {ms : List Message}
    (hms : ∀ m ∈ ms, m.places = false) (p : Int × Int) :
    ms.foldl (Message.pointer w h) p = (along ((relativeMoves ms).map Prod.fst) w hw p.1,
      along ((relativeMoves ms).map Prod.snd) h hh p.2) := by
  induction ms generalizing p with
  | nil => rfl
  | cons m ms ih =>
    have hmoves : relativeMoves (m :: ms) = m.relative.toList ++ relativeMoves ms := by
      rw [relativeMoves, List.filterMap_cons]
      cases m.relative <;> rfl
    rw [List.foldl_cons, pointer_of_relative hw hh (hms m List.mem_cons_self),
      ih fun m' hm' => hms m' (List.mem_cons_of_mem m hm'), hmoves, List.map_append,
      List.map_append]
    simp only [along, List.foldl_append]

namespace System

/-- What the messages of a run make of the pointer that there was before them. -/
theorem run_pointer (injections : List InjectOutcome) {w h : Int} (invert : Bool)
    {actions more : List Action} (hsize : ∀ a ∈ actions ++ more, a.resizes = false)
    {ms : List Message}
    (hrun : (((configured injections w h invert).run actions).run more).client.handled =
      ((configured injections w h invert).run actions).client.handled ++ ms) :
    (((configured injections w h invert).run actions).run more).client.pointer =
      ms.foldl (Message.pointer w h)
        ((configured injections w h invert).run actions).client.pointer := by
  have hbefore : Pointed w h ((configured injections w h invert).run actions).client :=
    configured_pointed injections w h invert fun a ha => hsize a (List.mem_append_left more ha)
  have hafter : Pointed w h ((configured injections w h invert).run (actions ++ more)).client :=
    configured_pointed injections w h invert hsize
  rw [run_append] at hafter
  rw [hafter.pointer, hrun, hbefore.pointer, pointerAfter, pointerAfter, List.foldl_append]

/-- In two sessions on screens of the same size that handle the same messages, none of which
sets the pointer, the pointers come no further apart. They meet, and stay together, once
consecutive moves have added up to the width, or the height, of the screen. The sums of the
moves are those of the source on screens of at most 2 ^ 31 - 2 ^ 15. -/
theorem pointers_converge {injections injections' : List InjectOutcome} {w h : Int}
    (hw : 1 ≤ w) (hh : 1 ≤ h) {invert invert' : Bool} {actions actions' more more' : List Action}
    (hsize : ∀ a ∈ actions ++ more, a.resizes = false)
    (hsize' : ∀ a ∈ actions' ++ more', a.resizes = false)
    {ms : List Message} (hms : ∀ m ∈ ms, m.places = false)
    (hrun : (((configured injections w h invert).run actions).run more).client.handled =
      ((configured injections w h invert).run actions).client.handled ++ ms)
    (hrun' : (((configured injections' w h invert').run actions').run more').client.handled =
      ((configured injections' w h invert').run actions').client.handled ++ ms) :
    let σ := (configured injections w h invert).run actions
    let σ' := (configured injections' w h invert').run actions'
    (|(σ.run more).client.pointerX - (σ'.run more').client.pointerX| ≤
        |σ.client.pointerX - σ'.client.pointerX| ∧
      |(σ.run more).client.pointerY - (σ'.run more').client.pointerY| ≤
        |σ.client.pointerY - σ'.client.pointerY|) ∧
      (OnPixels w h σ.client.pointer → OnPixels w h σ'.client.pointer →
        ∀ ds, ds <:+: relativeMoves ms →
          (w - 1 ≤ |(ds.map Prod.fst).sum| →
            (σ.run more).client.pointerX = (σ'.run more').client.pointerX) ∧
          (h - 1 ≤ |(ds.map Prod.snd).sum| →
            (σ.run more).client.pointerY = (σ'.run more').client.pointerY)) ∧
      (w ≤ 2 ^ 31 - 2 ^ 15 → h ≤ 2 ^ 31 - 2 ^ 15 →
        MovesFit (σ.run more).client.pointer ∧ MovesFit (σ'.run more').client.pointer) := by
  intro σ σ'
  have hw' : 0 ≤ w - 1 := by omega
  have hh' : 0 ≤ h - 1 := by omega
  have hpointer := (run_pointer injections invert hsize hrun).trans
    (foldl_pointer hw' hh' hms σ.client.pointer)
  have hpointer' := (run_pointer injections' invert' hsize' hrun').trans
    (foldl_pointer hw' hh' hms σ'.client.pointer)
  have hx : (σ.run more).client.pointerX = along _ w hw' σ.client.pointerX :=
    congrArg Prod.fst hpointer
  have hy : (σ.run more).client.pointerY = along _ h hh' σ.client.pointerY :=
    congrArg Prod.snd hpointer
  have hx' : (σ'.run more').client.pointerX = along _ w hw' σ'.client.pointerX :=
    congrArg Prod.fst hpointer'
  have hy' : (σ'.run more').client.pointerY = along _ h hh' σ'.client.pointerY :=
    congrArg Prod.snd hpointer'
  rw [hx, hy, hx', hy']
  refine ⟨⟨abs_foldl_apply_sub_le hw' _ _ _, abs_foldl_apply_sub_le hh' _ _ _⟩,
    fun hon hon' ds hds => ⟨fun hfar => ?_, fun hfar => ?_⟩, fun hwide hhigh => ?_⟩
  · apply foldl_apply_eq hw' (hds.map Prod.fst) _ hon.left hon.right hon'.left hon'.right
    rwa [sub_zero]
  · apply foldl_apply_eq hh' (hds.map Prod.snd) _ hon.top hon.bottom hon'.top hon'.bottom
    rwa [sub_zero]
  · have hfits := (configured_pointed injections w h invert hsize).movesFit hw hwide hh hhigh
    have hfits' := (configured_pointed injections' w h invert' hsize').movesFit hw hwide hh hhigh
    rw [run_append] at hfits hfits'
    exact ⟨hfits, hfits'⟩

/-- The server has put the pointers in different places and moves both by ten. -/
theorem pointers_converge_right :
    let σ := (configured [] 8 8 false).run (serving [.dmmv 5 3, .dmrm 10 0] 4)
    let σ' := (configured [] 8 8 false).run (serving [.dmmv 0 7, .dmrm 10 0] 4)
    let more : List Action := [.work ⟨true, [], []⟩]
    (|(σ.run more).client.pointerX - (σ'.run more).client.pointerX| ≤
        |σ.client.pointerX - σ'.client.pointerX| ∧
      |(σ.run more).client.pointerY - (σ'.run more).client.pointerY| ≤
        |σ.client.pointerY - σ'.client.pointerY|) ∧
      (OnPixels 8 8 σ.client.pointer → OnPixels 8 8 σ'.client.pointer →
        ∀ ds, ds <:+: relativeMoves [.dmrm 10 0] →
          (8 - 1 ≤ |(ds.map Prod.fst).sum| →
            (σ.run more).client.pointerX = (σ'.run more).client.pointerX) ∧
          (8 - 1 ≤ |(ds.map Prod.snd).sum| →
            (σ.run more).client.pointerY = (σ'.run more).client.pointerY)) ∧
      ((8 : Int) ≤ 2 ^ 31 - 2 ^ 15 → (8 : Int) ≤ 2 ^ 31 - 2 ^ 15 →
        MovesFit (σ.run more).client.pointer ∧ MovesFit (σ'.run more).client.pointer) :=
  pointers_converge (by decide) (by decide) (by decide +kernel) (by decide +kernel)
    (by decide +kernel) (by decide +kernel) (by decide +kernel)

end System

end Deskflow
