import Deskflow.FormatInverse
import Deskflow.PointerRange

/-! The answer to a `QINF`. Screen and pointer fit the fields of a `DINF` frame, so
that its reader gets them back. -/

namespace Deskflow

open DeskflowClient

/-- The values of a signed field of 16 bits. -/
def InField (v : Int) : Prop := -2 ^ 15 ≤ v ∧ v < 2 ^ 15

/-- The frame is read as the screen and the pointer, in seven signed fields. -/
def Reports (w h : Int) (p : Int × Int) (o : Outgoing) : Prop :=
  ∃ bits : List Int, (readf kMsgDInfo).run o.payload = (some (bits.map .int), []) ∧
    bits.map (fun v => (i16 v).toInt) = [0, 0, w, h, 0, p.1, p.2]

theorem toInt_i16_emod {v : Int} (h : InField v) : (i16 (v % 256 ^ 2)).toInt = v := by
  obtain ⟨hlow, hhigh⟩ := h
  have hsize : (256 ^ 2 : Int) = ((Int16.size : Nat) : Int) := by decide
  rw [i16, Int16.toInt_ofInt, hsize, Int.emod_bmod]
  apply Int.bmod_eq_of_le
  · exact hlow
  · exact hhigh

theorem dinf_reports {w h : Int} {p : Int × Int} (hw : InField w) (hh : InField h)
    (hx : InField p.1) (hy : InField p.2) : Reports w h p (.dinf w h p.1 p.2) := by
  let fields := [0, 0, w, h, 0, p.1, p.2]
  have hd : directives kMsgDInfo =
      (ascii "DINF").map .literal ++ List.replicate 7 (.int 2) := by rfl
  have hcarries : Carries (directives kMsgDInfo) (fields.map .int) := by
    rw [hd]
    simp [Carries, ascii, fields, List.replicate]
  have hstored : stored (directives kMsgDInfo) (fields.map .int) =
      (fields.map (· % 256 ^ 2)).map .int := by
    rw [hd]
    rfl
  have hread := readf_writef hcarries []
  rw [List.append_nil, hstored] at hread
  refine ⟨_, hread, ?_⟩
  have hzero : InField 0 := ⟨by decide, by decide⟩
  rw [List.map_map, ← List.map_id [0, 0, w, h, 0, p.1, p.2]]
  apply List.map_congr_left
  intro v hv
  have hfits : InField v := by
    simp only [fields, List.mem_cons, List.not_mem_nil, or_false] at hv
    rcases hv with rfl | rfl | rfl | rfl | rfl | rfl | rfl <;> assumption
  exact toInt_i16_emod hfits

theorem Within.inField {size v : Int} (h : Within size v) (hsize : size ≤ 32767) : InField v := by
  obtain ⟨hlow, hhigh⟩ := h
  constructor <;> omega

namespace DeskflowClient

theorem write_log (o : Outgoing) (c : DeskflowClient) :
    (c.write o).2.world.log = c.world.log ∨
      (c.write o).2.world.log = c.world.log ++ [.frame o] := by
  unfold write
  dsimp only
  split_ifs
  · exact .inr rfl
  · exact .inl rfl

theorem handle_qinf_log (c : DeskflowClient) :
    (c.handle .qinf).2.world.log = c.world.log ++ [.handled .qinf] ∨
      (c.handle .qinf).2.world.log = c.world.log ++
        [.frame (.dinf c.screenW c.screenH c.pointerX c.pointerY), .handled .qinf] := by
  let o := Outgoing.dinf c.screenW c.screenH c.pointerX c.pointerY
  have hhandle : (c.handle .qinf).2.world.log = (c.write o).2.world.log ++ [.handled .qinf] := rfl
  rw [hhandle]
  rcases c.write_log o with hlog | hlog
  · left
    rw [hlog]
  · right
    rw [hlog, List.append_assoc]
    rfl

end DeskflowClient

namespace System

/-- A `QINF` is answered with one frame, if it can be written. -/
theorem step_qinf {σ : System} {a : Action}
    (h : (σ.step a).client.handled = σ.client.handled ++ [.qinf]) :
    ∃ key, (σ.step a).client.world.log =
        σ.client.world.log ++ [.dispatched key, .handled .qinf] ∨
      (σ.step a).client.world.log = σ.client.world.log ++
        [.dispatched key, .frame (.dinf σ.client.screenW σ.client.screenH σ.client.pointerX
          σ.client.pointerY), .handled .qinf] := by
  rcases step_handles σ a with hsame | ⟨s, key, m, he⟩
  · rw [hsame] at h
    simp at h
  · have hm : m = .qinf := by
      rw [he, handle_handled, handled_emit_of_isMark rfl] at h
      have hone := List.append_cancel_left h
      exact List.singleton_inj.mp hone
    subst hm
    refine ⟨key, ?_⟩
    let c := { σ.client.loadStop.2 with stream := s }.emit (.dispatched key)
    have hstart : c.world.log = σ.client.world.log ++ [.dispatched key] := rfl
    rw [he]
    rcases c.handle_qinf_log with hlog | hlog
    · left
      rw [hlog, hstart, List.append_assoc]
      rfl
    · right
      rw [hlog, hstart, List.append_assoc]
      rfl

/-- On a screen whose size a field can hold the pointer is in a field's range too, a
relative move adds within 32 bits, and the frame that answers a `QINF` reports both. -/
theorem qinf_reports (injections : List InjectOutcome) {w h : Int} (hw : 1 ≤ w)
    (hw' : w ≤ 32767) (hh : 1 ≤ h) (hh' : h ≤ 32767) (invert : Bool) {actions : List Action}
    (hsize : ∀ a ∈ actions, a.resizes = false) :
    let σ := (configured injections w h invert).run actions
    (InField σ.client.pointerX ∧ InField σ.client.pointerY) ∧
      (∀ d : Int16, (-2 ^ 31 ≤ σ.client.pointerX + d.toInt ∧ σ.client.pointerX + d.toInt < 2 ^ 31) ∧
        -2 ^ 31 ≤ σ.client.pointerY + d.toInt ∧ σ.client.pointerY + d.toInt < 2 ^ 31) ∧
      ∀ a, (σ.step a).client.handled = σ.client.handled ++ [.qinf] →
        ∃ key, (σ.step a).client.world.log =
            σ.client.world.log ++ [.dispatched key, .handled .qinf] ∨
          ∃ o, Reports w h σ.client.pointer o ∧ (σ.step a).client.world.log =
            σ.client.world.log ++ [.dispatched key, .frame o, .handled .qinf] := by
  intro σ
  have hpointed : Pointed w h σ.client := configured_pointed injections w h invert hsize
  obtain ⟨hwithin, hwithin'⟩ := hpointed.within hw hh
  have hx : InField σ.client.pointerX := hwithin.inField hw'
  have hy : InField σ.client.pointerY := hwithin'.inField hh'
  refine ⟨⟨hx, hy⟩, hpointed.movesFit hw (by omega) hh (by omega), ?_⟩
  intro a ha
  obtain ⟨key, hlog⟩ := step_qinf ha
  refine ⟨key, hlog.imp_right ?_⟩
  intro hframe
  rw [hpointed.screenW, hpointed.screenH] at hframe
  refine ⟨_, ?_, hframe⟩
  apply dinf_reports _ _ hx hy
  · constructor <;> omega
  · constructor <;> omega

/-- A pointer left of the screen is reported as well. -/
theorem qinf_reports_outside :
    let σ := (configured [] 1 32767 false).run (serving [.dmmv (-5) 32766, .qinf] 4)
    ∃ key o, Reports 1 32767 (-5, 32766) o ∧ (σ.step (.work ⟨true, [], []⟩)).client.world.log =
      σ.client.world.log ++ [.dispatched key, .frame o, .handled .qinf] := by
  intro σ
  obtain ⟨-, -, hanswer⟩ := @qinf_reports [] 1 32767 (by decide) (by decide) (by decide)
    (by decide) false (serving [.dmmv (-5) 32766, .qinf] 4) (by decide +kernel)
  have hpointer : σ.client.pointer = (-5, 32766) := by decide +kernel
  obtain ⟨key, hunsent | ⟨o, ho, hlog⟩⟩ :=
    hanswer (.work ⟨true, [], []⟩) (by decide +kernel)
  · have hlen := congrArg List.length hunsent
    rw [List.length_append, List.length_cons, List.length_singleton] at hlen
    exact absurd hlen (by decide +kernel)
  · rw [hpointer] at ho
    exact ⟨key, o, ho, hlog⟩

end System

end Deskflow
