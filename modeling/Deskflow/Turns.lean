import Deskflow.ButtonFailures
import Deskflow.HandledMessages
import Deskflow.Leftovers
import Deskflow.ReplyTrace

/-! Between the messages nothing happens that concerns the mouse. -/

namespace Deskflow

open History DeskflowClient

namespace DeskflowClient

theorem Alike.pointer {c c' : DeskflowClient} (h : Alike c c') : c'.pointer = c.pointer := by
  rw [DeskflowClient.pointer, h.pointerX, h.pointerY]
  rfl

/-- Nothing was injected or delivered and no message handled; pointer and buttons
are as before. -/
structure Passive (c c' : DeskflowClient) : Prop where
  pointer : c'.pointer = c.pointer
  mouseButtonsDown : c'.mouseButtonsDown = c.mouseButtonsDown
  injections : c'.world.injections = c.world.injections
  handled : c'.handled = c.handled
  unobserved : Grows (fun e => e.isObserved = false) c.world.log c'.world.log

theorem Passive.log {c c' : DeskflowClient} (h : Passive c c') :
    Grows (fun e => e.isInput = false) c.world.log c'.world.log :=
  h.unobserved.mono fun e he => by cases e <;> simp_all [Event.isObserved, Event.isInput]

theorem unobserved_emit {e : Event} (h : e.isObserved = false) (c : DeskflowClient) :
    Grows (fun e => e.isObserved = false) c.world.log (c.emit e).world.log :=
  .single (p := fun e : Event => e.isObserved = false) h _

theorem Moves.handled_length {c c' : DeskflowClient} (h : Moves c c') :
    c.handled.length ≤ c'.handled.length :=
  (h.log_extends.filterMap Event.handledMessage).length_le

theorem Moves.injections_suffix {c c' : DeskflowClient} (h : Moves c c') :
    c'.world.injections <:+ c.world.injections := by
  refine h.preserves (p := fun b => b.world.injections <:+ c.world.injections)
    (List.suffix_refl _) ?_ ?_
  · intro b b' hsilent hsuffix
    rwa [hsilent.injections]
  · intro b m _ hsuffix
    exact (perform_world m b).injections.trans hsuffix

theorem Moves.passive {c c' : DeskflowClient} (h : Moves c c') (hsame : c'.handled = c.handled)
    (hpointer : c'.pointer = c.pointer) : Passive c c' := by
  suffices hmoves : c'.mouseButtonsDown = c.mouseButtonsDown ∧
      c'.world.injections = c.world.injections ∧
      Grows (fun e => e.isObserved = false) c.world.log c'.world.log from
    ⟨hpointer, hmoves.1, hmoves.2.1, hsame, hmoves.2.2⟩
  clear hpointer
  induction h with
  | refl => exact ⟨rfl, rfl, .refl _⟩
  | @tail b c' hb hmove ih =>
    have hlen := Moves.handled_length hb
    have hkeep (hbc : c'.handled = b.handled) := ih (hbc.symm.trans hsame)
    cases hmove with
    | mark e he =>
      obtain ⟨hbuttons, hinj, hlog⟩ := hkeep (handled_emit_of_isMark he b)
      have hunobserved : e.isObserved = false := by
        cases e <;> simp_all [Event.isMark, Event.isObserved]
      exact ⟨hbuttons, hinj, hlog.trans (unobserved_emit hunobserved b)⟩
    | adjust hadj =>
      obtain ⟨hbuttons, hinj, hlog⟩ := hkeep hadj.handled
      exact ⟨hadj.mouseButtonsDown.trans hbuttons, hadj.injections.trans hinj, hadj.log ▸ hlog⟩
    | sync enable =>
      obtain ⟨hbuttons, hinj, hlog⟩ := hkeep (setClipboardSync_handled enable b)
      exact ⟨hbuttons, hinj, hlog.trans (unobserved_emit rfl { b with clipboardSync := enable })⟩
    | handle m =>
      have hmore := congrArg List.length ((handle_handled m b).symm.trans hsame)
      rw [List.length_append, List.length_singleton] at hmore
      omega

end DeskflowClient

namespace System

theorem work_pointer {σ : System} (h : σ.phase ≠ .looping) (conn : Connection) :
    (σ.work conn).client.pointer = σ.client.pointer := by
  obtain ⟨c, phase, push⟩ := σ
  cases phase with
  | idle => rfl
  | ready =>
    simp only [work]
    split_ifs
    · rw [finish_eq]
      rfl
    · rfl
    · rfl
  | greeting =>
    have hshake : c.handshake.2.pointer = c.pointer := (Alike.handshake c).pointer
    simp only [work]
    split_ifs
    · exact hshake
    · exact hshake
  | looping => exact absurd rfl h
  | answering keepGoing =>
    simp only [work, acknowledge]
    split_ifs <;> first | rfl | exact (Alike.write .cnop c).pointer
  | closing => rfl
  | leaving again =>
    have hretry : (retry (again, c)).2.pointer = c.pointer := by
      rw [retry_eq]
      rfl
    simp only [work]
    split_ifs
    · exact hretry
    · rw [finish_eq]
      exact hretry

theorem upload_pointer (σ : System) : σ.upload.client.pointer = σ.client.pointer := by
  unfold upload
  split
  · rfl
  · unfold grabClipboard
    split_ifs
    · rfl
    · exact (Alike.write _ _).pointer
  · split_ifs <;> rfl
  · rfl
  · exact (Alike.write _ _).pointer

theorem receive_pointer {c : DeskflowClient} (h : c.receive.2.handled = c.handled) :
    c.receive.2.pointer = c.pointer := by
  obtain ⟨s, -, -, he⟩ := c.receive_eq_digest
  rw [he] at h ⊢
  cases ha : c.stream.view.arrival.1 with
  | message key m =>
    rw [ha] at h
    have hone : (({ c with stream := s }.emit (.dispatched key)).handle m).2.handled =
        c.handled ++ [m] := by
      rw [handle_handled, handled_emit_of_isMark rfl]
      rfl
    exact absurd (hone.symm.trans h) (by simp)
  | lost =>
    simp only [digest, deliver]
    split_ifs <;> rfl
  | _ => rfl

theorem step_pointer {σ : System} {a : Action} (h : (σ.step a).client.handled = σ.client.handled) :
    (σ.step a).client.pointer = σ.client.pointer := by
  cases a with
  | work conn =>
    by_cases hphase : σ.phase = .looping
    · rw [step, work_of_looping hphase] at h ⊢
      split_ifs at h ⊢
      · rfl
      · exact receive_pointer h
    · exact work_pointer hphase conn
  | upload => exact upload_pointer σ
  | push text =>
    simp only [step, beginPush]
    split_ifs <;> rfl
  | start host port screenName =>
    simp only [step, start, DeskflowClient.start]
    split_ifs <;> rfl
  | call k => cases k <;> rfl

/-- A step of the two threads is passive or handles a message after a passive part. -/
theorem step_turns (σ : System) (a : Action) :
    Passive σ.client (σ.step a).client ∨
      ∃ c m, Passive σ.client c ∧ c.settings = σ.client.settings ∧
        (σ.step a).client = (c.handle m).2 := by
  rcases step_handles σ a with hsame | ⟨s, key, m, he⟩
  · exact .inl ((step_moves σ a).passive hsame (step_pointer hsame))
  · let c := { σ.client.loadStop.2 with stream := s }
    have hpassive : Passive σ.client (c.emit (.dispatched key)) :=
      ⟨rfl, rfl, rfl, handled_emit_of_isMark rfl c, unobserved_emit rfl c⟩
    exact .inr ⟨_, m, hpassive, rfl, he⟩

theorem step_settings (σ : System) {a : Action} (h : ∀ k, a ≠ .call k) :
    (σ.step a).client.settings = σ.client.settings := by
  by_cases hstart : ∃ host port screenName, a = .start host port screenName
  · obtain ⟨host, port, screenName, rfl⟩ := hstart
    simp only [step, start, DeskflowClient.start]
    split_ifs <;> rfl
  · exact congrArg Setup.settings (step_setup σ h fun host port screenName he =>
      hstart ⟨host, port, screenName, he⟩)

/-- A client whose screen size and scroll direction have been set. -/
def configured (injections : List InjectOutcome) (w h : Int) (invert : Bool) : System :=
  (initial injections).run [.call (.setScreenSize w h), .call (.setInvertScroll invert)]

theorem configured_run (injections : List InjectOutcome) (w h : Int) (invert : Bool)
    (actions : List Action) : (configured injections w h invert).run actions =
      (initial injections).run
        ([.call (.setScreenSize w h), .call (.setInvertScroll invert)] ++ actions) :=
  (run_append _ _ _).symm

end System

namespace Action

def resizes : Action → Bool
  | .call (.setScreenSize _ _) => true
  | _ => false

def inverts : Action → Bool
  | .call (.setInvertScroll _) => true
  | _ => false

end Action

namespace System

theorem step_screen (σ : System) {a : Action} (h : a.resizes = false) :
    (σ.step a).client.screenW = σ.client.screenW ∧
      (σ.step a).client.screenH = σ.client.screenH := by
  by_cases hcall : ∃ k, a = .call k
  · obtain ⟨k, rfl⟩ := hcall
    cases k with
    | setScreenSize w h => cases h
    | _ => exact ⟨rfl, rfl⟩
  · have hsame := σ.step_settings fun k hk => hcall ⟨k, hk⟩
    exact ⟨congrArg Settings.screenW hsame, congrArg Settings.screenH hsame⟩

theorem step_invertScroll (σ : System) {a : Action} (h : a.inverts = false) :
    (σ.step a).client.invertScroll = σ.client.invertScroll := by
  by_cases hcall : ∃ k, a = .call k
  · obtain ⟨k, rfl⟩ := hcall
    cases k with
    | setInvertScroll invert => cases h
    | _ => rfl
  · exact congrArg Settings.invertScroll (σ.step_settings fun k hk => hcall ⟨k, hk⟩)

theorem configured_moves (injections : List InjectOutcome) (w h : Int) (invert : Bool)
    (actions : List Action) :
    Moves (fresh injections) ((configured injections w h invert).run actions).client := by
  rw [configured_run]
  exact moves_fresh injections _

/-- What the passive parts and the messages keep holds after every run of actions that
keep what is read of the settings. -/
theorem run_turns {κ : Type} (keep : Settings → κ) {p : DeskflowClient → Prop}
    (injections : List InjectOutcome) (w h : Int) (invert : Bool) {actions : List Action}
    (hkeep : ∀ a ∈ actions, ∀ σ : System,
      keep (σ.step a).client.settings = keep σ.client.settings)
    (hstart : p (configured injections w h invert).client)
    (hpassive : ∀ c c', Passive c c' → keep c'.settings = keep c.settings → p c → p c')
    (hhandle : ∀ c m, c.world.injections <:+ injections →
      RecordsButtons (buttonRequests c.handled) c → p c → p (c.handle m).2) :
    p ((configured injections w h invert).run actions).client := by
  induction actions using List.reverseRecOn with
  | nil => exact hstart
  | append_singleton actions a ih =>
    have hp := ih fun a ha => hkeep a (by simp [ha])
    have hmoves := configured_moves injections w h invert actions
    have hrecords := hmoves.recordsButtons (fresh_recordsButtons injections)
    have hanswers := hmoves.injections_suffix
    rw [run_concat]
    generalize (configured injections w h invert).run actions = σ at hp hrecords hanswers ⊢
    rcases σ.step_turns a with hstep | ⟨c, m, hstep, hsettings, he⟩
    · exact hpassive _ _ hstep (hkeep a (by simp) σ) hp
    · have hc : RecordsButtons (buttonRequests c.handled) c :=
        hstep.handled ▸ hrecords.congr hstep.mouseButtonsDown
      rw [he]
      exact hhandle c m (hstep.injections ▸ hanswers) hc
        (hpassive _ _ hstep (congrArg keep hsettings) hp)

end System

end Deskflow
