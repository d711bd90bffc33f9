import Deskflow.Isolation
import Deskflow.KeyRequests
import Deskflow.Standing

/-! What a client can carry from one connection to the next, and the messages
that bring it to light. -/

namespace Deskflow

open DeskflowClient

namespace DeskflowClient

theorem acknowledge_setup (r : Bool × DeskflowClient) :
    (acknowledge r).2.setup = r.2.setup := by
  unfold acknowledge
  split_ifs
  · exact write_setup .cnop r.2
  · rfl

theorem receive_setup (c : DeskflowClient) : c.receive.2.setup = c.setup := by
  obtain ⟨s, -, -, he⟩ := c.receive_eq_digest
  rw [he]
  cases c.stream.view.arrival.1 with
  | lost =>
    simp only [digest, deliver]
    split_ifs <;> rfl
  | message key m => exact perform_setup m _
  | _ => rfl

theorem answerHello_setup (protocolName : Bytes) (major minor : Int16) (c : DeskflowClient) :
    (c.answerHello protocolName major minor).2.setup = c.setup := by
  unfold answerHello
  split_ifs
  · rfl
  · exact write_setup _ c
  · exact write_setup _ c

theorem handshake_setup (c : DeskflowClient) : c.handshake.2.setup = c.setup := by
  obtain ⟨s, -, -, he⟩ := c.handshake_eq
  rw [he]
  split
  · exact answerHello_setup _ _ _ _
  · rfl

theorem grabClipboard_setup (c : DeskflowClient) : c.grabClipboard.2.setup = c.setup := by
  unfold grabClipboard
  split_ifs
  · rfl
  · exact write_setup _ c

/-- The wait, like the end of the worker, changes nothing but the world. -/
theorem backOff_eq (n : Nat) (c : DeskflowClient) :
    c.backOff n = { c with world := (c.backOff n).world } := by
  induction n generalizing c with
  | zero => rfl
  | succ n ih =>
    rw [backOff]
    split_ifs
    · rfl
    · exact ih c.loadStop.2

theorem retry_eq (r : Bool × DeskflowClient) :
    (retry r).2 = { r.2 with world := (retry r).2.world } := by
  unfold retry
  split_ifs
  · rfl
  · rfl
  · exact backOff_eq _ _

theorem finish_eq (c : DeskflowClient) :
    c.finish = { c with running := false, world := c.finish.world } := by
  unfold finish
  dsimp only
  split_ifs <;> rfl

theorem finish_stream (c : DeskflowClient) : c.finish.stream = c.stream := by rw [finish_eq]

theorem retry_stream (r : Bool × DeskflowClient) : (retry r).2.stream = r.2.stream := by
  rw [retry_eq]

end DeskflowClient

namespace System

/-- The worker changes nothing of it but that it has ended. -/
theorem work_setup (conn : Connection) (σ : System) : (σ.work conn).client.setup =
    { σ.client.setup with running := (σ.work conn).client.running } := by
  have hsame {c c' : DeskflowClient} (h : c'.setup = c.setup) :
      c'.setup = { c.setup with running := c'.running } := by
    rw [← h]
    rfl
  obtain ⟨c, phase, push⟩ := σ
  cases phase with
  | idle => rfl
  | ready =>
    simp only [System.work]
    split_ifs
    · rw [finish_eq]
      rfl
    · rfl
    · rfl
  | greeting =>
    simp only [System.work]
    split_ifs <;> exact hsame (handshake_setup c)
  | looping =>
    simp only [System.work]
    split_ifs
    · rfl
    · exact hsame (receive_setup c.loadStop.2)
  | answering keepGoing => exact hsame (acknowledge_setup (keepGoing, c))
  | closing => rfl
  | leaving again =>
    simp only [System.work]
    split_ifs
    · rw [retry_eq]
      rfl
    · rw [finish_eq, retry_eq]
      rfl

theorem upload_setup (σ : System) : σ.upload.client.setup = σ.client.setup := by
  unfold System.upload
  split
  · rfl
  · exact grabClipboard_setup σ.client
  · split_ifs <;> rfl
  · rfl
  · exact write_setup _ σ.client

/-- What is set stays until it is set again; no step but a start sets the target. -/
theorem step_setup (σ : System) {a : Action} (hcall : ∀ k, a ≠ .call k)
    (hstart : ∀ host port screenName, a ≠ .start host port screenName) :
    (σ.step a).client.setup =
      { σ.client.setup with running := (σ.step a).client.running } := by
  cases a with
  | work conn => exact work_setup conn σ
  | upload =>
    rw [System.step, ← upload_setup σ]
    rfl
  | push text =>
    simp only [System.step, beginPush]
    split_ifs <;> rfl
  | start host port screenName => exact absurd rfl (hstart host port screenName)
  | call k => exact absurd rfl (hcall k)

/-- Outside the connections nothing is buffered, and only a worker that has
ended can be started anew. -/
structure Settled (σ : System) : Prop where
  running : σ.phase ≠ .idle → σ.client.running = true
  unread : (σ.phase = .idle ∨ σ.phase = .ready ∨ ∃ again, σ.phase = .leaving again) →
    σ.client.stream.buffer.unread = []

namespace Settled

variable {σ : System}

theorem same {σ' : System} (h : Settled σ) (hphase : σ'.phase = σ.phase)
    (hrun : σ'.client.running = σ.client.running)
    (hbuf : σ'.client.stream.buffer = σ.client.stream.buffer) : Settled σ' := by
  refine ⟨fun hp => hrun.trans (h.running ?_), fun hp => ?_⟩
  · rwa [← hphase]
  · rw [hphase] at hp
    rw [hbuf]
    exact h.unread hp

theorem work (h : Settled σ) (conn : Connection) : Settled (σ.work conn) := by
  obtain ⟨c, phase, push⟩ := σ
  obtain ⟨hrun, hunread⟩ := h
  cases phase with
  | idle => exact ⟨hrun, hunread⟩
  | ready =>
    have hbuf := hunread (.inr (.inl rfl))
    simp only [System.work]
    split_ifs
    · have hfinish : c.loadStop.2.finish.stream = c.stream := finish_stream _
      exact ⟨fun hp => absurd rfl hp, fun _ => (congrArg (·.buffer.unread) hfinish).trans hbuf⟩
    · exact ⟨fun _ => hrun (by simp), by simp⟩
    · exact ⟨fun _ => hrun (by simp), fun _ => hbuf⟩
  | greeting =>
    have hrun' := (congrArg Setup.running (handshake_setup c)).trans (hrun (by simp))
    simp only [System.work]
    split_ifs
    · exact ⟨fun _ => hrun', by simp⟩
    · exact ⟨fun _ => hrun', fun _ => rfl⟩
  | looping =>
    simp only [System.work]
    split_ifs
    · exact ⟨fun _ => hrun (by simp), by simp⟩
    · exact ⟨fun _ => (congrArg Setup.running (receive_setup _)).trans (hrun (by simp)), by simp⟩
  | answering keepGoing =>
    have hrun' := (congrArg Setup.running (acknowledge_setup (keepGoing, c))).trans (hrun (by simp))
    refine ⟨fun _ => hrun', ?_⟩
    simp only [System.work]
    split_ifs <;> simp
  | closing => exact ⟨fun _ => hrun (by simp), fun _ => rfl⟩
  | leaving again =>
    have hbuf := hunread (.inr (.inr ⟨again, rfl⟩))
    simp only [System.work]
    have hstream : (retry (again, c)).2.stream = c.stream := retry_stream _
    split_ifs
    · exact ⟨fun _ => (congrArg DeskflowClient.running (retry_eq (again, c))).trans
        (hrun (by simp)), fun _ => (congrArg (·.buffer.unread) hstream).trans hbuf⟩
    · have hfinish := (finish_stream (retry (again, c)).2).trans hstream
      exact ⟨fun hp => absurd rfl hp, fun _ => (congrArg (·.buffer.unread) hfinish).trans hbuf⟩

theorem upload (h : Settled σ) : Settled σ.upload := by
  unfold System.upload
  split
  · exact h
  · refine h.same rfl (congrArg Setup.running (grabClipboard_setup σ.client)) ?_
    · unfold grabClipboard
      split_ifs
      · rfl
      · exact (write_sameInput _ _).buffer
  · split_ifs
    · exact h.same rfl rfl rfl
    · exact h.same rfl rfl rfl
  · exact h.same rfl rfl rfl
  · exact h.same rfl (congrArg Setup.running (write_setup _ _)) (write_sameInput _ _).buffer

theorem idle_of_stopped (h : Settled σ) (hstopped : σ.client.running = false) :
    σ.phase = .idle := by
  by_contra hp
  exact absurd (hstopped.symm.trans (h.running hp)) Bool.false_ne_true

theorem step (h : Settled σ) (a : Action) : Settled (σ.step a) := by
  cases a with
  | work conn => exact h.work conn
  | upload => exact h.upload
  | push text =>
    simp only [System.step, beginPush]
    split_ifs
    · exact h
    · exact h
    · exact h.same rfl rfl rfl
  | start host port screenName =>
    rw [System.step]
    rcases σ.start_cases host port screenName with hstart | ⟨hstopped, hstart⟩
    · rw [hstart]
      exact h
    · rw [hstart]
      exact ⟨fun _ => rfl, fun _ => h.unread (.inl (h.idle_of_stopped hstopped))⟩
  | call k =>
    cases k with
    | stop => exact ⟨h.running, fun _ => rfl⟩
    | _ => exact h.same rfl rfl rfl

end Settled

theorem settled_run (injections : List InjectOutcome) (actions : List Action) :
    Settled ((System.initial injections).run actions) := by
  induction actions using List.reverseRecOn with
  | nil => exact ⟨fun hp => absurd rfl hp, fun _ => rfl⟩
  | append_singleton actions a ih =>
    rw [run_concat]
    exact ih.step a

end System

/-- Ids that some message asks for. -/
def Requestable (id : UInt32) : Prop :=
  (∃ i : Int16, id = u32 i.toInt) ∨ ∃ bit ∈ kModBits, id = maskModifierKeysym bit

theorem requestable_of_mem {m : Message} {r : UInt32 × Bool} (h : r ∈ m.keyRequests) :
    Requestable r.1 := by
  have hmod (mask : UInt32) (hr : r ∈ modifierRequests mask) : Requestable r.1 := by
    obtain ⟨bit, hbit, rfl⟩ := List.mem_map.mp hr
    exact .inr ⟨bit, hbit, rfl⟩
  have hkey (mask : UInt32) (id : Int16) (down : Bool)
      (hr : r ∈ modifierRequests mask ++ [(u32 id.toInt, down)]) : Requestable r.1 := by
    rcases List.mem_append.mp hr with hr | hr
    · exact hmod mask hr
    · rw [List.mem_singleton.mp hr]
      exact .inl ⟨id, rfl⟩
  cases m with
  | cinn x y seq mask => exact hmod _ h
  | dkdn id mask button => exact hkey _ id _ h
  | dkup id mask button => exact hkey _ id _ h
  | dkrp id mask count button lang => exact hkey _ id _ h
  | dkdl id mask button lang => exact hkey _ id _ h
  | _ => cases h

namespace DeskflowClient

/-- Every recorded id can be asked for, and every recorded button exists. -/
structure Carried (c : DeskflowClient) : Prop where
  keys : ∀ id, c.keyStates id = true → Requestable id
  buttons : ∀ e ∈ c.mouseButtonsDown.entries, (buttonToHarmony e.1).isSome

namespace Carried

variable {c c' : DeskflowClient}

theorem congr (h : Carried c) (hk : c'.keyStates = c.keyStates)
    (hb : c'.mouseButtonsDown = c.mouseButtonsDown) : Carried c' :=
  ⟨by rw [hk]; exact h.keys, by rw [hb]; exact h.buttons⟩

theorem setKeyState_keyStates (keysym : UInt32) (down : Bool) (c : DeskflowClient) :
    (c.setKeyState keysym down).keyStates = Function.update c.keyStates keysym down := by
  unfold setKeyState injectKeyEvent
  dsimp only
  split_ifs <;> rfl

theorem requestKey (h : Carried c) {r : UInt32 × Bool} (hr : Requestable r.1) :
    Carried (c.requestKey r) := by
  unfold DeskflowClient.requestKey
  split_ifs
  · exact h
  · have hb := congrArg DeskflowClient.mouseButtonsDown (setKeyState_keyOnly r.1 r.2 c).rest
    refine ⟨fun id hid => ?_, by rw [hb]; exact h.buttons⟩
    by_cases hne : id = r.1
    · rwa [hne]
    · refine h.keys id ?_
      rwa [setKeyState_keyStates, Function.update_of_ne hne] at hid

theorem foldl_requestKey (h : Carried c) {rs : List (UInt32 × Bool)}
    (hrs : ∀ r ∈ rs, Requestable r.1) : Carried (rs.foldl DeskflowClient.requestKey c) := by
  induction rs generalizing c with
  | nil => exact h
  | cons r rs ih =>
    exact ih (h.requestKey (hrs r (by simp))) fun r hr => hrs r (List.mem_cons_of_mem _ hr)

theorem moveTo (h : Carried c) (x y : Int) : Carried (c.moveTo x y) := h.congr rfl rfl

theorem injectAxis (h : Carried c) (axis : MouseAxis) (value : Int) (actions : List MouseAction) :
    Carried (c.injectAxis axis value actions).2 := by
  induction actions generalizing c with
  | nil => exact h
  | cons action actions ih =>
    rw [DeskflowClient.injectAxis]
    rcases hin : c.inject _ with ⟨ok, c'⟩
    have hc' : Carried c' := by
      obtain rfl := congrArg Prod.snd hin
      exact h.congr rfl rfl
    cases ok with
    | true => exact ih hc'
    | false => exact hc'

theorem injectMouseWheel (h : Carried c) (xDelta yDelta : Int) :
    Carried (c.injectMouseWheel xDelta yDelta).2 := by
  unfold DeskflowClient.injectMouseWheel
  dsimp only
  split
  · exact h
  · exact h.injectAxis _ _ _

theorem injectMouseButton (h : Carried c) (k : Int) (down : Bool) :
    Carried (c.injectMouseButton k down).2 := by
  unfold DeskflowClient.injectMouseButton
  cases hb : buttonToHarmony k with
  | none =>
    dsimp only
    split_ifs
    · exact h.injectMouseWheel _ _
    · exact h.injectMouseWheel _ _
    · exact h
  | some b =>
    refine ⟨h.keys, ?_⟩
    rintro ⟨k', down'⟩ he
    simp only [inject, OrderedMap.mem_insert] at he
    rcases he with ⟨rfl, -⟩ | ⟨-, he⟩
    · rw [hb]
      rfl
    · exact h.buttons _ he

theorem perform (h : Carried c) (m : Message) : Carried (c.perform m).2 := by
  have hreq : ∀ r ∈ m.keyRequests, Requestable r.1 := fun r => requestable_of_mem
  cases m with
  | cinn x y seq mask =>
    have hset : Carried { c with active := true, seqNum := seq } := h.congr rfl rfl
    simp only [DeskflowClient.perform, enterScreen, syncModifiers_eq]
    split_ifs
    · exact ((hset.moveTo x.toInt y.toInt).foldl_requestKey hreq).congr rfl rfl
    · exact (hset.foldl_requestKey hreq).congr rfl rfl
  | cout =>
    have hrest := releaseButtons_mouseOnly c.mouseButtonsDown.entries { c with active := false }
    have hk := congrArg DeskflowClient.keyStates hrest.rest
    exact ⟨fun id hid => h.keys id (hk ▸ hid),
      by simp [DeskflowClient.perform, leaveScreen, setStatus, emit]⟩
  | dmmv x y => exact h.moveTo _ _
  | dmrm dx dy => exact h.moveTo _ _
  | dmdn button => exact h.injectMouseButton _ true
  | dmup button => exact h.injectMouseButton _ false
  | dmwm xDelta yDelta => exact h.injectMouseWheel _ _
  | dkdn id mask button =>
    simp only [DeskflowClient.perform, pressKey_eq]
    exact h.foldl_requestKey hreq
  | dkup id mask button =>
    simp only [DeskflowClient.perform, releaseKey_eq]
    exact h.foldl_requestKey hreq
  | dkrp id mask count button lang =>
    simp only [DeskflowClient.perform, pressKey_eq]
    exact h.foldl_requestKey hreq
  | dkdl id mask button lang =>
    simp only [DeskflowClient.perform, pressKey_eq]
    exact h.foldl_requestKey hreq
  | _ => exact h.congr (perform_noInput rfl c).keyStates (perform_noInput rfl c).mouseButtonsDown

end Carried

theorem Moves.carried {c₀ c : DeskflowClient} (h : Moves c₀ c) (h₀ : Carried c₀) : Carried c := by
  refine h.preserves h₀ ?_ ?_
  · intro c c' hsilent hcarried
    exact hcarried.congr hsilent.keyStates hsilent.mouseButtonsDown
  · intro c m _ hcarried
    exact (hcarried.perform m).congr rfl rfl

theorem fresh_carried (injections : List InjectOutcome) : Carried (fresh injections) :=
  ⟨by simp [fresh], by simp [fresh]⟩

end DeskflowClient

end Deskflow
