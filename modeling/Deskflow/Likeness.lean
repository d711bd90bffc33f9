import Deskflow.KeyRequests

/-! Clients whose differences no message brings to light: they inject and
deliver the same, and stay alike. -/

namespace Deskflow

namespace Event

def isObserved : Event → Bool
  | .injected _ _ => true
  | .clipboard _ => true
  | _ => false

end Event

def observed (log : List Event) : List Event := log.filter Event.isObserved

theorem observed_append (log es : List Event) :
    observed (log ++ es) = observed log ++ observed es :=
  List.filter_append ..

/-- The same answers are to come and the same was observed. -/
structure World.Alike (w w' : World) : Prop where
  injections : w'.injections = w.injections
  stopLoads : w'.stopLoads = w.stopLoads
  observed : observed w'.log = observed w.log

namespace World.Alike

variable {w w' : World}

theorem emit (h : Alike w w') (e : Event) : Alike (w.emit e) (w'.emit e) :=
  ⟨h.injections, h.stopLoads, by
    rw [World.emit, World.emit, observed_append, observed_append, h.observed]⟩

theorem emit_unobserved {e : Event} (he : e.isObserved = false) (w : World) :
    Alike w (w.emit e) :=
  ⟨rfl, rfl, by simp [World.emit, Deskflow.observed, he]⟩

theorem inject (h : Alike w w') (e : InputEvent) :
    (w'.inject e).1 = (w.inject e).1 ∧ Alike (w.inject e).2 (w'.inject e).2 := by
  obtain ⟨hi, hs, ho⟩ := h
  have hset (os : List InjectOutcome) :
      Alike { w with injections := os } { w' with injections := os } := ⟨rfl, hs, ho⟩
  unfold World.inject
  rw [hi]
  cases hos : w.injections with
  | nil => exact ⟨rfl, emit ⟨hi, hs, ho⟩ _⟩
  | cons o os =>
    cases o with
    | success => exact ⟨rfl, (hset os).emit _⟩
    | noEvent => exact ⟨rfl, hset os⟩
    | refused => exact ⟨rfl, (hset os).emit _⟩

end World.Alike

namespace DeskflowClient

/-- The buttons recorded down, in the order of the map. -/
def buttonsDown (c : DeskflowClient) : List (Int × Bool) :=
  c.mouseButtonsDown.entries.filter fun e => e.2

/-- No `DataEnd` delivers from the transfer under way, whatever chunks come before it. -/
def Mute (c : DeskflowClient) : Prop :=
  c.clipboardSync = true → c.clipChunk.active = true →
    ∀ more, unmarshalText (c.clipChunk.buffer ++ more) = []

/-- The clients agree on everything that bears on later injections and
callbacks: ids without a key code, buttons recorded up and transfers that
deliver nothing do not. -/
structure Alike (c c' : DeskflowClient) : Prop where
  settings : c'.settings = c.settings
  pointerX : c'.pointerX = c.pointerX
  pointerY : c'.pointerY = c.pointerY
  keys : ∀ id, 0 ≤ keysymToKeycode id → c'.keyStates id = c.keyStates id
  buttons : c'.buttonsDown = c.buttonsDown
  chunk : c'.clipChunk = c.clipChunk ∨ c.Mute ∧ c'.Mute
  world : World.Alike c.world c'.world

namespace Alike

variable {c c' c'' : DeskflowClient}

theorem screenW (h : Alike c c') : c'.screenW = c.screenW := congrArg Settings.screenW h.settings

theorem screenH (h : Alike c c') : c'.screenH = c.screenH := congrArg Settings.screenH h.settings

theorem invertScroll (h : Alike c c') : c'.invertScroll = c.invertScroll :=
  congrArg Settings.invertScroll h.settings

theorem clipboardSync (h : Alike c c') : c'.clipboardSync = c.clipboardSync :=
  congrArg Settings.clipboardSync h.settings

theorem refl (c : DeskflowClient) : Alike c c :=
  ⟨rfl, rfl, rfl, fun _ _ => rfl, rfl, .inl rfl, ⟨rfl, rfl, rfl⟩⟩

theorem mute_of_chunk (h : Alike c c') (hchunk : c'.clipChunk = c.clipChunk) (hc : c.Mute) :
    c'.Mute := by
  unfold Mute at hc ⊢
  rw [h.clipboardSync, hchunk]
  exact hc

theorem symm (h : Alike c c') : Alike c' c :=
  ⟨h.settings.symm, h.pointerX.symm, h.pointerY.symm, fun id hid => (h.keys id hid).symm,
    h.buttons.symm, h.chunk.imp Eq.symm And.symm,
    ⟨h.world.injections.symm, h.world.stopLoads.symm, h.world.observed.symm⟩⟩

theorem trans (h : Alike c c') (h' : Alike c' c'') : Alike c c'' := by
  refine ⟨h'.settings.trans h.settings, h'.pointerX.trans h.pointerX,
    h'.pointerY.trans h.pointerY, fun id hid => (h'.keys id hid).trans (h.keys id hid),
    h'.buttons.trans h.buttons, ?_, ⟨h'.world.injections.trans h.world.injections,
      h'.world.stopLoads.trans h.world.stopLoads, h'.world.observed.trans h.world.observed⟩⟩
  rcases h.chunk with heq | ⟨hmute, hmute'⟩
  · rcases h'.chunk with heq' | ⟨hmute', hmute''⟩
    · exact .inl (heq'.trans heq)
    · exact .inr ⟨h.symm.mute_of_chunk heq.symm hmute', hmute''⟩
  · rcases h'.chunk with heq' | ⟨-, hmute''⟩
    · exact .inr ⟨hmute, h'.mute_of_chunk heq' hmute'⟩
    · exact .inr ⟨hmute, hmute''⟩

theorem set_world (h : Alike c c') {w w' : World} (hw : World.Alike w w') :
    Alike { c with world := w } { c' with world := w' } :=
  ⟨h.settings, h.pointerX, h.pointerY, h.keys, h.buttons, h.chunk, hw⟩

theorem emit (h : Alike c c') (e : Event) : Alike (c.emit e) (c'.emit e) :=
  h.set_world (h.world.emit e)

theorem emit_unobserved {e : Event} (he : e.isObserved = false) (c : DeskflowClient) :
    Alike c (c.emit e) := (refl c).set_world (.emit_unobserved he c.world)

theorem inject (h : Alike c c') (e : InputEvent) :
    (c'.inject e).1 = (c.inject e).1 ∧ Alike (c.inject e).2 (c'.inject e).2 := by
  obtain ⟨hok, hw⟩ := h.world.inject e
  exact ⟨hok, h.set_world hw⟩

theorem inject_congr (h : Alike c c') {e e' : InputEvent} (he : e' = e) :
    Alike (c.inject e).2 (c'.inject e').2 := by
  rw [he]
  exact (h.inject e).2

theorem setKeyState_of_unmapped {keysym : UInt32} (hneg : keysymToKeycode keysym < 0) (down : Bool)
    (c : DeskflowClient) : Alike c (c.setKeyState keysym down) := by
  unfold setKeyState injectKeyEvent
  rw [if_pos hneg]
  refine ⟨rfl, rfl, rfl, fun id hid => ?_, rfl, .inl rfl, ⟨rfl, rfl, rfl⟩⟩
  have hne : id ≠ keysym := by
    rintro rfl
    omega
  exact Function.update_of_ne hne _ _

theorem setKeyState (h : Alike c c') (keysym : UInt32) (down : Bool) :
    Alike (c.setKeyState keysym down) (c'.setKeyState keysym down) := by
  by_cases hneg : keysymToKeycode keysym < 0
  · exact ((setKeyState_of_unmapped hneg down c).symm.trans h).trans
      (setKeyState_of_unmapped hneg down c')
  · let e := InputEvent.key { keyCode := keysymToKeycode keysym, down := down }
    have hset (c : DeskflowClient) : c.setKeyState keysym down =
        { (c.inject e).2 with keyStates := Function.update c.keyStates keysym down } := by
      unfold DeskflowClient.setKeyState injectKeyEvent
      dsimp only
      rw [if_neg hneg]
      rfl
    have hinject := (h.inject e).2
    rw [hset, hset]
    refine ⟨h.settings, h.pointerX, h.pointerY, fun id hid => ?_, h.buttons, h.chunk,
      hinject.world⟩
    dsimp only
    by_cases hid' : id = keysym
    · rw [hid', Function.update_self, Function.update_self]
    · rw [Function.update_of_ne hid', Function.update_of_ne hid']
      exact h.keys id hid

theorem requestKey (h : Alike c c') (r : UInt32 × Bool) :
    Alike (c.requestKey r) (c'.requestKey r) := by
  by_cases hneg : keysymToKeycode r.1 < 0
  · have hnone (c : DeskflowClient) : Alike c (c.requestKey r) := by
      unfold DeskflowClient.requestKey
      split_ifs
      · exact refl c
      · exact setKeyState_of_unmapped hneg r.2 c
    exact ((hnone c).symm.trans h).trans (hnone c')
  · unfold DeskflowClient.requestKey
    rw [h.keys r.1 (Int.not_lt.mp hneg)]
    split_ifs
    · exact h
    · exact h.setKeyState r.1 r.2

theorem foldl_requestKey (h : Alike c c') (rs : List (UInt32 × Bool)) :
    Alike (rs.foldl DeskflowClient.requestKey c) (rs.foldl DeskflowClient.requestKey c') := by
  induction rs generalizing c c' with
  | nil => exact h
  | cons r rs ih => exact ih (h.requestKey r)

theorem draggedButton_eq (c : DeskflowClient) :
    c.draggedButton = c.buttonsDown.findSome? fun e => buttonToHarmony e.1 := by
  unfold draggedButton buttonsDown
  induction c.mouseButtonsDown.entries with
  | nil => rfl
  | cons e es ih =>
    rw [List.findSome?_cons, List.filter_cons]
    by_cases hdown : e.2 = true
    · rw [if_pos hdown, if_pos hdown, List.findSome?_cons, ih]
    · rw [if_neg hdown, if_neg hdown, ih]

theorem injectMouseMove (h : Alike c c') (x y : Int) :
    Alike (c.injectMouseMove x y).2 (c'.injectMouseMove x y).2 := by
  unfold DeskflowClient.injectMouseMove
  refine h.inject_congr ?_
  rw [draggedButton_eq, draggedButton_eq, h.buttons, h.screenW, h.screenH]

theorem moveTo (h : Alike c c') (x y : Int) : Alike (c.moveTo x y) (c'.moveTo x y) := by
  have hset : Alike { c with pointerX := x, pointerY := y }
      { c' with pointerX := x, pointerY := y } :=
    ⟨h.settings, rfl, rfl, h.keys, h.buttons, h.chunk, h.world⟩
  exact hset.injectMouseMove x y

theorem injectAxis (h : Alike c c') (axis : MouseAxis) (value : Int) (actions : List MouseAction) :
    Alike (c.injectAxis axis value actions).2 (c'.injectAxis axis value actions).2 := by
  induction actions generalizing c c' with
  | nil => exact h
  | cons action actions ih =>
    obtain ⟨hok, halike⟩ := h.inject (.mouse
      { action := action, displayX := c.pointerX, displayY := c.pointerY,
        globalX := c.pointerX, globalY := c.pointerY, axis := some (axis, value) })
    rw [DeskflowClient.injectAxis, DeskflowClient.injectAxis, h.pointerX, h.pointerY]
    split <;> rename_i hc <;> rw [hc] at hok halike <;> split <;> rename_i hc' <;>
      rw [hc'] at hok halike <;> simp only [Bool.false_eq_true, Bool.true_eq_false] at hok
    · exact ih halike
    · exact halike

theorem injectMouseWheel (h : Alike c c') (xDelta yDelta : Int) :
    Alike (c.injectMouseWheel xDelta yDelta).2 (c'.injectMouseWheel xDelta yDelta).2 := by
  unfold DeskflowClient.injectMouseWheel
  dsimp only
  rw [h.invertScroll]
  split
  · exact h
  · exact h.injectAxis _ _ _

theorem injectMouseButton (h : Alike c c') (buttonId : Int) (down : Bool) :
    Alike (c.injectMouseButton buttonId down).2 (c'.injectMouseButton buttonId down).2 := by
  unfold DeskflowClient.injectMouseButton
  cases buttonToHarmony buttonId with
  | none =>
    dsimp only
    split_ifs
    · exact h.injectMouseWheel _ _
    · exact h.injectMouseWheel _ _
    · exact h
  | some harmony =>
    have hset : Alike { c with mouseButtonsDown := c.mouseButtonsDown.insert buttonId down }
        { c' with mouseButtonsDown := c'.mouseButtonsDown.insert buttonId down } :=
      ⟨h.settings, h.pointerX, h.pointerY, h.keys,
        OrderedMap.filter_insert_congr (p := fun b => b) h.buttons buttonId down, h.chunk, h.world⟩
    refine hset.inject_congr ?_
    dsimp only
    rw [h.pointerX, h.pointerY, h.screenW, h.screenH]

theorem releaseButtons (h : Alike c c') (es : List (Int × Bool)) :
    Alike (es.foldl (fun c e => (c.injectMouseButton e.1 false).2) c)
      (es.foldl (fun c e => (c.injectMouseButton e.1 false).2) c') := by
  induction es generalizing c c' with
  | nil => exact h
  | cons e es ih => exact ih (h.injectMouseButton e.1 false)

theorem enterScreen (h : Alike c c') (x y : Int16) (seq : UInt32) (mask : Int16) :
    Alike (c.enterScreen x y seq mask) (c'.enterScreen x y seq mask) := by
  have hset : Alike { c with active := true, seqNum := seq }
      { c' with active := true, seqNum := seq } :=
    ⟨h.settings, h.pointerX, h.pointerY, h.keys, h.buttons, h.chunk, h.world⟩
  unfold DeskflowClient.enterScreen
  simp only [syncModifiers_eq]
  split_ifs
  · exact ((hset.moveTo x.toInt y.toInt).foldl_requestKey _).emit _
  · exact (hset.foldl_requestKey _).emit _

theorem leaveScreen_eq (c : DeskflowClient) : c.leaveScreen =
    { c.buttonsDown.foldl
        (fun (c : DeskflowClient) (e : Int × Bool) => (c.injectMouseButton e.1 false).2)
        { c with active := false } with mouseButtonsDown := .empty }.setStatus
      (ascii "inactive: moved back to primary screen") := by
  rw [buttonsDown, List.foldl_filter]
  rfl

theorem leaveScreen (h : Alike c c') : Alike c.leaveScreen c'.leaveScreen := by
  have hset : Alike { c with active := false } { c' with active := false } :=
    ⟨h.settings, h.pointerX, h.pointerY, h.keys, h.buttons, h.chunk, h.world⟩
  have hclear {c c' : DeskflowClient} (h : Alike c c') :
      Alike { c with mouseButtonsDown := .empty } { c' with mouseButtonsDown := .empty } :=
    ⟨h.settings, h.pointerX, h.pointerY, h.keys, rfl, h.chunk, h.world⟩
  rw [leaveScreen_eq, leaveScreen_eq, h.buttons]
  exact (hclear (hset.releaseButtons c.buttonsDown)).emit _

theorem set_clipChunk (h : Alike c c') (s : ClipChunkState) :
    Alike { c with clipChunk := s } { c' with clipChunk := s } :=
  ⟨h.settings, h.pointerX, h.pointerY, h.keys, h.buttons, .inl rfl, h.world⟩

theorem clipboardStart (h : Alike c c') (seq : UInt32) (data : Bytes) :
    Alike (c.clipboardStart seq data) (c'.clipboardStart seq data) := by
  unfold DeskflowClient.clipboardStart
  dsimp only
  split_ifs
  · exact h.set_clipChunk _
  · exact h.set_clipChunk _

theorem mute_clipboardChunk (h : c.Mute) (data : Bytes) : (c.clipboardChunk data).Mute := by
  unfold DeskflowClient.clipboardChunk
  split_ifs
  · exact h
  · intro hsync hactive more
    dsimp only at hsync hactive ⊢
    rw [List.append_assoc]
    exact h hsync hactive _

theorem clipboardChunk (h : Alike c c') (data : Bytes) :
    Alike (c.clipboardChunk data) (c'.clipboardChunk data) := by
  rcases h.chunk with heq | ⟨hmute, hmute'⟩
  · unfold DeskflowClient.clipboardChunk
    rw [heq]
    split_ifs
    · exact h
    · exact h.set_clipChunk _
  · have hchunk : (c'.clipboardChunk data).clipChunk = (c.clipboardChunk data).clipChunk ∨
        (c.clipboardChunk data).Mute ∧ (c'.clipboardChunk data).Mute :=
      .inr ⟨mute_clipboardChunk hmute data, mute_clipboardChunk hmute' data⟩
    have hsame (c : DeskflowClient) : c.clipboardChunk data =
        { c with clipChunk := (c.clipboardChunk data).clipChunk } := by
      unfold DeskflowClient.clipboardChunk
      split_ifs <;> rfl
    rw [hsame c, hsame c'] at hchunk ⊢
    exact ⟨h.settings, h.pointerX, h.pointerY, h.keys, h.buttons, hchunk, h.world⟩

/-- A muted transfer ends without a trace. -/
theorem clipboardEnd_of_mute (h : c.Mute) : Alike c c.clipboardEnd := by
  have hclosed (s : ClipChunkState) (hs : s.active = false) :
      Alike c { c with clipChunk := s } := by
    refine ⟨rfl, rfl, rfl, fun _ _ => rfl, rfl, .inr ⟨h, fun _ hactive => ?_⟩, ⟨rfl, rfl, rfl⟩⟩
    simp [hs] at hactive
  unfold DeskflowClient.clipboardEnd
  split_ifs with hactive
  · exact refl c
  · dsimp only
    have hnot : ¬(c.clipboardSync && !(unmarshalText c.clipChunk.buffer).isEmpty) = true := by
      rw [Bool.and_eq_true]
      rintro ⟨hsync, htext⟩
      have hempty := h hsync (by simpa using hactive) []
      rw [List.append_nil] at hempty
      simp [hempty] at htext
    rw [if_neg hnot]
    exact hclosed _ rfl

theorem clipboardEnd (h : Alike c c') : Alike c.clipboardEnd c'.clipboardEnd := by
  rcases h.chunk with heq | ⟨hmute, hmute'⟩
  · unfold DeskflowClient.clipboardEnd
    rw [heq]
    dsimp only
    have hsync (text : Bytes) : (c'.clipboardSync && !text.isEmpty) =
        (c.clipboardSync && !text.isEmpty) := by rw [h.clipboardSync]
    rw [hsync]
    split_ifs
    · exact h
    · have hset : Alike
          { c with
            lastClipboardText := unmarshalText c.clipChunk.buffer
            clipChunk := { c.clipChunk with active := false, buffer := [] } }
          { c' with
            lastClipboardText := unmarshalText c.clipChunk.buffer
            clipChunk := { c.clipChunk with active := false, buffer := [] } } :=
        ⟨h.settings, h.pointerX, h.pointerY, h.keys, h.buttons, .inl rfl, h.world⟩
      exact hset.emit _
    · exact h.set_clipChunk _
  · exact ((clipboardEnd_of_mute hmute).symm.trans h).trans (clipboardEnd_of_mute hmute')

theorem write (o : Outgoing) (c : DeskflowClient) : Alike c (c.write o).2 := by
  have hset : Alike c { c with stream := (c.stream.writeFrame o.payload).2 } :=
    ⟨rfl, rfl, rfl, fun _ _ => rfl, rfl, .inl rfl, ⟨rfl, rfl, rfl⟩⟩
  unfold DeskflowClient.write
  dsimp only
  split
  · exact hset.trans (emit_unobserved rfl _)
  · exact hset

theorem perform (h : Alike c c') (m : Message) : Alike (c.perform m).2 (c'.perform m).2 := by
  have hstop : Alike { c with shouldReconnect := false } { c' with shouldReconnect := false } :=
    ⟨h.settings, h.pointerX, h.pointerY, h.keys, h.buttons, h.chunk, h.world⟩
  have hwrite (o o' : Outgoing) : Alike (c.write o).2 (c'.write o').2 :=
    ((write o c).symm.trans h).trans (write o' c')
  cases m with
  | qinf => exact hwrite _ _
  | calv => exact hwrite _ _
  | cinn x y seq mask => exact h.enterScreen x y seq mask
  | cout => exact h.leaveScreen
  | dmmv x y => exact h.moveTo _ _
  | dmrm dx dy =>
    simp only [DeskflowClient.perform, moveBy, h.pointerX, h.pointerY, h.screenW, h.screenH]
    exact h.moveTo _ _
  | dmdn button => exact h.injectMouseButton _ _
  | dmup button => exact h.injectMouseButton _ _
  | dmwm xDelta yDelta => exact h.injectMouseWheel _ _
  | dkdn id mask button =>
    simp only [DeskflowClient.perform, pressKey_eq]
    exact h.foldl_requestKey _
  | dkup id mask button =>
    simp only [DeskflowClient.perform, releaseKey_eq]
    exact h.foldl_requestKey _
  | dkrp id mask count button lang =>
    simp only [DeskflowClient.perform, pressKey_eq]
    exact h.foldl_requestKey _
  | dkdl id mask button lang =>
    simp only [DeskflowClient.perform, pressKey_eq]
    exact h.foldl_requestKey _
  | dclp id seq mark data =>
    simp only [DeskflowClient.perform]
    split_ifs
    · exact h.clipboardStart seq data
    · exact h.clipboardChunk data
    · exact h.clipboardEnd
    · exact h
  | cbye => exact hstop.emit _
  | eicv a b => exact hstop.emit _
  | ebsy => exact h.emit _
  | eunk => exact h.emit _
  | ebad => exact h.emit _
  | dsop options =>
    exact ⟨h.settings, h.pointerX, h.pointerY, h.keys, h.buttons, h.chunk, h.world⟩
  | _ => exact h

end Alike

end DeskflowClient

end Deskflow
