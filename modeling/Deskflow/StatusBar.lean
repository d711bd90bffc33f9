import Deskflow.StatusText

/-! The tray item and the manager that adds it and keeps it up to date. `add()` and
the updates wait for pixel maps, and other calls may come in between. -/

namespace Deskflow

/-- The number by which a state is passed on. -/
def ConnState.code : ConnState → Int
  | .disconnected => 0
  | .connecting => 1
  | .connected => 2
  | .error => 3

/-- A decoded picture, named by the raw file it comes from. -/
structure PixelMap where
  rawName : String
  deriving DecidableEq, Repr

structure StatusBarIcon where
  white : PixelMap
  black : PixelMap
  deriving DecidableEq, Repr

structure QuickOperation where
  title : String
  height : Nat
  abilityName : String
  moduleName : String
  deriving DecidableEq, Repr

structure StatusBarMenuItem where
  title : String
  menuCode : Option String := none
  abilityName : String := "EntryAbility"
  notifyOnly : Bool := true
  deriving DecidableEq, Repr

structure StatusBarItem where
  icons : StatusBarIcon
  quickOperation : QuickOperation
  statusBarGroupMenu : List (List StatusBarMenuItem)
  hoverTips : String
  deriving DecidableEq, Repr

def iconShapeName (state : Int) : String :=
  if state = ConnState.connected.code then "connected"
  else if state = ConnState.error.code then "error"
  else "disconnected"

def stateHoverTips (state : Int) : String :=
  if state = ConnState.connected.code then "Deskflow：已连接"
  else if state = ConnState.connecting.code then "Deskflow：连接中"
  else if state = ConnState.error.code then "Deskflow：异常断开"
  else "Deskflow：未连接"

def buildMenu (state : Int) : List (List StatusBarMenuItem) :=
  [[{ title := stateHoverTips state },
    { title := "打开主界面", menuCode := some "show_main" },
    if state = ConnState.connected.code then { title := "断开连接", menuCode := some "disconnect" }
    else { title := "连接", menuCode := some "connect" }]]

def rawName (state : Int) (colour : String) : String :=
  "tray/" ++ iconShapeName state ++ "_" ++ colour ++ ".svg"

/-- Null where the file cannot be read or decoded. -/
def loadPixelMap (rawName : String) (ok : Bool) : Option PixelMap :=
  if ok then some ⟨rawName⟩ else none

/-- A call of `loadIcons` by what it waits for. -/
inductive IconLoad
  | noContext (state : Int)
  | white (state : Int)
  | black (state : Int) (white : Option PixelMap)
  deriving DecidableEq, Repr

namespace IconLoad

def state : IconLoad → Int
  | .noContext state => state
  | .white state => state
  | .black state _ => state

/-- The call waits on or is done. -/
def resume (ok : Bool) : IconLoad → IconLoad ⊕ Option StatusBarIcon
  | .noContext _ => .inr none
  | .white state => .inl (.black state (loadPixelMap (rawName state "white") ok))
  | .black state first =>
    match first, loadPixelMap (rawName state "black") ok with
    | some first, some second => .inr (some ⟨first, second⟩)
    | _, _ => .inr none

end IconLoad

/-- The one call of `add()`, made as the main ability is created. A second one after a failure
would load again; no code makes it. -/
inductive AddCall
  | notCalled
  | loading (icons : IconLoad)
  | returned
  deriving DecidableEq, Repr

/-- The fields of the manager, what its promises wait for and the item of the status
bar. `updateChain` counts the calls of `doUpdateState` that have not begun. -/
structure Tray where
  context : Bool := false
  added : Bool := false
  state : Int := ConnState.disconnected.code
  adding : AddCall := .notCalled
  debounceTimer : Bool := false
  updateChain : Nat := 0
  updating : Option IconLoad := none
  bar : Option StatusBarItem := none
  deriving DecidableEq, Repr

/-- A call from outside, the end of the debounce time, or a promise that is resolved.
The flags tell whether the picture was loaded and the status bar took the call. -/
inductive TrayAction
  | init
  | add
  | addLoaded (pixelMap call : Bool)
  | updateState (state : Int)
  | debounced
  | doUpdateState
  | updateLoaded (pixelMap iconCall menuCall : Bool)
  deriving DecidableEq, Repr

namespace Tray

def loadIcons (t : Tray) : IconLoad := if t.context then .white t.state else .noContext t.state

def add (t : Tray) : Tray :=
  match t.adding with
  | .notCalled =>
    if t.added || !t.context then { t with adding := .returned }
    else { t with adding := .loading t.loadIcons }
  | _ => t

def item (icons : StatusBarIcon) (t : Tray) : StatusBarItem :=
  { icons := icons
    quickOperation :=
      { title := "Deskflow", height := 200, abilityName := "StatusBarViewAbility",
        moduleName := "entry" }
    statusBarGroupMenu := buildMenu t.state
    hoverTips := stateHoverTips t.state }

/-- `add()` goes on: the menu and the tips are those of the state by now. -/
def addLoaded (pixelMap call : Bool) (t : Tray) : Tray :=
  match t.adding with
  | .loading icons =>
    match icons.resume pixelMap with
    | .inl icons => { t with adding := .loading icons }
    | .inr none => { t with adding := .returned }
    | .inr (some icons) =>
      if call then { t with added := true, adding := .returned, bar := some (t.item icons) }
      else { t with adding := .returned }
  | _ => t

def updateState (state : Int) (t : Tray) : Tray :=
  if !t.added || !t.context then { t with state := state }
  else { t with state := state, debounceTimer := true }

def debounced (t : Tray) : Tray :=
  if t.debounceTimer then { t with debounceTimer := false, updateChain := t.updateChain + 1 }
  else t

def doUpdateState (t : Tray) : Tray :=
  match t.updateChain, t.updating with
  | n + 1, none => { t with updateChain := n, updating := some t.loadIcons }
  | _, _ => t

/-- `doUpdateState` goes on; it gives up if the state is another by now. -/
def updateLoaded (pixelMap iconCall menuCall : Bool) (t : Tray) : Tray :=
  match t.updating with
  | none => t
  | some load =>
    match load.resume pixelMap with
    | .inl load => { t with updating := some load }
    | .inr icons =>
      if load.state ≠ t.state then { t with updating := none }
      else
        { t with
          updating := none
          bar := t.bar.map fun item =>
            { item with
              icons := if iconCall then icons.getD item.icons else item.icons
              statusBarGroupMenu :=
                if menuCall then buildMenu load.state else item.statusBarGroupMenu } }

def step (t : Tray) : TrayAction → Tray
  | .init => { t with context := true }
  | .add => t.add
  | .addLoaded pixelMap call => t.addLoaded pixelMap call
  | .updateState state => t.updateState state
  | .debounced => t.debounced
  | .doUpdateState => t.doUpdateState
  | .updateLoaded pixelMap iconCall menuCall => t.updateLoaded pixelMap iconCall menuCall

def run (actions : List TrayAction) (t : Tray) : Tray := actions.foldl step t

theorem run_concat (actions : List TrayAction) (a : TrayAction) (t : Tray) :
    t.run (actions ++ [a]) = (t.run actions).step a := List.foldl_concat ..

theorem run_append (actions actions' : List TrayAction) (t : Tray) :
    t.run (actions ++ actions') = (t.run actions).run actions' := List.foldl_append

end Tray

def TrayAction.asked (state : Int) : TrayAction → Int
  | .updateState state' => state'
  | _ => state

/-- The argument of the latest `updateState` call, `DISCONNECTED` before any. -/
def latestState (actions : List TrayAction) : Int :=
  actions.foldl TrayAction.asked ConnState.disconnected.code

theorem latestState_concat (actions : List TrayAction) (a : TrayAction) :
    latestState (actions ++ [a]) = TrayAction.asked (latestState actions) a := List.foldl_concat ..

namespace Tray

/-- What a step does to the state asked for, to the flag and to the call of `add()`. -/
theorem step_frame (t : Tray) (a : TrayAction) :
    (t.step a).state = TrayAction.asked t.state a ∧
      (t.added = true → (t.step a).added = true) ∧
      ((t.step a).adding = .notCalled ↔ t.adding = .notCalled ∧ a ≠ .add) := by
  cases a with
  | init => exact ⟨rfl, id, by simp [step]⟩
  | add =>
    simp only [step, add]
    split
    · split_ifs <;> exact ⟨rfl, id, by simp⟩
    · rename_i hcalled
      exact ⟨rfl, id, by simpa using hcalled⟩
  | addLoaded pixelMap call =>
    simp only [step, addLoaded]
    split
    · rename_i icons hloading
      split
      · exact ⟨rfl, id, by simp [hloading]⟩
      · exact ⟨rfl, id, by simp [hloading]⟩
      · split_ifs
        · exact ⟨rfl, fun _ => rfl, by simp [hloading]⟩
        · exact ⟨rfl, id, by simp [hloading]⟩
    · exact ⟨rfl, id, by simp⟩
  | updateState state =>
    simp only [step, updateState]
    split_ifs <;> exact ⟨rfl, id, by simp⟩
  | debounced =>
    simp only [step, debounced]
    split_ifs <;> exact ⟨rfl, id, by simp⟩
  | doUpdateState =>
    simp only [step, doUpdateState]
    split <;> exact ⟨rfl, id, by simp⟩
  | updateLoaded pixelMap iconCall menuCall =>
    simp only [step, updateLoaded]
    split
    · exact ⟨rfl, id, by simp⟩
    · split
      · exact ⟨rfl, id, by simp⟩
      · split_ifs <;> exact ⟨rfl, id, by simp⟩

theorem step_adding {t : Tray} {a : TrayAction} :
    (t.step a).adding = .notCalled ↔ t.adding = .notCalled ∧ a ≠ .add := (t.step_frame a).2.2

theorem unadded_of_step {t : Tray} {a : TrayAction} (h : (t.step a).added = false) :
    t.added = false := by
  by_contra hadded
  rw [Bool.not_eq_false] at hadded
  exact absurd (h.symm.trans ((t.step_frame a).2.1 hadded)) Bool.false_ne_true

theorem unadded_of_run {t : Tray} {actions : List TrayAction}
    (h : (t.run actions).added = false) : t.added = false := by
  induction actions using List.reverseRecOn with
  | nil => exact h
  | append_singleton actions a ih =>
    rw [run_concat] at h
    exact ih (unadded_of_step h)

theorem run_state (actions : List TrayAction) :
    (run actions {}).state = latestState actions := by
  induction actions using List.reverseRecOn with
  | nil => rfl
  | append_singleton actions a ih => rw [run_concat, (step_frame _ a).1, ih, latestState_concat]

end Tray

end Deskflow
