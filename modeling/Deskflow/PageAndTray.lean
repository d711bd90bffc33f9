import Deskflow.LaunchRuns
import Deskflow.TrayRecovery

/-! The page and the tray of its process. The page tells its state while the tray is loading
pictures, and tray, shared status and quick views come to show the same. -/

namespace Deskflow

/-- The call of `updateState` in `syncTray`. -/
def PageEffect.trayAction (effect : PageEffect) : Option TrayAction :=
  effect.told.map fun connState => .updateState connState.code

structure MainProcess where
  launch : Launch
  tray : Tray := {}

namespace MainProcess

def handle (e : PageEvent) (σ : MainProcess) : MainProcess where
  launch := σ.launch.handle e
  tray := σ.tray.run ((σ.launch.page.handle e).2.filterMap PageEffect.trayAction)

/-- An event of the page, a quick view that appears, or a step of the tray by itself; these
are of the given kind. -/
inductive Step (ok : TrayAction → Prop) : MainProcess → MainProcess → Prop
  | handle {σ : MainProcess} (e : PageEvent) : σ.launch.Awaits e → Step ok σ (σ.handle e)
  | appear {σ : MainProcess} :
      Step ok σ { σ with launch := { σ.launch with store := σ.launch.store.appear } }
  | tray {σ : MainProcess} (a : TrayAction) : a.updates = false → ok a →
      Step ok σ { σ with tray := σ.tray.step a }

abbrev Steps (ok : TrayAction → Prop) : MainProcess → MainProcess → Prop :=
  Relation.ReflTransGen (Step ok)

theorem trayActions_of_quiet {effects : List PageEffect}
    (h : ∀ effect ∈ effects, effect.told = none) :
    effects.filterMap PageEffect.trayAction = [] := by
  rw [List.filterMap_eq_nil_iff]
  intro effect heffect
  rw [PageEffect.trayAction, h effect heffect]
  rfl

/-- The tray is told the new state, or nothing has changed for it. -/
theorem handle_tray (e : PageEvent) (σ : MainProcess) :
    ((σ.handle e).tray = σ.tray ∧
        (σ.handle e).launch.page.connState = σ.launch.page.connState ∧
        ∀ effect ∈ (σ.launch.page.handle e).2, effect.told = none) ∨
      (σ.handle e).tray = σ.tray.updateState (σ.handle e).launch.page.connState.code := by
  have hpage : (σ.handle e).launch.page = (σ.launch.page.handle e).1 := σ.launch.handle_page e
  rcases Launch.handle_syncs e σ.launch.page with ⟨hstate, hquiet⟩ | ⟨before, heffects, hquiet⟩
  · left
    refine ⟨?_, by rw [hpage, hstate], hquiet⟩
    show σ.tray.run _ = σ.tray
    rw [trayActions_of_quiet hquiet]
    rfl
  · right
    show σ.tray.run _ = _
    rw [heffects, List.filterMap_append, trayActions_of_quiet hquiet, hpage]
    rfl

/-- Whatever fails in the tray, the state asked of it is that of the page. -/
structure Sound (σ : MainProcess) : Prop where
  mirrors : Launch.Mirrors σ.launch
  state : σ.tray.state = σ.launch.page.connState.code
  asked : Tray.Asked (fun _ => True) σ.tray

theorem Sound.handle {σ : MainProcess} (h : Sound σ) (e : PageEvent) : Sound (σ.handle e) := by
  refine ⟨h.mirrors.handle e, ?_, ?_⟩
  · rcases handle_tray e σ with ⟨htray, hstate, -⟩ | htray
    · rw [htray, hstate]
      exact h.state
    · rw [htray]
      exact (σ.tray.step_frame (.updateState _)).1
  · rcases handle_tray e σ with ⟨htray, -, -⟩ | htray
    · rw [htray]
      exact h.asked
    · rw [htray]
      exact h.asked.step (a := .updateState _) fun _ _ => trivial

theorem Sound.step {ok : TrayAction → Prop} {σ σ' : MainProcess} (h : Sound σ)
    (hstep : Step ok σ σ') : Sound σ' := by
  cases hstep with
  | handle e hawaits => exact h.handle e
  | appear => exact ⟨h.mirrors.appear, h.state, h.asked⟩
  | tray a hupdates hok =>
    refine ⟨h.mirrors, ?_, h.asked.step fun _ _ => trivial⟩
    show (σ.tray.step a).state = _
    rw [(σ.tray.step_frame a).1, ← h.state]
    cases a with
    | updateState state => cases hupdates
    | _ => rfl

theorem Sound.steps {ok : TrayAction → Prop} {σ σ' : MainProcess} (h : Sound σ)
    (hsteps : Steps ok σ σ') : Sound σ' := by
  induction hsteps with
  | refl => exact h
  | tail _ hstep ih => exact ih.step hstep

theorem sound_initial (prefs : Option ConnectPage) :
    Sound { launch := { prefs := prefs } } :=
  ⟨⟨rfl, rfl, by simp⟩, rfl, Tray.asked_initial trivial⟩

theorem recovering_steps {σ σ' : MainProcess} (h : Tray.Recovering σ.tray)
    (hsteps : Steps (fun a => a.succeeds = true) σ σ') : Tray.Recovering σ'.tray := by
  induction hsteps with
  | refl => exact h
  | @tail σ₁ σ₂ _ hstep ih =>
    cases hstep with
    | handle e hawaits =>
      rcases handle_tray e σ₁ with ⟨htray, -, -⟩ | htray
      · rw [htray]
        exact ih
      · rw [htray]
        exact ih.step (a := .updateState _) rfl
    | appear => exact ih
    | tray a hupdates hok => exact ih.step hok

/-- Whatever has failed before: once the item is in the status bar, and nothing fails any more
from one `syncTray` of the page on, icon and menu, the shared status and every quick view show
the state of the page when the tray has come to rest. -/
theorem tray_shows_page {prefs : Option ConnectPage} {σ σ' : MainProcess}
    (h : Steps (fun _ => True) { launch := { prefs := prefs } } σ) (hadded : σ.tray.added = true)
    {e : PageEvent} (htells : ∃ effect ∈ (σ.launch.page.handle e).2, effect.told ≠ none)
    (h' : Steps (fun a => a.succeeds = true) (σ.handle e) σ') (hsettled : σ'.tray.Settled) :
    let state := σ'.launch.page.connState
    (∃ item, σ'.tray.bar = some item ∧ item.icons = iconsOf state.code ∧
        item.statusBarGroupMenu = buildMenu state.code) ∧
      σ'.launch.store.state = state ∧ ∀ view ∈ σ'.launch.store.views, view.state = state := by
  intro state
  have hsound := (sound_initial prefs).steps h
  have hsound' := (hsound.handle e).steps h'
  have hrecovering : Tray.Recovering (σ.handle e).tray := by
    rcases handle_tray e σ with ⟨-, -, hquiet⟩ | htray
    · obtain ⟨effect, heffect, htold⟩ := htells
      exact absurd (hquiet effect heffect) htold
    · rw [htray]
      exact .of_updateState hsound.asked hadded _
  refine ⟨?_, hsound'.mirrors.store, fun view hview => ?_⟩
  · have hshows := (recovering_steps hrecovering h').shows hsettled
    rwa [hsound'.state] at hshows
  · rw [hsound'.mirrors.views view hview]
    exact hsound'.mirrors.store

theorem steps_tray {ok : TrayAction → Prop} {actions : List TrayAction}
    (h : ∀ a ∈ actions, a.updates = false ∧ ok a) (σ : MainProcess) :
    Steps ok σ { σ with tray := σ.tray.run actions } := by
  induction actions generalizing σ with
  | nil => exact .refl
  | cons a actions ih =>
    obtain ⟨⟨hupdates, hok⟩, hactions⟩ := List.forall_mem_cons.mp h
    exact .head (.tray a hupdates hok) (ih hactions { σ with tray := σ.tray.step a })

/-- The item has been added. -/
def displayed : MainProcess :=
  { launch := {}
    tray := Tray.run [.init, .add, .addLoaded true true, .addLoaded true true] {} }

theorem steps_displayed : Steps (fun _ => True) { launch := {} } displayed :=
  steps_tray (by simp [TrayAction.updates]) { launch := {} }

/-- The carrier reports a handshake, and the tray has its pictures loaded. -/
theorem tray_shows_page_connected :
    let told := displayed.handle (.bgStatus (ascii "handshake ok"))
    let tray := told.tray.run [.debounced, .doUpdateState, .updateLoaded true true true,
      .updateLoaded true true true]
    let state := told.launch.page.connState
    state = .connected ∧
      (∃ item, tray.bar = some item ∧ item.icons = iconsOf state.code ∧
        item.statusBarGroupMenu = buildMenu state.code) ∧
      told.launch.store.state = state ∧
        ∀ view ∈ told.launch.store.views, view.state = state := by
  intro told tray state
  have htells : ∃ effect ∈ (displayed.launch.page.handle (.bgStatus (ascii "handshake ok"))).2,
      effect.told ≠ none := ⟨_, List.mem_singleton_self _, by simp [PageEffect.told]⟩
  have hsteps : Steps (fun a => a.succeeds = true) told { told with tray := tray } :=
    steps_tray (by simp [TrayAction.updates, TrayAction.succeeds]) told
  exact ⟨by decide +kernel,
    tray_shows_page steps_displayed (by decide +kernel) htells hsteps (by decide +kernel)⟩

end MainProcess

end Deskflow
