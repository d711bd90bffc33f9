import Deskflow.IndexPage

/-! A launch of the page over all its events, and what mirrors the page: the shared status,
the tray and the quick views. -/

namespace Deskflow

namespace PageEffect

def request : PageEffect → Option PageRequest
  | .publish r => some r
  | _ => none

def told : PageEffect → Option ConnState
  | .syncTray connState _ => some connState
  | _ => none

def data : PageEffect → Option Bytes
  | .setData text => some text
  | _ => none

def isSave : PageEffect → Bool
  | .savePrefs => true
  | _ => false

end PageEffect

namespace Launch

theorem apply_keeps (effects : List PageEffect) (σ : Launch) :
    (effects.foldl apply σ).page = σ.page ∧ (effects.foldl apply σ).prefs = σ.prefs ∧
      (effects.foldl apply σ).loading = σ.loading := by
  induction effects generalizing σ with
  | nil => exact ⟨rfl, rfl, rfl⟩
  | cons effect effects ih =>
    obtain ⟨hpage, hprefs, hloading⟩ := ih (σ.apply effect)
    rw [List.foldl_cons, hpage, hprefs, hloading]
    cases effect <;> exact ⟨rfl, rfl, rfl⟩

theorem apply_saving (effects : List PageEffect) (σ : Launch) :
    (effects.foldl apply σ).saving = σ.saving + effects.countP PageEffect.isSave := by
  induction effects generalizing σ with
  | nil => rfl
  | cons effect effects ih =>
    rw [List.foldl_cons, ih, List.countP_cons]
    cases effect with
    | savePrefs =>
      show σ.saving + 1 + _ = σ.saving + (_ + 1)
      omega
    | _ => rfl

theorem apply_published (effects : List PageEffect) (σ : Launch) :
    (effects.foldl apply σ).published = σ.published ++ effects.filterMap PageEffect.request := by
  induction effects generalizing σ with
  | nil => simp
  | cons effect effects ih =>
    rw [List.foldl_cons, ih, List.filterMap_cons]
    cases effect <;> simp [apply, PageEffect.request]

theorem apply_written (effects : List PageEffect) (σ : Launch) :
    (effects.foldl apply σ).written = σ.written ++ effects.filterMap PageEffect.data := by
  induction effects generalizing σ with
  | nil => simp
  | cons effect effects ih =>
    rw [List.foldl_cons, ih, List.filterMap_cons]
    cases effect <;> simp [apply, PageEffect.data]

theorem apply_quiet {effects : List PageEffect} (h : ∀ effect ∈ effects, effect.told = none)
    (σ : Launch) : (effects.foldl apply σ).store = σ.store ∧
      (effects.foldl apply σ).updates = σ.updates := by
  induction effects generalizing σ with
  | nil => exact ⟨rfl, rfl⟩
  | cons effect effects ih =>
    obtain ⟨heffect, hrest⟩ := List.forall_mem_cons.mp h
    obtain ⟨hstore, hupdates⟩ := ih hrest (σ.apply effect)
    rw [List.foldl_cons, hstore, hupdates]
    cases effect with
    | syncTray connState statusText => cases heffect
    | _ => exact ⟨rfl, rfl⟩

theorem handle_page (e : PageEvent) (σ : Launch) : (σ.handle e).page = (σ.page.handle e).1 :=
  (apply_keeps _ _).1

theorem handle_published (e : PageEvent) (σ : Launch) : (σ.handle e).published =
    σ.published ++ (σ.page.handle e).2.filterMap PageEffect.request := by
  have hsettle : (σ.settle e).published = σ.published := by cases e <;> rfl
  rw [Launch.handle, apply_published]
  show (σ.settle e).published ++ _ = _
  rw [hsettle]

/-- The shared status, the last word to the tray and every quick view show the state of the
page. -/
structure Mirrors (σ : Launch) : Prop where
  store : σ.store.state = σ.page.connState
  tray : σ.updates.getLast?.getD .disconnected = σ.page.connState
  views : ∀ view ∈ σ.store.views, view = ⟨σ.store.state, σ.store.statusText⟩

/-- The handler leaves the state as it is and tells nobody, or it ends with `syncTray`. -/
def Syncs (page : IndexPage) (r : IndexPage × List PageEffect) : Prop :=
  (r.1.connState = page.connState ∧ ∀ effect ∈ r.2, effect.told = none) ∨
    ∃ before, r.2 = before ++ [.syncTray r.1.connState r.1.statusText] ∧
      ∀ effect ∈ before, effect.told = none

theorem onConnect_syncs (page : IndexPage) : Syncs page page.onConnect := by
  unfold IndexPage.onConnect
  dsimp only
  split_ifs
  · exact .inl ⟨rfl, by simp⟩
  · refine .inr ⟨page.fields.onConnect.map (fun r => .publish (.connection r)) ++ [.savePrefs],
      by simp, fun effect heffect => ?_⟩
    rcases List.mem_append.mp heffect with hrequest | hsave
    · obtain ⟨r, -, rfl⟩ := List.mem_map.mp hrequest
      rfl
    · rw [List.mem_singleton.mp hsave]
      rfl

theorem pushLocalClipboard_told (text : Bytes) (page : IndexPage) :
    ∀ effect ∈ page.pushLocalClipboard text, effect.told = none := by
  unfold IndexPage.pushLocalClipboard
  split_ifs <;> simp [PageEffect.told]

theorem handle_syncs (e : PageEvent) (page : IndexPage) : Syncs page (page.handle e) := by
  cases e with
  | connect => exact onConnect_syncs page
  | disconnect => exact .inr ⟨[.publish (.connection .stop)], rfl, by simp [PageEffect.told]⟩
  | bgStatus value => exact .inr ⟨[], rfl, by simp⟩
  | bgClip value =>
    refine .inl ⟨rfl, ?_⟩
    simp only [IndexPage.handle, IndexPage.onBgClip, IndexPage.setSystemClipboard]
    split_ifs <;> simp [PageEffect.told]
  | invertScroll isOn =>
    exact .inl ⟨rfl, by simp [IndexPage.handle, IndexPage.onInvertScroll, PageEffect.told]⟩
  | autoReconnect isOn =>
    exact .inl ⟨rfl, by simp [IndexPage.handle, IndexPage.onAutoReconnect, PageEffect.told]⟩
  | clipboardSync isOn =>
    refine .inl ⟨rfl, ?_⟩
    cases isOn <;> simp [IndexPage.handle, IndexPage.onClipboardSync, PageEffect.told]
  | permission granted =>
    cases granted with
    | true => exact .inl ⟨rfl, by simp [IndexPage.handle, IndexPage.onPermission]⟩
    | false =>
      exact .inl ⟨rfl, by simp [IndexPage.handle, IndexPage.onPermission, PageEffect.told]⟩
  | paste text =>
    left
    simp only [IndexPage.handle, IndexPage.onPasteButtonClick]
    split
    · exact ⟨rfl, by simp⟩
    · split
      · exact ⟨rfl, by simp⟩
      · refine ⟨rfl, fun effect heffect => ?_⟩
        rcases List.mem_append.mp heffect with hfirst | hpush
        · split_ifs at hfirst
          · have hcases : effect = .native (.setClipboardSync true) ∨ effect = .savePrefs := by
              simpa using hfirst
            rcases hcases with rfl | rfl <;> rfl
          · cases hfirst
        · exact pushLocalClipboard_told text _ effect hpush
  | pasteRefused code => exact .inl ⟨rfl, by simp [IndexPage.handle]⟩
  | pasteboardUpdate text =>
    refine .inl ⟨rfl, ?_⟩
    simp only [IndexPage.handle, IndexPage.onUpdate]
    split_ifs
    · exact pushLocalClipboard_told text page
    · simp
  | typed hostInput portInput screenName => exact .inl ⟨rfl, by simp [IndexPage.handle]⟩
  | prefsRead prefs =>
    simp only [IndexPage.handle, IndexPage.onPrefs]
    split_ifs
    · exact onConnect_syncs { page with fields := prefs }
    · exact .inl ⟨rfl, by simp⟩
  | prefsSaved => exact .inl ⟨rfl, by simp [IndexPage.handle]⟩

theorem Mirrors.handle {σ : Launch} (h : Mirrors σ) (e : PageEvent) : Mirrors (σ.handle e) := by
  have hstore : (σ.settle e).store = σ.store := by cases e <;> rfl
  have hupdates : (σ.settle e).updates = σ.updates := by cases e <;> rfl
  rcases handle_syncs e σ.page with ⟨hstate, hquiet⟩ | ⟨before, heffects, hquiet⟩
  · obtain ⟨hstore', hupdates'⟩ :=
      apply_quiet hquiet { σ.settle e with page := (σ.page.handle e).1 }
    replace hstore' : (σ.handle e).store = σ.store := hstore'.trans hstore
    replace hupdates' : (σ.handle e).updates = σ.updates := hupdates'.trans hupdates
    refine ⟨?_, ?_, ?_⟩
    · rw [hstore', handle_page, hstate]
      exact h.store
    · rw [hupdates', handle_page, hstate]
      exact h.tray
    · rw [hstore']
      exact h.views
  · have hlast : σ.handle e =
        (before.foldl apply { σ.settle e with page := (σ.page.handle e).1 }).apply (.syncTray
          (σ.page.handle e).1.connState (σ.page.handle e).1.statusText) := by
      rw [Launch.handle, heffects, List.foldl_append]
      rfl
    refine ⟨?_, ?_, ?_⟩
    · rw [handle_page, hlast]
      rfl
    · rw [handle_page, hlast]
      simp [apply]
    · rw [hlast]
      intro view hview
      obtain ⟨old, -, rfl⟩ := List.mem_map.mp hview
      rfl

theorem Mirrors.appear {σ : Launch} (h : Mirrors σ) :
    Mirrors { σ with store := σ.store.appear } := by
  refine ⟨h.store, h.tray, fun view hview => ?_⟩
  rcases List.mem_append.mp hview with hold | hnew
  · exact h.views view hold
  · exact List.mem_singleton.mp hnew

/-- In every launch, whatever the order of its events, the shared status, the tray and every
quick view are told each change of the state, and nothing else. -/
theorem mirrors_run {prefs : Option ConnectPage} {es : List PageEvent} {σ : Launch}
    (h : Run { prefs := prefs } es σ) : Mirrors σ := by
  induction h with
  | nil => exact ⟨rfl, rfl, by simp⟩
  | handle e _ hawaits ih => exact ih.handle e
  | appear _ ih => exact ih.appear

/-- The carrier reports that the server is busy, and a quick view has appeared. -/
theorem mirrors_run_busy :
    let σ : Launch := { store := ({} : DeskflowStatusStore).appear }
    Mirrors (σ.handle (.bgStatus (ascii "error: server busy"))) :=
  mirrors_run (.handle _ (.appear (.nil { prefs := none })) trivial)

end Launch

end Deskflow
