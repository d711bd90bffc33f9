import Deskflow.LaunchRuns

/-! The preferences that a launch of the page stores, and the launch after it. -/

namespace Deskflow

namespace PageEvent

def types : PageEvent → Bool
  | .typed .. => true
  | _ => false

/-- The end of a call that reads or writes the preferences. -/
def stores : PageEvent → Bool
  | .prefsRead _ => true
  | .prefsSaved => true
  | _ => false

end PageEvent

namespace Launch

/-- What is stored is what the page has, unless a call has still to put it there. -/
def Stored (σ : Launch) : Prop := σ.saving = 0 → σ.prefs.getD .defaults = σ.page.fields

theorem onConnect_fields (page : IndexPage) : page.onConnect.1.fields = page.fields := by
  unfold IndexPage.onConnect
  dsimp only
  split_ifs <;> rfl

theorem onPrefs_fields (prefs : ConnectPage) (page : IndexPage) :
    (page.onPrefs prefs).1.fields = prefs := by
  unfold IndexPage.onPrefs
  dsimp only
  split_ifs
  · exact onConnect_fields _
  · rfl

theorem onConnect_requests (page : IndexPage) :
    page.onConnect.2.filterMap PageEffect.request =
      page.fields.onConnect.map PageRequest.connection := by
  by_cases hblank : (trimText page.fields.hostInput).length = 0
  · simp [IndexPage.onConnect, ConnectPage.onConnect, hblank]
  · simp [IndexPage.onConnect, ConnectPage.onConnect, hblank, PageEffect.request]

theorem onPrefs_requests (prefs : ConnectPage) (page : IndexPage) :
    (page.onPrefs prefs).2.filterMap PageEffect.request =
      if prefs.autoReconnect ∧ page.connState = .disconnected then
        prefs.onConnect.map PageRequest.connection
      else [] := by
  unfold IndexPage.onPrefs
  dsimp only
  by_cases hgo : prefs.autoReconnect ∧ page.connState = .disconnected
  · rw [if_pos hgo]
    by_cases hblank : (trimText prefs.hostInput).length = 0
    · simp [hblank, ConnectPage.onConnect]
    · have hpos : 0 < (trimText prefs.hostInput).length := Nat.pos_of_ne_zero hblank
      rw [if_pos (by simp [hpos, hgo]), onConnect_requests]
  · rw [if_neg hgo, if_neg (by simpa using fun hauto _ hstate => hgo ⟨hauto, hstate⟩)]
    rfl

/-- A switch that is turned is also saved. -/
theorem handle_saves {e : PageEvent} (htypes : e.types = false) (hstores : e.stores = false)
    (page : IndexPage) : (page.handle e).1.fields = page.fields ∨
      0 < (page.handle e).2.countP PageEffect.isSave := by
  cases e with
  | connect => exact .inl (onConnect_fields page)
  | invertScroll isOn => exact .inr Nat.one_pos
  | autoReconnect isOn => exact .inr Nat.one_pos
  | clipboardSync isOn => cases isOn <;> exact .inr Nat.one_pos
  | permission granted =>
    cases granted with
    | true => exact .inl rfl
    | false => exact .inr Nat.one_pos
  | paste text =>
    simp only [IndexPage.handle, IndexPage.onPasteButtonClick]
    split
    · exact .inl rfl
    · split
      · exact .inl rfl
      · cases hsync : page.fields.clipboardSync with
        | true =>
          left
          rw [← hsync]
        | false =>
          right
          show 0 < ([.native (.setClipboardSync true), .savePrefs] ++ _).countP PageEffect.isSave
          rw [List.countP_append]
          exact Nat.lt_add_right _ Nat.one_pos
  | typed hostInput portInput screenName => cases htypes
  | prefsRead prefs => cases hstores
  | prefsSaved => cases hstores
  | _ => exact .inl rfl

theorem stored_of_stores {σ : Launch} {e : PageEvent} (hstores : e.stores = true)
    (hawaits : σ.Awaits e) : Stored (σ.handle e) := by
  intro _
  rw [handle_page, Launch.handle, (apply_keeps _ _).2.1]
  cases e with
  | prefsRead prefs =>
    show σ.prefs.getD .defaults = (σ.page.onPrefs prefs).1.fields
    rw [onPrefs_fields]
    exact hawaits.2.symm
  | prefsSaved => rfl
  | _ => cases hstores

theorem Stored.handle {σ : Launch} {e : PageEvent} (h : Stored σ) (htypes : e.types = false)
    (hawaits : σ.Awaits e) : Stored (σ.handle e) := by
  by_cases hstores : e.stores = true
  · exact stored_of_stores hstores hawaits
  · rw [Bool.not_eq_true] at hstores
    intro hnone
    have hsettle : (σ.settle e).saving = σ.saving ∧ (σ.settle e).prefs = σ.prefs := by
      cases e with
      | prefsSaved => cases hstores
      | _ => exact ⟨rfl, rfl⟩
    rw [Launch.handle, apply_saving] at hnone
    have hsum : (σ.settle e).saving + (σ.page.handle e).2.countP PageEffect.isSave = 0 := hnone
    rw [hsettle.1] at hsum
    rw [handle_page, Launch.handle, (apply_keeps _ _).2.1]
    show (σ.settle e).prefs.getD .defaults = _
    rw [hsettle.2]
    rcases handle_saves htypes hstores σ.page with hsame | hsaves
    · rw [hsame]
      exact h (by omega)
    · omega

theorem Stored.run {σ σ' : Launch} {es : List PageEvent} (h : Stored σ) (hrun : Run σ es σ')
    (htypes : ∀ e ∈ es, e.types = false) : Stored σ' := by
  induction hrun with
  | nil => exact h
  | handle e _ hawaits ih =>
    have hbefore := ih fun e' he' => htypes e' (List.mem_append_left _ he')
    exact hbefore.handle (htypes e (by simp)) hawaits
  | appear _ ih => exact ih htypes

/-- Until a call on the preferences has ended the launch still awaits the first of them. -/
theorem loading_run {prefs : Option ConnectPage} {es : List PageEvent} {σ : Launch}
    (h : Run { prefs := prefs } es σ) (hstores : ∀ e ∈ es, e.stores = false) :
    σ.loading = true ∧ σ.prefs = prefs := by
  induction h with
  | nil => exact ⟨rfl, rfl⟩
  | @handle σ es e _ hawaits ih =>
    have hsettle : (σ.settle e).loading = σ.loading ∧ (σ.settle e).prefs = σ.prefs := by
      have he := hstores e (by simp)
      cases e with
      | prefsRead prefs => cases he
      | prefsSaved => cases he
      | _ => exact ⟨rfl, rfl⟩
    obtain ⟨hloading, hprefs⟩ := ih fun e' he' => hstores e' (List.mem_append_left _ he')
    obtain ⟨-, hprefs', hloading'⟩ :=
      apply_keeps (σ.page.handle e).2 { σ.settle e with page := (σ.page.handle e).1 }
    exact ⟨hloading'.trans (hsettle.1.trans hloading), hprefs'.trans (hsettle.2.trans hprefs)⟩
  | appear _ ih => exact ih hstores

/-- Once a call on the preferences has ended, nothing was typed since and no call is left, the
next launch reads the same fields, whatever came to it before. By itself it requests the
connection that a click would, exactly if automatic reconnection is on and the page still
shows that it is disconnected. -/
theorem relaunch_connects {σ σ' next : Launch} {e : PageEvent} {es es' : List PageEvent}
    (hstores : e.stores = true) (hawaits : σ.Awaits e) (hrun : Run (σ.handle e) es σ')
    (htypes : ∀ e ∈ es, e.types = false) (hsaved : σ'.saving = 0)
    (hnext : Run { prefs := σ'.prefs } es' next) (hunread : ∀ e ∈ es', e.stores = false) :
    let read := PageEvent.prefsRead (σ'.prefs.getD .defaults)
    next.Awaits read ∧ (next.handle read).page.fields = σ'.page.fields ∧
      (next.handle read).published = next.published ++
        if σ'.page.fields.autoReconnect ∧ next.page.connState = .disconnected then
          (σ'.page.handle .connect).2.filterMap PageEffect.request
        else [] := by
  intro read
  have hstored := (stored_of_stores hstores hawaits).run hrun htypes hsaved
  obtain ⟨hloading, hprefs⟩ := loading_run hnext hunread
  refine ⟨⟨hloading, by rw [hprefs]⟩, ?_, ?_⟩
  · rw [handle_page]
    exact (onPrefs_fields _ _).trans hstored
  · rw [handle_published]
    congr 1
    show (next.page.onPrefs (σ'.prefs.getD .defaults)).2.filterMap PageEffect.request =
      if σ'.page.fields.autoReconnect ∧ next.page.connState = .disconnected then
        σ'.page.onConnect.2.filterMap PageEffect.request
      else []
    rw [onPrefs_requests, hstored, onConnect_requests]

/-- An address is typed and connected to, and a switch turned before the next launch. There
a status comes before the preferences have been read. -/
theorem relaunch_connects_typed :
    let σ := (({} : Launch).handle (.typed "10.0.0.2".toList "24800".toList [])).handle .connect
    let σ' := ((σ.handle .prefsSaved).handle (.invertScroll true)).handle .prefsSaved
    let next := ({ prefs := σ'.prefs } : Launch).handle (.bgStatus (ascii "disconnected"))
    let read := PageEvent.prefsRead (σ'.prefs.getD .defaults)
    next.Awaits read ∧ (next.handle read).page.fields = σ'.page.fields ∧
      (next.handle read).published = next.published ++
        if σ'.page.fields.autoReconnect ∧ next.page.connState = .disconnected then
          (σ'.page.handle .connect).2.filterMap PageEffect.request
        else [] := by
  intro σ σ' next
  have hsaving : σ.Awaits .prefsSaved := Nat.one_pos
  have hagain : ((σ.handle .prefsSaved).handle (.invertScroll true)).Awaits .prefsSaved :=
    Nat.one_pos
  exact relaunch_connects rfl hsaving
    (.handle .prefsSaved (.handle (.invertScroll true) (.nil _) trivial) hagain)
    (by simp [PageEvent.types]) rfl
    (.handle (.bgStatus (ascii "disconnected")) (.nil _) trivial) (by simp [PageEvent.stores])

end Launch

end Deskflow
