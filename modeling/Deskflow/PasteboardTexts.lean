import Deskflow.StoredPreferences

/-! The texts that a launch of the page takes from the pasteboard and puts there. -/

namespace Deskflow

namespace PageEvent

/-- The switch is turned on, the paste button used, or preferences read with the switch on. -/
def enables : PageEvent → Bool
  | .clipboardSync isOn => isOn
  | .paste _ => true
  | .prefsRead prefs => prefs.clipboardSync
  | _ => false

/-- The switch is turned off, the permission refused, or preferences read with it off. -/
def disables : PageEvent → Bool
  | .clipboardSync isOn => !isOn
  | .permission granted => !granted
  | .prefsRead prefs => !prefs.clipboardSync
  | _ => false

end PageEvent

/-- A text of the carrier. -/
def PageEvent.clip : PageEvent → Option Bytes
  | .bgClip value => some value
  | _ => none

theorem PageEvent.filterMap_clip (es : List PageEvent) (e : PageEvent) :
    (es ++ [e]).filterMap clip = es.filterMap clip ++ e.clip.toList := by
  rw [List.filterMap_append]
  cases e <;> rfl

def PageRequest.pushed : PageRequest → Option Bytes
  | .clipPush text => some text
  | _ => none

/-- The text that came last from the carrier. -/
def lastRemote (es : List PageEvent) : Bytes :=
  es.foldl (fun text e => match e with | .bgClip value => value | _ => text) []

namespace Launch

def pushes (σ : Launch) : List Bytes := σ.published.filterMap PageRequest.pushed

/-- The pushes that a handler asks for. -/
def pushesOf (effects : List PageEffect) : List Bytes :=
  (effects.filterMap PageEffect.request).filterMap PageRequest.pushed

theorem handle_pushes (e : PageEvent) (σ : Launch) :
    (σ.handle e).pushes = σ.pushes ++ pushesOf (σ.page.handle e).2 := by
  rw [pushes, handle_published, List.filterMap_append]
  rfl

theorem handle_written (e : PageEvent) (σ : Launch) :
    (σ.handle e).written = σ.written ++ (σ.page.handle e).2.filterMap PageEffect.data := by
  have hsettle : (σ.settle e).written = σ.written := by cases e <;> rfl
  rw [Launch.handle, apply_written]
  show (σ.settle e).written ++ _ = _
  rw [hsettle]

theorem onConnect_clipboard (page : IndexPage) : pushesOf page.onConnect.2 = [] ∧
    page.onConnect.2.filterMap PageEffect.data = [] := by
  refine ⟨?_, ?_⟩
  · rw [pushesOf, onConnect_requests, List.filterMap_map]
    exact List.filterMap_eq_nil_iff.mpr fun r _ => rfl
  · unfold IndexPage.onConnect
    dsimp only
    split_ifs
    · rfl
    · rw [List.filterMap_append, List.filterMap_map]
      exact List.append_eq_nil_iff.mpr ⟨List.filterMap_eq_nil_iff.mpr fun r _ => rfl, rfl⟩

theorem pushesOf_append (effects effects' : List PageEffect) :
    pushesOf (effects ++ effects') = pushesOf effects ++ pushesOf effects' := by
  rw [pushesOf, List.filterMap_append, List.filterMap_append]
  rfl

theorem pushesOf_enable (isOn : Bool) :
    pushesOf (if !isOn then [.native (.setClipboardSync true), .savePrefs] else []) = [] := by
  cases isOn <;> rfl

theorem pushLocalClipboard_cases (text : Bytes) (page : IndexPage) :
    pushesOf (page.pushLocalClipboard text) = [] ∨
      pushesOf (page.pushLocalClipboard text) = [text] ∧
        text ≠ [] ∧ text ≠ page.lastRemoteClipboard := by
  unfold IndexPage.pushLocalClipboard
  split_ifs with hsync hpush
  · exact .inl rfl
  · exact .inr ⟨rfl, by simpa using hpush⟩
  · exact .inl rfl

theorem pushLocalClipboard_data (text : Bytes) (page : IndexPage) :
    (page.pushLocalClipboard text).filterMap PageEffect.data = [] := by
  unfold IndexPage.pushLocalClipboard
  split_ifs <;> rfl

theorem onPrefs_clipboard (prefs : ConnectPage) (page : IndexPage) :
    pushesOf (page.onPrefs prefs).2 = [] ∧
      (page.onPrefs prefs).2.filterMap PageEffect.data = [] := by
  unfold IndexPage.onPrefs
  dsimp only
  split_ifs
  · exact onConnect_clipboard _
  · exact ⟨rfl, rfl⟩

/-- A handler pushes one text at most: what can be read of the pasteboard, and not what came
last. -/
theorem handle_pushes_cases (e : PageEvent) (page : IndexPage) :
    pushesOf (page.handle e).2 = [] ∨ ∃ text, pushesOf (page.handle e).2 = [text] ∧
      (e = .paste text ∨ e = .pasteboardUpdate text) ∧
      text ≠ [] ∧ text ≠ page.lastRemoteClipboard := by
  cases e with
  | connect => exact .inl (onConnect_clipboard page).1
  | bgClip value =>
    left
    simp only [IndexPage.handle, IndexPage.onBgClip, IndexPage.setSystemClipboard]
    split_ifs <;> rfl
  | clipboardSync isOn => cases isOn <;> exact .inl rfl
  | permission granted => cases granted <;> exact .inl rfl
  | paste text =>
    simp only [IndexPage.handle, IndexPage.onPasteButtonClick]
    split
    · exact .inl rfl
    · split
      · exact .inl rfl
      · rw [pushesOf_append, pushesOf_enable, List.nil_append]
        rcases pushLocalClipboard_cases text _ with hnone | ⟨hpush, hne, hold⟩
        · exact .inl hnone
        · exact .inr ⟨text, hpush, .inl rfl, hne, hold⟩
  | pasteboardUpdate text =>
    simp only [IndexPage.handle, IndexPage.onUpdate]
    split_ifs
    · rcases pushLocalClipboard_cases text page with hnone | ⟨hpush, hne, hold⟩
      · exact .inl hnone
      · exact .inr ⟨text, hpush, .inr rfl, hne, hold⟩
    · exact .inl rfl
  | prefsRead prefs => exact .inl (onPrefs_clipboard prefs page).1
  | _ => exact .inl rfl

/-- Only a text of the carrier is written to the pasteboard, and only with the switch on. -/
theorem handle_data (e : PageEvent) (page : IndexPage) :
    (page.handle e).2.filterMap PageEffect.data =
      if page.fields.clipboardSync then e.clip.toList.filter (! ·.isEmpty) else [] := by
  have hnone {effects : List PageEffect} (h : effects.filterMap PageEffect.data = []) :
      effects.filterMap PageEffect.data =
        if page.fields.clipboardSync then (none : Option Bytes).toList.filter (! ·.isEmpty)
        else [] := by
    rw [h]
    split_ifs <;> rfl
  cases e with
  | connect => exact hnone (onConnect_clipboard page).2
  | bgClip value =>
    simp only [IndexPage.handle, IndexPage.onBgClip, IndexPage.setSystemClipboard]
    cases page.fields.clipboardSync <;> cases hempty : value.isEmpty <;>
      simp [PageEffect.data, PageEvent.clip, hempty]
  | clipboardSync isOn => cases isOn <;> exact hnone rfl
  | permission granted => cases granted <;> exact hnone rfl
  | paste text =>
    apply hnone
    simp only [IndexPage.handle, IndexPage.onPasteButtonClick]
    split
    · rfl
    · split
      · rfl
      · rw [List.filterMap_append, pushLocalClipboard_data, List.append_nil]
        split_ifs <;> rfl
  | pasteboardUpdate text =>
    apply hnone
    simp only [IndexPage.handle, IndexPage.onUpdate]
    split_ifs
    · exact pushLocalClipboard_data text page
    · rfl
  | prefsRead prefs => exact hnone (onPrefs_clipboard prefs page).2
  | _ => exact hnone rfl

theorem lastRemote_concat (es : List PageEvent) (e : PageEvent) :
    lastRemote (es ++ [e]) = match e with | .bgClip value => value | _ => lastRemote es := by
  rw [lastRemote, List.foldl_append]
  rfl

theorem handle_lastRemote (e : PageEvent) (page : IndexPage) :
    (page.handle e).1.lastRemoteClipboard =
      match e with | .bgClip value => value | _ => page.lastRemoteClipboard := by
  have hconnect (page : IndexPage) :
      page.onConnect.1.lastRemoteClipboard = page.lastRemoteClipboard := by
    unfold IndexPage.onConnect
    dsimp only
    split_ifs <;> rfl
  cases e with
  | connect => exact hconnect page
  | permission granted => cases granted <;> rfl
  | paste text =>
    simp only [IndexPage.handle, IndexPage.onPasteButtonClick]
    split_ifs <;> rfl
  | prefsRead prefs =>
    simp only [IndexPage.handle, IndexPage.onPrefs]
    split_ifs
    · exact hconnect _
    · rfl
  | _ => rfl

theorem lastRemote_run {prefs : Option ConnectPage} {es : List PageEvent} {σ : Launch}
    (h : Run { prefs := prefs } es σ) : σ.page.lastRemoteClipboard = lastRemote es := by
  induction h with
  | nil => rfl
  | handle e _ hawaits ih =>
    rw [handle_page, handle_lastRemote, lastRemote_concat, ih]
  | appear _ ih => exact ih

/-- Where each event adds one value at most to what a launch has put out, each of the values
was added by an event of its own. -/
theorem Run.emitted {out : Launch → List Bytes} {one : PageEvent → Launch → List Bytes}
    (hhandle : ∀ e σ, out (σ.handle e) = out σ ++ one e σ)
    (happear : ∀ σ, out { σ with store := σ.store.appear } = out σ)
    (hone : ∀ e σ, one e σ = [] ∨ ∃ a, one e σ = [a]) {σ σ' : Launch} {es : List PageEvent}
    (h : Run σ es σ') (hnone : out σ = []) {pre post : List Bytes} {text : Bytes}
    (hsplit : out σ' = pre ++ text :: post) :
    ∃ before e after σ₁, es = before ++ e :: after ∧ Run σ before σ₁ ∧ out σ₁ = pre ∧
      one e σ₁ = [text] := by
  induction h generalizing post with
  | nil => simp [hnone] at hsplit
  | @handle σ₁ es e hrun hawaits ih =>
    rw [hhandle] at hsplit
    rcases hone e σ₁ with hnil | ⟨last, hlast⟩
    · rw [hnil, List.append_nil] at hsplit
      obtain ⟨before, e', after, σ₂, rfl, hfound⟩ := ih hsplit
      exact ⟨before, e', after ++ [e], σ₂, by simp, hfound⟩
    · rw [hlast] at hsplit
      rcases List.eq_nil_or_concat post with rfl | ⟨post', last', rfl⟩
      · obtain ⟨hpre, htext⟩ := List.append_inj' hsplit rfl
        exact ⟨es, e, [], σ₁, rfl, hrun, hpre, by rw [hlast, htext]⟩
      · have hold : out σ₁ ++ [last] = (pre ++ text :: post') ++ [last'] := by
          rw [hsplit, List.concat_eq_append, List.append_assoc, List.cons_append]
        obtain ⟨before, e', after, σ₂, rfl, hfound⟩ := ih (List.append_inj' hold rfl).1
        exact ⟨before, e', after ++ [e], σ₂, by simp, hfound⟩
  | @appear σ₁ es _ ih => exact ih ((happear σ₁).symm.trans hsplit)

/-- Each push was made as an event was handled, which read its text of the pasteboard. -/
theorem pushes_run {prefs : Option ConnectPage} {es : List PageEvent} {σ : Launch}
    (h : Run { prefs := prefs } es σ) {pre post : List Bytes} {text : Bytes}
    (hsplit : σ.pushes = pre ++ text :: post) :
    ∃ before e after σ₁, es = before ++ e :: after ∧ Run { prefs := prefs } before σ₁ ∧
      σ₁.pushes = pre ∧ (σ₁.handle e).pushes = pre ++ [text] ∧
      (e = .paste text ∨ e = .pasteboardUpdate text) ∧ text ≠ [] ∧ text ≠ lastRemote before := by
  have hone (e : PageEvent) (σ : Launch) : pushesOf (σ.page.handle e).2 = [] ∨
      ∃ text, pushesOf (σ.page.handle e).2 = [text] :=
    (handle_pushes_cases e σ.page).imp_right fun ⟨text, hpush, _⟩ => ⟨text, hpush⟩
  obtain ⟨before, e, after, σ₁, hes, hrun, hpre, hpushed⟩ :=
    h.emitted handle_pushes (fun _ => rfl) hone rfl hsplit
  refine ⟨before, e, after, σ₁, hes, hrun, hpre, by rw [handle_pushes, hpre, hpushed], ?_⟩
  rcases handle_pushes_cases e σ₁.page with hnone | ⟨text', hpush, hread⟩
  · rw [hnone] at hpushed
    cases hpushed
  · obtain rfl : text' = text := by simpa [hpush] using hpushed
    rw [← lastRemote_run hrun]
    exact hread

/-- What a run writes to the pasteboard are texts of the carrier in the order in which they
came. -/
theorem written_run {σ σ' : Launch} {es : List PageEvent} (h : Run σ es σ') :
    ∃ texts, σ'.written = σ.written ++ texts ∧
      texts.Sublist ((es.filterMap PageEvent.clip).filter (! ·.isEmpty)) := by
  induction h with
  | nil => exact ⟨[], (List.append_nil _).symm, .slnil⟩
  | @handle σ' es e _ _ ih =>
    obtain ⟨texts, htexts, hsub⟩ := ih
    refine ⟨texts ++ (σ'.page.handle e).2.filterMap PageEffect.data, ?_, ?_⟩
    · rw [handle_written, htexts, List.append_assoc]
    · rw [PageEvent.filterMap_clip, List.filter_append, handle_data]
      apply hsub.append
      split_ifs
      · exact .refl _
      · exact List.nil_sublist _
  | appear _ ih => exact ih

theorem handle_on {e : PageEvent} {page : IndexPage} (hon : page.fields.clipboardSync = true)
    (he : e.disables = false) : (page.handle e).1.fields.clipboardSync = true := by
  cases e with
  | connect =>
    rw [IndexPage.handle, onConnect_fields]
    exact hon
  | clipboardSync isOn =>
    cases isOn with
    | false => cases he
    | true => rfl
  | permission granted =>
    cases granted with
    | false => cases he
    | true => exact hon
  | paste text =>
    simp only [IndexPage.handle, IndexPage.onPasteButtonClick]
    split
    · exact hon
    · split
      · exact hon
      · rfl
  | prefsRead prefs =>
    rw [IndexPage.handle, onPrefs_fields]
    simpa [PageEvent.disables] using he
  | _ => exact hon

/-- With the switch on, and never turned off, all of them are written. -/
theorem written_on {σ σ' : Launch} {es : List PageEvent} (h : Run σ es σ')
    (hon : σ.page.fields.clipboardSync = true) (hes : ∀ e ∈ es, e.disables = false) :
    σ'.page.fields.clipboardSync = true ∧
      σ'.written = σ.written ++ (es.filterMap PageEvent.clip).filter (! ·.isEmpty) := by
  induction h with
  | nil => exact ⟨hon, (List.append_nil _).symm⟩
  | @handle σ' es e _ _ ih =>
    obtain ⟨hstill, hwritten⟩ := ih fun e' he' => hes e' (List.mem_append_left _ he')
    refine ⟨?_, ?_⟩
    · rw [handle_page]
      exact handle_on hstill (hes e (by simp))
    · rw [handle_written, hwritten, handle_data, if_pos hstill, PageEvent.filterMap_clip,
        List.filter_append, List.append_assoc]
  | appear _ ih => exact ih hes

/-- Each write to the pasteboard was made as a text of the carrier came. -/
theorem writes_run {prefs : Option ConnectPage} {es : List PageEvent} {σ : Launch}
    (h : Run { prefs := prefs } es σ) {pre post : List Bytes} {text : Bytes}
    (hsplit : σ.written = pre ++ text :: post) :
    ∃ before after σ₁, es = before ++ .bgClip text :: after ∧ Run { prefs := prefs } before σ₁ ∧
      σ₁.written = pre ∧ (σ₁.handle (.bgClip text)).written = pre ++ [text] ∧ text ≠ [] := by
  have hone (e : PageEvent) (σ : Launch) : (σ.page.handle e).2.filterMap PageEffect.data = [] ∨
      ∃ text, (σ.page.handle e).2.filterMap PageEffect.data = [text] := by
    rw [handle_data]
    cases e.clip with
    | none => simp
    | some value => cases σ.page.fields.clipboardSync <;> cases value <;> simp
  obtain ⟨before, e, after, σ₁, hes, hrun, hpre, hwritten⟩ :=
    h.emitted handle_written (fun _ => rfl) hone rfl hsplit
  have hmem : text ∈ if σ₁.page.fields.clipboardSync then e.clip.toList.filter (! ·.isEmpty)
      else [] := by
    rw [← handle_data, hwritten]
    exact List.mem_singleton.mpr rfl
  split_ifs at hmem
  · obtain ⟨hclip, hne⟩ := List.mem_filter.mp hmem
    cases e with
    | bgClip value =>
      obtain rfl : text = value := by simpa [PageEvent.clip] using hclip
      exact ⟨before, after, σ₁, hes, hrun, hpre, by rw [handle_written, hpre, hwritten],
        by simpa using hne⟩
    | _ => simp [PageEvent.clip] at hclip
  · cases hmem

/-- Whatever is pushed was read of the pasteboard by the event that pushed it, is no echo of
the text that had come last from the carrier, and is not empty; whatever is written to the
pasteboard came from the carrier in the event that wrote it. -/
theorem clipboard_run {prefs : Option ConnectPage} {es : List PageEvent} {σ : Launch}
    (h : Run { prefs := prefs } es σ) :
    (∀ pre text post, σ.pushes = pre ++ text :: post →
      ∃ before e after σ₁, es = before ++ e :: after ∧ Run { prefs := prefs } before σ₁ ∧
        σ₁.pushes = pre ∧ (σ₁.handle e).pushes = pre ++ [text] ∧
        (e = .paste text ∨ e = .pasteboardUpdate text) ∧ text ≠ [] ∧ text ≠ lastRemote before) ∧
    ∀ pre text post, σ.written = pre ++ text :: post →
      ∃ before after σ₁, es = before ++ .bgClip text :: after ∧ Run { prefs := prefs } before σ₁ ∧
        σ₁.written = pre ∧ (σ₁.handle (.bgClip text)).written = pre ++ [text] ∧ text ≠ [] :=
  ⟨fun _ _ _ hsplit => pushes_run h hsplit, fun _ _ _ hsplit => writes_run h hsplit⟩

/-- A text arrives, the pasteboard reports it, and the user copies another. -/
theorem clipboard_run_copied :
    let es : List PageEvent := [.bgClip (ascii "far"), .pasteboardUpdate (ascii "far"),
      .pasteboardUpdate (ascii "near")]
    let σ := ((({} : Launch).handle (.bgClip (ascii "far"))).handle
      (.pasteboardUpdate (ascii "far"))).handle (.pasteboardUpdate (ascii "near"))
    σ.pushes = [ascii "near"] ∧ ∃ before e after σ₁, es = before ++ e :: after ∧
      Run { prefs := none } before σ₁ ∧ (σ₁.handle e).pushes = [ascii "near"] ∧
      (e = .paste (ascii "near") ∨ e = .pasteboardUpdate (ascii "near")) := by
  intro es σ
  have hrun : Run { prefs := none } es σ :=
    .handle (.pasteboardUpdate (ascii "near")) (.handle (.pasteboardUpdate (ascii "far"))
      (.handle (.bgClip (ascii "far")) (.nil { prefs := none }) trivial) trivial) trivial
  have hpushes : σ.pushes = [ascii "near"] := by decide +kernel
  obtain ⟨before, e, after, σ₁, hes, hbefore, -, hpushed, hread, -⟩ :=
    (clipboard_run hrun).1 [] (ascii "near") [] hpushes
  exact ⟨hpushes, before, e, after, σ₁, hes, hbefore, hpushed, hread⟩

/-- With the switch off no handler pushes or turns it on. -/
theorem handle_off {e : PageEvent} {page : IndexPage} (hoff : page.fields.clipboardSync = false)
    (he : e.enables = false) : (page.handle e).1.fields.clipboardSync = false ∧
      pushesOf (page.handle e).2 = [] := by
  cases e with
  | connect =>
    refine ⟨?_, (onConnect_clipboard page).1⟩
    rw [IndexPage.handle, onConnect_fields]
    exact hoff
  | bgClip value =>
    refine ⟨hoff, ?_⟩
    simp [IndexPage.handle, IndexPage.onBgClip, IndexPage.setSystemClipboard, hoff, pushesOf]
  | clipboardSync isOn =>
    cases isOn with
    | false => exact ⟨rfl, rfl⟩
    | true => cases he
  | permission granted =>
    cases granted with
    | false => exact ⟨rfl, rfl⟩
    | true => exact ⟨hoff, rfl⟩
  | paste text => cases he
  | pasteboardUpdate text =>
    refine ⟨hoff, ?_⟩
    simp [IndexPage.handle, IndexPage.onUpdate, hoff, pushesOf]
  | prefsRead prefs =>
    refine ⟨?_, (onPrefs_clipboard prefs page).1⟩
    rw [IndexPage.handle, onPrefs_fields]
    exact he
  | _ => exact ⟨hoff, rfl⟩

/-- Once the switch is off, also by a permission refused, nothing is pushed and nothing
written until it is turned on, the paste button used or the preferences read. -/
theorem clipboard_off {σ σ' : Launch} {es : List PageEvent} (h : Run σ es σ')
    (hoff : σ.page.fields.clipboardSync = false) (hes : ∀ e ∈ es, e.enables = false) :
    σ'.page.fields.clipboardSync = false ∧ σ'.pushes = σ.pushes ∧ σ'.written = σ.written := by
  induction h with
  | nil => exact ⟨hoff, rfl, rfl⟩
  | handle e _ hawaits ih =>
    obtain ⟨hstill, hpushes, hwritten⟩ := ih fun e' he' => hes e' (List.mem_append_left _ he')
    obtain ⟨hoff', hnone⟩ := handle_off hstill (hes e (by simp))
    refine ⟨?_, ?_, ?_⟩
    · rw [handle_page]
      exact hoff'
    · rw [handle_pushes, hnone, List.append_nil]
      exact hpushes
    · rw [handle_written, handle_data, if_neg (by simp [hstill]), List.append_nil]
      exact hwritten
  | appear _ ih => exact ih hes

/-- The user refuses the permission, and then copies a text. -/
theorem clipboard_off_refused :
    let σ := (({} : Launch).handle (.clipboardSync true)).handle (.permission false)
    let σ' := σ.handle (.pasteboardUpdate (ascii "text"))
    σ'.page.fields.clipboardSync = false ∧ σ'.pushes = σ.pushes ∧ σ'.written = σ.written :=
  clipboard_off (.handle (.pasteboardUpdate (ascii "text")) (.nil _) trivial) rfl
    (by simp [PageEvent.enables])

end Launch

end Deskflow
