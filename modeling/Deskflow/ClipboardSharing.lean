import Deskflow.SharedClipboard

/-! The clipboards of the desktop and of the server, kept equal over every sequence of
changes. -/

namespace Deskflow

open History DeskflowClient

namespace Exchange

variable {getString : Bytes → Bytes} {σ : Exchange}

theorem getString_ne_nil (hget : FillsBuffer getString) {text : Bytes} (hne : text ≠ []) :
    getString text ≠ [] ∧ (getString text).length < 1024 * 1024 := by
  rcases Nat.lt_or_ge text.length (1024 * 1024) with hlt | hge
  · rw [hget.fits text hlt]
    exact ⟨hne, hlt⟩
  · exact hget.cuts text hge

/-- The server gets what the buffer holds. -/
theorem pushRequest_live (hget : FillsBuffer getString) (h : Live σ) {text : Bytes}
    (hne : text ≠ []) :
    Live (σ.pushRequest getString text) ∧
      (σ.pushRequest getString text).pasteboard = σ.pasteboard ∧
      (σ.pushRequest getString text).server = getString text := by
  obtain ⟨hpage, kept, hclient⟩ := h
  obtain ⟨hget', hlen⟩ := getString_ne_nil hget hne
  have hempty : text.isEmpty = false := by simpa using hne
  have hsync : Sharing [] kept (σ.client.setClipboardSync true) :=
    ⟨⟨hclient.view, rfl, hclient.assembled⟩,
      ⟨hclient.ready.connected, hclient.ready.accepting⟩, hclient.runtime, hclient.unstopped⟩
  have huploads : (σ.client.setClipboardSync true).uploads = σ.client.uploads :=
    congrArg (List.filterMap _) (frames_emit rfl { σ.client with clipboardSync := true })
  obtain ⟨hpushed, hsent⟩ := hsync.pushClipboard hget' (by omega)
  rw [pushRequest, if_neg (by simp [hempty])]
  refine ⟨⟨hpage, kept, hpushed⟩, rfl, ?_⟩
  dsimp only
  rw [hsent, huploads, List.drop_left, received_uploadMessages (by omega), Option.getD_some]

theorem update_eq (h : Live σ) : σ.update getString =
    if σ.pasteboard = [] ∨ σ.pasteboard = σ.page.lastRemoteClipboard then σ
    else σ.pushRequest getString σ.pasteboard := by
  rw [update, if_pos h.page, pushLocalClipboard, if_neg (by simp [h.page])]
  by_cases hsame : σ.pasteboard = [] ∨ σ.pasteboard = σ.page.lastRemoteClipboard
  · rw [if_pos hsame, if_neg]
    rcases hsame with hsame | hsame <;> simp [hsame]
  · rw [if_neg hsame, if_pos]
    simpa using hsame

/-- A text from the server goes to the pasteboard and no further. -/
theorem clipboardData_live (h : Live σ) {value : Bytes} (hne : value ≠ []) :
    σ.clipboardData getString value = { σ with
      page := { σ.page with lastRemoteClipboard := value }
      pasteboard := value } := by
  have hempty : value.isEmpty = false := by simpa using hne
  have hlive : Live { σ with
      page := { σ.page with lastRemoteClipboard := value }
      pasteboard := value } := ⟨h.page, h.client⟩
  rw [clipboardData, if_neg (by simp [hempty]), setSystemClipboard,
    if_neg (by simp [h.page, hempty]), update_eq hlive, if_pos (.inr rfl)]

theorem serverSends_live (h : Live σ) (t : ServerText) :
    Live (σ.serverSends getString t) ∧
      (σ.serverSends getString t).client.uploads = σ.client.uploads ∧
      (σ.serverSends getString t).server = t.text ∧
      (σ.serverSends getString t).pasteboard =
        if t.text.length + 12 ≤ kProtocolMaxStringLength then t.text else σ.pasteboard := by
  obtain ⟨hpage, kept, hclient⟩ := h
  let ready := { σ.client with stream := { σ.client.stream with recvs := [.data t.bytes] } }
  have hview : ready.stream.view = ⟨[], t.bytes ++ []⟩ := by
    have hbuf : σ.client.stream.buffer.unread = [] := congrArg View.buf hclient.view
    have hrecv : arriving ready.stream.recvs = t.bytes ++ [] :=
      (arriving_data t.bytes).trans (List.append_nil _).symm
    rw [SocketStream.view, if_pos hclient.ready.connected, hrecv]
    exact congrArg (View.mk · _) hbuf
  have hready : Sharing (t.bytes ++ []) kept ready :=
    ⟨⟨hview, hclient.sync, hclient.assembled⟩,
      ⟨hclient.ready.connected, hclient.ready.accepting⟩, hclient.runtime, hclient.unstopped⟩
  obtain ⟨⟨kept', hlast⟩, htexts, huploads⟩ := hready.loopFor t.wellFormed
  have hdeliveries := deliveries_transfer t.nonempty t.short t.container t.id t.seq kept
  change deliveries kept t.messages = _ at hdeliveries
  have hnew : (ready.loopFor t.messages.length).texts.drop σ.client.texts.length =
      if t.text.length + 12 ≤ kProtocolMaxStringLength then [t.text] else [] := by
    have hold : ready.texts = σ.client.texts := rfl
    rw [htexts, hold, List.drop_left, hdeliveries]
  have hsends : σ.serverSends getString t =
      (if t.text.length + 12 ≤ kProtocolMaxStringLength then [t.text] else []).foldl
        (fun σ value => σ.clipboardData getString value)
        { σ with client := ready.loopFor t.messages.length, server := t.text } := by
    rw [← hnew]
    rfl
  have hlive : Live { σ with client := ready.loopFor t.messages.length, server := t.text } :=
    ⟨hpage, kept', hlast⟩
  rw [hsends]
  split_ifs
  · rw [List.foldl_cons, List.foldl_nil, clipboardData_live hlive t.nonempty]
    exact ⟨⟨hpage, kept', hlast⟩, huploads, rfl, rfl⟩
  · exact ⟨hlive, huploads, rfl, rfl⟩

theorem userCopies_live (hget : FillsBuffer getString) (h : Live σ) {text : Bytes}
    (hne : text ≠ []) :
    Live (σ.userCopies getString text) ∧ (σ.userCopies getString text).pasteboard = text ∧
      (σ.userCopies getString text).server =
        if text = σ.page.lastRemoteClipboard then σ.server else getString text := by
  have hcopied : Live { σ with pasteboard := text } := ⟨h.page, h.client⟩
  rw [userCopies, update_eq hcopied]
  by_cases hsame : text = σ.page.lastRemoteClipboard
  · rw [if_pos (.inr hsame), if_pos hsame]
    exact ⟨hcopied, rfl, rfl⟩
  · rw [if_neg (by simp [hne, hsame]), if_neg hsame]
    exact pushRequest_live hget hcopied hne

variable (getString) in
/-- After the change the clipboards are equal, and a text of the server is not sent
back to it. -/
def Agrees (σ : Exchange) (e : Change) : Prop :=
  (σ.step getString e).pasteboard = (σ.step getString e).server ∧
    ∀ t, e = .server t → (σ.step getString e).client.uploads = σ.client.uploads

/-- A text of the server is within the limit or copied already. A copy of the text
that it sent last finds it still there, and any other copy fits the buffer. -/
def Harmless (σ : Exchange) : Change → Prop
  | .server t => t.text.length + 12 ≤ kProtocolMaxStringLength ∨ σ.pasteboard = t.text
  | .copy text _ =>
    if text = σ.page.lastRemoteClipboard then σ.server = text else text.length < 1024 * 1024

theorem step_agrees (hget : FillsBuffer getString) (h : Live σ) (e : Change) :
    Live (σ.step getString e) ∧ (Agrees getString σ e ↔ Harmless σ e) := by
  cases e with
  | server t =>
    obtain ⟨hlive, huploads, hserver, hpasteboard⟩ : Live (σ.serverSends getString t) ∧ _ :=
      serverSends_live h t
    refine ⟨hlive, ?_⟩
    have hagrees : Agrees getString σ (.server t) ↔
        (σ.serverSends getString t).pasteboard = (σ.serverSends getString t).server :=
      and_iff_left fun t' ht => huploads
    rw [hagrees, hpasteboard, hserver, Harmless]
    split_ifs with hfits
    · simp [hfits]
    · simp [hfits]
  | copy text hne =>
    obtain ⟨hlive, hpasteboard, hserver⟩ := userCopies_live hget h hne
    refine ⟨hlive, ?_⟩
    have hagrees : Agrees getString σ (.copy text hne) ↔
        (σ.userCopies getString text).pasteboard = (σ.userCopies getString text).server :=
      and_iff_left fun t ht => by cases ht
    rw [hagrees, hpasteboard, hserver, Harmless]
    split_ifs with hsame
    · exact eq_comm
    · constructor
      · intro heq
        by_contra hlong
        have hcut := (hget.cuts text (Nat.not_lt.mp hlong)).2
        rw [← heq] at hcut
        exact hlong hcut
      · exact fun hfits => (hget.fits text hfits).symm

theorem run_live (hget : FillsBuffer getString) (h : Live σ) (changes : List Change) :
    Live (σ.run getString changes) := by
  induction changes generalizing σ with
  | nil => exact h
  | cons e changes ih => exact ih (step_agrees hget h e).1

/-- With synchronisation on, the two clipboards are equal after every change, and no
text is sent back to the server, exactly if each change is harmless. -/
theorem run_agrees_iff (hget : FillsBuffer getString) (h : Live σ) (changes : List Change) :
    Throughout (fun pre e => Agrees getString (σ.run getString pre) e) changes ↔
      Throughout (fun pre e => Harmless (σ.run getString pre) e) changes :=
  forall_congr' fun pre => forall_congr' fun e => forall_congr' fun _ =>
    (step_agrees hget (run_live hget h pre) e).2

def firstBytes (text : Bytes) : Bytes := text.take (1024 * 1024 - 1)

theorem fillsBuffer_firstBytes : FillsBuffer firstBytes := by
  refine ⟨fun text h => List.take_of_length_le (by omega), fun text h => ⟨?_, ?_⟩⟩
  · have hpos : 0 < (firstBytes text).length := by
      rw [firstBytes, List.length_take]
      omega
    exact List.ne_nil_of_length_pos hpos
  · rw [firstBytes, List.length_take]
    omega

def desktop : Exchange :=
  { client := { handshakeDone := true, clipboardSync := true, stream := { connected := true } } }

theorem desktop_live : Live desktop :=
  ⟨rfl, none, ⟨rfl, rfl, rfl⟩, ⟨rfl, by simp [desktop, Accepting]⟩, rfl, by simp [desktop]⟩

def letterA : ServerText :=
  ⟨0, 1, ascii "a", [marshalText (ascii "a")], by decide, by decide, by simp, by decide⟩

/-- A text from the server, and one from the user. -/
theorem run_agrees_ab :
    Throughout (fun pre e => Agrees firstBytes (desktop.run firstBytes pre) e)
      [.server letterA, .copy (ascii "b") (by decide)] := by
  refine (run_agrees_iff fillsBuffer_firstBytes desktop_live _).mpr ?_
  have hfits : letterA.text.length + 12 ≤ kProtocolMaxStringLength := by decide
  have hnew : ascii "b" ≠
      (desktop.run firstBytes [.server letterA]).page.lastRemoteClipboard := by decide +kernel
  have hfirst : Throughout (fun pre e => Harmless (desktop.run firstBytes pre) e)
      ([] ++ [.server letterA]) := throughout_concat.mpr ⟨throughout_nil, .inl hfits⟩
  have hlast : Harmless (desktop.run firstBytes [.server letterA])
      (.copy (ascii "b") (by decide)) := by
    rw [Harmless, if_neg hnew]
    decide
  exact throughout_concat.mpr ⟨hfirst, hlast⟩

/-- The server sends `a`, the user copies `b` and then `a`: the server keeps `b`. -/
theorem not_agrees_aba :
    ¬Throughout (fun pre e => Agrees firstBytes (desktop.run firstBytes pre) e)
      [.server letterA, .copy (ascii "b") (by decide), .copy (ascii "a") (by decide)] := by
  intro h
  have hlast := (h [.server letterA, .copy (ascii "b") (by decide)] (.copy (ascii "a") (by decide))
    (List.prefix_refl _)).1
  exact absurd hlast (by decide +kernel)

end Exchange

end Deskflow
