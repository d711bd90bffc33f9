import Deskflow.ClipboardRoundTrip
import Deskflow.Turns

/-! The text last synchronised, which the client records, and uploads of it. -/

namespace Deskflow

open History DeskflowClient

/-- How many payloads of a sequence are written, up to the first that fails. -/
def SocketStream.taken : List Bytes → SocketStream → Nat
  | [], _ => 0
  | p :: ps, s => if (s.writeFrame p).1 then taken ps (s.writeFrame p).2 + 1 else 0

theorem SocketStream.taken_le (ps : List Bytes) (s : SocketStream) : s.taken ps ≤ ps.length := by
  induction ps generalizing s with
  | nil => exact Nat.le_refl 0
  | cons p ps ih =>
    rw [taken]
    split_ifs
    · exact Nat.succ_le_succ (ih _)
    · exact Nat.zero_le _

namespace DeskflowClient

theorem write_frames (o : Outgoing) (c : DeskflowClient) :
    (c.write o).2.frames =
      if (c.stream.writeFrame o.payload).1 then c.frames ++ [o] else c.frames := by
  split_ifs with hok
  · exact (sent_write (o := o) hok).frames
  · have hsame : (c.write o).2 = { c with stream := (c.stream.writeFrame o.payload).2 } :=
      if_neg hok
    rw [hsame]
    rfl

theorem writeAll_frames (os : List Outgoing) (c : DeskflowClient) :
    (c.writeAll os).2.frames =
      c.frames ++ os.take (c.stream.taken (os.map Outgoing.payload)) := by
  induction os generalizing c with
  | nil => exact (List.append_nil _).symm
  | cons o os ih =>
    have hframes := write_frames o c
    have hstream := write_stream o c
    have hok : (c.write o).1 = (c.stream.writeFrame o.payload).1 := rfl
    rw [writeAll, List.map_cons, SocketStream.taken]
    rcases hw : c.write o with ⟨ok, c'⟩
    rw [hw] at hframes hstream hok
    dsimp only at hframes hstream hok
    subst hok
    rcases hone : (c.stream.writeFrame o.payload).1 with _ | _
    · simp only [hone, Bool.false_eq_true, if_false] at hframes ⊢
      rw [hframes, List.take_zero, List.append_nil]
    · simp only [hone, if_true] at hframes ⊢
      rw [ih, hframes, hstream, List.take_succ_cons, List.append_assoc, List.singleton_append]

/-- What a call writes that passes its test: the grab, if the socket takes it, and
as much of the transfer as it takes after that. -/
theorem pushClipboard_frames {c : DeskflowClient} (hsync : c.clipboardSync = true)
    (hdone : c.handshakeDone = true) {text : Bytes} (htext : text ≠ []) :
    (c.pushClipboard text).frames =
      c.frames ++ (if (c.stream.writeFrame (Outgoing.cclp 0 c.seqNum).payload).1 then
          [.cclp 0 c.seqNum] else []) ++
        (transferFrames c.seqNum text).take
          ((c.stream.writeFrame (Outgoing.cclp 0 c.seqNum).payload).2.taken
            ((transferFrames c.seqNum text).map Outgoing.payload)) := by
  have hempty : text.isEmpty = false := by simpa using htext
  have hgrab : c.grabClipboard = c.write (.cclp 0 c.seqNum) := by
    rw [grabClipboard, hdone]
    rfl
  have hspares := spares_write (.cclp 0 c.seqNum) c
  have hseq : (c.write (.cclp 0 c.seqNum)).2.seqNum = c.seqNum := by
    unfold write
    dsimp only
    split_ifs <;> rfl
  have hframes := write_frames (.cclp 0 c.seqNum) c
  have hstream := write_stream (.cclp 0 c.seqNum) c
  have hpush : c.pushClipboard text = ({ (c.write (.cclp 0 c.seqNum)).2 with
      lastClipboardText := text }.writeAll
        (transferFrames (c.write (.cclp 0 c.seqNum)).2.seqNum text)).2 := by
    rw [pushClipboard, if_neg (by simp [hsync, hdone, hempty]), hgrab,
      sendClipboard_of_done (hspares.handshakeDone.trans hdone) htext]
  rw [hpush, hseq, writeAll_frames]
  generalize (c.write (.cclp 0 c.seqNum)).2 = d at hframes hstream
  have hsame : { d with lastClipboardText := text }.frames = d.frames := rfl
  rw [hsame, hframes, hstream]
  split_ifs
  · rfl
  · rw [List.append_nil]

theorem pushClipboard_of_guard {c : DeskflowClient} {text : Bytes}
    (h : text = [] ∨ c.clipboardSync = false ∨ c.handshakeDone = false) :
    c.pushClipboard text = c := by
  refine if_pos ?_
  rcases h with h | h | h <;> simp [h]

/-- An upload of the text last synchronised writes nothing; an upload of another
text writes all of its frames, if the setting is on and the runtime phase has begun. -/
def EchoSuppressed (last : Option Bytes) (text : Bytes) (c : DeskflowClient) : Prop :=
  (last = some text → (c.pushClipboard text).frames = c.frames) ∧
    (last ≠ some text → text ≠ [] → c.clipboardSync = true → c.handshakeDone = true →
      (c.pushClipboard text).frames = c.frames ++ Upload.frames ⟨c.seqNum, c.seqNum, text⟩)

def Refuses (text : Bytes) (c : DeskflowClient) : Prop :=
  (c.stream.writeFrame (Outgoing.cclp 0 c.seqNum).payload).1 = false ∧
    (c.stream.writeFrame (Outgoing.cclp 0 c.seqNum).payload).2.taken
      ((transferFrames c.seqNum text).map Outgoing.payload) = 0

def Takes (text : Bytes) (c : DeskflowClient) : Prop :=
  c.stream.taken ((Upload.frames ⟨c.seqNum, c.seqNum, text⟩).map Outgoing.payload) =
    (Upload.frames ⟨c.seqNum, c.seqNum, text⟩).length

section Passed

theorem frames_silent_iff {fs os : List Outgoing} (hos : os ≠ []) (o : Outgoing) (ok : Bool)
    (n : Nat) : fs ++ (if ok then [o] else []) ++ os.take n = fs ↔ ok = false ∧ n = 0 := by
  rw [List.append_assoc, List.append_right_eq_self, List.append_eq_nil_iff, List.take_eq_nil_iff]
  cases ok <;> simp [hos]

theorem frames_complete_iff {fs os : List Outgoing} {n : Nat} (hle : n ≤ os.length)
    (o : Outgoing) (ok : Bool) : fs ++ (if ok then [o] else []) ++ os.take n = fs ++ o :: os ↔
      (if ok then n + 1 else 0) = os.length + 1 := by
  rw [List.append_assoc, List.append_cancel_left_eq]
  cases ok with
  | true =>
    simp only [if_true, List.singleton_append, List.cons_inj_right, List.take_eq_self_iff]
    omega
  | false =>
    refine iff_of_false (fun h => ?_) (Nat.zero_ne_add_one _)
    have hlen := congrArg List.length h
    simp only [Bool.false_eq_true, if_false, List.nil_append, List.length_take,
      List.length_cons] at hlen
    omega

variable {text : Bytes} {c : DeskflowClient}

theorem pushClipboard_silent_iff (hsync : c.clipboardSync = true) (hdone : c.handshakeDone = true)
    (htext : text ≠ []) : (c.pushClipboard text).frames = c.frames ↔ c.Refuses text := by
  have hstart : transferFrames c.seqNum text ≠ [] := by
    rw [transferFrames]
    exact List.append_ne_nil_of_right_ne_nil _ (List.cons_ne_nil _ _)
  rw [pushClipboard_frames hsync hdone htext]
  exact frames_silent_iff hstart _ _ _

theorem pushClipboard_complete_iff (hsync : c.clipboardSync = true)
    (hdone : c.handshakeDone = true) (htext : text ≠ []) :
    (c.pushClipboard text).frames = c.frames ++ Upload.frames ⟨c.seqNum, c.seqNum, text⟩ ↔
      c.Takes text := by
  have hle := (c.stream.writeFrame (Outgoing.cclp 0 c.seqNum).payload).2.taken_le
    ((transferFrames c.seqNum text).map Outgoing.payload)
  rw [List.length_map] at hle
  rw [pushClipboard_frames hsync hdone htext]
  exact frames_complete_iff hle _ _

end Passed

theorem echoSuppressed_iff_takes (last : Option Bytes) (text : Bytes) (c : DeskflowClient) :
    EchoSuppressed last text c ↔
      text = [] ∨ c.clipboardSync = false ∨ c.handshakeDone = false ∨
        if last = some text then c.Refuses text else c.Takes text := by
  by_cases hguard : text = [] ∨ c.clipboardSync = false ∨ c.handshakeDone = false
  · refine iff_of_true ⟨fun _ => by rw [pushClipboard_of_guard hguard], ?_⟩
      (hguard.imp_right fun h => h.imp_right .inl)
    intro _ htext hsync hdone
    simp [htext, hsync, hdone] at hguard
  · simp only [not_or, Bool.not_eq_false] at hguard
    obtain ⟨htext, hsync, hdone⟩ := hguard
    simp only [EchoSuppressed, htext, hsync, hdone, ne_eq, not_false_eq_true, true_imp_iff,
      Bool.true_eq_false, false_or, pushClipboard_silent_iff hsync hdone htext,
      pushClipboard_complete_iff hsync hdone htext]
    split_ifs with hlast
    · simp [hlast]
    · simp [hlast]

theorem MouseOnly.lastClipboardText {c c' : DeskflowClient} (h : MouseOnly c c') :
    c'.lastClipboardText = c.lastClipboardText := by
  rw [h.rest]

theorem KeyOnly.lastClipboardText {c c' : DeskflowClient} (h : KeyOnly c c') :
    c'.lastClipboardText = c.lastClipboardText := by
  rw [h.rest]

theorem write_lastClipboardText (o : Outgoing) (c : DeskflowClient) :
    (c.write o).2.lastClipboardText = c.lastClipboardText := by
  unfold write
  dsimp only
  split_ifs <;> rfl

/-- From one state to the other the given texts were synchronised, and the last
of them is recorded. -/
structure Synchronises (ts : List Bytes) (c c' : DeskflowClient) : Prop where
  texts : c'.texts = c.texts ++ ts
  recorded : c'.lastClipboardText = ts.getLastD c.lastClipboardText

theorem Synchronises.none {c c' : DeskflowClient} (htexts : c'.texts = c.texts)
    (hlast : c'.lastClipboardText = c.lastClipboardText) : Synchronises [] c c' :=
  ⟨htexts.trans (List.append_nil _).symm, hlast⟩

theorem clipboardEnd_synchronises (c : DeskflowClient) :
    ∃ ts, Synchronises ts c c.clipboardEnd := by
  unfold clipboardEnd
  split_ifs
  · exact ⟨[], .none rfl rfl⟩
  · dsimp only
    split_ifs
    · exact ⟨[unmarshalText c.clipChunk.buffer], List.filterMap_append, rfl⟩
    · exact ⟨[], .none rfl rfl⟩

theorem perform_synchronises (m : Message) (c : DeskflowClient) :
    ∃ ts, Synchronises ts c (c.perform m).2 := by
  by_cases hkey : m.key = .DCLP
  · cases m with
    | dclp id seq mark data =>
      simp only [perform]
      split_ifs
      · refine ⟨[], .none ?_ ?_⟩ <;>
          · unfold clipboardStart
            dsimp only
            split_ifs <;> rfl
      · refine ⟨[], .none ?_ ?_⟩ <;>
          · unfold clipboardChunk
            split_ifs <;> rfl
      · exact clipboardEnd_synchronises c
      · exact ⟨[], .none rfl rfl⟩
    | _ => cases hkey
  · have htexts : (c.perform m).2.texts = c.texts := by
      by_cases hset : m.key = .DSOP
      · cases m with
        | dsop options => rfl
        | _ => cases hset
      · exact (perform_spares hkey hset c).texts
    refine ⟨[], .none htexts ?_⟩
    cases m with
    | qinf => exact write_lastClipboardText _ c
    | calv => exact write_lastClipboardText _ c
    | cinn x y seq mask =>
      simp only [perform, enterScreen]
      split
      · exact (syncModifiers_keyOnly _ _).lastClipboardText
      · exact (syncModifiers_keyOnly _ _).lastClipboardText
    | cout =>
      exact (releaseButtons_mouseOnly c.mouseButtonsDown.entries
        { c with active := false }).lastClipboardText
    | dmdn button => exact (injectMouseButton_mouseOnly _ _ c).lastClipboardText
    | dmup button => exact (injectMouseButton_mouseOnly _ _ c).lastClipboardText
    | dmwm xDelta yDelta => exact (injectMouseWheel_mouseOnly _ _ c).lastClipboardText
    | dkdn id mask button => exact (pressKey_keyOnly id mask c).lastClipboardText
    | dkup id mask button => exact (releaseKey_keyOnly id mask c).lastClipboardText
    | dkrp id mask count button lang => exact (pressKey_keyOnly id mask c).lastClipboardText
    | dkdl id mask button lang => exact (pressKey_keyOnly id mask c).lastClipboardText
    | dclp id seq mark data => exact absurd rfl hkey
    | _ => rfl

theorem answerHello_lastClipboardText (protocolName : Bytes) (major minor : Int16)
    (c : DeskflowClient) : (c.answerHello protocolName major minor).2.lastClipboardText =
      c.lastClipboardText := by
  unfold answerHello
  split_ifs
  · rfl
  · exact write_lastClipboardText _ c
  · exact write_lastClipboardText _ c

theorem handshake_lastClipboardText (c : DeskflowClient) :
    c.handshake.2.lastClipboardText = c.lastClipboardText := by
  obtain ⟨s, -, -, he⟩ := c.handshake_eq
  rw [he]
  split
  · exact answerHello_lastClipboardText _ _ _ _
  · rfl

theorem acknowledge_lastClipboardText (r : Bool × DeskflowClient) :
    (acknowledge r).2.lastClipboardText = r.2.lastClipboardText := by
  unfold acknowledge
  split_ifs
  · exact write_lastClipboardText .cnop r.2
  · rfl

theorem receive_synchronises (c : DeskflowClient) : ∃ ts, Synchronises ts c c.receive.2 := by
  obtain ⟨s, -, -, he⟩ := c.receive_eq_digest
  rw [he]
  cases c.stream.view.arrival.1 with
  | lost =>
    simp only [digest, deliver]
    split_ifs <;> exact ⟨[], .none (List.filterMap_append.trans (List.append_nil _)) rfl⟩
  | short => exact ⟨[], .none rfl rfl⟩
  | unknown key =>
    refine ⟨[], .none ?_ rfl⟩
    simp [digest, deliver, texts, emit, setStatus, World.emit, Event.clipboardText]
  | failed key =>
    refine ⟨[], .none ?_ rfl⟩
    simp [digest, deliver, texts, emit, World.emit, Event.clipboardText]
  | message key m =>
    obtain ⟨ts, htexts, hlast⟩ :=
      perform_synchronises m ({ c with stream := s }.emit (.dispatched key))
    have hmark (e : Event) (he : e.clipboardText = none) (c : DeskflowClient) :
        (c.emit e).texts = c.texts := by
      simp [texts, emit, World.emit, he]
    refine ⟨ts, ?_, hlast⟩
    exact (hmark (.handled m) rfl _).trans (htexts.trans
      (congrArg (· ++ ts) (hmark (.dispatched key) rfl { c with stream := s })))

end DeskflowClient

namespace System

/-- The texts that a step synchronises: a text whose transfer begins, or the
texts delivered. -/
def synced (σ : System) : Action → List Bytes
  | .upload =>
    match σ.push with
    | some (.send text) => if !σ.client.handshakeDone || text.isEmpty then [] else [text]
    | _ => []
  | a => (σ.step a).client.texts.drop σ.client.texts.length

def syncedTexts : List Action → System → List Bytes
  | [], _ => []
  | a :: actions, σ => σ.synced a ++ syncedTexts actions (σ.step a)

theorem work_lastClipboardText {σ : System} (h : σ.phase ≠ .looping) (conn : Connection) :
    (σ.work conn).client.lastClipboardText = σ.client.lastClipboardText := by
  obtain ⟨c, phase, push⟩ := σ
  cases phase with
  | idle => rfl
  | ready =>
    simp only [work]
    split_ifs
    · rw [finish_eq]
      rfl
    · rfl
    · rfl
  | greeting =>
    simp only [work]
    split_ifs
    · exact handshake_lastClipboardText c
    · exact handshake_lastClipboardText c
  | looping => exact absurd rfl h
  | answering keepGoing => exact acknowledge_lastClipboardText (keepGoing, c)
  | closing => rfl
  | leaving again =>
    have hretry : (retry (again, c)).2.lastClipboardText = c.lastClipboardText := by
      rw [retry_eq]
    simp only [work]
    split_ifs
    · exact hretry
    · rw [finish_eq]
      exact hretry

theorem work_synchronises (conn : Connection) (σ : System) :
    ∃ ts, Synchronises ts σ.client (σ.work conn).client := by
  by_cases hphase : σ.phase = .looping
  · rw [work_of_looping hphase]
    split_ifs
    · exact ⟨[], .none rfl rfl⟩
    · obtain ⟨ts, htexts, hlast⟩ := receive_synchronises σ.client.loadStop.2
      exact ⟨ts, htexts, hlast⟩
  · have hpassive := (work_moves conn σ).passive (work_handled hphase conn)
      (work_pointer hphase conn)
    refine ⟨[], .none (hpassive.unobserved.filterMap_eq fun e he => ?_)
      (work_lastClipboardText hphase conn)⟩
    cases e <;> simp_all [Event.isObserved, Event.clipboardText]

theorem step_lastClipboardText (σ : System) (a : Action) :
    (σ.step a).client.lastClipboardText =
      (σ.synced a).getLastD σ.client.lastClipboardText := by
  have hsame {a : Action} (htexts : (σ.step a).client.texts = σ.client.texts)
      (hlast : (σ.step a).client.lastClipboardText = σ.client.lastClipboardText) :
      (σ.step a).client.lastClipboardText =
        ((σ.step a).client.texts.drop σ.client.texts.length).getLastD
          σ.client.lastClipboardText := by
    rw [hlast, htexts, List.drop_length]
    rfl
  cases a with
  | work conn =>
    obtain ⟨ts, htexts, hlast⟩ := work_synchronises conn σ
    rw [synced, step, hlast, htexts, List.drop_left]
    simp
  | upload =>
    obtain ⟨c, phase, push⟩ := σ
    simp only [step, upload, synced]
    rcases push with _ | ⟨text⟩ | ⟨text⟩ | ⟨_ | ⟨o, os⟩⟩
    · rfl
    · unfold grabClipboard
      dsimp only
      split_ifs
      · rfl
      · exact write_lastClipboardText _ c
    · dsimp only
      split_ifs <;> rfl
    · rfl
    · exact write_lastClipboardText o c
  | push text =>
    refine hsame ?_ ?_ <;>
      · simp only [step, beginPush]
        split_ifs <;> rfl
  | start host port screenName =>
    refine hsame ?_ ?_ <;>
      · simp only [step, start, DeskflowClient.start]
        split_ifs <;> rfl
  | call k =>
    cases k with
    | setClipboardSync enable =>
      exact hsame (List.filterMap_append.trans (List.append_nil _)) rfl
    | _ => exact hsame rfl rfl

/-- In every run the text recorded is the one last synchronised. -/
theorem lastClipboardText_run (actions : List Action) (σ : System) :
    (σ.run actions).client.lastClipboardText =
      (syncedTexts actions σ).getLastD σ.client.lastClipboardText := by
  induction actions generalizing σ with
  | nil => rfl
  | cons a actions ih =>
    have hrest := ih (σ.step a)
    rw [step_lastClipboardText] at hrest
    rw [List.getLastD_eq_getLast?, List.getLastD_eq_getLast?] at hrest
    rw [syncedTexts, List.getLastD_eq_getLast?, List.getLast?_append, Option.getD_or]
    exact hrest

/-- In every run an upload of the text last synchronised writes nothing, and one of
another text everything, exactly if it does not pass the test of the call or if
the socket refuses the one and takes the other. -/
theorem echoSuppressed_iff (injections : List InjectOutcome) (actions : List Action)
    (text : Bytes) :
    EchoSuppressed (syncedTexts actions (initial injections)).getLast? text
        ((initial injections).run actions).client ↔
      text = [] ∨ ((initial injections).run actions).client.clipboardSync = false ∨
        ((initial injections).run actions).client.handshakeDone = false ∨
        if (syncedTexts actions (initial injections)).getLast? = some text then
          ((initial injections).run actions).client.Refuses text
        else ((initial injections).run actions).client.Takes text :=
  echoSuppressed_iff_takes _ _ _

/-- The server's text is uploaded again. -/
theorem not_echoSuppressed : ¬∀ (injections : List InjectOutcome) (actions : List Action)
    (text : Bytes), EchoSuppressed (syncedTexts actions (initial injections)).getLast? text
      ((initial injections).run actions).client := by
  intro hsuppressed
  let actions := serving [.dsop [], .dclp 0 1 1 (ascii "14"),
    .dclp 0 1 2 (marshalText (ascii "hi")), .dclp 0 1 3 []] 10
  have hlast : (syncedTexts actions (initial [])).getLast? = some (ascii "hi") := by
    decide +kernel
  have hsilent := (hsuppressed [] actions (ascii "hi")).1 hlast
  revert hsilent
  decide +kernel

end System

end Deskflow
