import Deskflow.Threads

/-! Incoming clipboards: which transfers reach the callback. -/

namespace Deskflow

open History

/-- A transfer under way: the size its `DataStart` announced and the bytes of
the chunks since. -/
structure Transfer where
  announced : Bytes
  received : Bytes
  deriving DecidableEq, Repr

namespace Transfer

/-- As many bytes as announced, by a text that is a number. -/
def Complete (t : Transfer) : Prop := stoull t.announced = some t.received.length

/-- The announced size is not over the limit; a text that is no number counts as zero. -/
def Admitted (t : Transfer) : Prop := (stoull t.announced).getD 0 ≤ kProtocolMaxStringLength

instance (t : Transfer) : Decidable t.Admitted := inferInstanceAs (Decidable (_ ≤ _))

def kept (t : Transfer) : Option Bytes := if t.Admitted then some t.received else none

end Transfer

/-- The transfer under way after one more message. -/
def Message.transfer (t : Option Transfer) : Message → Option Transfer
  | .dclp _ _ mark data =>
    if mark = 1 then some ⟨data, []⟩
    else if mark = 2 then t.map fun t => { t with received := t.received ++ data }
    else if mark = 3 then none
    else t
  | _ => t

def transfer (ms : List Message) : Option Transfer := ms.foldl Message.transfer none

namespace Event

def syncSetting : Event → Option Bool
  | .clipboardSync enable => some enable
  | _ => none

theorem syncSetting_of_not_isClipboard {e : Event} (h : e.isClipboard = false) :
    e.syncSetting = none := by
  cases e <;> simp_all [isClipboard, syncSetting]

theorem syncSetting_of_isEffect {e : Event} (h : e.isEffect) : e.syncSetting = none := by
  cases e <;> simp_all [isEffect, isInternal, syncSetting]

theorem handledMessage_of_isEffect {e : Event} (h : e.isEffect) : e.handledMessage = none := by
  cases e <;> simp_all [isEffect, isInternal, handledMessage]

end Event

/-- The last value given to the setting; it is off at first. -/
def syncIn (log : List Event) : Bool := (log.filterMap Event.syncSetting).getLastD false

/-- Every text is delivered from a complete transfer. -/
def DeliversComplete : List Event → Prop :=
  Throughout fun pre e => ∀ text, e = .clipboard text →
    ∃ t, transfer (handledIn pre) = some t ∧ t.Complete

/-- Every `DataEnd` that meets an admitted transfer with a text, while the
setting is on, meets a complete one. -/
def EndsComplete : List Event → Prop :=
  Throughout fun pre e => ∀ id seq data t, e = .handled (.dclp id seq 3 data) →
    transfer (handledIn pre) = some t → syncIn pre = true → t.Admitted →
      unmarshalText t.received ≠ [] → t.Complete

theorem syncIn_of_grows {p : Event → Prop} {log log' : List Event} (h : Grows p log log')
    (hp : ∀ e, p e → e.syncSetting = none) : syncIn log' = syncIn log := by
  rw [syncIn, h.filterMap_eq hp, ← syncIn]

theorem deliversComplete_of_grows {log log' : List Event}
    (h : Grows (fun e => e.isClipboard = false) log log') :
    DeliversComplete log' ↔ DeliversComplete log :=
  h.throughout_iff fun _ _ he text heq => by simp [heq, Event.isClipboard] at he

theorem endsComplete_of_grows {log log' : List Event}
    (h : Grows (fun e => e.isEffect) log log') : EndsComplete log' ↔ EndsComplete log :=
  h.throughout_iff fun _ _ he id seq data t heq => by
    simp [heq, Event.isEffect, Event.isInternal] at he

/-- The bytes assembled in an active chunk state. -/
def ClipChunkState.assembled (s : ClipChunkState) : Option Bytes :=
  if s.active then some s.buffer else none

namespace DeskflowClient

/-- The client follows the transfer under way and the setting. -/
structure TracksTransfer (c : DeskflowClient) : Prop where
  sync : c.clipboardSync = syncIn c.world.log
  assembled : c.clipChunk.assembled = (transfer c.handled).bind Transfer.kept

namespace TracksTransfer

variable {c c' : DeskflowClient}

theorem spares (h : TracksTransfer c) (hn : Spares c c')
    (ht : transfer c'.handled = transfer c.handled) : TracksTransfer c' := by
  refine ⟨?_, ?_⟩
  · rw [hn.clipboardSync, h.sync,
      syncIn_of_grows hn.log fun _ => Event.syncSetting_of_not_isClipboard]
  · rw [hn.clipChunk, h.assembled, ht]

end TracksTransfer

theorem clipboardStart_assembled (seq : UInt32) (data : Bytes) (c : DeskflowClient) :
    (c.clipboardStart seq data).clipChunk.assembled = (Transfer.mk data []).kept := by
  unfold clipboardStart
  dsimp only
  by_cases hsize : (stoull data).getD 0 > kProtocolMaxStringLength
  · have hnot : ¬(Transfer.mk data []).Admitted := Nat.not_le.mpr hsize
    rw [if_pos hsize, Transfer.kept, if_neg hnot]
    rfl
  · have hadmitted : (Transfer.mk data []).Admitted := Nat.not_lt.mp hsize
    rw [if_neg hsize, Transfer.kept, if_pos hadmitted]
    rfl

theorem clipboardChunk_assembled (data : Bytes) (c : DeskflowClient) :
    (c.clipboardChunk data).clipChunk.assembled = c.clipChunk.assembled.map (· ++ data) := by
  unfold clipboardChunk ClipChunkState.assembled
  by_cases hactive : c.clipChunk.active = true
  · simp [hactive]
  · simp [hactive]

theorem clipboardEnd_assembled (c : DeskflowClient) :
    c.clipboardEnd.clipChunk.assembled = none := by
  unfold clipboardEnd ClipChunkState.assembled
  by_cases hactive : c.clipChunk.active = true
  · by_cases htext : (c.clipboardSync && !(unmarshalText c.clipChunk.buffer).isEmpty) = true
    · simp [hactive, htext, emit]
    · simp only [hactive, htext, Bool.not_true, Bool.false_eq_true, if_false]
  · simp [hactive]

theorem kept_append (t : Transfer) (data : Bytes) :
    (Transfer.mk t.announced (t.received ++ data)).kept = t.kept.map (· ++ data) := by
  by_cases hsize : t.Admitted
  · have hsize' : (Transfer.mk t.announced (t.received ++ data)).Admitted := hsize
    simp [Transfer.kept, hsize, hsize']
  · have hsize' : ¬(Transfer.mk t.announced (t.received ++ data)).Admitted := hsize
    simp [Transfer.kept, hsize, hsize']

def delivered (c : DeskflowClient) : Option Bytes :=
  (c.clipChunk.assembled.map unmarshalText).filter fun text => c.clipboardSync && !text.isEmpty

theorem clipboardEnd_log (c : DeskflowClient) :
    c.clipboardEnd.world.log = c.world.log ++ (c.delivered.map Event.clipboard).toList := by
  unfold clipboardEnd delivered ClipChunkState.assembled
  by_cases hactive : c.clipChunk.active = true
  · rw [if_pos hactive, Option.map_some, Option.filter_some]
    by_cases htext : (c.clipboardSync && !(unmarshalText c.clipChunk.buffer).isEmpty) = true
    · rw [if_pos htext]
      simp [hactive, htext, emit, World.emit]
    · rw [if_neg htext]
      simp only [hactive, htext, Bool.not_true, Bool.false_eq_true, if_false]
      simp
  · simp [hactive]

theorem perform_clipChunk {m : Message} (h : m.key ≠ .DCLP) (c : DeskflowClient) :
    (c.perform m).2.clipChunk = c.clipChunk ∧
      Grows (fun e => e.isClipboard = false) c.world.log (c.perform m).2.world.log := by
  by_cases hset : m.key = .DSOP
  · cases m with
    | dsop options => exact ⟨rfl, .refl _⟩
    | _ => cases hset
  · have hspares := perform_spares h hset c
    exact ⟨hspares.clipChunk, hspares.log⟩

theorem perform_assembled {c : DeskflowClient} {t : Option Transfer}
    (h : c.clipChunk.assembled = t.bind Transfer.kept) (m : Message) :
    (c.perform m).2.clipChunk.assembled = (Message.transfer t m).bind Transfer.kept := by
  by_cases hkey : m.key = .DCLP
  · cases m with
    | dclp id seq mark data =>
      simp only [perform, Message.transfer]
      split_ifs
      · exact clipboardStart_assembled seq data c
      · rw [clipboardChunk_assembled, h]
        cases t with
        | none => rfl
        | some t => exact (kept_append t data).symm
      · exact clipboardEnd_assembled c
      · exact h
    | _ => cases hkey
  · rw [(perform_clipChunk hkey c).1, h]
    cases m with
    | dclp id seq mark data => exact absurd rfl hkey
    | _ => rfl

theorem perform_log (m : Message) (c : DeskflowClient) :
    Grows (fun e => e.isClipboard = false) c.world.log (c.perform m).2.world.log ∧
        (∀ id seq data, m ≠ .dclp id seq 3 data) ∨
      (∃ id seq data, m = .dclp id seq 3 data) ∧
        (c.perform m).2.world.log = c.world.log ++ (c.delivered.map Event.clipboard).toList := by
  by_cases hkey : m.key = .DCLP
  · cases m with
    | dclp id seq mark data =>
      simp only [perform]
      split_ifs with h₁ h₂ h₃
      · refine .inl ⟨?_, by simp [h₁]⟩
        unfold clipboardStart
        dsimp only
        split_ifs <;> exact .refl _
      · refine .inl ⟨?_, by simp [h₂]⟩
        unfold clipboardChunk
        split_ifs <;> exact .refl _
      · exact .inr ⟨⟨id, seq, data, by rw [h₃]⟩, clipboardEnd_log c⟩
      · exact .inl ⟨.refl _, by simp [h₃]⟩
    | _ => cases hkey
  · refine .inl ⟨(perform_clipChunk hkey c).2, fun id seq data hm => hkey ?_⟩
    rw [hm]
    rfl

theorem transfer_handle (m : Message) (c : DeskflowClient) :
    transfer (c.handle m).2.handled = Message.transfer (transfer c.handled) m := by
  rw [handle_handled, transfer, List.foldl_append, ← transfer]
  rfl

theorem perform_clipboardSync (m : Message) (c : DeskflowClient) :
    (c.perform m).2.clipboardSync = c.clipboardSync := by
  cases hr : c.reply m with
  | none => exact congrArg (·.settings.clipboardSync) (perform_internal hr).setup
  | some o =>
    rw [perform_of_reply hr]
    exact (spares_write o c).clipboardSync

namespace TracksTransfer

variable {c : DeskflowClient}

theorem handle (h : TracksTransfer c) (m : Message) : TracksTransfer (c.handle m).2 := by
  refine ⟨?_, ?_⟩
  · have hsync : syncIn (c.perform m).2.world.log = syncIn c.world.log :=
      syncIn_of_grows (perform_world m c).log fun _ => Event.syncSetting_of_isEffect
    have hmark : syncIn (c.handle m).2.world.log = syncIn (c.perform m).2.world.log :=
      syncIn_of_grows (spares_emit rfl _).log fun _ => Event.syncSetting_of_not_isClipboard
    rw [hmark, hsync, ← h.sync]
    exact perform_clipboardSync m c
  · rw [transfer_handle]
    exact perform_assembled h.assembled m

/-- A `DataEnd` delivers exactly from an admitted transfer with a text while
the setting is on. -/
theorem delivered_iff (h : TracksTransfer c) :
    (∃ text, c.delivered = some text) ↔ ∃ t, transfer c.handled = some t ∧
      syncIn c.world.log = true ∧ t.Admitted ∧ unmarshalText t.received ≠ [] := by
  rw [delivered, h.assembled, h.sync]
  cases transfer c.handled with
  | none => simp
  | some t =>
    by_cases hsize : t.Admitted
    · simp [Transfer.kept, hsize, Option.filter]
    · simp [Transfer.kept, hsize]

end TracksTransfer

/-- What both properties ask of a message. -/
def Delivers (c : DeskflowClient) (m : Message) : Prop :=
  (∃ id seq data, m = .dclp id seq 3 data) → ∀ text, c.delivered = some text →
    ∃ t, transfer c.handled = some t ∧ t.Complete

theorem deliversComplete_handle (m : Message) (c : DeskflowClient) :
    DeliversComplete (c.handle m).2.world.log ↔
      DeliversComplete c.world.log ∧ c.Delivers m := by
  have hmark : DeliversComplete (c.handle m).2.world.log ↔
      DeliversComplete (c.perform m).2.world.log :=
    deliversComplete_of_grows (spares_emit rfl _).log
  rw [hmark]
  rcases perform_log m c with ⟨hgrows, hm⟩ | ⟨hm, hlog⟩
  · rw [deliversComplete_of_grows hgrows]
    refine ⟨fun h => ⟨h, fun ⟨id, seq, data, he⟩ => absurd he (hm id seq data)⟩, fun h => h.1⟩
  · rw [hlog]
    cases hd : c.delivered with
    | none => simp [Delivers, hd]
    | some text =>
      rw [Option.map_some, Option.toList_some, DeliversComplete, throughout_concat]
      refine and_congr_right fun _ => ⟨fun h _ text' _ => h text rfl, fun h text' _ => ?_⟩
      exact h hm text hd

theorem endsComplete_handle {c : DeskflowClient} (h : TracksTransfer c) (m : Message) :
    EndsComplete (c.handle m).2.world.log ↔ EndsComplete c.world.log ∧ c.Delivers m := by
  have hworld := (perform_world m c).log
  have hhandled : handledIn (c.perform m).2.world.log = c.handled :=
    hworld.filterMap_eq fun _ => Event.handledMessage_of_isEffect
  have hsync : syncIn (c.perform m).2.world.log = syncIn c.world.log :=
    syncIn_of_grows hworld fun _ => Event.syncSetting_of_isEffect
  rw [handle, emit, World.emit, EndsComplete, throughout_concat, ← EndsComplete,
    endsComplete_of_grows hworld, hhandled, hsync]
  refine and_congr_right fun _ => ⟨fun hend => ?_, fun hend => ?_⟩
  · rintro ⟨id, seq, data, rfl⟩ text htext
    obtain ⟨t, ht, hon, hadmitted, hne⟩ := h.delivered_iff.mp ⟨text, htext⟩
    exact ⟨t, ht, hend id seq data t rfl ht hon hadmitted hne⟩
  · intro id seq data t he ht hon hadmitted hne
    obtain rfl : m = .dclp id seq 3 data := by simpa using he
    obtain ⟨text, htext⟩ := h.delivered_iff.mpr ⟨t, ht, hon, hadmitted, hne⟩
    obtain ⟨t', ht', hcomplete⟩ := hend ⟨id, seq, data, rfl⟩ text htext
    obtain rfl : t = t' := by simpa [ht] using ht'
    exact hcomplete

theorem Moves.tracksTransfer {c₀ c : DeskflowClient} (h : Moves c₀ c) (h₀ : TracksTransfer c₀) :
    TracksTransfer c := by
  induction h with
  | refl => exact h₀
  | @tail c c' _ hmove ih =>
    cases hmove with
    | mark e he =>
      have hno : e.isClipboard = false := by cases e <;> simp_all [Event.isMark, Event.isClipboard]
      exact ih.spares (spares_emit hno c) (by rw [handled_emit_of_isMark he])
    | adjust hadj =>
      refine ⟨?_, ?_⟩
      · rw [hadj.clipboardSync, hadj.log, ih.sync]
      · rw [hadj.clipChunk, hadj.handled, ih.assembled]
    | sync enable =>
      refine ⟨?_, ?_⟩
      · simp [setClipboardSync, emit, World.emit, syncIn, Event.syncSetting, List.filterMap_append]
      · rw [setClipboardSync_handled]
        exact ih.assembled
    | handle m => exact ih.handle m

theorem fresh_tracksTransfer (injections : List InjectOutcome) :
    TracksTransfer (fresh injections) := ⟨rfl, rfl⟩

theorem Moves.complete_iff {c₀ c : DeskflowClient} (h : Moves c₀ c) (h₀ : TracksTransfer c₀)
    (hlog : DeliversComplete c₀.world.log ↔ EndsComplete c₀.world.log) :
    DeliversComplete c.world.log ↔ EndsComplete c.world.log := by
  induction h with
  | refl => exact hlog
  | @tail c c' hmoves hmove ih =>
    cases hmove with
    | mark e he =>
      have hclip : DeliversComplete (c.emit e).world.log ↔ DeliversComplete c.world.log := by
        refine throughout_concat.trans (and_iff_left fun text heq => ?_)
        simp [heq, Event.isMark] at he
      have hend : EndsComplete (c.emit e).world.log ↔ EndsComplete c.world.log := by
        refine throughout_concat.trans (and_iff_left fun id seq data t heq => ?_)
        simp [heq, Event.isMark] at he
      rw [hclip, hend, ih]
    | adjust hadj => rw [hadj.log, ih]
    | sync enable =>
      have hclip : DeliversComplete (c.setClipboardSync enable).world.log ↔
          DeliversComplete c.world.log :=
        throughout_concat.trans (and_iff_left fun text heq => by simp at heq)
      have hend : EndsComplete (c.setClipboardSync enable).world.log ↔
          EndsComplete c.world.log :=
        throughout_concat.trans (and_iff_left fun id seq data t heq => by simp at heq)
      rw [hclip, hend, ih]
    | handle m =>
      rw [deliversComplete_handle, endsComplete_handle (Moves.tracksTransfer hmoves h₀), ih]

/-- Only complete transfers are delivered exactly when every `DataEnd` that would
deliver ends a complete one. -/
theorem deliversComplete_iff {injections : List InjectOutcome} {c : DeskflowClient}
    (h : Life injections c) : DeliversComplete c.world.log ↔ EndsComplete c.world.log :=
  h.moves.complete_iff (fresh_tracksTransfer injections)
    ⟨fun _ => throughout_nil, fun _ => throughout_nil⟩

/-- A client with the setting on that is sent a container of 14 bytes in a
transfer of the announced size. -/
def pushed (announced : Bytes) : DeskflowClient :=
  ((fresh []).setClipboardSync true).serve
    [.dclp 0 1 1 announced, .dclp 0 1 2 (marshalText (ascii "hi")), .dclp 0 1 3 []]

theorem life_pushed (announced : Bytes) : Life [] (pushed announced) := by
  have hfresh : Life [] (fresh []) := ⟨[], rfl⟩
  exact (hfresh.call (.setClipboardSync true)).serve rfl _

/-- As many bytes come as are announced. -/
theorem deliversComplete_pushed : DeliversComplete (pushed (ascii "14")).world.log := by
  have hhandled : handledIn (pushed (ascii "14")).world.log =
      ([] ++ [.dclp 0 1 1 (ascii "14")] ++ [.dclp 0 1 2 (marshalText (ascii "hi"))]) ++
        [.dclp 0 1 3 []] := by decide +kernel
  refine (deliversComplete_iff (life_pushed _)).mpr fun pre e hpre id seq data t he ht _ _ _ => ?_
  have hmessages : handledIn pre ++ [.dclp id seq 3 data] <+:
      handledIn (pushed (ascii "14")).world.log := by
    have hgrown := hpre.filterMap Event.handledMessage
    rwa [he, List.filterMap_append] at hgrown
  rw [hhandled, List.prefix_concat_iff, List.prefix_concat_iff, List.prefix_concat_iff,
    List.prefix_nil] at hmessages
  have hlast : handledIn pre =
      [.dclp 0 1 1 (ascii "14"), .dclp 0 1 2 (marshalText (ascii "hi"))] := by
    rcases hmessages with hend | hchunk | hstart | hnone
    · exact (List.append_inj' hend rfl).1
    · simpa using (List.append_inj' hchunk rfl).2
    · simpa using (List.append_inj' hstart rfl).2
    · simp at hnone
  have htransfer : transfer (handledIn pre) = some ⟨ascii "14", marshalText (ascii "hi")⟩ := by
    rw [hlast]
    decide +kernel
  rw [htransfer, Option.some.injEq] at ht
  rw [← ht]
  show stoull (ascii "14") = some (marshalText (ascii "hi")).length
  decide +kernel

/-- Five bytes are announced, fourteen come, and the text is delivered. -/
theorem delivers_incomplete : ∃ c, Life [] c ∧ ¬DeliversComplete c.world.log := by
  let c := pushed (ascii "5")
  let n := c.world.log.idxOf (.clipboard (ascii "hi"))
  have hpre : c.world.log.take n ++ [.clipboard (ascii "hi")] <+: c.world.log := by
    decide +kernel
  have ht : transfer (handledIn (c.world.log.take n)) =
      some ⟨ascii "5", marshalText (ascii "hi")⟩ := by
    decide +kernel
  refine ⟨c, life_pushed _, fun hdelivers => ?_⟩
  obtain ⟨t, ht', hcomplete⟩ := hdelivers _ _ hpre (ascii "hi") rfl
  rw [ht, Option.some.injEq] at ht'
  subst ht'
  have hsize : stoull (ascii "5") ≠ some (marshalText (ascii "hi")).length := by decide +kernel
  exact hsize hcomplete

end DeskflowClient

end Deskflow
