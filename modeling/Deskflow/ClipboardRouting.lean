import Deskflow.ClipboardTransfer
import Deskflow.HandledMessages

/-! Incoming clipboards with more than one transfer on a connection: how much is
assembled and what belongs together. -/

namespace Deskflow

open History

namespace Transfer

def size (t : Transfer) : Nat := (stoull t.announced).getD 0

end Transfer

/-- An active assembly holds no more than was announced, and that is not over the limit. -/
def ClipChunkState.Bounded (s : ClipChunkState) : Prop :=
  s.active = true → s.buffer.length ≤ s.expectedSize ∧ s.expectedSize ≤ kProtocolMaxStringLength

instance (s : ClipChunkState) : Decidable s.Bounded := inferInstanceAs (Decidable (_ → _))

/-- The chunks of an admitted transfer under way come to no more than it announced. -/
def WithinAnnounced (ms : List Message) : Prop :=
  ∀ t, transfer ms = some t → t.Admitted → t.received.length ≤ t.size

namespace DeskflowClient

/-- An active assembly expects what the transfer under way announced. -/
def TracksSize (c : DeskflowClient) : Prop :=
  c.clipChunk.active = true →
    ∃ t, transfer c.handled = some t ∧ c.clipChunk.expectedSize = t.size

theorem clipboardStart_size (seq : UInt32) (data : Bytes) (c : DeskflowClient) :
    (c.clipboardStart seq data).clipChunk.expectedSize = (Transfer.mk data []).size := by
  unfold clipboardStart
  dsimp only
  split_ifs <;> rfl

theorem perform_size {c : DeskflowClient} {t : Option Transfer}
    (h : c.clipChunk.active = true → ∃ u, t = some u ∧ c.clipChunk.expectedSize = u.size)
    (m : Message) : (c.perform m).2.clipChunk.active = true →
      ∃ u, m.transfer t = some u ∧ (c.perform m).2.clipChunk.expectedSize = u.size := by
  by_cases hkey : m.key = .DCLP
  · cases m with
    | dclp id seq mark data =>
      simp only [perform, Message.transfer]
      split_ifs
      · exact fun _ => ⟨_, rfl, clipboardStart_size seq data c⟩
      · unfold clipboardChunk
        by_cases hactive : c.clipChunk.active = true
        · obtain ⟨u, rfl, hsize⟩ := h hactive
          simp only [hactive, Bool.not_true, Bool.false_eq_true, if_false]
          exact fun _ => ⟨_, rfl, hsize⟩
        · simp [hactive]
      · intro hactive
        have hnone := clipboardEnd_assembled c
        rw [ClipChunkState.assembled, if_pos hactive] at hnone
        cases hnone
      · exact h
    | _ => cases hkey
  · intro hactive
    rw [(perform_clipChunk hkey c).1] at hactive ⊢
    obtain ⟨u, rfl, hsize⟩ := h hactive
    refine ⟨u, ?_, hsize⟩
    cases m with
    | dclp id seq mark data => exact absurd rfl hkey
    | _ => rfl

theorem TracksSize.congr {c c' : DeskflowClient} (h : TracksSize c)
    (hchunk : c'.clipChunk = c.clipChunk) (hhandled : c'.handled = c.handled) :
    TracksSize c' := by
  intro hactive
  rw [hchunk] at hactive ⊢
  rw [hhandled]
  exact h hactive

theorem Moves.tracksSize {c₀ c : DeskflowClient} (h : Moves c₀ c) (h₀ : TracksSize c₀) :
    TracksSize c := by
  induction h with
  | refl => exact h₀
  | @tail c c' _ hmove ih =>
    cases hmove with
    | mark e he => exact ih.congr rfl (handled_emit_of_isMark he c)
    | adjust hadj => exact ih.congr hadj.clipChunk hadj.handled
    | sync enable => exact ih.congr rfl (setClipboardSync_handled enable c)
    | handle m =>
      intro hactive
      rw [transfer_handle]
      exact perform_size ih m hactive

theorem fresh_tracksSize (injections : List InjectOutcome) : TracksSize (fresh injections) := by
  intro hactive
  cases hactive

/-- The buffer is bounded exactly while the chunks stay within what was announced. -/
theorem bounded_iff {c : DeskflowClient} (htrack : TracksTransfer c) (hsize : TracksSize c) :
    c.clipChunk.Bounded ↔ WithinAnnounced c.handled := by
  have hassembled := htrack.assembled
  constructor
  · intro h t ht hadmitted
    rw [ht, Option.bind_some, Transfer.kept, if_pos hadmitted,
      ClipChunkState.assembled] at hassembled
    by_cases hactive : c.clipChunk.active = true
    · obtain ⟨u, hu, hexpected⟩ := hsize hactive
      obtain rfl : t = u := by simpa [ht] using hu
      rw [if_pos hactive, Option.some.injEq] at hassembled
      rw [← hassembled, ← hexpected]
      exact (h hactive).1
    · rw [if_neg hactive] at hassembled
      cases hassembled
  · intro h hactive
    obtain ⟨t, ht, hexpected⟩ := hsize hactive
    rw [ht, Option.bind_some, Transfer.kept, ClipChunkState.assembled, if_pos hactive] at hassembled
    split_ifs at hassembled with hadmitted
    rw [Option.some.injEq] at hassembled
    rw [hassembled, hexpected]
    exact ⟨h t ht hadmitted, hadmitted⟩

end DeskflowClient

namespace System

open DeskflowClient

/-- In every state of a run the assembled buffer is within its announced size,
exactly when no chunk takes an admitted transfer over the size it announced. -/
theorem assembly_bounded_iff (injections : List InjectOutcome) (actions : List Action) :
    (∀ pre, pre <+: actions → ((initial injections).run pre).client.clipChunk.Bounded) ↔
      ∀ ms, ms <+: ((initial injections).run actions).client.handled → WithinAnnounced ms := by
  rw [← forall_handled_iff]
  refine forall₂_congr fun pre _ => ?_
  have hmoves := moves_fresh injections pre
  exact bounded_iff (hmoves.tracksTransfer (fresh_tracksTransfer injections))
    (hmoves.tracksSize (fresh_tracksSize injections))

/-- Five bytes are announced and fourteen assembled. -/
theorem assembly_not_bounded : ∃ injections actions,
    ¬∀ pre, pre <+: actions → ((initial injections).run pre).client.clipChunk.Bounded := by
  refine ⟨[], serving [.dclp 0 1 1 (ascii "5"), .dclp 0 1 2 (marshalText (ascii "hi"))] 8,
    fun h => ?_⟩
  have hlast := h _ (List.prefix_refl _)
  revert hlast
  decide +kernel

end System

/-- A transfer with the id and the sequence number of its `DataStart`. -/
structure OwnTransfer extends Transfer where
  id : UInt8
  seq : UInt32
  deriving DecidableEq, Repr

/-- The receiver that routes by id and sequence number: only the chunks of the
transfer under way are its own, and only its own `DataEnd` closes it. -/
def Message.own (t : Option OwnTransfer) : Message → Option OwnTransfer
  | .dclp id seq mark data =>
    if mark = 1 then some { announced := data, received := [], id := id, seq := seq }
    else t.bind fun t =>
      if id = t.id ∧ seq = t.seq then
        if mark = 2 then some { t with received := t.received ++ data }
        else if mark = 3 then none
        else some t
      else some t
  | _ => t

def own (ms : List Message) : Option OwnTransfer := ms.foldl Message.own none

def keptOwn (t : Option OwnTransfer) : Option Bytes := t.bind fun t => t.toTransfer.kept

/-- A chunk with data or a `DataEnd`, of another transfer. -/
def Message.Foreign (t : OwnTransfer) : Message → Prop
  | .dclp id seq mark data => (mark = 2 ∧ data ≠ [] ∨ mark = 3) ∧ ¬(id = t.id ∧ seq = t.seq)
  | _ => False

/-- While an admitted transfer is under way, nothing foreign arrives. -/
def Separate : List Message → Prop :=
  Throughout fun pre m => ∀ t, own pre = some t → t.Admitted → ¬m.Foreign t

/-- What is assembled comes from the chunks of the transfer under way alone. -/
def DeskflowClient.AssemblesOwn (c : DeskflowClient) : Prop :=
  c.clipChunk.assembled = keptOwn (own c.handled)

/-- Every text is delivered from the chunks of the transfer under way alone, by
its own `DataEnd`. -/
def DeliversOwn : List Event → Prop :=
  Throughout fun pre e =>
    (∀ text, e = .clipboard text →
      ∃ t, own (handledIn pre) = some t ∧ text = unmarshalText t.received) ∧
    ∀ id seq data text, e = .handled (.dclp id seq 3 data) →
      pre.getLast? = some (.clipboard text) →
        ∃ t, own (handledIn pre) = some t ∧ id = t.id ∧ seq = t.seq

theorem own_concat (ms : List Message) (m : Message) : own (ms ++ [m]) = m.own (own ms) :=
  List.foldl_append

theorem transfer_concat (ms : List Message) (m : Message) :
    transfer (ms ++ [m]) = m.transfer (transfer ms) :=
  List.foldl_append

def Message.assemble (kept : Option Bytes) : Message → Option Bytes
  | .dclp _ _ mark data =>
    if mark = 1 then (Transfer.mk data []).kept
    else if mark = 2 then kept.map (· ++ data)
    else if mark = 3 then none
    else kept
  | _ => kept

theorem kept_transfer (t : Option Transfer) (m : Message) :
    (m.transfer t).bind Transfer.kept = m.assemble (t.bind Transfer.kept) := by
  cases m with
  | dclp id seq mark data =>
    simp only [Message.transfer, Message.assemble]
    split_ifs
    · rfl
    · cases t with
      | none => rfl
      | some t => exact DeskflowClient.kept_append t data
    · rfl
    · rfl
  | _ => rfl

theorem keptOwn_own {t : OwnTransfer} {m : Message} (h : ¬m.Foreign t) :
    keptOwn (m.own (some t)) = m.assemble (keptOwn (some t)) := by
  cases m with
  | dclp id seq mark data =>
    simp only [Message.own, Message.assemble, Option.bind_some]
    split_ifs with hstart htag hchunk hend hchunk hend
    · rfl
    · exact DeskflowClient.kept_append t.toTransfer data
    · rfl
    · rfl
    · have hdata : data = [] := by
        by_contra hne
        exact h ⟨.inl ⟨hchunk, hne⟩, htag⟩
      simp [hdata]
    · exact absurd ⟨.inr hend, htag⟩ h
    · rfl
  | _ => rfl

/-- It ignores a foreign message, which the other one takes. -/
theorem keptOwn_own_foreign {t : OwnTransfer} {m : Message} (h : m.Foreign t) :
    keptOwn (m.own (some t)) = keptOwn (some t) ∧
      (t.Admitted → m.assemble (keptOwn (some t)) ≠ keptOwn (some t)) := by
  cases m with
  | dclp id seq mark data =>
    obtain ⟨hmark, htag⟩ := h
    have hstart : mark ≠ 1 := by
      rcases hmark with ⟨rfl, -⟩ | rfl <;> decide
    simp only [Message.own, Message.assemble, if_neg hstart, Option.bind_some, if_neg htag,
      true_and]
    intro hadmitted
    have hkept : keptOwn (some t) = some t.received := if_pos hadmitted
    rw [hkept]
    rcases hmark with ⟨rfl, hdata⟩ | rfl
    · simpa using hdata
    · simp
  | _ => cases h

/-- Both receivers stay in agreement over a message exactly if it is not foreign
to an admitted transfer. -/
theorem agree_concat_iff {ms : List Message} {m : Message}
    (h : (transfer ms).bind Transfer.kept = keptOwn (own ms)) :
    (transfer (ms ++ [m])).bind Transfer.kept = keptOwn (own (ms ++ [m])) ↔
      ∀ t, own ms = some t → t.Admitted → ¬m.Foreign t := by
  rw [own_concat, transfer_concat, kept_transfer, h]
  cases hown : own ms with
  | none =>
    refine iff_of_true ?_ (by simp)
    cases m with
    | dclp id seq mark data =>
      simp only [Message.own, Message.assemble]
      split_ifs <;> rfl
    | _ => rfl
  | some t =>
    by_cases hforeign : m.Foreign t
    · obtain ⟨hsame, hdiffer⟩ := keptOwn_own_foreign hforeign
      rw [hsame]
      by_cases hadmitted : t.Admitted
      · exact iff_of_false (hdiffer hadmitted) fun hno => hno t rfl hadmitted hforeign
      · have hnone : keptOwn (some t) = none := if_neg hadmitted
        refine iff_of_true ?_ fun u hu hu' => absurd hu' ?_
        · rw [hnone]
          cases m with
          | dclp id seq mark data =>
            obtain ⟨hmark, -⟩ := hforeign
            rcases hmark with ⟨rfl, -⟩ | rfl <;> rfl
          | _ => rfl
        · obtain rfl : t = u := by simpa using hu
          exact hadmitted
    · refine iff_of_true (keptOwn_own hforeign).symm fun u hu _ => ?_
      obtain rfl : t = u := by simpa using hu
      exact hforeign

/-- Both receivers agree throughout exactly on messages without foreign ones. -/
theorem agree_iff_separate (ms : List Message) :
    (∀ pre, pre <+: ms → (transfer pre).bind Transfer.kept = keptOwn (own pre)) ↔
      Separate ms := by
  induction ms using List.reverseRecOn with
  | nil => exact iff_of_true (fun pre hpre => by rw [List.prefix_nil.mp hpre]; rfl) throughout_nil
  | append_singleton ms m ih =>
    rw [Separate, throughout_concat, ← Separate, ← ih]
    constructor
    · intro h
      have hold (pre : List Message) (hpre : pre <+: ms) :
          (transfer pre).bind Transfer.kept = keptOwn (own pre) :=
        h pre (hpre.trans (List.prefix_append ms [m]))
      exact ⟨hold, (agree_concat_iff (hold ms (List.prefix_refl _))).mp (h _ (List.prefix_refl _))⟩
    · rintro ⟨hold, hnew⟩ pre hpre
      rcases List.prefix_concat_iff.mp hpre with rfl | hpre
      · exact (agree_concat_iff (hold ms (List.prefix_refl _))).mpr hnew
      · exact hold pre hpre

namespace DeskflowClient

theorem deliversOwn_of_grows {log log' : List Event} {p : Event → Prop} (h : Grows p log log')
    (hp : ∀ e, p e → (∀ text, e ≠ .clipboard text) ∧ ∀ m, e ≠ .handled m) :
    DeliversOwn log' ↔ DeliversOwn log :=
  h.throughout_iff fun _ e he =>
    ⟨fun text htext => absurd htext ((hp e he).1 text),
      fun _ _ _ _ hm => absurd hm ((hp e he).2 _)⟩

/-- A text is always followed by the mark of its `DataEnd`. -/
def EndsMarked (c : DeskflowClient) : Prop :=
  ∀ text, c.world.log.getLast? ≠ some (.clipboard text)

theorem Moves.endsMarked {c₀ c : DeskflowClient} (h : Moves c₀ c) (h₀ : EndsMarked c₀) :
    EndsMarked c := by
  induction h with
  | refl => exact h₀
  | @tail c c' _ hmove ih =>
    cases hmove with
    | mark e he =>
      intro text hlast
      obtain rfl : e = .clipboard text := by simpa [emit, World.emit] using hlast
      cases he
    | adjust hadj =>
      intro text
      rw [hadj.log]
      exact ih text
    | sync enable => exact fun text hlast => by simp [setClipboardSync, emit, World.emit] at hlast
    | handle m => exact fun text hlast => by simp [handle, emit, World.emit] at hlast

theorem delivered_own {c : DeskflowClient} (htrack : TracksTransfer c)
    (hagree : (transfer c.handled).bind Transfer.kept = keptOwn (own c.handled)) {text : Bytes}
    (h : c.delivered = some text) :
    ∃ t, own c.handled = some t ∧ t.Admitted ∧ text = unmarshalText t.received := by
  rw [delivered, htrack.assembled, hagree] at h
  cases hown : own c.handled with
  | none => simp [hown, keptOwn] at h
  | some t =>
    by_cases hadmitted : t.Admitted
    · have hkept : keptOwn (some t) = some t.received := if_pos hadmitted
      rw [hown, hkept, Option.map_some, Option.filter_eq_some_iff] at h
      exact ⟨t, rfl, hadmitted, by simpa [eq_comm] using h.1⟩
    · have hkept : keptOwn (some t) = none := if_neg hadmitted
      simp [hown, hkept] at h

theorem deliversOwn_handle {c : DeskflowClient} {m : Message} (h : DeliversOwn c.world.log)
    (hmarked : EndsMarked c) (htrack : TracksTransfer c)
    (hagree : (transfer c.handled).bind Transfer.kept = keptOwn (own c.handled))
    (hown : ∀ t, own c.handled = some t → t.Admitted → ¬m.Foreign t) :
    DeliversOwn (c.handle m).2.world.log := by
  have hlog : (c.handle m).2.world.log = (c.perform m).2.world.log ++ [.handled m] := rfl
  rw [hlog, DeliversOwn, throughout_concat, ← DeliversOwn]
  rcases perform_log m c with ⟨⟨es, hes, hclip⟩, hm⟩ | ⟨⟨id, seq, data, rfl⟩, hend⟩
  · obtain ⟨fs, hfs, heff⟩ := (perform_world m c).log
    obtain rfl : es = fs := List.append_cancel_left (hes.symm.trans hfs)
    have hgrows : Grows (fun e => e.isClipboard = false ∧ e.isEffect) c.world.log
        (c.perform m).2.world.log := ⟨es, hes, fun e he => ⟨hclip e he, heff e he⟩⟩
    refine ⟨(deliversOwn_of_grows hgrows fun e he => ⟨?_, ?_⟩).mpr h, by simp, ?_⟩
    · rintro text rfl
      simp [Event.isClipboard] at he
    · rintro m rfl
      simp [Event.isEffect, Event.isInternal] at he
    · intro id seq data text he
      exact absurd (by simpa using he) (hm id seq data)
  · rw [hend]
    cases hd : c.delivered with
    | none =>
      simp only [Option.map_none, Option.toList_none, List.append_nil]
      exact ⟨h, by simp, fun _ _ _ text _ hlast => absurd hlast (hmarked text)⟩
    | some text =>
      obtain ⟨t, ht, hadmitted, htext⟩ := delivered_own htrack hagree hd
      have hhandled : handledIn (c.world.log ++ [.clipboard text]) = c.handled := by
        rw [handledIn, List.filterMap_append, handled, handledIn]
        exact List.append_nil _
      rw [Option.map_some, Option.toList_some]
      refine ⟨throughout_concat.mpr ⟨h, ?_, by simp⟩, by simp, ?_⟩
      · rintro text' he
        obtain rfl : text = text' := by simpa using he
        exact ⟨t, ht, htext⟩
      · rintro id' seq' data' - he -
        obtain ⟨rfl, rfl, -⟩ : id = id' ∧ seq = seq' ∧ data = data' := by simpa using he
        rw [hhandled]
        refine ⟨t, ht, ?_⟩
        by_contra htag
        exact hown t ht hadmitted ⟨.inr rfl, htag⟩

theorem Moves.deliversOwn {c : DeskflowClient} {injections : List InjectOutcome}
    (h : Moves (fresh injections) c) (hsep : Separate c.handled) : DeliversOwn c.world.log := by
  induction h with
  | refl => exact throughout_nil
  | @tail c c' hmoves hmove ih =>
    cases hmove with
    | mark e he =>
      rw [handled_emit_of_isMark he] at hsep
      refine (deliversOwn_of_grows (.single (p := (· = e)) rfl _) ?_).mpr (ih hsep)
      rintro _ rfl
      exact ⟨fun text heq => by simp [heq, Event.isMark] at he,
        fun m heq => by simp [heq, Event.isMark] at he⟩
    | adjust hadj =>
      rw [hadj.handled] at hsep
      rw [hadj.log]
      exact ih hsep
    | sync enable =>
      rw [setClipboardSync_handled] at hsep
      refine (deliversOwn_of_grows (.single (p := (· = .clipboardSync enable)) rfl _) ?_).mpr
        (ih hsep)
      rintro _ rfl
      exact ⟨by simp, by simp⟩
    | handle m =>
      rw [handle_handled, Separate, throughout_concat, ← Separate] at hsep
      have hagree := (agree_iff_separate c.handled).mpr hsep.1 _ (List.prefix_refl _)
      have hmarked : EndsMarked (fresh injections) := fun text hlast => by simp [fresh] at hlast
      exact deliversOwn_handle (ih hsep.1) (Moves.endsMarked hmoves hmarked)
        (Moves.tracksTransfer hmoves (fresh_tracksTransfer injections)) hagree hsep.2

end DeskflowClient

namespace System

open DeskflowClient

/-- In every state of a run the client assembles, and delivers, what the
receiver that routes by id and sequence number would, exactly when nothing
foreign arrives during an admitted transfer. -/
theorem routes_iff_separate (injections : List InjectOutcome) (actions : List Action) :
    ((∀ pre, pre <+: actions → ((initial injections).run pre).client.AssemblesOwn) ∧
        DeliversOwn ((initial injections).run actions).client.world.log) ↔
      Separate ((initial injections).run actions).client.handled := by
  have hassembles : (∀ pre, pre <+: actions →
        ((initial injections).run pre).client.AssemblesOwn) ↔
      Separate ((initial injections).run actions).client.handled := by
    rw [← agree_iff_separate, ← forall_handled_iff]
    refine forall₂_congr fun pre _ => ?_
    have htrack := (moves_fresh injections pre).tracksTransfer (fresh_tracksTransfer injections)
    rw [AssemblesOwn, htrack.assembled]
  exact ⟨fun h => hassembles.mp h.1,
    fun h => ⟨hassembles.mpr h, (moves_fresh injections actions).deliversOwn h⟩⟩

/-- A text sent in the chunk of one transfer is delivered by the end of another. -/
theorem routes_foreign : ∃ injections actions,
    ¬((∀ pre, pre <+: actions → ((initial injections).run pre).client.AssemblesOwn) ∧
        DeliversOwn ((initial injections).run actions).client.world.log) := by
  let actions := serving [.dclp 0 1 1 (ascii "14"), .dclp 1 9 2 (marshalText (ascii "hi")),
    .dclp 0 1 3 []] 10
  let log := ((initial []).run actions).client.world.log
  let n := log.idxOf (.clipboard (ascii "hi"))
  have hpre : log.take n ++ [.clipboard (ascii "hi")] <+: log := by decide +kernel
  have hown : (own (handledIn (log.take n))).map (·.received) = some [] := by decide +kernel
  refine ⟨[], actions, fun h => ?_⟩
  obtain ⟨t, ht, htext⟩ := (h.2 _ _ hpre).1 _ rfl
  rw [ht, Option.map_some, Option.some.injEq] at hown
  rw [hown] at htext
  exact absurd htext (by decide)

end System

end Deskflow
