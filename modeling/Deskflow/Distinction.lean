import Deskflow.HelloAcceptance
import Deskflow.Leftovers

/-! Servers that bring leftovers to light: exactly a client without them is
like a fresh one. -/

namespace Deskflow

open History SharedLines

namespace DeskflowClient

def performAll (ms : List Message) (c : DeskflowClient) : DeskflowClient :=
  ms.foldl (fun c m => (c.perform m).2) c

theorem Alike.performAll {c c' : DeskflowClient} (h : Alike c c') (ms : List Message) :
    Alike (c.performAll ms) (c'.performAll ms) := by
  induction ms generalizing c c' with
  | nil => exact h
  | cons m ms ih => exact ih (h.perform m)

theorem Alike.loadStop_of_empty {c : DeskflowClient} (h : c.world.stopLoads = []) :
    Alike c c.loadStop.2 := by
  refine ⟨rfl, rfl, rfl, fun _ _ => rfl, rfl, .inl rfl, ⟨rfl, ?_, rfl⟩⟩
  change c.world.stopLoads.tail = c.world.stopLoads
  rw [h, List.tail_nil]

theorem deliver_alike (key : Bytes) (m : Message) (c : DeskflowClient) :
    Alike (c.perform m).2 (c.deliver (.message key m)).2 := by
  have hmark : Alike c (c.emit (.dispatched key)) := Alike.emit_unobserved rfl c
  have hhandle : Alike (c.perform m).2 ((c.emit (.dispatched key)).handle m).2 :=
    (hmark.perform m).trans (Alike.emit_unobserved rfl _)
  refine hhandle.trans ?_
  simp only [deliver, acknowledge]
  split_ifs
  · exact Alike.write .cnop _
  · exact Alike.refl _

theorem iterate_alike {c : DeskflowClient} {key : Bytes} {m : Message}
    (h : c.stream.view.arrival.1 = .message key m) : Alike (c.perform m).2 c.iterate.2 := by
  obtain ⟨s, -, -, he⟩ := c.iterate_eq_deliver
  rw [he, h]
  exact ((Alike.set_stream s c).perform m).trans (deliver_alike key m _)

theorem deliver_lost_alike {c : DeskflowClient} (h : c.world.stopLoads = []) :
    Alike c (c.deliver .lost).2 := by
  have hload := Alike.loadStop_of_empty h
  simp only [deliver]
  split_ifs
  · exact hload.trans (Alike.emit_unobserved rfl _)
  · exact hload.trans (Alike.emit_unobserved rfl _)

theorem loopFor_alike {n : Nat} {ms : List Message} {c : DeskflowClient} (h : InStep ms c)
    (hms : ∀ m ∈ ms, m.terminating = false) (hstop : c.world.stopLoads = []) (hn : ms.length < n) :
    Alike (c.performAll ms) (c.loopFor n) := by
  induction ms generalizing n c with
  | nil =>
    obtain ⟨n, rfl⟩ : ∃ k, n = k + 1 := ⟨n - 1, by omega⟩
    have hload := Alike.loadStop_of_empty hstop
    rw [h.loopFor_nil]
    obtain ⟨-, h⟩ := h.loadStop
    have ha : c.loadStop.2.stream.view.arrival.1 = .lost := by
      rw [h.view]
      rfl
    obtain ⟨s, -, -, he⟩ := c.loadStop.2.iterate_eq_deliver
    have hset := hload.trans (Alike.set_stream s _)
    rw [he, ha]
    exact hset.trans (deliver_lost_alike (hset.world.stopLoads.trans hstop))
  | cons m ms ih =>
    obtain ⟨n, rfl⟩ : ∃ k, n = k + 1 := ⟨n - 1, by omega⟩
    have hload := Alike.loadStop_of_empty hstop
    rw [h.loopFor_cons (hms m (by simp))]
    rw [List.length_cons] at hn
    obtain ⟨-, h⟩ := h.loadStop
    obtain ⟨-, hrest, -⟩ := h.iterate
    have ha := View.arrival_payload (h.wellFormed m (by simp))
      (ms.flatMap fun m => frameBytes m.payload)
    have hview := h.view
    rw [List.flatMap_cons] at hview
    rw [← hview] at ha
    have hstep := (hload.perform m).trans (iterate_alike (congrArg Prod.fst ha))
    have hstop' : c.loadStop.2.iterate.2.world.stopLoads = [] :=
      (hstep.world.stopLoads.trans (perform_world m c).stopLoads).trans hstop
    exact (hstep.performAll ms).trans
      (ih hrest (fun m hm => hms m (List.mem_cons_of_mem _ hm)) hstop' (by omega))

end DeskflowClient

namespace DeskflowClient

/-- A client that can greet does on a connection what the messages ask for. -/
theorem effects_serverBytes {c : DeskflowClient} (hgreets : c.Greets)
    (hbuf : c.stream.buffer.unread = []) {ms : List Message} (hwell : ∀ m ∈ ms, m.WellFormed)
    (hms : ∀ m ∈ ms, m.terminating = false) :
    effects {} ⟨true, [.data (serverBytes ms)], []⟩ c =
      observed ((c.facing {}).performAll ms).world.log := by
  let d := { c.facing {} with shouldReconnect := true }.dial.opened
    ⟨true, [.data (serverBytes ms)], []⟩
  have hview : d.stream.view = ⟨[], serverBytes ms⟩ :=
    congrArg₂ View.mk hbuf (arriving_data (serverBytes ms))
  have hready : Ready d :=
    ⟨rfl, by simp [Accepting, d, opened, SocketStream.connect, emit, setStatus]⟩
  obtain ⟨hok, hview', hready'⟩ := handshake_serverBytes hready hgreets hview
  have hgreeted : (c.facing {}).greeting ⟨true, [.data (serverBytes ms)], []⟩ = d.handshake := rfl
  have halike : Alike (c.facing {}) d.handshake.2.greeted :=
    (alike_greeting _ (c.facing {})).trans (Alike.emit_unobserved rfl _)
  have hin : InStep ms d.handshake.2.greeted := by
    refine ⟨hwell, hview', ⟨hready'.connected, hready'.accepting⟩, ?_⟩
    rw [halike.world.stopLoads]
    simp [facing]
  have hloop := (halike.performAll ms).trans
    (loopFor_alike hin hms halike.world.stopLoads hin.length_lt)
  rw [effects, observed_connection, hgreeted, if_pos ⟨rfl, hok⟩]
  exact hloop.world.observed

/-- A press of a key, whether it reached the system or not. -/
def isPress : Event → Bool
  | .injected (.key ev) _ => ev.down
  | _ => false

theorem isObserved_of_isPress {e : Event} (h : isPress e = true) : e.isObserved := by
  cases e <;> simp_all [isPress, Event.isObserved]

theorem setKeyState_grows (keysym : UInt32) (down : Bool) (c : DeskflowClient) :
    Grows (fun e => isPress e = true → down = true) c.world.log
      (c.setKeyState keysym down).world.log := by
  unfold setKeyState injectKeyEvent
  dsimp only
  split_ifs
  · exact .refl _
  · exact (World.Extends.inject (fun _ hpress => hpress) c.world).log

theorem foldl_requestKey_no_press {rs : List (UInt32 × Bool)} {c : DeskflowClient}
    (h : ∀ id, (id, true) ∈ rs → c.keyStates id = true ∧ (id, false) ∉ rs) :
    Grows (fun e => isPress e = false) c.world.log (rs.foldl requestKey c).world.log := by
  induction rs generalizing c with
  | nil => exact .refl _
  | cons r rs ih =>
    obtain ⟨k, down⟩ := r
    have hstep : Grows (fun e => isPress e = false) c.world.log
        (c.requestKey (k, down)).world.log := by
      unfold requestKey
      split_ifs with hk
      · exact .refl _
      · refine (setKeyState_grows k down c).mono fun e hpress => ?_
        by_contra hdown
        rw [Bool.not_eq_false] at hdown
        obtain rfl := hpress hdown
        exact hk (h k (by simp)).1
    refine hstep.trans (ih fun id hid => ?_)
    obtain ⟨hdown, hnot⟩ := h id (List.mem_cons_of_mem _ hid)
    refine ⟨?_, fun hmem => hnot (List.mem_cons_of_mem _ hmem)⟩
    unfold requestKey
    split_ifs
    · exact hdown
    · rw [Carried.setKeyState_keyStates, Function.update_apply]
      split_ifs with heq
      · cases down with
        | true => rfl
        | false => exact absurd (by rw [heq]; simp) hnot
      · exact hdown

theorem requestKey_keyOnly (r : UInt32 × Bool) (c : DeskflowClient) :
    KeyOnly c (c.requestKey r) := by
  unfold requestKey
  split_ifs
  · exact .refl c
  · exact setKeyState_keyOnly r.1 r.2 c

theorem foldl_requestKey_keyOnly (rs : List (UInt32 × Bool)) (c : DeskflowClient) :
    KeyOnly c (rs.foldl requestKey c) := by
  induction rs generalizing c with
  | nil => exact .refl c
  | cons r rs ih => exact (requestKey_keyOnly r c).trans (ih _)

theorem requestKey_press {id : UInt32} {c : DeskflowClient} (hup : c.keyStates id = false)
    (hi : c.world.injections = []) (hcode : 0 ≤ keysymToKeycode id) :
    .injected (.key { keyCode := keysymToKeycode id, down := true }) true ∈
      (c.requestKey (id, true)).world.log := by
  have hne : c.keyStates id ≠ true := by simp [hup]
  unfold requestKey setKeyState injectKeyEvent
  simp only [hne, if_false, Int.not_lt.mpr hcode, inject, World.inject, hi, World.emit]
  simp

theorem foldl_requestKey_press {rs : List (UInt32 × Bool)} {c : DeskflowClient} {id : UInt32}
    (hup : ∀ k, 0 ≤ keysymToKeycode k → c.keyStates k = false) (hi : c.world.injections = [])
    (hid : (id, true) ∈ rs) (hcode : 0 ≤ keysymToKeycode id) :
    ∃ e ∈ (rs.foldl requestKey c).world.log, isPress e = true := by
  induction rs generalizing c with
  | nil => cases hid
  | cons r rs ih =>
    obtain ⟨k, down⟩ := r
    by_cases hpress : down = true ∧ 0 ≤ keysymToKeycode k
    · obtain ⟨rfl, hk⟩ := hpress
      obtain ⟨es, hes, -⟩ := (foldl_requestKey_keyOnly rs (c.requestKey (k, true))).world.log
      refine ⟨.injected (.key { keyCode := keysymToKeycode k, down := true }) true, ?_, rfl⟩
      rw [List.foldl_cons, hes]
      exact List.mem_append_left es (requestKey_press (hup k hk) hi hk)
    · have hi' := (requestKey_keyOnly (k, down) c).world.injections
      rw [hi, List.suffix_nil] at hi'
      have hne : (id, true) ≠ (k, down) := by
        rintro heq
        obtain ⟨rfl, rfl⟩ := Prod.mk.inj heq
        exact hpress ⟨rfl, hcode⟩
      refine ih (fun k' hk' => ?_) hi' ((List.mem_cons.mp hid).resolve_left hne)
      unfold requestKey
      split_ifs
      · exact hup k' hk'
      · rw [Carried.setKeyState_keyStates, Function.update_apply]
        split_ifs with heq
        · subst heq
          simpa [hk'] using hpress
        · exact hup k' hk'

/-- A message that presses the id and no other, and whose effects are its requests. -/
theorem exists_press {id : UInt32} (h : Requestable id) :
    ∃ m : Message, m.WellFormed ∧ m.terminating = false ∧ (id, true) ∈ m.keyRequests ∧
      (∀ k, (k, true) ∈ m.keyRequests → k = id ∧ (k, false) ∉ m.keyRequests) ∧
      ∀ c : DeskflowClient, Alike (m.keyRequests.foldl requestKey c) (c.perform m).2 := by
  rcases h with ⟨i, rfl⟩ | ⟨bit, hbit, rfl⟩
  · have hlow : ∀ q ∈ modifierRequests 0, q.2 = false :=
      List.all_iff_forall_prop.mp (by decide)
    have hne := u32_toInt_ne_modifier i
    refine ⟨.dkdn i 0 0, ⟨by simp [Message.args], ?_⟩, rfl, ?_, ?_, fun c => ?_⟩
    · rw [Message.length_payload]
      simp [Message.key, Key.argDirectives, Message.args, writeDirectives, putInt_of_width]
    · simp [Message.keyRequests]
    · intro k hk
      rcases List.mem_append.mp hk with hk | hk
      · simpa using hlow _ hk
      · obtain ⟨rfl, -⟩ := Prod.mk.inj (List.mem_singleton.mp hk)
        refine ⟨rfl, fun hmem => ?_⟩
        rcases List.mem_append.mp hmem with hmem | hmem
        · exact hne _ hmem rfl
        · simp at hmem
    · simp only [DeskflowClient.perform, pressKey_eq]
      exact Alike.refl _
  · have hone : ∀ bit ∈ kModBits, (u32 (i16 bit.toNat).toInt) = bit :=
      List.all_iff_forall_prop.mp (by decide)
    have hmem : ∀ bit ∈ kModBits, (maskModifierKeysym bit, true) ∈ modifierRequests bit :=
      List.all_iff_forall_prop.mp (by decide)
    have honly : ∀ bit ∈ kModBits, (modifierRequests bit).all (fun q => q.2 = true →
        q.1 = maskModifierKeysym bit ∧ (q.1, false) ∉ modifierRequests bit) = true :=
      List.all_iff_forall_prop.mp (by decide)
    refine ⟨.cinn (-1) (-1) 0 (i16 bit.toNat), ⟨by simp [Message.args], ?_⟩, rfl, ?_, ?_,
      fun c => ?_⟩
    · rw [Message.length_payload]
      simp [Message.key, Key.argDirectives, Message.args, writeDirectives, putInt_of_width]
    · simpa only [Message.keyRequests, hone bit hbit] using hmem bit hbit
    · intro k hk
      simp only [Message.keyRequests, hone bit hbit] at hk ⊢
      exact List.all_iff_forall_prop.mp (honly bit hbit) _ hk rfl
    · have hset : Alike c { c with active := true, seqNum := 0 } :=
        ⟨rfl, rfl, rfl, fun _ _ => rfl, rfl, .inl rfl, ⟨rfl, rfl, rfl⟩⟩
      simp only [DeskflowClient.perform, enterScreen, syncModifiers_eq]
      rw [if_neg (by decide)]
      exact (hset.foldl_requestKey _).trans (Alike.emit_unobserved rfl _)

theorem injectMouseButton_observed {k : Int} {c : DeskflowClient} (h : (buttonToHarmony k).isSome)
    (hi : c.world.injections = []) :
    ∃ e ∈ (c.injectMouseButton k false).2.world.log, e.isObserved := by
  obtain ⟨b, hb⟩ := Option.isSome_iff_exists.mp h
  unfold injectMouseButton
  rw [hb]
  simp only [inject, World.inject, hi, World.emit]
  exact ⟨_, List.mem_append_right _ (List.mem_singleton_self _), rfl⟩

theorem foldl_injectMouseButton_mouseOnly (es : List (Int × Bool)) (c : DeskflowClient) :
    MouseOnly c (es.foldl (fun c e => (c.injectMouseButton e.1 false).2) c) := by
  induction es generalizing c with
  | nil => exact .refl c
  | cons e es ih => exact (injectMouseButton_mouseOnly e.1 false c).trans (ih _)

theorem leaveScreen_observed {c : DeskflowClient} (h : Carried c) (hi : c.world.injections = [])
    (hdown : c.buttonsDown ≠ []) : ∃ e ∈ c.leaveScreen.world.log, e.isObserved := by
  obtain ⟨b, bs, hb⟩ := List.exists_cons_of_ne_nil hdown
  have hmem : b ∈ c.buttonsDown := by simp [hb]
  obtain ⟨e, he, hobs⟩ := injectMouseButton_observed (c := { c with active := false })
    (h.buttons b (List.mem_filter.mp hmem).1) hi
  obtain ⟨es, hes, -⟩ := (foldl_injectMouseButton_mouseOnly bs
    ({ c with active := false }.injectMouseButton b.1 false).2).world.log
  refine ⟨e, ?_, hobs⟩
  rw [Alike.leaveScreen_eq, hb, List.foldl_cons]
  simp only [setStatus, emit, World.emit, hes]
  exact List.mem_append_left _ (List.mem_append_left _ he)

theorem leaveScreen_silent {c : DeskflowClient} (hdown : c.buttonsDown = []) :
    observed c.leaveScreen.world.log = observed c.world.log := by
  rw [Alike.leaveScreen_eq, hdown]
  exact (World.Alike.emit_unobserved rfl c.world).observed

/-- Chunks of one byte and the end of the transfer. -/
def completion (more : Bytes) : List Message :=
  more.map (fun b => .dclp 0 0 2 [b]) ++ [.dclp 0 0 3 []]

theorem completion_wellFormed {more : Bytes} {m : Message} (h : m ∈ completion more) :
    m.WellFormed ∧ m.terminating = false := by
  have hlen (mark : UInt8) (data : Bytes) (hdata : data.length ≤ 1) :
      (Message.dclp 0 0 mark data).WellFormed := by
    refine ⟨by simp [Message.args]; omega, ?_⟩
    rw [Message.length_payload]
    simp [Message.key, Key.argDirectives, Message.args, writeDirectives, putInt_of_width, putSized]
    omega
  rcases List.mem_append.mp h with h | h
  · obtain ⟨b, -, rfl⟩ := List.mem_map.mp h
    exact ⟨hlen 2 [b] (by simp), rfl⟩
  · rw [List.mem_singleton.mp h]
    exact ⟨hlen 3 [] (by simp), rfl⟩

theorem clipboardChunk_append (xs ys : Bytes) (c : DeskflowClient) :
    (c.clipboardChunk xs).clipboardChunk ys = c.clipboardChunk (xs ++ ys) := by
  unfold clipboardChunk
  by_cases hactive : c.clipChunk.active = true
  · simp [hactive, List.append_assoc]
  · simp [hactive]

theorem clipboardChunk_nil (c : DeskflowClient) : c.clipboardChunk [] = c := by
  unfold clipboardChunk
  rw [List.append_nil, ite_self]

theorem performAll_completion (more : Bytes) (c : DeskflowClient) :
    c.performAll (completion more) = (c.clipboardChunk more).clipboardEnd := by
  induction more generalizing c with
  | nil =>
    rw [clipboardChunk_nil]
    rfl
  | cons b bs ih =>
    rw [← List.singleton_append, ← clipboardChunk_append, ← ih]
    rfl

theorem completion_observed {c : DeskflowClient} (h : ¬c.Mute) :
    ∃ more, ∃ e ∈ (c.performAll (completion more)).world.log, e.isObserved := by
  simp only [Mute, Classical.not_imp, not_forall] at h
  obtain ⟨hsync, hactive, more, htext⟩ := h
  refine ⟨more, .clipboard (unmarshalText (c.clipChunk.buffer ++ more)), ?_, rfl⟩
  rw [performAll_completion]
  simp [clipboardChunk, clipboardEnd, hactive, hsync, htext, emit, World.emit]

theorem completion_silent {c : DeskflowClient} (h : c.clipChunk.active = false) (more : Bytes) :
    c.performAll (completion more) = c := by
  rw [performAll_completion]
  simp [clipboardChunk, clipboardEnd, h]

theorem clean_of_effects {c : DeskflowClient} (hcarried : Carried c) (hgreets : c.Greets)
    (hbuf : c.stream.buffer.unread = [])
    (h : ∀ ms, effects {} ⟨true, [.data (serverBytes ms)], []⟩ c.renewed =
      effects {} ⟨true, [.data (serverBytes ms)], []⟩ c) : c.Clean := by
  have hsame (ms : List Message) (hwell : ∀ m ∈ ms, m.WellFormed)
      (hms : ∀ m ∈ ms, m.terminating = false) :
      observed ((c.renewed.facing {}).performAll ms).world.log =
        observed ((c.facing {}).performAll ms).world.log := by
    rw [← effects_serverBytes hgreets hbuf hwell hms, ← h,
      effects_serverBytes (c := c.renewed) hgreets rfl hwell hms]
  have hnone {d d' : DeskflowClient} (hd : observed d'.world.log = observed d.world.log)
      (hd' : observed d'.world.log = []) : ¬∃ e ∈ d.world.log, e.isObserved := by
    rintro ⟨e, he, hobs⟩
    have hmem : e ∈ observed d.world.log := List.mem_filter.mpr ⟨he, hobs⟩
    rw [← hd, hd'] at hmem
    cases hmem
  refine ⟨fun id hid => ?_, ?_, ?_⟩
  · by_contra hcode
    rw [Int.not_lt] at hcode
    obtain ⟨m, hwell, hterm, hmem, honly, halike⟩ := exists_press (hcarried.keys id hid)
    have hlog := hsame [m] (by simpa using hwell) (by simpa using hterm)
    have hfold := (halike (c.renewed.facing {})).world.observed.symm.trans
      (hlog.trans (halike (c.facing {})).world.observed)
    obtain ⟨e, he, hpress⟩ := foldl_requestKey_press (c := c.renewed.facing {}) (fun _ _ => rfl) rfl
      hmem hcode
    obtain ⟨es, hes, hquiet⟩ := @foldl_requestKey_no_press m.keyRequests (c.facing {})
      fun k hk => ⟨by rw [(honly k hk).1]; exact hid, (honly k hk).2⟩
    have hobs := List.mem_filter.mpr ⟨he, isObserved_of_isPress hpress⟩
    change e ∈ observed _ at hobs
    rw [hfold, hes] at hobs
    have hnot := hquiet e (List.mem_filter.mp hobs).1
    simp [hpress] at hnot
  · by_contra hdown
    have hwell : Message.cout.WellFormed := ⟨by simp [Message.args], by decide +kernel⟩
    have hlog := hsame [.cout] (fun m hm => List.mem_singleton.mp hm ▸ hwell)
      fun m hm => List.mem_singleton.mp hm ▸ rfl
    exact hnone hlog (leaveScreen_silent rfl)
      (leaveScreen_observed (c := c.facing {}) ⟨hcarried.keys, hcarried.buttons⟩ rfl hdown)
  · by_contra hmute
    obtain ⟨more, hobs⟩ := completion_observed (c := c.facing {}) hmute
    have hlog := hsame (completion more) (fun m hm => (completion_wellFormed hm).1)
      fun m hm => (completion_wellFormed hm).2
    refine hnone hlog ?_ hobs
    rw [completion_silent rfl]
    rfl

/-- A new connection gives the same injections and clipboard callbacks as with a
fresh client, whatever the server sends, exactly if nothing recorded on earlier
ones can make a difference; a client whose `HelloBack` is too long never gets far
enough to tell. -/
theorem effects_renewed_iff (injections : List InjectOutcome) (actions : List Action)
    (hready : ((System.initial injections).run actions).phase = .ready) :
    (∀ a conn conn', conn'.reachable = conn.reachable →
      arriving conn'.recvs = arriving conn.recvs → Accepting conn.sends → Accepting conn'.sends →
      effects a conn' ((System.initial injections).run actions).client.renewed =
        effects a conn ((System.initial injections).run actions).client) ↔
    (((System.initial injections).run actions).client.Greets →
      ((System.initial injections).run actions).client.Clean) := by
  have hlife : Life injections ((System.initial injections).run actions).client := ⟨actions, rfl⟩
  have hcarried := hlife.moves.carried (fresh_carried injections)
  have hbuf := (System.settled_run injections actions).unread (.inr (.inl hready))
  constructor
  · intro h hgreets
    refine clean_of_effects hcarried hgreets hbuf fun ms => ?_
    exact h {} _ _ rfl rfl (by simp [Accepting]) (by simp [Accepting])
  · intro h a conn conn' hreach hrecvs hsends hsends'
    by_cases hgreets : ((System.initial injections).run actions).client.Greets
    · exact effects_of_alike (fun a => alike_renewed (h hgreets) a) rfl hbuf rfl hreach hrecvs
        hsends hsends' a
    · rw [effects_of_not_greets hgreets, effects_of_not_greets (c := renewed _) hgreets]

/-- A key pressed and released on the first connection leaves no trace on the second. -/
theorem effects_renewed_released :
    effects {} ⟨true, [.data (serverBytes [.dkdn 97 0 38])], []⟩ ((System.initial []).run
        (System.serving [.dkdn 97 0 38, .dkup 97 0 38] 10)).client.renewed =
      effects {} ⟨true, [.data (serverBytes [.dkdn 97 0 38])], []⟩ ((System.initial []).run
        (System.serving [.dkdn 97 0 38, .dkup 97 0 38] 10)).client := by
  let actions := System.serving [.dkdn 97 0 38, .dkup 97 0 38] 10
  let c := ((System.initial []).run actions).client
  have hlife : Life [] c := ⟨actions, rfl⟩
  have hkeys := (hlife.moves.tracksKeys fresh_tracksKeys).keyStates
  have hhandled : c.handled = [.dkdn 97 0 38, .dkup 97 0 38] := by decide +kernel
  rw [hhandled] at hkeys
  have hready : ((System.initial []).run actions).phase = .ready := by decide +kernel
  have hclean : c.Clean := by
    refine ⟨fun id hid => ?_, ?_, ?_⟩
    · rw [hkeys] at hid
      have hone : ∀ q ∈ keyRequests [.dkdn 97 0 38, .dkup 97 0 38], q.2 = true → q.1 = 97 :=
        List.all_iff_forall_prop.mp (by decide)
      obtain rfl : id = 97 := hone _ (mem_of_level hid) rfl
      revert hid
      decide
    · have hbuttons : c.mouseButtonsDown.entries = [] := by decide +kernel
      rw [buttonsDown, hbuttons, List.filter_nil]
    · have hactive : c.clipChunk.active = false := by decide +kernel
      intro _ h
      simp [hactive] at h
  exact (effects_renewed_iff [] actions hready).mpr (fun _ => hclean) {} _ _ rfl rfl
    (by simp [Accepting]) (by simp [Accepting])

/-- A key that stayed down is not pressed again on the next connection. -/
theorem effects_not_renewed : ∃ injections actions,
    ((System.initial injections).run actions).phase = .ready ∧
    ¬∀ a conn conn', conn'.reachable = conn.reachable →
      arriving conn'.recvs = arriving conn.recvs → Accepting conn.sends → Accepting conn'.sends →
      effects a conn' ((System.initial injections).run actions).client.renewed =
        effects a conn ((System.initial injections).run actions).client := by
  refine ⟨[], System.serving [.dkdn 97 0 38] 8, by decide +kernel, fun h => ?_⟩
  let conn : Connection := ⟨true, [.data (serverBytes [.dkdn 97 0 38])], []⟩
  have heq := h {} conn conn rfl rfl (by simp [conn, Accepting]) (by simp [conn, Accepting])
  revert heq
  decide +kernel

end DeskflowClient

end Deskflow
