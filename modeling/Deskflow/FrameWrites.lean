import Deskflow.SharedChannel
import Deskflow.StreamDecoding

/-! Both threads write their frames to one socket, send by send: the worker's
replies and the uploads of the JS thread. -/

namespace Deskflow

inductive Thread
  | worker
  | js
  deriving DecidableEq, Repr

instance : Fintype Thread := ⟨{.worker, .js}, fun t => by cases t <;> decide⟩

/-- A `pushClipboard` call that has passed its tests, with the session numbers that
`grabClipboard` and `sendClipboard` read. -/
structure Upload where
  grabSeq : UInt32
  seq : UInt32
  text : Bytes

def Upload.frames (u : Upload) : List Outgoing :=
  .cclp 0 u.grabSeq :: DeskflowClient.transferFrames u.seq u.text

/-- The arguments of the `writeAll` calls of one `writeFrame` call. -/
def writeArguments (o : Outgoing) : List Bytes :=
  if o.payload.length > 4 * 1024 * 1024 then []
  else [BigEndian.encode 4 o.payload.length, o.payload]

theorem flatten_writeArguments (o : Outgoing) : (writeArguments o).flatten =
    if o.payload.length > 4 * 1024 * 1024 then [] else frameBytes o.payload := by
  unfold writeArguments
  split_ifs
  · rfl
  · simp [frameBytes]

abbrev Socket := SharedChannel Thread Outgoing UInt8

namespace Socket

open SharedChannel

/-- The frames each thread passes to `writeFrame`. -/
def program (replies : List Outgoing) (uploads : List Upload) : Thread → List Outgoing
  | .worker => replies
  | .js => uploads.flatMap Upload.frames

def initial (replies : List Outgoing) (uploads : List Upload) : Socket :=
  { queue := program replies uploads }

/-- The socket after sends of the threads, each with the number of bytes it may
take beyond the first. -/
def after (steps : List (Thread × Nat)) (σ : Socket) : Socket := σ.run writeArguments steps

end Socket

namespace Socket

open SharedChannel

theorem cut_replicate (k n : Nat) (b : UInt8) (bs : Bytes) (args : List Bytes) :
    cut k (List.replicate n [] ++ (b :: bs) :: args) =
      ((b :: bs).take (k + 1), (b :: bs).drop (k + 1) :: args) := by
  induction n with
  | zero => rfl
  | succ n ih => rw [List.replicate_succ, List.cons_append, cut, ih]

theorem send_of_left {t : Thread} {σ : Socket} {n : Nat} {data : Bytes} {args : List Bytes}
    (hleft : σ.left t = List.replicate n [] ++ data :: args) (hdata : data ≠ []) (k : Nat) :
    σ.send writeArguments t k = ⟨σ.wire ++ data.take (k + 1), σ.queue,
      Function.update σ.left t (data.drop (k + 1) :: args)⟩ := by
  obtain ⟨b, bs, rfl⟩ := List.exists_cons_of_ne_nil hdata
  have hbusy : σ.busy t = true := by simp [busy, hleft]
  rw [SharedChannel.send, if_pos hbusy, hleft, cut_replicate]

/-- The loop of `writeAll` is a sequence of sends, one for each `send` call that
takes something. -/
theorem sendLoop_sends {data : Bytes} {ss : List Send} (h : Accepting ss) {t : Thread} {σ : Socket}
    {n : Nat} {args : List Bytes} (hleft : σ.left t = List.replicate n [] ++ data :: args) :
    ∃ (ks : List Nat) (m : Nat), σ.after (ks.map fun k => (t, k)) =
      ⟨σ.wire ++ (sendLoop data ss).2.1, σ.queue,
        Function.update σ.left t (List.replicate m [] ++ args)⟩ := by
  induction data, ss using sendLoop.induct generalizing σ n with
  | case1 ss =>
    refine ⟨[], n + 1, ?_⟩
    have hreplicate : List.replicate (n + 1) [] ++ args = σ.left t := by
      rw [hleft, List.replicate_succ', List.append_assoc]
      rfl
    rw [hreplicate, Function.update_eq_self]
    simp [sendLoop, after, SharedChannel.run]
  | case2 data hne =>
    obtain ⟨b, bs, rfl⟩ := List.exists_cons_of_ne_nil hne
    refine ⟨[bs.length], 1, ?_⟩
    rw [after, List.map_singleton, SharedChannel.run, List.foldl_cons, List.foldl_nil,
      send_of_left hleft hne]
    simp [sendLoop]
  | case3 data ss hne ih =>
    have hss : Accepting ss := fun s hs => h s (List.mem_cons_of_mem _ hs)
    obtain ⟨b, bs, rfl⟩ := List.exists_cons_of_ne_nil hne
    exact ih hss hleft
  | case4 data ss hne => exact absurd rfl (h .error (by simp))
  | case5 data k ss hne ih =>
    have hss : Accepting ss := fun s hs => h s (List.mem_cons_of_mem _ hs)
    obtain ⟨b, bs, rfl⟩ := List.exists_cons_of_ne_nil hne
    obtain ⟨ks, m, hks⟩ := ih hss (n := 0) (σ := σ.send writeArguments t k)
      (by rw [send_of_left hleft hne]; simp)
    refine ⟨k :: ks, m, ?_⟩
    rw [send_of_left hleft hne] at hks
    rw [after, List.map_cons, SharedChannel.run, List.foldl_cons, send_of_left hleft hne]
    simpa [sendLoop, after, SharedChannel.run] using hks

theorem send_begins {t : Thread} {σ : Socket} {o : Outgoing} {os : List Outgoing}
    (hidle : σ.busy t = false) (hqueue : σ.queue t = o :: os)
    (hargs : (writeArguments o).flatten ≠ []) (k : Nat) :
    σ.send writeArguments t k =
      SharedChannel.send writeArguments t k
        { σ with
          queue := Function.update σ.queue t os
          left := Function.update σ.left t (writeArguments o) } := by
  have hbusy : SharedChannel.busy t
      { σ with
        queue := Function.update σ.queue t os
        left := Function.update σ.left t (writeArguments o) } = true := by
    simpa [busy] using hargs
  rw [SharedChannel.send, SharedChannel.send, if_pos hbusy, hidle, if_neg (by simp), hqueue]
  simp

theorem after_append (steps steps' : List (Thread × Nat)) (σ : Socket) :
    σ.after (steps ++ steps') = (σ.after steps).after steps' := List.foldl_append

/-- A thread that nobody disturbs does to the socket what `writeFrame` does. -/
theorem writeFrame_sends {s : SocketStream} (hconn : s.connected) (hsends : Accepting s.sends)
    {t : Thread} {σ : Socket} {o : Outgoing} {os : List Outgoing} (hidle : σ.busy t = false)
    (hqueue : σ.queue t = o :: os) (hlen : o.payload.length ≤ 4 * 1024 * 1024)
    (hwire : σ.wire = s.wire) :
    ∃ ks : List Nat,
      (σ.after (ks.map fun k => (t, k))).wire = (s.writeFrame o.payload).2.wire ∧
      (σ.after (ks.map fun k => (t, k))).queue = Function.update σ.queue t os ∧
      (σ.after (ks.map fun k => (t, k))).busy t = false := by
  let lenb := BigEndian.encode 4 o.payload.length
  have hargs : writeArguments o = [lenb, o.payload] := if_neg (Nat.not_lt.mpr hlen)
  have hlenb : lenb.length = 4 := BigEndian.length_encode 4 _
  let begun : Socket := { σ with
    queue := Function.update σ.queue t os
    left := Function.update σ.left t (writeArguments o) }
  obtain ⟨-, hout₁, hsends₁⟩ := sendLoop_of_accepting lenb hsends
  obtain ⟨-, hout₂, -⟩ := sendLoop_of_accepting o.payload hsends₁
  have hlenb₁ : begun.left t = List.replicate 0 [] ++ lenb :: [o.payload] := by
    simp [begun, hargs]
  obtain ⟨ks₁, m₁, hks₁⟩ := sendLoop_sends hsends hlenb₁
  rw [hout₁] at hks₁
  have hpayload : (begun.after (ks₁.map fun k => (t, k))).left t =
      List.replicate m₁ [] ++ o.payload :: [] := by
    simp [hks₁]
  obtain ⟨ks₂, m₂, hks₂⟩ := sendLoop_sends hsends₁ hpayload
  rw [hout₂] at hks₂
  have hbegun : σ.after (ks₁.map fun k => (t, k)) = begun.after (ks₁.map fun k => (t, k)) := by
    cases ks₁ with
    | nil =>
      have hempty := congrArg (fun σ : Socket => σ.wire.length) hks₁
      simp [after, SharedChannel.run, hlenb] at hempty
    | cons k ks =>
      have hwrites : (writeArguments o).flatten ≠ [] := by
        simp [hargs, lenb, ← List.length_eq_zero_iff, hlenb]
      have hfirst := send_begins hidle hqueue hwrites k
      rw [after, after, List.map_cons, SharedChannel.run, SharedChannel.run, List.foldl_cons,
        List.foldl_cons, hfirst]
  refine ⟨ks₁ ++ ks₂, ?_, ?_, ?_⟩
  all_goals rw [List.map_append, after_append, hbegun, hks₂]
  · rw [(SocketStream.writeFrame_of_accepting hconn hsends hlen).2.1, hks₁, ← hwire, frameBytes,
      List.append_assoc]
  · rw [hks₁]
  · simp [busy]

end Socket

namespace DeskflowClient

theorem write_stream (o : Outgoing) (c : DeskflowClient) :
    (c.write o).2.stream = (c.stream.writeFrame o.payload).2 := by
  unfold write
  dsimp only
  split_ifs <;> rfl

theorem write_of_ok {o : Outgoing} {c : DeskflowClient} (h : (c.write o).1 = true) :
    (c.write o).2.stream.wire = c.stream.wire ++ frameBytes o.payload ∧
      (c.write o).2.world.log = c.world.log ++ [.frame o] := by
  have hok : (c.stream.writeFrame o.payload).1 = true := h
  refine ⟨?_, write_framed h⟩
  rw [write_stream, SocketStream.writeFrame_of_ok hok]

theorem writeAll_of_ok {os : List Outgoing} {c : DeskflowClient} (h : (c.writeAll os).1 = true) :
    (c.writeAll os).2.stream.wire = c.stream.wire ++ os.flatMap (fun o => frameBytes o.payload) ∧
      (c.writeAll os).2.world.log = c.world.log ++ os.map .frame := by
  induction os generalizing c with
  | nil => simp [writeAll]
  | cons o os ih =>
    rcases hw : c.write o with ⟨ok, c'⟩
    rw [writeAll, hw] at h ⊢
    cases ok with
    | false => cases h
    | true =>
      obtain ⟨hwire, hlog⟩ := write_of_ok (congrArg Prod.fst hw)
      obtain ⟨hwires, hlogs⟩ := ih h
      rw [hw] at hwire hlog
      dsimp only at hwire hlog hwires hlogs ⊢
      rw [hwires, hlogs, hwire, hlog]
      simp

theorem writeAll_of_ready {os : List Outgoing} {c : DeskflowClient} (h : Ready c)
    (hfit : ∀ o ∈ os, o.payload.length ≤ 4 * 1024 * 1024) :
    (c.writeAll os).1 = true ∧ Ready (c.writeAll os).2 := by
  induction os generalizing c with
  | nil => exact ⟨rfl, h⟩
  | cons o os ih =>
    obtain ⟨hok, hready⟩ := write_of_ready h (hfit o (by simp))
    rcases hw : c.write o with ⟨ok, c'⟩
    rw [hw] at hok hready
    obtain rfl : ok = true := hok
    rw [writeAll, hw]
    exact ih hready fun o ho => hfit o (List.mem_cons_of_mem _ ho)

theorem sendClipboard_of_done {c : DeskflowClient} {text : Bytes} (hdone : c.handshakeDone = true)
    (htext : text ≠ []) :
    c.sendClipboard text =
      { c with lastClipboardText := text }.writeAll (transferFrames c.seqNum text) := by
  rw [sendClipboard, if_neg (by simp [hdone, htext])]

theorem sendClipboard_of_ready {c : DeskflowClient} (h : Ready c) {text : Bytes}
    (hdone : c.handshakeDone = true) (htext : text ≠ [])
    (hfit : ∀ o ∈ transferFrames c.seqNum text, o.payload.length ≤ 4 * 1024 * 1024) :
    (c.sendClipboard text).1 = true := by
  have hready : Ready { c with lastClipboardText := text } := ⟨h.connected, h.accepting⟩
  rw [sendClipboard_of_done hdone htext]
  exact (writeAll_of_ready hready hfit).1

theorem sendClipboard_of_ok {c : DeskflowClient} {text : Bytes}
    (hok : (c.sendClipboard text).1 = true) :
    c.handshakeDone = true ∧ text ≠ [] ∧
      (c.sendClipboard text).2.stream.wire = c.stream.wire ++
        (transferFrames c.seqNum text).flatMap (fun o => frameBytes o.payload) ∧
      (c.sendClipboard text).2.world.log =
        c.world.log ++ (transferFrames c.seqNum text).map .frame := by
  have hgo : (!c.handshakeDone || text.isEmpty) = false := by
    by_contra hrefused
    rw [Bool.not_eq_false] at hrefused
    rw [sendClipboard, if_pos hrefused] at hok
    cases hok
  obtain ⟨hdone, htext⟩ : c.handshakeDone = true ∧ text ≠ [] := by simpa using hgo
  rw [sendClipboard_of_done hdone htext] at hok ⊢
  obtain ⟨hwire, hlog⟩ := writeAll_of_ok hok
  exact ⟨hdone, htext, hwire, hlog⟩

theorem sendClipboard_wire {c : DeskflowClient} (h : Ready c) {text : Bytes}
    (hdone : c.handshakeDone = true) (htext : text ≠ [])
    (hfit : ∀ o ∈ transferFrames c.seqNum text, o.payload.length ≤ 4 * 1024 * 1024) :
    (c.sendClipboard text).2.stream.wire =
      c.stream.wire ++ (transferFrames c.seqNum text).flatMap fun o => frameBytes o.payload :=
  (sendClipboard_of_ok (sendClipboard_of_ready h hdone htext hfit)).2.2.1

/-- Where no write fails, a call puts the frames of its upload on the wire. -/
theorem pushClipboard_wire {c : DeskflowClient} (h : Ready c) {text : Bytes}
    (hsync : c.clipboardSync = true) (hdone : c.handshakeDone = true) (htext : text ≠ [])
    (hfit : ∀ o ∈ Upload.frames ⟨c.seqNum, c.seqNum, text⟩, o.payload.length ≤ 4 * 1024 * 1024) :
    (c.pushClipboard text).stream.wire = c.stream.wire ++
      (Upload.frames ⟨c.seqNum, c.seqNum, text⟩).flatMap fun o => frameBytes o.payload := by
  have hgrab : c.grabClipboard = c.write (.cclp 0 c.seqNum) := by
    rw [grabClipboard, hdone]
    rfl
  rw [Upload.frames] at hfit ⊢
  have hcclp : (Outgoing.cclp 0 c.seqNum).payload.length ≤ 4 * 1024 * 1024 := hfit _ (by simp)
  have hwire := (SocketStream.writeFrame_of_accepting h.connected h.accepting hcclp).2.1
  rw [← write_stream] at hwire
  have hseq : (c.write (.cclp 0 c.seqNum)).2.seqNum = c.seqNum := by
    unfold write
    dsimp only
    split_ifs <;> rfl
  have hdone' : (c.write (.cclp 0 c.seqNum)).2.handshakeDone = true := by
    unfold write
    dsimp only
    split_ifs <;> exact hdone
  have hempty : text.isEmpty = false := by simpa using htext
  have hsend := sendClipboard_wire (write_of_ready h hcclp).2 hdone' htext
    (by rw [hseq]; exact fun o ho => hfit o (List.mem_cons_of_mem _ ho))
  rw [hseq, hwire] at hsend
  rw [pushClipboard, hsync, hdone, hempty, if_neg (by simp), hgrab, hsend, List.flatMap_cons,
    List.append_assoc]

end DeskflowClient

/-- Frame after frame is read and nothing remains. -/
inductive Split : Bytes → List Bytes → Prop
  | nil : Split [] []
  | cons {bs frame rest : Bytes} {frames : List Bytes} :
      readFrame.run bs = (some frame, rest) → Split rest frames → Split bs (frame :: frames)

theorem split_flatMap {payloads : List Bytes} (h : ∀ p ∈ payloads, p.length ≤ 4 * 1024 * 1024) :
    Split (payloads.flatMap frameBytes) payloads := by
  induction payloads with
  | nil => exact .nil
  | cons p ps ih =>
    rw [List.flatMap_cons]
    exact .cons (readFrame_frameBytes (h p (by simp)) _)
      (ih fun p hp => h p (List.mem_cons_of_mem _ hp))

theorem flatMap_writeArguments (order : List (Thread × Outgoing)) :
    order.flatMap (fun entry => (writeArguments entry.2).flatten) =
      ((order.map fun entry => entry.2.payload).filter fun payload =>
        payload.length ≤ 4 * 1024 * 1024).flatMap frameBytes := by
  induction order with
  | nil => rfl
  | cons entry order ih =>
    rw [List.flatMap_cons, List.map_cons, flatten_writeArguments, ih]
    by_cases hfit : entry.2.payload.length ≤ 4 * 1024 * 1024
    · rw [if_neg (Nat.not_lt.mpr hfit), List.filter_cons_of_pos (by simpa using hfit),
        List.flatMap_cons]
    · rw [if_pos (Nat.not_le.mp hfit), List.filter_cons_of_neg (by simpa using hfit),
        List.nil_append]

namespace Socket

open SharedChannel

/-- What the server has received, completed by what is left of the frame under
way, splits into exactly the frames that were passed to `writeFrame` and not
refused there, in an order that keeps that of each thread. -/
def Delivered (program : Thread → List Outgoing) (σ : Socket) : Prop :=
  ∃ (order : List (Thread × Outgoing)) (tail : Bytes),
    (∀ t, own t order ++ σ.queue t = program t) ∧
    Split (σ.wire ++ tail) ((order.map fun entry => entry.2.payload).filter fun payload =>
      payload.length ≤ 4 * 1024 * 1024) ∧
    (∀ t, σ.busy t = true → (σ.left t).flatten = tail) ∧ ((∀ t, σ.busy t = false) → tail = [])

/-- In every run in which no thread sends while a frame of the other is partly
sent, the server receives whole frames. -/
theorem delivered_of_exclusive (replies : List Outgoing) (uploads : List Upload)
    (steps : List (Thread × Nat))
    (h : Exclusive writeArguments steps (initial replies uploads)) :
    Delivered (program replies uploads) ((initial replies uploads).after steps) := by
  have hwhole : Whole writeArguments (program replies uploads) (initial replies uploads) :=
    whole_initial _
  obtain ⟨order, tail, hown, hwire, hbusy, hidle⟩ := hwhole.run h
  rw [flatMap_writeArguments] at hwire
  refine ⟨order, tail, hown, ?_, hbusy, hidle⟩
  change Split (((initial replies uploads).run writeArguments steps).wire ++ tail) _
  rw [hwire]
  exact split_flatMap fun payload hp => by simpa using (List.mem_filter.mp hp).2

/-- A reply between two frames of an upload, each in several sends. -/
theorem delivered_reply_between_frames :
    Delivered (program [.calv, .cnop] [⟨0, 0, ascii "hi"⟩])
      ((initial [.calv, .cnop] [⟨0, 0, ascii "hi"⟩]).after
        [(.worker, 1), (.worker, 1), (.worker, 3), (.js, 3), (.js, 20), (.worker, 3), (.worker, 9),
          (.js, 0), (.js, 5)]) :=
  delivered_of_exclusive _ _ _ (by decide +kernel)

/-- The length prefixes of a `CNOP` and of a `CCLP` one after the other. -/
theorem not_delivered : ∃ replies uploads steps,
    ¬Delivered (program replies uploads) ((initial replies uploads).after steps) := by
  let steps : List (Thread × Nat) := [(.worker, 3), (.js, 3), (.worker, 99), (.js, 99)] ++
    List.replicate 6 (.js, 99)
  refine ⟨[.cnop], [⟨0, 0, ascii "hi"⟩], steps, ?_⟩
  rintro ⟨order, tail, hown, hsplit, -, hidle⟩
  have hquiet : ∀ t,
      SharedChannel.busy t ((initial [.cnop] [⟨0, 0, ascii "hi"⟩]).after steps) = false := by
    decide +kernel
  have hother : ∀ t, ∀ o ∈ program [.cnop] [⟨0, 0, ascii "hi"⟩] t, o.payload ≠ [0, 0, 0, 9] := by
    decide +kernel
  have hfirst : (readFrame.run ((initial [.cnop] [⟨0, 0, ascii "hi"⟩]).after steps).wire).1 =
      some [0, 0, 0, 9] := by
    decide +kernel
  rw [hidle hquiet, List.append_nil] at hsplit
  generalize hbs : ((initial [.cnop] [⟨0, 0, ascii "hi"⟩]).after steps).wire = bs at hsplit hfirst
  generalize hframes : (order.map fun entry => entry.2.payload).filter _ = frames at hsplit
  cases hsplit with
  | nil => revert hfirst; decide
  | @cons _ frame rest frames hread _ =>
    rw [hread, Option.some.injEq] at hfirst
    have hmem : frame ∈ order.map fun entry => entry.2.payload :=
      (List.mem_filter.mp (hframes ▸ List.mem_cons_self ..)).1
    obtain ⟨entry, hentry, hpayload⟩ := List.mem_map.mp hmem
    have hown' := hown entry.1
    exact hother entry.1 entry.2 (hown' ▸ List.mem_append_left _ (mem_own hentry))
      (hpayload.trans hfirst)

end Socket

end Deskflow
