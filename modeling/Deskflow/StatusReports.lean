import Deskflow.Leftovers
import Deskflow.Reconnection
import Deskflow.StatusText

/-! What the page shows of the texts that a client reports, handler by handler. -/

namespace Deskflow

open History

/-- The state shown, and whether the client is inside a session: the handshake has
succeeded on the current connection and `runOnce` has not returned from it. -/
structure Panel where
  shown : ConnState
  session : Bool
  deriving DecidableEq, Repr

namespace Panel

def after (p : Panel) : Event → Panel
  | .status s => { p with shown := mapStatus p.shown s }
  | .connected => { p with session := false }
  | .returned => { p with session := false }
  | .frame o => if o.isHelloBack then { p with session := true } else p
  | _ => p

end Panel

def panel (log : List Event) : Panel := log.foldl Panel.after ⟨.disconnected, false⟩

theorem panel_concat (log : List Event) (e : Event) :
    panel (log ++ [e]) = (panel log).after e := List.foldl_append

/-- The texts that report the end of a connection. -/
def EndReport (s : Bytes) : Prop :=
  s = ascii "disconnected" ∨ s = ascii "closed by server" ∨ ascii "error: " <+: s

/-- At every status the page shows a connection exactly inside a session whose end
it does not report, and a dial as such. -/
def Truthful : List Event → Prop :=
  Throughout fun pre e => ∀ s, e = .status s →
    ((panel (pre ++ [e])).shown = .connected ↔ (panel pre).session = true ∧ ¬EndReport s) ∧
      (ascii "connecting to " <+: s → (panel (pre ++ [e])).shown = .connecting)

/-- An event that the panel depends on. -/
def Event.isSignal : Event → Bool
  | .status _ => true
  | .connected => true
  | .returned => true
  | .frame o => o.isHelloBack
  | _ => false

theorem Event.not_isSignal_of_isMouse {e : Event} (h : e.isMouse) : e.isSignal = false := by
  cases e <;> simp_all [isMouse, isSignal]

theorem Event.not_isSignal_of_isKey {e : Event} (h : e.isKey) : e.isSignal = false := by
  cases e <;> simp_all [isKey, isSignal]

theorem Panel.after_of_not_isSignal {e : Event} (h : e.isSignal = false) (p : Panel) :
    p.after e = p := by
  cases e <;> simp_all [Event.isSignal, Panel.after]

namespace EndReport

variable {s : Bytes}

theorem mapStatus_ne (h : EndReport s) (connState : ConnState) :
    mapStatus connState s ≠ .connected := by
  rcases h with rfl | rfl | ⟨rest, rfl⟩
  · cases connState <;> decide +kernel
  · cases connState <;> decide +kernel
  · rw [mapStatus_error]
    exact ConnState.noConfusion

theorem not_dial (h : EndReport s) : ¬ascii "connecting to " <+: s := by
  rcases h with rfl | rfl | ⟨rest, rfl⟩
  · decide
  · decide
  · exact fun hpre => absurd (List.cons_prefix_cons.mp hpre).1 (by decide)

theorem error (h : ascii "error: " <+: s) : EndReport s := .inr (.inr h)

theorem append (h : ascii "error: " <+: s) (rest : Bytes) : ascii "error: " <+: s ++ rest :=
  h.trans (List.prefix_append _ _)

end EndReport

structure Shows (p : Panel) (log : List Event) : Prop where
  truthful : Truthful log
  panel : panel log = p

namespace Shows

variable {p : Panel} {log log' : List Event} {connState connState' : ConnState} {session : Bool}
  {s : Bytes}

theorem quiet (h : Shows p log) (hgrows : Grows (fun e => e.isSignal = false) log log') :
    Shows p log' := by
  have hstatus (pre : List Event) (e : Event) (he : e.isSignal = false) : ∀ s, e = .status s →
      ((Deskflow.panel (pre ++ [e])).shown = .connected ↔
        (Deskflow.panel pre).session = true ∧ ¬EndReport s) ∧
      (ascii "connecting to " <+: s → (Deskflow.panel (pre ++ [e])).shown = .connecting) := by
    rintro s rfl
    cases he
  refine ⟨(hgrows.throughout_iff hstatus).mpr h.truthful, ?_⟩
  obtain ⟨es, rfl, hes⟩ := hgrows
  induction es using List.reverseRecOn with
  | nil => rw [List.append_nil, h.panel]
  | append_singleton es e ih =>
    rw [← List.append_assoc, panel_concat, ih fun e he => hes e (List.mem_append_left _ he),
      Panel.after_of_not_isSignal (hes e (by simp))]

theorem mark (h : Shows p log) {e : Event} (he : ∀ s, e ≠ .status s) :
    Shows (p.after e) (log ++ [e]) :=
  ⟨throughout_concat.mpr ⟨h.truthful, fun s hs => absurd hs (he s)⟩, by rw [panel_concat, h.panel]⟩

theorem status (h : Shows ⟨connState, session⟩ log) (hmap : mapStatus connState s = connState')
    (hconn : connState' = .connected ↔ session = true ∧ ¬EndReport s)
    (hdial : ascii "connecting to " <+: s → connState' = .connecting) :
    Shows ⟨connState', session⟩ (log ++ [.status s]) := by
  have hpanel : Deskflow.panel (log ++ [.status s]) = ⟨connState', session⟩ := by
    rw [panel_concat, h.panel, ← hmap]
    rfl
  refine ⟨throughout_concat.mpr ⟨h.truthful, fun s' hs => ?_⟩, hpanel⟩
  obtain rfl : s = s' := by simpa using hs
  rw [hpanel, h.panel]
  exact ⟨hconn, hdial⟩

theorem ending (h : Shows p log) (hs : EndReport s) :
    ∃ connState, Shows ⟨connState, p.session⟩ (log ++ [.status s]) := by
  refine ⟨_, h.status rfl ?_ fun hdial => absurd hdial hs.not_dial⟩
  exact iff_of_false (hs.mapStatus_ne _) fun hboth => hboth.2 hs

end Shows

namespace DeskflowClient

/-- Nothing was signalled. -/
def Quiet (c c' : DeskflowClient) : Prop :=
  Grows (fun e => e.isSignal = false) c.world.log c'.world.log

theorem MouseOnly.quiet {c c' : DeskflowClient} (h : MouseOnly c c') : Quiet c c' :=
  h.world.log.mono fun _ => Event.not_isSignal_of_isMouse

theorem KeyOnly.quiet {c c' : DeskflowClient} (h : KeyOnly c c') : Quiet c c' :=
  h.world.log.mono fun _ => Event.not_isSignal_of_isKey

theorem quiet_emit {e : Event} (h : e.isSignal = false) (c : DeskflowClient) :
    Quiet c (c.emit e) := .single (p := fun e : Event => e.isSignal = false) h _

theorem write_quiet {o : Outgoing} {c : DeskflowClient}
    (h : (c.write o).1 = true → o.isHelloBack = false) : Quiet c (c.write o).2 := by
  unfold write at h ⊢
  dsimp only at h ⊢
  split_ifs at h ⊢ with hok
  · exact quiet_emit (e := .frame o) (h hok) _
  · exact .refl _

theorem acknowledge_quiet (r : Bool × DeskflowClient) : Quiet r.2 (acknowledge r).2 := by
  unfold acknowledge
  split_ifs
  · exact write_quiet fun _ => rfl
  · exact .refl _

theorem clipboard_quiet (id : UInt8) (seq : UInt32) (mark : UInt8) (data : Bytes)
    (c : DeskflowClient) : Quiet c (c.perform (.dclp id seq mark data)).2 := by
  have hend : Quiet c c.clipboardEnd := by
    unfold clipboardEnd
    dsimp only
    split_ifs
    · exact .refl _
    · exact quiet_emit rfl _
    · exact .refl _
  simp only [perform]
  split_ifs
  · unfold clipboardStart
    dsimp only
    split_ifs <;> exact .refl _
  · unfold clipboardChunk
    split_ifs <;> exact .refl _
  · exact hend
  · exact .refl _

theorem enterScreen_shows {x y : Int16} {seq : UInt32} {mask : Int16} {c : DeskflowClient}
    (h : Shows ⟨.connected, true⟩ c.world.log) :
    Shows ⟨.connected, true⟩ (c.enterScreen x y seq mask).world.log := by
  let d := if 0 ≤ x.toInt ∧ 0 ≤ y.toInt then
    { c with active := true, seqNum := seq }.moveTo x.toInt y.toInt
    else { c with active := true, seqNum := seq }
  have hd : Quiet c d := by
    simp only [d]
    split_ifs
    · exact (injectMouseMove_mouseOnly x.toInt y.toInt _).quiet
    · exact .refl _
  have hkeys : Quiet c (d.syncModifiers (u32 mask.toInt)) :=
    hd.trans (syncModifiers_keyOnly _ d).quiet
  let text := ascii "active: control acquired, pointer at " ++ decimal x.toInt ++ ascii "," ++
    decimal y.toInt
  have hhead : ∃ rest, text = 97 :: rest := ⟨_, rfl⟩
  obtain ⟨rest, hrest⟩ := hhead
  refine (h.quiet hkeys).status (mapStatus_active x.toInt y.toInt .connected) ?_ ?_
  · refine iff_of_true rfl ⟨rfl, ?_⟩
    change ¬EndReport text
    rw [hrest]
    rintro (heq | heq | hpre)
    · exact absurd (List.cons.inj heq).1 (by decide)
    · exact absurd (List.cons.inj heq).1 (by decide)
    · exact absurd (List.cons_prefix_cons.mp hpre).1 (by decide)
  · change ascii "connecting to " <+: text → _
    rw [hrest]
    exact fun hpre => absurd (List.cons_prefix_cons.mp hpre).1 (by decide)

theorem leaveScreen_shows {c : DeskflowClient} (h : Shows ⟨.connected, true⟩ c.world.log) :
    Shows ⟨.connected, true⟩ c.leaveScreen.world.log := by
  have hbuttons : Quiet c _ :=
    (releaseButtons_mouseOnly c.mouseButtonsDown.entries { c with active := false }).quiet
  refine (h.quiet hbuttons).status (by decide +kernel) (iff_of_true rfl ⟨rfl, ?_⟩) ?_
  · rintro (heq | heq | hpre)
    · exact absurd heq (by decide)
    · exact absurd heq (by decide)
    · exact absurd hpre (by decide)
  · exact fun hpre => absurd hpre (by decide)

theorem perform_shows {c : DeskflowClient} (h : Shows ⟨.connected, true⟩ c.world.log)
    (m : Message) :
    ∃ p, Shows p (c.perform m).2.world.log ∧
      ((c.perform m).1 = true → p = ⟨.connected, true⟩) := by
  have hkeep {c' : DeskflowClient} {ok : Prop} (hquiet : Quiet c c') :
      ∃ p, Shows p c'.world.log ∧ (ok → p = ⟨.connected, true⟩) :=
    ⟨_, h.quiet hquiet, fun _ => rfl⟩
  have hend {s : Bytes} (hs : EndReport s) :
      ∃ p, Shows p (c.world.log ++ [.status s]) ∧ (false = true → p = ⟨.connected, true⟩) := by
    obtain ⟨connState, hshows⟩ := h.ending hs
    exact ⟨_, hshows, fun hgo => by cases hgo⟩
  cases m with
  | cinn x y seq mask => exact ⟨_, enterScreen_shows h, fun _ => rfl⟩
  | cout => exact ⟨_, leaveScreen_shows h, fun _ => rfl⟩
  | qinf => exact hkeep (write_quiet fun _ => rfl)
  | calv => exact hkeep (write_quiet fun _ => rfl)
  | dmmv x y => exact hkeep (injectMouseMove_mouseOnly _ _ _).quiet
  | dmrm dx dy => exact hkeep (injectMouseMove_mouseOnly _ _ _).quiet
  | dmdn button => exact hkeep (injectMouseButton_mouseOnly _ _ c).quiet
  | dmup button => exact hkeep (injectMouseButton_mouseOnly _ _ c).quiet
  | dmwm xDelta yDelta => exact hkeep (injectMouseWheel_mouseOnly _ _ c).quiet
  | dkdn id mask button => exact hkeep (pressKey_keyOnly id mask c).quiet
  | dkup id mask button => exact hkeep (releaseKey_keyOnly id mask c).quiet
  | dkrp id mask count button lang => exact hkeep (pressKey_keyOnly id mask c).quiet
  | dkdl id mask button lang => exact hkeep (pressKey_keyOnly id mask c).quiet
  | dclp id seq mark data => exact hkeep (clipboard_quiet id seq mark data c)
  | cbye => exact hend (.inr (.inl rfl))
  | eicv a b =>
    have hs : EndReport (ascii "error: incompatible version, server wants " ++ decimal a.toInt ++
        ascii "." ++ decimal b.toInt) :=
      .error (EndReport.append (EndReport.append (EndReport.append (by decide) _) _) _)
    exact hend hs
  | ebsy => exact hend (s := ascii "error: server busy") (.error (by decide))
  | eunk => exact hend (s := ascii "error: unknown client") (.error (by decide))
  | ebad => exact hend (s := ascii "error: protocol violation") (.error (by decide))
  | _ => exact hkeep (.refl _)

theorem receive_shows {c : DeskflowClient} (h : Shows ⟨.connected, true⟩ c.world.log) :
    ∃ p, Shows p c.receive.2.world.log ∧ (c.receive.1 = true → p = ⟨.connected, true⟩) := by
  obtain ⟨s, -, -, he⟩ := c.receive_eq_digest
  have hdispatched (key : Bytes) : Shows ⟨.connected, true⟩ (c.world.log ++ [.dispatched key]) :=
    h.quiet (quiet_emit rfl c)
  rw [he]
  cases c.stream.view.arrival.1 with
  | lost =>
    simp only [digest, deliver]
    split_ifs
    · obtain ⟨connState, hshows⟩ := h.ending (.inl rfl)
      exact ⟨_, hshows, fun hgo => by cases hgo⟩
    · have hreport : EndReport (ascii "error: connection lost") := .error (by decide)
      obtain ⟨connState, hshows⟩ := h.ending hreport
      exact ⟨_, hshows, fun hgo => by cases hgo⟩
  | short => exact ⟨_, h, fun _ => rfl⟩
  | unknown key =>
    have hs : EndReport (ascii "error: unknown message '" ++ key ++ ascii "'") :=
      .error (EndReport.append (EndReport.append (by decide) _) _)
    obtain ⟨connState, hshows⟩ := (hdispatched key).ending hs
    exact ⟨_, hshows, fun hgo => by cases hgo⟩
  | failed key => exact ⟨_, hdispatched key, fun _ => rfl⟩
  | message key m =>
    obtain ⟨p, hshows, hgo⟩ := perform_shows
      (c := { c with stream := s }.emit (.dispatched key)) (hdispatched key) m
    exact ⟨p, hshows.quiet (quiet_emit rfl _), hgo⟩

theorem answerHello_shows {name : Bytes} {major minor : Int16} {c : DeskflowClient}
    (h : Shows ⟨.connecting, false⟩ c.world.log) (hlength : name.length = kHelloNameLength)
    (hname : major.toInt ≠ kProtocolMajorVersion → Lacks connectedWords (lower name))
    (hfailed : ¬(c.answerHello name major minor).1 = true) :
    ∃ connState, Shows ⟨connState, false⟩ (c.answerHello name major minor).2.world.log := by
  by_cases hmajor : major.toInt = kProtocolMajorVersion
  · have hgood : ¬(name.length ≠ kHelloNameLength ∨ major.toInt ≠ kProtocolMajorVersion) := by
      simp [hlength, hmajor]
    rw [answerHello, if_neg hgood] at hfailed ⊢
    exact ⟨_, h.quiet (write_quiet fun hsent => absurd hsent hfailed)⟩
  · have hne := mapStatus_mismatch (hname hmajor) major.toInt minor.toInt
      (show ConnState.connecting ≠ .connected by decide)
    rw [answerHello, if_pos (.inr hmajor)]
    refine ⟨_, h.status rfl (iff_of_false hne fun hboth => by cases hboth.1) fun hpre => ?_⟩
    exact absurd (List.cons_prefix_cons.mp hpre).1 (by decide)

theorem handshake_shows {c : DeskflowClient} (h : Shows ⟨.connecting, false⟩ c.world.log)
    (hname : ∀ hello ∈ c.stream.view.hello.1,
      hello.2.1.toInt ≠ kProtocolMajorVersion → Lacks connectedWords (lower hello.1)) :
    if c.handshake.1 then Shows ⟨.connecting, true⟩ c.handshake.2.world.log
    else ∃ connState, Shows ⟨connState, false⟩ c.handshake.2.world.log := by
  split_ifs with hok
  · obtain ⟨o, ho⟩ := handshake_framed hok
    obtain ⟨-, es, hes, hall⟩ := handshake_emits c
    obtain rfl : [.frame o] = es := List.append_cancel_left (ho.symm.trans hes)
    have hhello : o.isHelloBack = true := (hall (.frame o) (by simp)).2.2 o rfl
    have hmark := h.mark (e := .frame o) (by simp)
    rw [ho]
    simpa [Panel.after, hhello] using hmark
  · obtain ⟨s, -, -, he⟩ := c.handshake_eq
    rw [he] at hok ⊢
    cases hread : c.stream.view.hello.1 with
    | none => exact ⟨_, h⟩
    | some args =>
      obtain ⟨name, major, minor⟩ := args
      rw [hread] at hok
      exact answerHello_shows (c := { c with stream := s }) h (length_hello hread)
        (hname _ hread) hok

theorem dial_shows {p : Panel} {c : DeskflowClient} (h : Shows p c.world.log)
    (hout : p.session = false) (hhost : PlainHost c.host) :
    Shows ⟨.connecting, false⟩ c.dial.world.log := by
  obtain ⟨connState, session⟩ := p
  obtain rfl : session = false := hout
  refine h.status (mapStatus_dial hhost c.port.toNat connState) ?_ fun _ => rfl
  exact iff_of_false ConnState.noConfusion fun hboth => by cases hboth.1

theorem opened_shows {c : DeskflowClient} (h : Shows ⟨.connecting, false⟩ c.world.log)
    (conn : Connection) : Shows ⟨.connecting, false⟩ (c.opened conn).world.log := by
  have hmark := h.mark (e := .connected) (by simp)
  refine hmark.status (by decide +kernel) ?_ fun hpre => absurd hpre (by decide)
  exact iff_of_false ConnState.noConfusion fun hboth => by cases hboth.1

theorem greeted_shows {c : DeskflowClient} (h : Shows ⟨.connecting, true⟩ c.world.log) :
    Shows ⟨.connected, true⟩ c.greeted.world.log := by
  refine h.status (by decide +kernel) (iff_of_true rfl ⟨rfl, ?_⟩)
    fun hpre => absurd hpre (by decide)
  rintro (heq | heq | hpre)
  · exact absurd heq (by decide)
  · exact absurd heq (by decide)
  · exact absurd hpre (by decide)

theorem connectFailed_shows {p : Panel} {c : DeskflowClient} (h : Shows p c.world.log) :
    ∃ connState, Shows ⟨connState, false⟩ c.connectFailed.2.world.log := by
  obtain ⟨connState, hending⟩ := h.ending (s := ascii "error: connect failed") (.error (by decide))
  exact ⟨connState, hending.mark (e := .returned) (by simp)⟩

theorem handshakeFailed_shows {p : Panel} {c : DeskflowClient} (h : Shows p c.world.log) :
    ∃ connState, Shows ⟨connState, false⟩ c.handshakeFailed.2.world.log := by
  have hreport : EndReport (ascii "error: handshake failed") := .error (by decide)
  obtain ⟨connState, hending⟩ := h.ending hreport
  exact ⟨connState, hending.mark (e := .returned) (by simp)⟩

theorem finish_shows {p : Panel} {c : DeskflowClient} (h : Shows p c.world.log) :
    ∃ connState, Shows ⟨connState, p.session⟩ c.finish.world.log := by
  unfold finish
  dsimp only
  split_ifs
  · exact ⟨_, h⟩
  · exact h.ending (.inl rfl)

/-- Without a wait the end of a connection goes unreported here. -/
theorem retry_log {r : Bool × DeskflowClient} (h : (retry r).1 = false) :
    (retry r).2.world.log = r.2.world.log := by
  unfold retry at h ⊢
  split_ifs at h ⊢ <;> rfl

end DeskflowClient

end Deskflow
