import Deskflow.StoredPreferences
import Deskflow.Turns
import Deskflow.WireContents
import Deskflow.WorkerHandover

/-! The page and the processes that carry the connection, each with a native module of its
own: what becomes of the parameters of a start. -/

namespace Deskflow

open History DeskflowClient

def connections (c : DeskflowClient) : Nat := c.world.log.count .connected

theorem connections_grows {c c' : DeskflowClient} {p : Event → Prop}
    (h : Grows p c.world.log c'.world.log) (hp : ∀ e, p e → e ≠ .connected) :
    connections c' = connections c := h.count_eq fun hconn => hp _ hconn rfl

theorem connections_opened (conn : Connection) (c : DeskflowClient) :
    connections (c.opened conn) = connections c + 1 := by
  have hlog : (c.opened conn).world.log = c.world.log ++ [Event.connected] ++
      [Event.status (ascii "connected, handshake...")] := rfl
  rw [connections, hlog, List.count_append, List.count_append]
  rfl

theorem connections_transmit {c c' : DeskflowClient} (h : Transmit (fun _ => False) c c') :
    connections c' = connections c := by
  have hsame {b d : DeskflowClient} (h : Wordless b d) : connections d = connections b :=
    connections_grows h.log fun _ he => he.1
  cases h with
  | quiet hquiet => exact hsame hquiet
  | write o d hd hafter =>
    have hwrite := connections_grows (write_emits o d).log fun _ he => he.1
    exact (hsame hafter).trans (hwrite.trans (hsame hd))
  | opened conn d hconn => exact hconn.elim

namespace System

/-- The connections opened, and the one that the worker is about to open. -/
def attempts (σ : System) : Nat := connections σ.client + if σ.phase = .ready then 1 else 0

theorem work_attempts {σ : System} (hauto : σ.client.world.autoLoads = [false])
    (conn : Connection) : (σ.work conn).attempts ≤ σ.attempts := by
  by_cases hready : σ.phase = .ready
  · obtain ⟨c, phase, push⟩ := σ
    dsimp only at hready
    subst hready
    have hset : Emits (fun _ => False) c { c.loadStop.2 with shouldReconnect := true } :=
      .same rfl rfl
    have hdial : Emits (fun _ => False) c { c.loadStop.2 with shouldReconnect := true }.dial := by
      unfold dial
      exact hset.trans (.setStatus _ _)
    simp only [work]
    split_ifs
    · have hfinish : Emits (fun _ => False) c c.loadStop.2.finish :=
        (loadStop_emits c).trans (finish_emits _)
      show connections c.loadStop.2.finish + 0 ≤ connections c + 1
      rw [connections_grows hfinish.log fun _ he => he.1]
      omega
    · show connections (opened conn _) + 0 ≤ connections c + 1
      rw [connections_opened, connections_grows hdial.log fun _ he => he.1]
    · have hfailed := hdial.trans (connectFailed_emits _)
      show connections (connectFailed _).2 + 0 ≤ connections c + 1
      rw [connections_grows hfailed.log fun _ he => he.1]
      omega
  · have hsame : connections (σ.work conn).client = connections σ.client :=
      connections_transmit (transmit_work fun h => hready h)
    have hphase : (σ.work conn).phase ≠ .ready := by
      obtain ⟨c, phase, push⟩ := σ
      cases phase with
      | idle => exact Phase.noConfusion
      | ready => exact absurd rfl hready
      | greeting =>
        simp only [work]
        split_ifs <;> exact Phase.noConfusion
      | looping =>
        simp only [work]
        split_ifs <;> exact Phase.noConfusion
      | answering keepGoing =>
        simp only [work]
        split_ifs <;> exact Phase.noConfusion
      | closing => exact Phase.noConfusion
      | leaving again =>
        have hends : (retry (again, c)).1 = false := by
          have hload : c.loadAuto.1 = false := by
            rw [loadAuto, World.loadAuto, hauto]
            rfl
          simp [retry, hload]
        simp only [work]
        rw [if_neg (by simp [hends])]
        exact Phase.noConfusion
    rw [attempts, attempts, hsame, if_neg hphase]
    omega

end System

/-- A process of the carrier with the parameters it was created with and
`m_autoReconnect`. -/
structure CarrierProcess where
  want : Want
  system : System
  autoReconnect : Bool := true

/-- A C string ends at the first null. -/
def cString (text : Bytes) : Bytes := text.takeWhile (· ≠ 0)

section Conversions

-- `napi_get_value_string_utf8` into a buffer of the given size, and `Number` followed by
-- `napi_get_value_int32`
variable (getString : Nat → Bytes → Bytes) (toInt32 : List Char → Int)

def arguments (want : Want) : Target where
  host := cString (getString 256 (utf8 want.host))
  port := UInt16.ofInt (toInt32 want.port)
  screenName := cString (getString 256 (utf8 want.screen))

namespace CarrierProcess

/-- `onCreate` on a display of the given size; `connectDeskflow` finds no worker to stop. -/
def onCreate (w h : Int) (injections : List InjectOutcome) (want : Want) : CarrierProcess :=
  if want.host = [] then { want := want, system := .initial injections }
  else
    let target := arguments getString toInt32 want
    { want := want
      system := (System.initial injections).run
        [.call (.setInvertScroll want.invert), .call (.setAutoReconnect 3000),
          .call (.setClipboardSync want.clipboard), .call .stop, .call (.setScreenSize w h),
          .start target.host target.port target.screenName]
      autoReconnect := want.autoreconnect }

/-- The subscriber of `BGEVT_CLIP_PUSH`. -/
def pushRequest (text : Bytes) (c : CarrierProcess) : CarrierProcess :=
  if text.isEmpty then c
  else
    { c with
      system := c.system.run
        [.call (.setClipboardSync true), .push (getString (1024 * 1024) text)] }

/-- A step of the worker, in which every load of `m_autoReconnect` sees its value. -/
def work (conn : Connection) (stopLoads : List Bool) (c : CarrierProcess) : CarrierProcess :=
  { c with system := c.system.run [.call (.loads stopLoads [c.autoReconnect]), .work conn] }

def upload (c : CarrierProcess) : CarrierProcess := { c with system := c.system.upload }

end CarrierProcess

/-- The page, what it has published and is not yet processed, and the carrier alive. -/
structure App where
  launch : Launch
  inFlight : List PageRequest := []
  carrier : Option CarrierProcess := none

namespace App

def handle (e : PageEvent) (σ : App) : App :=
  { σ with
    launch := σ.launch.handle e
    inFlight := σ.inFlight ++ (σ.launch.page.handle e).2.filterMap PageEffect.request }

/-- The page may be told anything; its requests are processed in any order. A start fails
with 16000068 while a carrier is alive, and the JS thread of a carrier takes a push when it
is done with the one before. -/
inductive Step : App → App → Prop
  | handle {σ : App} (e : PageEvent) : σ.launch.Awaits e → Step σ (σ.handle e)
  | stop {σ : App} (before after : List PageRequest) :
      σ.inFlight = before ++ .connection .stop :: after →
      Step σ { σ with inFlight := before ++ after, carrier := none }
  | create {σ : App} (before after : List PageRequest) (want : Want) (w h : Int)
      (injections : List InjectOutcome) :
      σ.inFlight = before ++ .connection (.start want) :: after → σ.carrier = none →
      Step σ { σ with
        inFlight := before ++ after
        carrier := some (CarrierProcess.onCreate getString toInt32 w h injections want) }
  | occupied {σ : App} (before after : List PageRequest) (want : Want) :
      σ.inFlight = before ++ .connection (.start want) :: after → σ.carrier ≠ none →
      Step σ { σ with inFlight := before ++ after }
  | push {σ : App} (before after : List PageRequest) (text : Bytes) :
      σ.inFlight = before ++ .clipPush text :: after →
      (∀ c, σ.carrier = some c → c.system.push = none) →
      Step σ { σ with
        inFlight := before ++ after
        carrier := σ.carrier.map (CarrierProcess.pushRequest getString text) }
  | work {σ : App} (conn : Connection) (stopLoads : List Bool) :
      Step σ { σ with carrier := σ.carrier.map (CarrierProcess.work conn stopLoads) }
  | upload {σ : App} : Step σ { σ with carrier := σ.carrier.map CarrierProcess.upload }

abbrev Steps : App → App → Prop := Relation.ReflTransGen (Step getString toInt32)

/-- The carrier has been started by the page and is as it was started, apart from the
clipboard, which a push of the page turns on. -/
structure Configured (published : List PageRequest) (c : CarrierProcess) : Prop where
  requested : .connection (.start c.want) ∈ published
  target : c.system.client.target = arguments getString toInt32 c.want
  invertScroll : c.system.client.invertScroll = c.want.invert
  autoReconnect : c.autoReconnect = c.want.autoreconnect
  clipboardOn : c.want.clipboard = true → c.system.client.clipboardSync = true
  clipboardOff : c.system.client.clipboardSync = true → c.want.clipboard = true ∨
    ∃ text, .clipPush text ∈ published
  once : c.want.autoreconnect = false → c.system.attempts ≤ 1

variable {getString : Nat → Bytes → Bytes} {toInt32 : List Char → Int}

namespace Configured

variable {published : List PageRequest} {c : CarrierProcess}

theorem published_append (h : Configured getString toInt32 published c) (rs : List PageRequest) :
    Configured getString toInt32 (published ++ rs) c := by
  refine ⟨List.mem_append_left _ h.requested, h.target, h.invertScroll, h.autoReconnect,
    h.clipboardOn, fun hsync => ?_, h.once⟩
  rcases h.clipboardOff hsync with hwant | ⟨text, hmem⟩
  · exact .inl hwant
  · exact .inr ⟨text, List.mem_append_left _ hmem⟩

theorem onCreate {want : Want} (hhost : want.host ≠ [])
    (hrequested : .connection (.start want) ∈ published) (w h : Int)
    (injections : List InjectOutcome) :
    Configured getString toInt32 published
      (CarrierProcess.onCreate getString toInt32 w h injections want) := by
  rw [CarrierProcess.onCreate, if_neg hhost]
  exact ⟨hrequested, rfl, rfl, rfl, id, .inl, fun _ => Nat.le_refl 1⟩

/-- A step that is no call keeps what was set, and opens no connection too many. -/
theorem step (h : Configured getString toInt32 published c) {system : System} {running : Bool}
    (hsetup : system.client.setup = { c.system.client.setup with running := running })
    (honce : c.autoReconnect = false → system.attempts ≤ c.system.attempts) :
    Configured getString toInt32 published { c with system := system } := by
  have hsync : system.client.clipboardSync = c.system.client.clipboardSync :=
    congrArg (·.settings.clipboardSync) hsetup
  refine ⟨h.requested, (congrArg Setup.target hsetup).trans h.target, ?_, h.autoReconnect,
    fun hon => ?_, fun hon => ?_, fun hoff => ?_⟩
  · exact (congrArg (·.settings.invertScroll) hsetup).trans h.invertScroll
  · exact hsync.trans (h.clipboardOn hon)
  · exact h.clipboardOff (hsync.symm.trans hon)
  · exact (honce (h.autoReconnect.trans hoff)).trans (h.once hoff)

theorem work (h : Configured getString toInt32 published c) (conn : Connection)
    (stopLoads : List Bool) : Configured getString toInt32 published (c.work conn stopLoads) := by
  apply h.step
  · exact System.work_setup conn (c.system.step (.call (.loads stopLoads [c.autoReconnect])))
  · intro hoff
    exact System.work_attempts (σ := c.system.step (.call (.loads stopLoads [c.autoReconnect])))
      (by rw [hoff]; rfl) conn

theorem upload (h : Configured getString toInt32 published c) :
    Configured getString toInt32 published c.upload := by
  refine h.step (System.upload_setup c.system) fun _ => ?_
  have hphase : c.system.upload.phase = c.system.phase := by
    unfold System.upload
    split
    · rfl
    · rfl
    · split_ifs <;> rfl
    · rfl
    · rfl
  rw [System.attempts, System.attempts, hphase,
    connections_transmit (System.transmit_upload c.system)]

theorem pushRequest (h : Configured getString toInt32 published c) {text : Bytes}
    (hpushed : .clipPush text ∈ published) :
    Configured getString toInt32 published (c.pushRequest getString text) := by
  unfold CarrierProcess.pushRequest
  split_ifs
  · exact h
  · let σ := c.system.step (.call (.setClipboardSync true))
    have hnot : ∀ k, Action.push (getString (1024 * 1024) text) ≠ .call k := by simp
    have hstart : ∀ host port screenName,
        Action.push (getString (1024 * 1024) text) ≠ .start host port screenName := by simp
    have hsetup := System.step_setup σ hnot hstart
    have hlog : (σ.beginPush (getString (1024 * 1024) text)).client = σ.client ∧
        (σ.beginPush (getString (1024 * 1024) text)).phase = σ.phase := by
      unfold System.beginPush
      split_ifs <;> exact ⟨rfl, rfl⟩
    have hcount : connections σ.client = connections c.system.client :=
      connections_grows (p := fun e : Event => e ≠ .connected)
        (Grows.single (e := Event.clipboardSync true) (by simp) _) fun _ he => he
    refine ⟨h.requested, ?_, ?_, h.autoReconnect, fun _ => ?_, fun _ => .inr ⟨text, hpushed⟩,
      fun hoff => ?_⟩
    · exact (congrArg Setup.target hsetup).trans h.target
    · exact (congrArg (·.settings.invertScroll) hsetup).trans h.invertScroll
    · exact congrArg (·.settings.clipboardSync) hsetup
    · show (σ.beginPush (getString (1024 * 1024) text)).attempts ≤ 1
      rw [System.attempts, hlog.1, hlog.2, hcount]
      exact h.once hoff

end Configured

/-- What holds of the whole: requests in flight were published, starts have a host, and the
carrier is configured. -/
structure Sound (getString : Nat → Bytes → Bytes) (toInt32 : List Char → Int) (σ : App) :
    Prop where
  inFlight : ∀ r ∈ σ.inFlight, r ∈ σ.launch.published
  hosts : ∀ want, .connection (.start want) ∈ σ.inFlight → want.host ≠ []
  carrier : ∀ c, σ.carrier = some c → Configured getString toInt32 σ.launch.published c

/-- The page starts a carrier only by `onConnect`. -/
theorem mem_handle_connection {e : PageEvent} {page : IndexPage} {r : Request}
    (h : .connection r ∈ (page.handle e).2.filterMap PageEffect.request) :
    r = .stop ∨ ∃ fields : ConnectPage, r ∈ fields.onConnect := by
  have hconnect {page : IndexPage}
      (h : .connection r ∈ page.onConnect.2.filterMap PageEffect.request) :
      ∃ fields : ConnectPage, r ∈ fields.onConnect := by
    rw [Launch.onConnect_requests] at h
    obtain ⟨r', hr', heq⟩ := List.mem_map.mp h
    cases heq
    exact ⟨page.fields, hr'⟩
  have hpush {text : Bytes} {page : IndexPage}
      (h : .connection r ∈ (page.pushLocalClipboard text).filterMap PageEffect.request) :
      False := by
    unfold IndexPage.pushLocalClipboard at h
    split_ifs at h <;> simp [PageEffect.request] at h
  cases e with
  | connect => exact .inr (hconnect h)
  | disconnect =>
    left
    simpa [IndexPage.handle, IndexPage.onDisconnect, PageEffect.request] using h
  | bgClip value =>
    simp only [IndexPage.handle, IndexPage.onBgClip, IndexPage.setSystemClipboard] at h
    split_ifs at h <;> cases h
  | clipboardSync isOn => cases isOn <;> cases h
  | permission granted => cases granted <;> cases h
  | paste text =>
    simp only [IndexPage.handle, IndexPage.onPasteButtonClick] at h
    split at h
    · cases h
    · split at h
      · cases h
      · rw [List.filterMap_append] at h
        rcases List.mem_append.mp h with hfirst | hnew
        · split_ifs at hfirst <;> cases hfirst
        · exact (hpush hnew).elim
  | pasteboardUpdate text =>
    simp only [IndexPage.handle, IndexPage.onUpdate] at h
    split_ifs at h
    · exact (hpush h).elim
    · cases h
  | prefsRead prefs =>
    simp only [IndexPage.handle, IndexPage.onPrefs] at h
    split_ifs at h
    · exact .inr (hconnect h)
    · cases h
  | _ => cases h

theorem Sound.step {σ σ' : App} (h : Sound getString toInt32 σ)
    (hstep : Step getString toInt32 σ σ') : Sound getString toInt32 σ' := by
  have hfewer {before after : List PageRequest} {r r' : PageRequest}
      (hflight : σ.inFlight = before ++ r :: after) (hmem : r' ∈ before ++ after) :
      r' ∈ σ.inFlight := by
    rw [hflight]
    rcases List.mem_append.mp hmem with hbefore | hafter
    · exact List.mem_append_left _ hbefore
    · exact List.mem_append_right _ (List.mem_cons_of_mem _ hafter)
  have htaken {before after : List PageRequest} {r : PageRequest}
      (hflight : σ.inFlight = before ++ r :: after) : r ∈ σ.inFlight := by
    rw [hflight]
    simp
  cases hstep with
  | handle e hawaits =>
    have hpublished := Launch.handle_published e σ.launch
    refine ⟨fun r hr => ?_, fun want hwant => ?_, fun c hc => ?_⟩
    · show r ∈ (σ.launch.handle e).published
      rw [hpublished]
      rcases List.mem_append.mp hr with hold | hnew
      · exact List.mem_append_left _ (h.inFlight r hold)
      · exact List.mem_append_right _ hnew
    · rcases List.mem_append.mp hwant with hold | hnew
      · exact h.hosts want hold
      · rcases mem_handle_connection hnew with hstop | ⟨fields, hfields⟩
        · cases hstop
        · exact (Desktop.start_mem_onConnect hfields).2
    · show Configured getString toInt32 (σ.launch.handle e).published c
      rw [hpublished]
      exact (h.carrier c hc).published_append _
  | stop before after hflight =>
    exact ⟨fun r hr => h.inFlight r (hfewer hflight hr),
      fun want hwant => h.hosts want (hfewer hflight hwant), fun c hc => by cases hc⟩
  | create before after want w height injections hflight hnone =>
    refine ⟨fun r hr => h.inFlight r (hfewer hflight hr),
      fun want hwant => h.hosts want (hfewer hflight hwant), fun c hc => ?_⟩
    cases hc
    exact .onCreate (h.hosts want (htaken hflight)) (h.inFlight _ (htaken hflight)) w height
      injections
  | occupied before after want hflight halive =>
    exact ⟨fun r hr => h.inFlight r (hfewer hflight hr),
      fun want hwant => h.hosts want (hfewer hflight hwant), h.carrier⟩
  | push before after text hflight hfree =>
    refine ⟨fun r hr => h.inFlight r (hfewer hflight hr),
      fun want hwant => h.hosts want (hfewer hflight hwant), fun c hc => ?_⟩
    obtain ⟨c', hc', rfl⟩ := Option.map_eq_some_iff.mp hc
    exact (h.carrier c' hc').pushRequest (h.inFlight _ (htaken hflight))
  | work conn stopLoads =>
    refine ⟨h.inFlight, h.hosts, fun c hc => ?_⟩
    obtain ⟨c', hc', rfl⟩ := Option.map_eq_some_iff.mp hc
    exact (h.carrier c' hc').work conn stopLoads
  | upload =>
    refine ⟨h.inFlight, h.hosts, fun c hc => ?_⟩
    obtain ⟨c', hc', rfl⟩ := Option.map_eq_some_iff.mp hc
    exact (h.carrier c' hc').upload

theorem sound_steps {prefs : Option ConnectPage} {σ : App}
    (h : Steps getString toInt32 { launch := { prefs := prefs } } σ) :
    Sound getString toInt32 σ := by
  induction h with
  | refl => exact ⟨by simp, by simp, by simp⟩
  | tail _ hstep ih => exact ih.step hstep

/-- Whatever the switches of the page do once a carrier has been started, its client keeps the
address, the name and the scroll direction of the start; its clipboard is on if the start says
so or the page has pushed a text; and with automatic reconnection off in the start it opens
one connection at most. -/
theorem configured_steps {prefs : Option ConnectPage} {σ : App}
    (h : Steps getString toInt32 { launch := { prefs := prefs } } σ) {c : CarrierProcess}
    (hc : σ.carrier = some c) : Configured getString toInt32 σ.launch.published c :=
  (sound_steps h).carrier c hc

def connecting : App :=
  (App.handle (.typed "10.0.0.2".toList "24800".toList "pc".toList) { launch := {} }).handle
    .connect

def firstBytes (size : Nat) (text : Bytes) : Bytes := text.take (size - 1)

def digits (text : List Char) : Int := text.foldl (fun n ch => 10 * n + (ch.toNat - 48 : Nat)) 0

/-- The carrier that the page starts. -/
def started : CarrierProcess :=
  .onCreate firstBytes digits 1280 800 [] connecting.launch.page.fields.want

/-- The page has connected, and what it published has been processed. -/
def carried : App := { connecting with inFlight := [], carrier := some started }

theorem steps_carried : Steps firstBytes digits { launch := {} } carried := by
  have htyped : Step firstBytes digits { launch := {} } _ :=
    .handle (.typed "10.0.0.2".toList "24800".toList "pc".toList) trivial
  have hconnect : Step firstBytes digits _ connecting := .handle .connect trivial
  have hstop : Step firstBytes digits connecting _ := .stop [] _ rfl
  have hcreate : Step firstBytes digits _ carried := .create (σ := { connecting with
      inFlight := [.connection (.start connecting.launch.page.fields.want)] })
    [] [] connecting.launch.page.fields.want 1280 800 [] rfl rfl
  exact (((Relation.ReflTransGen.single htyped).tail hconnect).tail hstop).tail hcreate

/-- Automatic reconnection is switched off when the carrier runs; it reconnects all the same. -/
theorem configured_steps_switched :
    let σ := carried.handle (.autoReconnect false)
    Configured firstBytes digits σ.launch.published started := by
  intro σ
  have hswitch : Step firstBytes digits carried σ := .handle (.autoReconnect false) trivial
  have hsteps : Steps firstBytes digits { launch := { prefs := none } } σ :=
    steps_carried.tail hswitch
  exact configured_steps hsteps rfl

end App

end Conversions

end Deskflow
