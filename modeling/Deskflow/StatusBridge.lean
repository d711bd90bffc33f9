import Deskflow.Relay
import Deskflow.StatusPanel

/-! The way of a status or of a clipboard text from the worker to the page: the callback of
the client, the thread-safe function of the carrier and the broadcast that the page reads. -/

namespace Deskflow

open DeskflowClient

def Event.statusText : Event → Option Bytes
  | .status s => some s
  | _ => none

def statuses (log : List Event) : List Bytes := log.filterMap Event.statusText

/-- `DeskflowClipboardCb` leaves out a text that is empty. -/
def Event.broadcastText : Event → Option Bytes
  | .clipboard text => if text.isEmpty then none else some text
  | _ => none

/-- The client, what its worker has still to pass to the callback, and the thread-safe
function with what was broadcast. There is one for each of the two callbacks. That such a
function delivers each value once and in order is an assumption on NAPI. -/
structure Feed where
  system : System
  backlog : List Bytes := []
  relay : Relay Unit Bytes := {}

namespace Feed

section

variable (pick : Event → Option Bytes)

def act (a : Action) (σ : Feed) : Feed :=
  { σ with
    system := σ.system.step a
    backlog := σ.backlog ++
      ((σ.system.step a).client.world.log.filterMap pick).drop
        (σ.system.client.world.log.filterMap pick).length }

/-- `DeskflowStatusCb` or `PublishClipboard`: the copy of the thread-safe function under the
lock. Without one the value is dropped. -/
def publish (s : Bytes) (rest : List Bytes) (σ : Feed) : Feed :=
  { σ with backlog := rest, relay := σ.relay.publish () s }

/-- `napi_call_threadsafe_function` on the copy. -/
def callThreadsafeFunction (n : Nat) (s : Bytes) (σ : Feed) : Feed :=
  { σ with relay := σ.relay.call () n s }

/-- `OnDeskflowStatus` or `OnClipboardData`: the release of the function there was and the
new one, under the lock. -/
def register (σ : Feed) : Feed := { σ with relay := σ.relay.register }

/-- `DeskflowStatusCallJs` or `ClipboardDataCallJs` with the next value, which the JS function
broadcasts. -/
def callJs (n : Nat) (s : Bytes) (rest : List Bytes) (σ : Feed) : Feed :=
  { σ with relay := σ.relay.deliver n s rest }

/-- The worker goes on when its callbacks have returned; the JS thread need not wait. -/
inductive Step : Feed → Feed → Prop
  | act {σ : Feed} (a : Action) :
      (∀ conn, a = .work conn → σ.backlog = [] ∧ σ.relay.hand () = none) →
      Step σ (σ.act pick a)
  | publish {σ : Feed} (s : Bytes) (rest : List Bytes) : σ.backlog = s :: rest →
      σ.relay.hand () = none → Step σ (σ.publish s rest)
  | callThreadsafeFunction {σ : Feed} (n : Nat) (s : Bytes) : σ.relay.hand () = some (n, s) →
      Step σ (σ.callThreadsafeFunction n s)
  | register {σ : Feed} : Step σ σ.register
  | callJs {σ : Feed} (n : Nat) (s : Bytes) (rest : List Bytes) :
      σ.relay.queue n = s :: rest → Step σ (σ.callJs n s rest)

abbrev Steps : Feed → Feed → Prop := Relation.ReflTransGen (Step pick)

end

def initial (injections : List InjectOutcome) : Feed := { system := .initial injections }

section

variable {pick : Event → Option Bytes}

theorem picked_step (pick : Event → Option Bytes) (a : Action) (σ : System) : ∃ es,
    (σ.step a).client.world.log.filterMap pick = σ.client.world.log.filterMap pick ++ es := by
  obtain ⟨es, hes⟩ := (System.step_moves σ a).log_extends
  refine ⟨es.filterMap pick, ?_⟩
  rw [← hes, List.filterMap_append]

/-- A step leaves the thread-safe function alone or is one of its own. -/
theorem step_relay {σ σ' : Feed} (h : Step pick σ σ') :
    σ'.relay = σ.relay ∨ Relay.Step σ.relay σ'.relay := by
  cases h with
  | act a hidle => exact .inl rfl
  | publish s rest hs hhand => exact .inr (.publish () s hhand)
  | callThreadsafeFunction n s hhand => exact .inr (.call () n s hhand)
  | register => exact .inr .register
  | callJs n s rest hn => exact .inr (.deliver n s rest hn)

theorem published_step {σ σ' : Feed} (h : Step pick σ σ')
    (hpub : σ.system.client.world.log.filterMap pick =
      σ.relay.published.map Prod.snd ++ σ.backlog) :
    σ'.system.client.world.log.filterMap pick =
      σ'.relay.published.map Prod.snd ++ σ'.backlog := by
  cases h with
  | act a hidle =>
    obtain ⟨es, hes⟩ := picked_step pick a σ.system
    show (σ.system.step a).client.world.log.filterMap pick = _ ++ (σ.backlog ++ _)
    rw [hes, List.drop_left, hpub, List.append_assoc]
    rfl
  | publish s rest hs hhand =>
    show σ.system.client.world.log.filterMap pick =
      (σ.relay.publish () s).published.map _ ++ rest
    rw [hpub, hs, Relay.publish_published, List.map_append, List.append_assoc]
    rfl
  | callThreadsafeFunction n s hhand => exact hpub
  | register => exact hpub
  | callJs n s rest hn => exact hpub

theorem steps_relay {injections : List InjectOutcome} {σ : Feed}
    (h : Steps pick (initial injections) σ) : Relay.Steps {} σ.relay ∧
      σ.system.client.world.log.filterMap pick =
        σ.relay.published.map Prod.snd ++ σ.backlog := by
  induction h with
  | refl => exact ⟨.refl, rfl⟩
  | tail _ hstep ih =>
    refine ⟨?_, published_step hstep ih.2⟩
    rcases step_relay hstep with hsame | hrelay
    · rw [hsame]
      exact ih.1
    · exact ih.1.tail hrelay

theorem steps_dropped {σ σ' : Feed} (h : Steps pick σ σ') (hreg : σ.relay.current ≠ none) :
    σ'.relay.dropped = σ.relay.dropped ∧ σ'.relay.current ≠ none := by
  induction h with
  | refl => exact ⟨rfl, hreg⟩
  | tail _ hstep ih =>
    rcases step_relay hstep with hsame | hrelay
    · rw [hsame]
      exact ih
    · obtain ⟨hdropped, hcurrent⟩ := hrelay.dropped_eq ih.2
      exact ⟨hdropped.trans ih.1, hcurrent⟩

/-- With one registration everything that the worker reports is dropped before it, broadcast,
or still on its way. -/
theorem picked_steps {injections : List InjectOutcome} {σ σ' : Feed}
    (h : Steps pick (initial injections) σ) (hreg : σ.relay.current ≠ none)
    (h' : Steps pick σ σ') (hone : σ'.relay.next ≤ 1) :
    σ'.system.client.world.log.filterMap pick = σ.relay.dropped.map Prod.snd ++
      (σ'.relay.delivered.map Prod.snd ++ σ'.relay.queue 0) ++ σ'.relay.held () ++
        σ'.backlog := by
  obtain ⟨hrelay, hpicked⟩ := steps_relay (h.trans h')
  have hkept := Relay.kept_steps hrelay
  have hthread := hkept.threads ()
  have hqueue := hkept.queues 0
  rw [Relay.ofThread_unit, Relay.ofThread_unit, Relay.calledBy_unit, ← hkept.takenBy_eq hone,
    hqueue, hkept.deliveredFrom_eq hone, (steps_dropped h' hreg).1] at hthread
  rw [hpicked, hthread]

end

theorem held_of_free {σ : Feed} (h : σ.relay.hand () = none) : σ.relay.held () = [] := by
  rw [Relay.held, h]
  rfl

/-- With one registration of a callback, the values dropped before it and those broadcast
since are what the client has reported, in order and once each, and all of it as soon as
nothing is on its way. -/
theorem broadcast_steps {pick : Event → Option Bytes} {injections : List InjectOutcome}
    {σ σ' : Feed} (h : Steps pick (initial injections) σ) (hreg : σ.relay.current ≠ none)
    (h' : Steps pick σ σ') (hone : σ'.relay.next ≤ 1) :
    let passed := σ.relay.dropped.map Prod.snd ++ σ'.relay.delivered.map Prod.snd
    passed <+: σ'.system.client.world.log.filterMap pick ∧
      (σ'.relay.queue 0 = [] → σ'.relay.hand () = none → σ'.backlog = [] →
        passed = σ'.system.client.world.log.filterMap pick) := by
  intro passed
  have hall := picked_steps h hreg h' hone
  rw [hall]
  refine ⟨?_, fun hqueue hhand hbacklog => ?_⟩
  · rw [← List.append_assoc, List.append_assoc, List.append_assoc]
    exact List.prefix_append passed _
  · rw [hqueue, held_of_free hhand, hbacklog, List.append_nil, List.append_nil, List.append_nil]

/-- No server answers; the first status comes before the registration. -/
def unanswered : System :=
  ((System.initial []).step (.start (ascii "10.0.0.2") 24800 (ascii "HarmonyPC"))).step
    (.work ⟨false, [], []⟩)

def dialling : Bytes := ascii "connecting to 10.0.0.2:24800"

def failing : Bytes := ascii "error: connect failed"

/-- The first status is dropped and the carrier registers. -/
def registered : Feed :=
  { system := unanswered
    backlog := [failing]
    relay := (({} : Relay Unit Bytes).publish () dialling).register }

/-- The second status is broadcast. -/
def broadcast : Feed :=
  (((registered.publish failing []).callThreadsafeFunction 0 failing)).callJs
    0 failing []

theorem steps_registered : Steps Event.statusText (initial []) registered := by
  have hstart : Step Event.statusText (initial []) _ :=
    .act (.start (ascii "10.0.0.2") 24800 (ascii "HarmonyPC")) (by simp)
  have hdial : Step Event.statusText ((initial []).act Event.statusText
      (.start (ascii "10.0.0.2") 24800 (ascii "HarmonyPC"))) _ :=
    .act (.work ⟨false, [], []⟩) fun _ _ => ⟨by decide +kernel, rfl⟩
  have hbacklog : (((initial []).act Event.statusText
      (.start (ascii "10.0.0.2") 24800 (ascii "HarmonyPC"))).act Event.statusText
        (.work ⟨false, [], []⟩)).backlog = dialling :: [failing] := by decide +kernel
  have hdrop : Step Event.statusText _ _ := .publish dialling [failing] hbacklog rfl
  exact ((Relation.ReflTransGen.single hstart).tail hdial |>.tail hdrop).tail .register

theorem steps_broadcast : Steps Event.statusText registered broadcast := by
  have hcopy : Step Event.statusText registered _ := .publish failing [] rfl rfl
  have hcall : Step Event.statusText (registered.publish failing []) _ :=
    .callThreadsafeFunction 0 failing rfl
  have hshow : Step Event.statusText
      ((registered.publish failing []).callThreadsafeFunction 0 failing) _ :=
    .callJs 0 failing [] rfl
  exact ((Relation.ReflTransGen.single hcopy).tail hcall).tail hshow

theorem broadcast_steps_unanswered :
    let passed := registered.relay.dropped.map Prod.snd ++ broadcast.relay.delivered.map Prod.snd
    passed <+: broadcast.system.client.world.log.filterMap Event.statusText ∧
      (broadcast.relay.queue 0 = [] → broadcast.relay.hand () = none → broadcast.backlog = [] →
        passed = broadcast.system.client.world.log.filterMap Event.statusText) :=
  broadcast_steps steps_registered (Option.some_ne_none 0) steps_broadcast (Nat.le_refl 1)

/-- The carrier registers anew only while the worker has no copy of the function. -/
def Calm (pick : Event → Option Bytes) (σ σ' : Feed) : Prop :=
  Step pick σ σ' ∧ (σ'.relay.next ≠ σ.relay.next → σ.relay.hand () = none)

theorem calm_relay {pick : Event → Option Bytes} {injections : List InjectOutcome} {σ : Feed}
    (h : Relation.ReflTransGen (Calm pick) (initial injections) σ) :
    Relation.ReflTransGen Relay.Calm {} σ.relay := by
  induction h with
  | refl => exact .refl
  | tail _ hcalm ih =>
    obtain ⟨hstep, hnone⟩ := hcalm
    rcases step_relay hstep with hsame | hrelay
    · rw [hsame]
      exact ih
    · exact ih.tail ⟨hrelay, fun hnext _ => hnone hnext⟩

/-- The worker copies the function that the carrier then replaces. -/
def replaced : Feed :=
  (registered.publish failing []).register.callThreadsafeFunction 0 failing

theorem steps_replaced : Steps Event.statusText registered replaced := by
  have hcopy : Step Event.statusText registered _ := .publish failing [] rfl rfl
  have hcall : Step Event.statusText (registered.publish failing []).register _ :=
    .callThreadsafeFunction 0 failing rfl
  exact ((Relation.ReflTransGen.single hcopy).tail .register).tail hcall

/-- No function is called after its release as long as none is replaced under a copy, which
the lock of `g_tsfnMutex` does not prevent. -/
theorem calls_released : (∀ (pick : Event → Option Bytes) (injections : List InjectOutcome)
    (σ : Feed), Relation.ReflTransGen (Calm pick) (initial injections) σ →
      ∀ c ∈ σ.relay.calls, c.taken = true) ∧
    ∃ σ, Steps Event.statusText (initial []) σ ∧ ∃ c ∈ σ.relay.calls, c.taken = false := by
  refine ⟨fun pick injections σ h => (Relay.taken_steps (calm_relay h)).calls, ?_⟩
  refine ⟨replaced, steps_registered.trans steps_replaced, ⟨(), 0, failing, false⟩, ?_, rfl⟩
  decide +kernel

/-- A text after which every page shows the same. -/
def Deciding (s : Bytes) : Prop := ∃ k, ∀ connState, mapStatus connState s = k

theorem mapStatus_cases (s : Bytes) :
    Deciding s ∨ ∀ connState, mapStatus connState s = connState := by
  by_cases herror : Lacks errorWords (lower (trim s))
  · by_cases hconnected : Lacks connectedWords (lower (trim s))
    · by_cases hconnecting : ascii "connecting" <:+: lower (trim s) ∨
        ascii "connect failed" <:+: lower (trim s)
      · left
        refine ⟨.connecting, fun connState => ?_⟩
        rw [mapStatus_eq, if_neg (not_not.mpr herror), if_neg (not_not.mpr hconnected),
          if_pos hconnecting]
      · by_cases hdisconnected : ascii "disconnected" <:+: lower (trim s)
        · left
          refine ⟨.disconnected, fun connState => ?_⟩
          rw [mapStatus_eq, if_neg (not_not.mpr herror), if_neg (not_not.mpr hconnected),
            if_neg hconnecting, if_pos hdisconnected]
        · right
          intro connState
          rw [mapStatus_eq, if_neg (not_not.mpr herror), if_neg (not_not.mpr hconnected),
            if_neg hconnecting, if_neg hdisconnected]
    · left
      refine ⟨.connected, fun connState => ?_⟩
      rw [mapStatus_eq, if_neg (not_not.mpr herror), if_pos hconnected]
  · left
    refine ⟨.error, fun connState => ?_⟩
    rw [mapStatus_eq, if_pos herror]

/-- Two pages agree in the end when they did at first, or a text has decided since. -/
theorem foldl_mapStatus_eq_iff (texts : List Bytes) (k k' : ConnState) :
    texts.foldl mapStatus k = texts.foldl mapStatus k' ↔ k = k' ∨ ∃ s ∈ texts, Deciding s := by
  induction texts generalizing k k' with
  | nil => simp
  | cons s texts ih =>
    have hmem : (∃ x ∈ s :: texts, Deciding x) ↔ Deciding s ∨ ∃ x ∈ texts, Deciding x := by simp
    rw [List.foldl_cons, List.foldl_cons, ih, hmem]
    rcases mapStatus_cases s with hdeciding | hkeeps
    · obtain ⟨l, hl⟩ := hdeciding
      simp [hl, show Deciding s from ⟨l, hl⟩]
    · have hnot : ¬Deciding s := by
        rintro ⟨l, hl⟩
        have hconnected := (hkeeps .connected).symm.trans (hl .connected)
        have herror := (hkeeps .error).symm.trans (hl .error)
        exact ConnState.noConfusion (hconnected.trans herror.symm)
      rw [hkeeps, hkeeps, or_iff_right hnot]

theorem panel_shown (log : List Event) :
    (panel log).shown = (statuses log).foldl mapStatus .disconnected := by
  induction log using List.reverseRecOn with
  | nil => rfl
  | append_singleton log e ih =>
    rw [panel_concat, statuses, List.filterMap_append, List.foldl_append, ← statuses, ← ih]
    cases e with
    | frame o =>
      show (Panel.after _ _).shown = _
      rw [Panel.after]
      split_ifs <;> rfl
    | _ => rfl

/-- When all has been broadcast, a page that had shown `connState` before the registration
shows what one that had seen every status would, if that is what it would have shown
then or a text has decided since. -/
theorem shows_broadcast_iff {injections : List InjectOutcome} {σ σ' : Feed}
    (h : Steps Event.statusText (initial injections) σ) (hreg : σ.relay.current ≠ none)
    (h' : Steps Event.statusText σ σ')
    (hone : σ'.relay.next ≤ 1) (hqueue : σ'.relay.queue 0 = []) (hhand : σ'.relay.hand () = none)
    (hbacklog : σ'.backlog = []) (connState : ConnState) :
    (σ'.relay.delivered.map Prod.snd).foldl mapStatus connState =
        (panel σ'.system.client.world.log).shown ↔
      connState = (σ.relay.dropped.map Prod.snd).foldl mapStatus .disconnected ∨
        ∃ s ∈ σ'.relay.delivered.map Prod.snd, Deciding s := by
  have hall := picked_steps h hreg h' hone
  rw [hqueue, held_of_free hhand, hbacklog, List.append_nil, List.append_nil,
    List.append_nil] at hall
  rw [panel_shown, statuses, hall, List.foldl_append]
  exact foldl_mapStatus_eq_iff _ _ _

theorem shows_broadcast_unanswered :
    (broadcast.relay.delivered.map Prod.snd).foldl mapStatus .disconnected =
      (panel broadcast.system.client.world.log).shown :=
  (shows_broadcast_iff steps_registered (Option.some_ne_none 0) steps_broadcast (Nat.le_refl 1)
    rfl rfl rfl .disconnected).mpr
      (.inr ⟨failing, by decide +kernel, .error, fun k => by cases k <;> decide +kernel⟩)

end Feed

end Deskflow
