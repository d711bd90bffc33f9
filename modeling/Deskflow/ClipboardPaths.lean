import Deskflow.Carriers
import Deskflow.PasteboardTexts
import Deskflow.StatusBridge
import Deskflow.Uploads

/-! The way of a text from the pasteboard to the socket and back, over the page, the carrier
and the client. -/

namespace Deskflow

open History DeskflowClient

namespace App

variable {getString : Nat → Bytes → Bytes} {toInt32 : List Char → Int}

/-- The uploads of a carrier are of texts that were pushed to it. -/
def Traced (getString : Nat → Bytes → Bytes) (pushes : List Bytes) (c : CarrierProcess) : Prop :=
  ∃ parts, System.Uploaded parts c.system ∧
    ∀ p ∈ parts, ∃ text ∈ pushes, p.text = getString (1024 * 1024) text

namespace Traced

variable {pushes : List Bytes} {c : CarrierProcess}

theorem append (h : Traced getString pushes c) (texts : List Bytes) :
    Traced getString (pushes ++ texts) c := by
  obtain ⟨parts, hparts, hfrom⟩ := h
  refine ⟨parts, hparts, fun p hp => ?_⟩
  obtain ⟨text, hmem, htext⟩ := hfrom p hp
  exact ⟨text, List.mem_append_left _ hmem, htext⟩

theorem run (h : Traced getString pushes c) (actions : List Action)
    (haccepted : ∀ t ∈ System.acceptedTexts actions c.system,
      ∃ text ∈ pushes, t = getString (1024 * 1024) text) :
    Traced getString pushes { c with system := c.system.run actions } := by
  obtain ⟨parts, hparts, hfrom⟩ := h
  obtain ⟨parts', hparts', htexts⟩ := hparts.run actions
  refine ⟨parts', hparts', fun p hp => ?_⟩
  have hmem : p.text ∈ parts'.map UploadPart.text := List.mem_map_of_mem hp
  rw [htexts] at hmem
  rcases List.mem_append.mp hmem with hold | hnew
  · obtain ⟨q, hq, hqp⟩ := List.mem_map.mp hold
    rw [← hqp]
    exact hfrom q hq
  · exact haccepted p.text hnew

theorem onCreate (pushes : List Bytes) (w h : Int) (injections : List InjectOutcome)
    (want : Want) : Traced getString pushes
      (CarrierProcess.onCreate getString toInt32 w h injections want) := by
  have hnew : Traced getString pushes { want := want, system := .initial injections } :=
    ⟨[], System.uploaded_initial injections, by simp⟩
  unfold CarrierProcess.onCreate
  split_ifs
  · exact hnew
  · obtain ⟨parts, hparts, hfrom⟩ := hnew.run [.call (.setInvertScroll want.invert),
      .call (.setAutoReconnect 3000), .call (.setClipboardSync want.clipboard), .call .stop,
      .call (.setScreenSize w h), .start (arguments getString toInt32 want).host
        (arguments getString toInt32 want).port (arguments getString toInt32 want).screenName]
      (by simp [System.acceptedTexts, System.accepts])
    exact ⟨parts, hparts, hfrom⟩

theorem pushRequest (h : Traced getString pushes c) {text : Bytes} (hpushed : text ∈ pushes) :
    Traced getString pushes (c.pushRequest getString text) := by
  unfold CarrierProcess.pushRequest
  split_ifs
  · exact h
  · apply h.run
    intro t ht
    refine ⟨text, hpushed, ?_⟩
    simp only [System.acceptedTexts, System.accepts] at ht
    split_ifs at ht
    · cases ht
    · cases ht
    · exact List.mem_singleton.mp ht

theorem upload (h : Traced getString pushes c) : Traced getString pushes c.upload :=
  h.run [.upload] (by simp [System.acceptedTexts, System.accepts])

end Traced

/-- A server whose options come at once. -/
def lucid : Connection := ⟨true, [.data (serverBytes [.dsop []])], []⟩

/-- The carrier when the options have been handled. -/
def served : CarrierProcess := ((started.work lucid []).work lucid []).work lucid []

/-- The user pastes a text, and its upload has got as far as the first frame of the transfer. -/
def uploading : App :=
  { carried.handle (.paste (ascii "near")) with
    inFlight := []
    carrier := some (served.pushRequest firstBytes (ascii "near")).upload.upload.upload }

end App

namespace Feed

theorem broadcastText_ne_nil {log : List Event} {text : Bytes}
    (h : text ∈ log.filterMap Event.broadcastText) : text ≠ [] := by
  obtain ⟨e, -, he⟩ := List.mem_filterMap.mp h
  cases e with
  | clipboard value =>
    simp only [Event.broadcastText] at he
    split_ifs at he with hempty
    obtain rfl := Option.some.inj he
    simpa using hempty
  | _ => cases he

/-- With one registration, and the broadcasts handled in order and once each: the texts that
the page writes to the pasteboard are among those delivered to the client, in order; and if the
switch stays on they are all of them but those from before the registration, as soon as
nothing is on its way. -/
theorem pasteboard_steps {injections : List InjectOutcome} {σ σ' : Feed}
    (h : Steps Event.broadcastText (initial injections) σ) (hreg : σ.relay.current ≠ none)
    (h' : Steps Event.broadcastText σ σ') (hone : σ'.relay.next ≤ 1) {κ κ' : Launch}
    {es : List PageEvent} (hrun : Launch.Run κ es κ')
    (hbus : es.filterMap PageEvent.clip <+: σ'.relay.delivered.map Prod.snd) :
    ∃ texts, κ'.written = κ.written ++ texts ∧
      texts.Sublist (σ'.system.client.world.log.filterMap Event.broadcastText) ∧
      (κ.page.fields.clipboardSync = true → (∀ e ∈ es, e.disables = false) →
        es.filterMap PageEvent.clip = σ'.relay.delivered.map Prod.snd → σ'.relay.queue 0 = [] →
        σ'.relay.hand () = none → σ'.backlog = [] →
        σ.relay.dropped.map Prod.snd ++ texts =
          σ'.system.client.world.log.filterMap Event.broadcastText) := by
  have hall := picked_steps h hreg h' hone
  obtain ⟨texts, hwritten, hsub⟩ := Launch.written_run hrun
  refine ⟨texts, hwritten, ?_, fun hon hes hbroadcast hqueue hhand hbacklog => ?_⟩
  · have hdelivered : (σ'.relay.delivered.map Prod.snd).Sublist
        (σ'.system.client.world.log.filterMap Event.broadcastText) := by
      rw [hall, List.append_assoc, List.append_assoc, List.append_assoc]
      exact ((List.prefix_append _ _).sublist).trans (List.sublist_append_right _ _)
    exact ((hsub.trans List.filter_sublist).trans hbus.sublist).trans hdelivered
  · rw [hqueue, held_of_free hhand, hbacklog, List.append_nil, List.append_nil,
      List.append_nil] at hall
    have hfull : (es.filterMap PageEvent.clip).filter (! ·.isEmpty) =
        es.filterMap PageEvent.clip := by
      rw [List.filter_eq_self]
      intro text htext
      have hmem : text ∈ σ'.system.client.world.log.filterMap Event.broadcastText := by
        rw [hall, ← hbroadcast]
        exact List.mem_append_right _ htext
      simpa using broadcastText_ne_nil hmem
    have hnew : texts = es.filterMap PageEvent.clip := by
      rw [(Launch.written_on hrun hon hes).2, hfull] at hwritten
      exact (List.append_cancel_left hwritten).symm
    rw [hall, hnew, hbroadcast]

/-- As long as nothing is reported the client runs by itself. -/
theorem steps_unreported {pick : Event → Option Bytes} {σ : System} {actions : List Action}
    (h : (σ.run actions).client.world.log.filterMap pick = []) :
    Steps pick { system := σ } { system := σ.run actions } := by
  induction actions using List.reverseRecOn with
  | nil => exact .refl
  | append_singleton actions a ih =>
    obtain ⟨es, hes⟩ := picked_step pick a (σ.run actions)
    rw [System.run_concat] at h ⊢
    rw [h] at hes
    obtain ⟨hbefore, -⟩ := List.append_eq_nil_iff.mp hes.symm
    have hstep : Step pick { system := σ.run actions }
        (act pick a { system := σ.run actions }) := .act a fun _ _ => ⟨rfl, rfl⟩
    rw [act, h, hbefore] at hstep
    exact (ih hbefore).tail hstep

/-- The server has sent all of a text but the end. -/
def assembling : System :=
  (System.initial []).run (System.serving [.dsop [], .dclp 0 0 1 (ascii "15"),
    .dclp 0 0 2 (marshalText (ascii "far")), .dclp 0 0 3 []] 8)

def receiving : Connection := ⟨true, [], []⟩

/-- The carrier has registered. -/
def awaiting : Feed :=
  { system := assembling
    relay := ({} : Relay Unit Bytes).register }

/-- The text is delivered to the client and broadcast. -/
def arrived : Feed :=
  (((awaiting.act Event.broadcastText (.work receiving)).publish (ascii "far")
    []).callThreadsafeFunction 0 (ascii "far")).callJs 0 (ascii "far") []

theorem steps_awaiting : Steps Event.broadcastText (initial []) awaiting := by
  have hquiet : assembling.client.world.log.filterMap Event.broadcastText = [] := by
    decide +kernel
  exact (steps_unreported hquiet).tail .register

theorem steps_arrived : Steps Event.broadcastText awaiting arrived := by
  let delivered := awaiting.act Event.broadcastText (.work receiving)
  have hwork : Step Event.broadcastText awaiting delivered := .act _ fun _ _ => ⟨rfl, rfl⟩
  have hbacklog : delivered.backlog = [ascii "far"] := by decide +kernel
  have hcopy : Step Event.broadcastText delivered _ := .publish (ascii "far") [] hbacklog rfl
  have hcall : Step Event.broadcastText (delivered.publish (ascii "far") []) _ :=
    .callThreadsafeFunction 0 (ascii "far") rfl
  have hshow : Step Event.broadcastText
      ((delivered.publish (ascii "far") []).callThreadsafeFunction 0 (ascii "far")) arrived :=
    .callJs 0 (ascii "far") [] rfl
  exact (((Relation.ReflTransGen.single hwork).tail hcopy).tail hcall).tail hshow

theorem pasteboard_steps_arrived :
    let κ' := ({} : Launch).handle (.bgClip (ascii "far"))
    let es : List PageEvent := [.bgClip (ascii "far")]
    ∃ texts, κ'.written = [] ++ texts ∧
      texts.Sublist (arrived.system.client.world.log.filterMap Event.broadcastText) ∧
      (({} : Launch).page.fields.clipboardSync = true → (∀ e ∈ es, e.disables = false) →
        es.filterMap PageEvent.clip = arrived.relay.delivered.map Prod.snd →
        arrived.relay.queue 0 = [] → arrived.relay.hand () = none → arrived.backlog = [] →
        awaiting.relay.dropped.map Prod.snd ++ texts =
          arrived.system.client.world.log.filterMap Event.broadcastText) :=
  pasteboard_steps steps_awaiting (Option.some_ne_none 0) steps_arrived (Nat.le_refl 1)
    (.handle (.bgClip (ascii "far")) (.nil {}) trivial) (List.prefix_refl _)

end Feed

end Deskflow
