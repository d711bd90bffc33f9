import Mathlib.Data.Finset.Insert
import Mathlib.Data.Fintype.EquivFin
import Deskflow.Threads

/-! One `stop` of the JS thread among the steps of the worker: every load and store of
the flag and of the descriptor, and every entry into `recv`, is a step of its own. -/

namespace Deskflow

/-- What is being read: the Hello, or the messages of the loop. -/
inductive Reading
  | hello
  | message
  deriving DecidableEq, Repr

/-- Where the worker stands. It reads the descriptor (`reading`), calls `recv`
(`entering`), waits in it (`blocked`) and goes on with what came (`processing`, which
includes its sends). The last four steps of a connection are `SocketStream::close` and
the result of `runOnce`. -/
inductive Worker
  | test
  | connecting
  | storing (fd : Nat)
  | reading (r : Reading)
  | entering (r : Reading) (fd : Option Nat)
  | blocked (r : Reading) (fd : Nat)
  | processing (r : Reading)
  | looping
  | closing (r : Reading)
  | shutting (r : Reading)
  | resetting (r : Reading)
  | leaving (r : Reading)
  | retrying (again : Bool)
  | waiting
  | ended
  deriving DecidableEq, Repr

/-- Where `stop` stands: before it, before the test of the descriptor in `close`,
before the call of `close`, before the store of -1, after it. -/
inductive Stopper
  | before
  | testing
  | closing
  | resetting
  | done
  deriving DecidableEq, Repr

/-- `m_stopRequested`, `m_fd`, where -1 is `none`, the open descriptors and the threads. -/
structure Control where
  stopRequested : Bool := false
  fd : Option Nat := none
  opened : Finset Nat := ∅
  worker : Worker := .test
  stopper : Stopper := .before

namespace Control

/-- The open descriptors after `::close(m_fd)`. -/
def closeFd (σ : Control) : Finset Nat :=
  match σ.fd with
  | some n => σ.opened.erase n
  | none => σ.opened

/-- A step of the worker after `start`. What the server and the system do is left open:
a connect may fail, `recv` may return, and automatic reconnection may be off. -/
inductive Work : Control → Control → Prop
  | dial {σ : Control} : σ.worker = .test → σ.stopRequested = false →
      Work σ { σ with worker := .connecting }
  | quit {σ : Control} : σ.worker = .test → σ.stopRequested = true →
      Work σ { σ with worker := .ended }
  | refused {σ : Control} : σ.worker = .connecting → Work σ { σ with worker := .retrying true }
  | accepted {σ : Control} (n : Nat) : σ.worker = .connecting → n ∉ σ.opened →
      Work σ { σ with opened := insert n σ.opened, worker := .storing n }
  | store {σ : Control} (n : Nat) : σ.worker = .storing n →
      Work σ { σ with fd := some n, worker := .reading .hello }
  | buffered {σ : Control} (r : Reading) : σ.worker = .reading r →
      Work σ { σ with worker := .processing r }
  | load {σ : Control} (r : Reading) : σ.worker = .reading r →
      Work σ { σ with worker := .entering r σ.fd }
  | enter {σ : Control} (r : Reading) (n : Nat) : σ.worker = .entering r (some n) →
      n ∈ σ.opened → Work σ { σ with worker := .blocked r n }
  | invalid {σ : Control} (r : Reading) (fd : Option Nat) : σ.worker = .entering r fd →
      (∀ n ∈ fd, n ∉ σ.opened) → Work σ { σ with worker := .closing r }
  | received {σ : Control} (r : Reading) (n : Nat) : σ.worker = .blocked r n →
      Work σ { σ with worker := .processing r }
  | failed {σ : Control} (r : Reading) (n : Nat) : σ.worker = .blocked r n →
      Work σ { σ with worker := .closing r }
  | further {σ : Control} (r : Reading) : σ.worker = .processing r →
      Work σ { σ with worker := .reading r }
  | rejected {σ : Control} (r : Reading) : σ.worker = .processing r →
      Work σ { σ with worker := .closing r }
  | handled {σ : Control} (r : Reading) : σ.worker = .processing r →
      Work σ { σ with worker := .looping }
  | next {σ : Control} : σ.worker = .looping → σ.stopRequested = false →
      Work σ { σ with worker := .reading .message }
  | exit {σ : Control} : σ.worker = .looping → σ.stopRequested = true →
      Work σ { σ with worker := .closing .message }
  | holds {σ : Control} (r : Reading) (n : Nat) : σ.worker = .closing r → σ.fd = some n →
      Work σ { σ with worker := .shutting r }
  | holdsNone {σ : Control} (r : Reading) : σ.worker = .closing r → σ.fd = none →
      Work σ { σ with worker := .leaving r }
  | shut {σ : Control} (r : Reading) : σ.worker = .shutting r →
      Work σ { σ with opened := σ.closeFd, worker := .resetting r }
  | reset {σ : Control} (r : Reading) : σ.worker = .resetting r →
      Work σ { σ with fd := none, worker := .leaving r }
  | leave {σ : Control} (r : Reading) (again : Bool) : σ.worker = .leaving r →
      (r = .message → again = true → σ.stopRequested = false) →
      Work σ { σ with worker := .retrying again }
  | retry {σ : Control} : σ.worker = .retrying true → σ.stopRequested = false →
      Work σ { σ with worker := .waiting }
  | giveUp {σ : Control} (again : Bool) : σ.worker = .retrying again →
      Work σ { σ with worker := .ended }
  | waited {σ : Control} : σ.worker = .waiting → Work σ { σ with worker := .test }

inductive Stop : Control → Control → Prop
  | request {σ : Control} : σ.stopper = .before →
      Stop σ { σ with stopRequested := true, stopper := .testing }
  | holds {σ : Control} (n : Nat) : σ.stopper = .testing → σ.fd = some n →
      Stop σ { σ with stopper := .closing }
  | holdsNone {σ : Control} : σ.stopper = .testing → σ.fd = none →
      Stop σ { σ with stopper := .done }
  | close {σ : Control} : σ.stopper = .closing →
      Stop σ { σ with opened := σ.closeFd, stopper := .resetting }
  | reset {σ : Control} : σ.stopper = .resetting → Stop σ { σ with fd := none, stopper := .done }

inductive Step : Control → Control → Prop
  | work {σ σ' : Control} : Work σ σ' → Step σ σ'
  | stop {σ σ' : Control} : Stop σ σ' → Step σ σ'

abbrev Steps : Control → Control → Prop := Relation.ReflTransGen Step

end Control

/-- Past the test of the reconnect loop, with the descriptor not yet stored. -/
def Worker.Dialing : Worker → Prop
  | .connecting => True
  | .storing _ => True
  | _ => False

namespace Control

/-- The worker is in `recv` or about to enter it, on an open descriptor. -/
def AtRecv (σ : Control) : Prop :=
  match σ.worker with
  | .reading _ => ∃ n ∈ σ.fd, n ∈ σ.opened
  | .entering _ fd => ∃ n ∈ fd, n ∈ σ.opened
  | .blocked _ n => n ∈ σ.opened
  | _ => False

/-- `stop` has completed and the worker has not noticed. -/
def Lost (σ : Control) : Prop := σ.stopper = .done ∧ σ.AtRecv

/-- A step, where `stop` does not test the descriptor while the worker is dialling. -/
inductive Timely : Control → Control → Prop
  | work {σ σ' : Control} : Work σ σ' → Timely σ σ'
  | stop {σ σ' : Control} : (σ.stopper = .testing → ¬σ.worker.Dialing) → Stop σ σ' → Timely σ σ'

end Control

/-- The changes of phase that a step of the worker makes. -/
inductive Phase.Next : Phase → Phase → Prop
  | stopped : Next .ready .idle
  | refused (again : Bool) : Next .ready (.leaving again)
  | accepted : Next .ready .greeting
  | greeted : Next .greeting .looping
  | rejected (again : Bool) : Next .greeting (.leaving again)
  | received (keepGoing : Bool) : Next .looping (.answering keepGoing)
  | exited : Next .looping .closing
  | answered (keepGoing : Bool) : Next (.answering keepGoing) .looping
  | ended (keepGoing : Bool) : Next (.answering keepGoing) .closing
  | closed (again : Bool) : Next .closing (.leaving again)
  | again (again : Bool) : Next (.leaving again) .ready
  | over (again : Bool) : Next (.leaving again) .idle

def Reading.phase : Reading → Phase
  | .hello => .greeting
  | .message => .looping

def Worker.phase : Worker → Phase
  | .test => .ready
  | .connecting => .ready
  | .storing _ => .ready
  | .reading r => r.phase
  | .entering r _ => r.phase
  | .blocked r _ => r.phase
  | .processing .hello => .greeting
  | .processing .message => .answering true
  | .looping => .looping
  | .closing .hello => .greeting
  | .shutting .hello => .greeting
  | .resetting .hello => .greeting
  | .leaving .hello => .greeting
  | .closing .message => .closing
  | .shutting .message => .closing
  | .resetting .message => .closing
  | .leaving .message => .closing
  | .retrying again => .leaving again
  | .waiting => .ready
  | .ended => .idle

theorem System.work_next (conn : DeskflowClient.Connection) (σ : System) :
    (σ.work conn).phase = σ.phase ∨ σ.phase.Next (σ.work conn).phase := by
  obtain ⟨c, phase, push⟩ := σ
  cases phase with
  | idle => exact .inl rfl
  | ready =>
    simp only [work]
    split_ifs
    · exact .inr .stopped
    · exact .inr .accepted
    · exact .inr (.refused _)
  | greeting =>
    simp only [work]
    split_ifs
    · exact .inr .greeted
    · exact .inr (.rejected _)
  | looping =>
    simp only [work]
    split_ifs
    · exact .inr .exited
    · exact .inr (.received _)
  | answering keepGoing =>
    simp only [work]
    split_ifs
    · exact .inr (.answered _)
    · exact .inr (.ended _)
  | closing => exact .inr (.closed _)
  | leaving again =>
    simp only [work]
    split_ifs
    · exact .inr (.again _)
    · exact .inr (.over _)

/-- The finer steps go through the same phases. -/
theorem Control.work_next {σ σ' : Control} (h : Work σ σ') :
    σ'.worker.phase = σ.worker.phase ∨ σ.worker.phase.Next σ'.worker.phase := by
  cases h with
  | dial hworker => exact .inl (by rw [hworker]; rfl)
  | quit hworker => exact .inr (by rw [hworker]; exact .stopped)
  | refused hworker => exact .inr (by rw [hworker]; exact .refused true)
  | accepted n hworker => exact .inl (by rw [hworker]; rfl)
  | store n hworker => exact .inr (by rw [hworker]; exact .accepted)
  | buffered r hworker =>
    rw [hworker]
    cases r with
    | hello => exact .inl rfl
    | message => exact .inr (.received true)
  | load r hworker => exact .inl (by rw [hworker]; rfl)
  | enter r n hworker => exact .inl (by rw [hworker]; rfl)
  | invalid r fd hworker =>
    rw [hworker]
    cases r with
    | hello => exact .inl rfl
    | message => exact .inr .exited
  | received r n hworker =>
    rw [hworker]
    cases r with
    | hello => exact .inl rfl
    | message => exact .inr (.received true)
  | failed r n hworker =>
    rw [hworker]
    cases r with
    | hello => exact .inl rfl
    | message => exact .inr .exited
  | further r hworker =>
    rw [hworker]
    cases r with
    | hello => exact .inl rfl
    | message => exact .inr (.answered true)
  | rejected r hworker =>
    rw [hworker]
    cases r with
    | hello => exact .inl rfl
    | message => exact .inr (.ended true)
  | handled r hworker =>
    rw [hworker]
    cases r with
    | hello => exact .inr .greeted
    | message => exact .inr (.answered true)
  | next hworker => exact .inl (by rw [hworker]; rfl)
  | exit hworker => exact .inr (by rw [hworker]; exact .exited)
  | holds r n hworker => exact .inl (by rw [hworker]; cases r <;> rfl)
  | holdsNone r hworker => exact .inl (by rw [hworker]; cases r <;> rfl)
  | shut r hworker => exact .inl (by rw [hworker]; cases r <;> rfl)
  | reset r hworker => exact .inl (by rw [hworker]; cases r <;> rfl)
  | leave r again hworker =>
    rw [hworker]
    cases r with
    | hello => exact .inr (.rejected again)
    | message => exact .inr (.closed again)
  | retry hworker => exact .inr (by rw [hworker]; exact .again true)
  | giveUp again hworker => exact .inr (by rw [hworker]; exact .over again)
  | waited hworker => exact .inl (by rw [hworker]; rfl)

end Deskflow
