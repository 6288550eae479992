import BackupEngine.Lib.Transition

/-!
# The io_context and its thread

An `asio::io_context` with the one thread that calls its `run`. Of asio is taken that `run` returns at once on a stopped
context, that `stop` makes it return, that only `restart` takes the flag back, and that otherwise the thread runs the ready
handlers one by one in the order in which they became ready. What is ready and what is under way is the outstanding work: when
none is left behind a handler, or on entering `run`, the context stops itself.

A client and a server open and close sessions on such a context. `Session.machine` is what the two have in common.
-/

namespace Netzwerk

open Transition

/-- Where the thread is that calls `run`: about to enter it, between two handlers, or out of it. -/
inductive RunPlace where
  | entering
  | looping
  | returned
  deriving DecidableEq, Repr

/-- An io_context over the asynchronous operations `O` and the handlers `H`, with the `std::thread` object that runs it: none
while it is not joinable. -/
structure IoContext (O H : Type) where
  stopped : Bool := false
  /-- The operations that have begun and are not complete. -/
  pending : List O := []
  ready : List H := []
  thread : Option RunPlace := none
  /-- The handlers run so far. -/
  ran : List H := []
  deriving DecidableEq, Repr

/-- What the thread can do in `run`: enter the loop, run the oldest ready handler, or return. -/
inductive RunStep where
  | enter
  | handle
  | leave
  deriving DecidableEq, Repr

/-- `std::terminate`: a thread object was assigned while it was joinable. -/
inductive Terminated where
  | terminate
  deriving DecidableEq, Repr

namespace IoContext

variable {O H : Type}

/-- Operations begin. -/
def initiate (c : IoContext O H) (begun : List O) : IoContext O H := { c with pending := c.pending ++ begun }

/-- A handler is posted. -/
def post (c : IoContext O H) (h : H) : IoContext O H := { c with ready := c.ready ++ [h] }

/-- An operation completes, and its handler becomes ready. -/
def complete [DecidableEq O] (c : IoContext O H) (o : O) (h : H) : IoContext O H :=
  { c with pending := c.pending.erase o, ready := c.ready ++ [h] }

/-- `m_context.stop()`. -/
def stop (c : IoContext O H) : IoContext O H := { c with stopped := true }

/-- The assignment of `std::thread([this]() { m_context.run(); })`. -/
def start (c : IoContext O H) : Except Terminated (IoContext O H) :=
  if c.thread.isNone then .ok { c with thread := some .entering } else .error .terminate

/-- The thread object can be joined without waiting. -/
def Joinable (c : IoContext O H) : Prop := c.thread = none ∨ c.thread = some .returned

/-- `if (thrContext.joinable()) thrContext.join();`, once the thread is out of `run`. -/
def join (c : IoContext O H) : IoContext O H := { c with thread := none }

/-- No outstanding work is left. -/
def Idle (c : IoContext O H) : Prop := c.pending = [] ∧ c.ready = []

instance (c : IoContext O H) : Decidable c.Idle := decidable_of_iff (c.pending.isEmpty ∧ c.ready.isEmpty) (by simp [Idle])

/-- `work_finished`: the context stops itself when no outstanding work is left. -/
def workFinished (c : IoContext O H) : IoContext O H := if c.Idle then c.stop else c

def enabled (c : IoContext O H) : RunStep → Prop
  | .enter => c.thread = some .entering ∧ c.stopped = false
  | .handle => c.thread = some .looping ∧ c.stopped = false ∧ c.ready ≠ []
  | .leave => (c.thread = some .entering ∨ c.thread = some .looping) ∧ c.stopped = true

/-- A step of the thread. The handler that is run may begin operations. -/
def next (begins : H → List O) (c : IoContext O H) : RunStep → IoContext O H
  | .enter => { c with thread := some .looping }.workFinished
  | .handle =>
    match c.ready with
    | [] => c
    | h :: ready => ({ c with ready := ready, ran := c.ran ++ [h] }.initiate (begins h)).workFinished
  | .leave => { c with thread := some .returned }

/-- The thread by itself. -/
def run (begins : H → List O) : Machine Terminated (IoContext O H) RunStep where
  enabled := enabled
  next := fun c e => .ok (c.next begins e)

/-- A handler that becomes ready now is run by the thread, after those that are ready already and whatever they begin. -/
def Serves (c : IoContext O H) : Prop :=
  ∀ begins h, ∃ steps t, Run (run begins) (c.post h) steps t ∧ t.ran = c.ran ++ c.ready ++ [h]

end IoContext

/-! ## Sessions -/

/-- A call that opens a session, with what it returns, or one that closes it. -/
inductive Call where
  | opens (ok : Bool)
  | closes
  deriving DecidableEq, Repr

/-- Where the caller is: outside, with no session, after a call that failed or in a session; in a call that closes, before it
stops the context or about to join the thread. -/
inductive Phase where
  | closed
  | failed
  | opened
  | stopping
  | joining
  deriving DecidableEq, Repr

/-- A context and the calls on it. -/
structure Session (O H : Type) where
  context : IoContext O H := {}
  phase : Phase := .closed
  deriving DecidableEq, Repr

/-- What can happen: a call, with the operations it begins; what a closing call does; a handler that is posted or whose
operation completes; a step of the thread, with the operations its handler begins. -/
inductive SessionEvent (O H : Type) where
  | call (c : Call) (begun : List O)
  | stop
  | join
  | post (h : H)
  | complete (o : O) (h : H)
  | thread (e : RunStep) (begun : List O)
  deriving DecidableEq, Repr

namespace Session

variable {O H : Type}

/-- A call that opens comes first or after one that closes, and begins an operation unless it fails. -/
def enabled (s : Session O H) : SessionEvent O H → Prop
  | .call (.opens ok) begun => s.phase = .closed ∧ (ok = true → begun ≠ [])
  | .call .closes _ => s.phase = .closed ∨ s.phase = .failed ∨ s.phase = .opened
  | .stop => s.phase = .stopping
  | .join => s.phase = .joining ∧ s.context.Joinable
  | .post _ => True
  | .complete o _ => o ∈ s.context.pending
  | .thread e _ => s.context.enabled e

variable [DecidableEq O]

def next (s : Session O H) : SessionEvent O H → Except Terminated (Session O H)
  | .call (.opens true) begun => do return { context := ← (s.context.initiate begun).start, phase := .opened }
  | .call (.opens false) begun => .ok { context := s.context.initiate begun, phase := .failed }
  | .call .closes _ => .ok { s with phase := .stopping }
  | .stop => .ok { context := s.context.stop, phase := .joining }
  | .join => .ok { context := s.context.join, phase := .closed }
  | .post h => .ok { s with context := s.context.post h }
  | .complete o h => .ok { s with context := s.context.complete o h }
  | .thread e begun => .ok { s with context := s.context.next (fun _ => begun) e }

def machine : Machine Terminated (Session O H) (SessionEvent O H) where
  enabled := enabled
  next := next

/-- The event is not the handler behind which nothing is left, in a session. -/
def KeepsWork (s : Session O H) (e : SessionEvent O H) : Prop :=
  s.phase = .opened → e = .thread .handle [] → s.context.pending = [] → s.context.ready.length ≠ 1

end Session

/-- The calls among the events. -/
def SessionEvent.calls {O H : Type} (events : List (SessionEvent O H)) : List Call :=
  events.filterMap fun e => match e with
    | .call c _ => some c
    | _ => none

/-- No call opens a session after one that closed. -/
def NeverReopened (calls : List Call) : Prop := calls.Pairwise fun c d => c = .closes → d ≠ .opens true

end Netzwerk
