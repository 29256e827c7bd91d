import MtossBot.Infrastructure.Mt5Session

/-!
# A running MT5 session

Any number of `start`, `call` and `close` over one session. The executor runs one operation at a time, in the order in which they were
submitted; an operation may take any time, and a coroutine that waits for it may time out or be cancelled at any moment. Its operation
is dropped then, unless it is the one that is running. The state keeps what has been called of the client, and on which thread.
-/

namespace MtossBot

inductive Mt5Job where
  | start
  | call (number : Nat)
  | close
deriving DecidableEq

/-- A run of a job. -/
structure Mt5Task where
  number : Nat
  job : Mt5Job
deriving DecidableEq

/-- The session and its executor. An operation is known by a ticket; the first one in the queue is running. -/
structure Mt5State where
  state : SessionState := .IDLE
  shut : Bool := false
  queue : List Nat := []
  finished : List Nat := []
  waits : Mt5Task → Option Nat := fun _ => none
  submitted : List ClientOp := []
  invocations : List Invocation := []

namespace Mt5State

/-- The thread calls the first operation of the queue. -/
def begin (s : Mt5State) : Mt5State :=
  { s with
    invocations := s.invocations ++ (s.queue.head?.bind (s.submitted[·]?)).toList.map fun op => ⟨.executor, op⟩ }

/-- An operation is submitted; its ticket says how many were before it. A thread that is idle calls it at once. -/
def submit (s : Mt5State) (t : Mt5Task) (op : ClientOp) : Mt5State :=
  let s' := { s with
    queue := s.queue ++ [s.submitted.length]
    waits := Function.update s.waits t (some s.submitted.length)
    submitted := s.submitted ++ [op] }
  if s.queue = [] then s'.begin else s'

theorem submit_cases (s : Mt5State) (t : Mt5Task) (op : ClientOp) :
    (s.submit t op).state = s.state ∧ (s.submit t op).shut = s.shut ∧ (s.submit t op).submitted = s.submitted ++ [op] := by
  unfold submit
  dsimp only
  split <;> exact ⟨rfl, rfl, rfl⟩

/-- A task waits no longer. -/
def wake (s : Mt5State) (t : Mt5Task) : Mt5State := { s with waits := Function.update s.waits t none }

/-- An operation that has not begun is dropped. -/
def cancel (s : Mt5State) (ticket : Nat) : Mt5State :=
  { s with queue := if s.queue.head? = some ticket then s.queue else s.queue.erase ticket }

/-- What an executor raises that was shut down. -/
def shutdownError : Exc := ⟨[.Exception], "cannot schedule new futures after shutdown", [], []⟩

/-- The calls that return at once; an executor that was shut down takes nothing. -/
def now (config : Mt5Config) (s : Mt5State) : (op : Mt5Call) → Option (Except Exc op.Res × Mt5State)
  | .state => some (.ok s.state, s)
  | .set_state state => some (.ok (), { s with state := state })
  | .run_in_executor _ =>
    if s.shut then some (.error shutdownError, s) else none
  | .invoke op =>
    some (config.client s.invocations op, { s with invocations := s.invocations ++ [⟨.event_loop, op⟩] })
  | .shutdown_executor => some (.ok (), { s with shut := true, queue := s.queue.take 1 })

/-- A coroutine is suspended by an operation it submits. -/
def suspend (s : Mt5State) (t : Mt5Task) : Mt5Call → Mt5State
  | .run_in_executor op => s.submit t op
  | _ => s

/-- A coroutine is resumed when its operation has finished, or when its time is up or it is cancelled. -/
inductive Resume (s : Mt5State) (t : Mt5Task) : (op : Mt5Call) → Except Exc op.Res → Mt5State → Prop where
  | finished {op : ClientOp} {ticket : Nat} {r : Except Exc op.Res} :
      s.waits t = some ticket → ticket ∈ s.finished → Resume s t (.run_in_executor op) r (s.wake t)
  | timeout {op : ClientOp} {ticket : Nat} :
      s.waits t = some ticket → Resume s t (.run_in_executor op) (.error .timeoutError) ((s.wake t).cancel ticket)
  | cancelled {op : ClientOp} {ticket : Nat} :
      s.waits t = some ticket → Resume s t (.run_in_executor op) (.error .cancelledError) ((s.wake t).cancel ticket)

/-- The thread finishes what it is running, and goes on with the next operation. -/
def Finishes (s s' : Mt5State) : Prop :=
  ∃ ticket rest, s.queue = ticket :: rest ∧ s' = begin { s with queue := rest, finished := s.finished ++ [ticket] }

end Mt5State

def Mt5Task.program (config : Mt5Config) (t : Mt5Task) : Mt5Coro Unit :=
  match t.job with
  | .start => Mt5Session.start config
  | .call number => Mt5Session.call (.operation number)
  | .close => Mt5Session.close

def mt5Session (config : Mt5Config) : EventLoop mt5Calls Exc Unit Mt5Task Mt5State where
  init s := s = {}
  program := Mt5Task.program config
  now := Mt5State.now config
  suspend := Mt5State.suspend
  resume := Mt5State.Resume
  env := Mt5State.Finishes

abbrev Mt5Pool : Type := EventLoop.Config mt5Calls Exc Unit Mt5Task Mt5State

end MtossBot
