import Mathlib.Logic.Function.Basic
import MtossBot.Exc
import MtossBot.Library.EventLoop

/-!
# The MT5 session

`Mt5Session` as coroutines over the session's state and its executor, which has one thread. An operation is submitted and waited for by
one call, whose answer is that of the operation, or `TimeoutError` when its time is up, or `CancelledError`. A coroutine may also call a
function of the client itself, on the thread of the event loop. The logging is left out.
-/

namespace MtossBot

inductive SessionState where
  | IDLE
  | READY
  | DEGRADED
  | CLOSED
deriving DecidableEq, Repr

/-- The keyword arguments of the client's `initialize`: a path if there is one, and the account if there is a login. -/
structure InitializeArgs where
  path : Option String
  account : Option (Int × String × String)
deriving DecidableEq

structure TerminalInfo where
  trade_allowed : Bool
deriving DecidableEq

structure AccountInfo where
  login : Int
deriving DecidableEq

/-- The operations of the client: those of the session itself, and those that its users pass to `call`. -/
inductive ClientOp where
  | initialize_client (kwargs : InitializeArgs)
  | terminal_info
  | account_info
  | shutdown
  | last_error
  | operation (number : Nat)
deriving DecidableEq

@[reducible] def ClientOp.Res : ClientOp → Type
  | .initialize_client _ => Bool
  | .terminal_info => Option TerminalInfo
  | .account_info => Option AccountInfo
  | .shutdown => Unit
  | .last_error => String
  | .operation _ => Unit

/-- The threads that functions of the client may be called on. -/
inductive Mt5Thread where
  | event_loop
  | executor
deriving DecidableEq

/-- A call of a function of the client, and the thread it was made on. -/
structure Invocation where
  thread : Mt5Thread
  op : ClientOp
deriving DecidableEq

/-- What the coroutines of a session do. -/
inductive Mt5Call where
  | state
  | set_state (state : SessionState)
  | run_in_executor (op : ClientOp)
  | invoke (op : ClientOp)
  | shutdown_executor

@[reducible] def Mt5Call.Res : Mt5Call → Type
  | .state => SessionState
  | .run_in_executor op => op.Res
  | .invoke op => op.Res
  | _ => Unit

abbrev mt5Calls : Sig := ⟨Mt5Call, Mt5Call.Res⟩

abbrev Mt5Coro (α : Type) : Type := Prog mt5Calls Exc α

def Mt5Call.perform (call : Mt5Call) : Mt5Coro call.Res := Prog.perform (σ := mt5Calls) call

/-- What the session is made with, and what the client answers on the event loop, given what has been called of it so far. -/
structure Mt5Config where
  terminal_path : Option String := none
  login : Option Int := none
  password : Option String := none
  server : Option String := none
  client : List Invocation → (op : ClientOp) → Except Exc op.Res := fun _ _ => .error (.assertionError "no terminal")

namespace Mt5Session

/-- The keyword arguments that `start` passes to `initialize`. -/
def kwargs (config : Mt5Config) : InitializeArgs where
  path := config.terminal_path.filter fun path => path ≠ ""
  account := config.login.map fun login => (login, config.password.getD "", config.server.getD "")

def call (operation : ClientOp) : Mt5Coro operation.Res := do
  let state ← Mt5Call.perform .state
  if state = .DEGRADED then Prog.raise (.mt5Unavailable "session is degraded; restart the process")
  else Prog.tryExcept (Mt5Call.perform (.run_in_executor operation)) fun e =>
    if e.isA .TimeoutError then do
      let _ ← Mt5Call.perform (.set_state .DEGRADED)
      Prog.raise e
    else Prog.raise e

/-- What `start` makes of the answers of the terminal. -/
def conclude (terminal : Option TerminalInfo) (account : Option AccountInfo) : Mt5Coro Unit :=
  match terminal, account with
  | some terminal, some _ =>
    if !terminal.trade_allowed then
      Prog.raise (.mt5Unavailable "terminal has automated trading disabled (Tools > Options > Expert Advisors)")
    else Mt5Call.perform (.set_state .READY)
  | _, _ => do
    let _ ← Mt5Call.perform (.set_state .DEGRADED)
    Prog.raise (.mt5Unavailable "terminal or account info unavailable after initialize")

def start (config : Mt5Config) : Mt5Coro Unit := do
  let ok ← call (.initialize_client (kwargs config))
  if !ok then do
    let _ ← Mt5Call.perform (.set_state .DEGRADED)
    let error ← Mt5Call.perform (.invoke .last_error)
    Prog.raise (.mt5Unavailable ("initialize failed: " ++ error))
  else do
    let terminal ← call .terminal_info
    let account ← call .account_info
    conclude terminal account

/-- The `try` of `close`. -/
def shutdown : Mt5Coro Unit :=
  Prog.tryExcept (Mt5Call.perform (.run_in_executor .shutdown)) fun e =>
    if e.isA .Exception then pure () else Prog.raise e

def close : Mt5Coro Unit := do
  let state ← Mt5Call.perform .state
  if state = .READY ∨ state = .DEGRADED then do
    let _ ← shutdown
    let _ ← Mt5Call.perform .shutdown_executor
    Mt5Call.perform (.set_state .CLOSED)
  else do
    let _ ← Mt5Call.perform .shutdown_executor
    Mt5Call.perform (.set_state .CLOSED)

end Mt5Session
end MtossBot
