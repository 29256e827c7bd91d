import Mathlib.Data.Finset.Card
import MtossBot.Application.Sizing
import MtossBot.Application.TradeManager
import MtossBot.Library.Dict

/-!
# The backtest

`strategies/ut_bot/backtest.py`: the simulator that runs the trade manager over closed bars, over any arithmetic. The local
variables of `run_backtest` are the fields of `Simulation`, and each phase of a bar is a function on them.
-/

namespace MtossBot

inductive FillKind where
  | ENTRY
  | EXIT
deriving DecidableEq, Repr

inductive SkipReason where
  | AWAITING_CONFIRMATION
  | BELOW_BROKER_MINIMUM
  | NON_POSITIVE_RISK
  | ACCOUNT_RUINED
deriving DecidableEq, Repr

structure BacktestFill (D : Type) where
  bar_index : Nat
  open_time : Datetime
  kind : FillKind
  role : TrancheRole
  side : OrderSide
  price : D
  quantity : D
  reason : Option CloseReason := none
deriving DecidableEq

structure BacktestSkip (D : Type) where
  bar_index : Nat
  open_time : Datetime
  side : OrderSide
  reason : SkipReason
  stop_distance : D
  budget : D
  equity : D
deriving DecidableEq

structure BacktestTrade (D : Type) where
  role : TrancheRole
  side : OrderSide
  quantity : D
  entry_bar_index : Nat
  entry_time : Datetime
  entry_price : D
  exit_bar_index : Nat
  exit_time : Datetime
  exit_price : D
  reason : CloseReason
deriving DecidableEq

structure BacktestResult (D : Type) where
  fills : List (BacktestFill D)
  trades : List (BacktestTrade D)
  skips : List (BacktestSkip D)
  final_state : TradeState D
  initial_equity : D
  final_equity : D
  peak_equity : D
  max_drawdown : D
  ruined : Bool
deriving DecidableEq

/-- The levels attached to a position. -/
structure _Bracket (D : Type) where
  role : TrancheRole
  side : OrderSide
  quantity : D
  stop_loss : D
  take_profit : Option D
  active_from : Nat
  breakeven : Bool
deriving DecidableEq

/-- The local variables of `run_backtest`. -/
structure Simulation (D : Type) where
  state : TradeState D := {}
  brackets : Dict TrancheRole (_Bracket D) := .empty
  queued : List (TradeAction D) := []
  fills : List (BacktestFill D) := []
  skips : List (BacktestSkip D) := []
  open_entries : Dict TrancheRole (BacktestFill D) := .empty
  trades : List (BacktestTrade D) := []
  equity : D
  peak_equity : D
  max_drawdown : D
  ruined : Bool := false

variable {D : Type} [PyDecimal D]

/-- The largest fall in percent of the peak. -/
def BacktestResult.max_drawdown_pct (r : BacktestResult D) : D :=
  if r.peak_equity ≤ 0 then 0 else r.max_drawdown / r.peak_equity * PyDecimal.ofInt 100

/-- How many of the attempts to enter ended at the gate, in percent. -/
def BacktestResult.confirmation_rate (r : BacktestResult D) : D :=
  let gated := r.skips.countP fun item => item.reason = .AWAITING_CONFIRMATION
  let attempts := (r.fills.map fun fill => fill.bar_index).toFinset.card + r.skips.length
  if attempts = 0 then 0 else PyDecimal.ofInt gated / PyDecimal.ofInt attempts * PyDecimal.ofInt 100

/-- The signed move of a trade. -/
def BacktestTrade.points (t : BacktestTrade D) : D :=
  match t.side with
  | .BUY => t.exit_price - t.entry_price
  | .SELL => t.entry_price - t.exit_price

/-- Whether the bar reaches a bracket, at what price and why: the stop first, and at the open if the open is beyond the level. -/
def _bracket_exit (bracket : _Bracket D) (bar : Bar D) : Option (D × CloseReason) :=
  let stop := bracket.stop_loss
  let stopReason : CloseReason := if bracket.breakeven then .BREAKEVEN_STOP else .STOP_LOSS
  match bracket.side with
  | .BUY =>
    if bar.low ≤ stop then some (if bar.open_ ≤ stop then bar.open_ else stop, stopReason)
    else
      match bracket.take_profit with
      | some target =>
        if target ≤ bar.high then some (if target ≤ bar.open_ then bar.open_ else target, .TAKE_PROFIT) else none
      | none => none
  | .SELL =>
    if stop ≤ bar.high then some (if stop ≤ bar.open_ then bar.open_ else stop, stopReason)
    else
      match bracket.take_profit with
      | some target =>
        if bar.low ≤ target then some (if bar.open_ ≤ target then bar.open_ else target, .TAKE_PROFIT) else none
      | none => none

/-- The inner function `record_exit`: without an open entry it does nothing. -/
def record_exit (rate : D) (index : Nat) (bar : Bar D) (role : TrancheRole) (price : D) (reason : CloseReason)
    (sim : Simulation D) : Simulation D :=
  match sim.open_entries.get? role with
  | none => sim
  | some entry =>
    let fill : BacktestFill D :=
      { bar_index := index
        open_time := bar.open_time
        kind := .EXIT
        role := role
        side := entry.side
        price := price
        quantity := entry.quantity
        reason := some reason }
    let trade : BacktestTrade D :=
      { role := role
        side := entry.side
        quantity := entry.quantity
        entry_bar_index := entry.bar_index
        entry_time := entry.open_time
        entry_price := entry.price
        exit_bar_index := index
        exit_time := bar.open_time
        exit_price := price
        reason := reason }
    let equity := sim.equity + trade.points * trade.quantity * rate
    let peak_equity := py_max sim.peak_equity equity
    { sim with
      open_entries := sim.open_entries.erase role
      fills := sim.fills ++ [fill]
      trades := sim.trades ++ [trade]
      equity := equity
      peak_equity := peak_equity
      max_drawdown := py_max sim.max_drawdown (peak_equity - equity)
      ruined := if equity ≤ 0 then true else sim.ruined }

/-- Brackets set and moved take effect at once; the orders at market are returned. -/
def _register_brackets (s : TradeState D) (index : Nat) :
    List (TradeAction D) → Dict TrancheRole (_Bracket D) → Dict TrancheRole (_Bracket D) × List (TradeAction D)
  | [], brackets => (brackets, [])
  | action :: actions, brackets =>
    match action.kind with
    | .SET_BRACKETS =>
      match s.tranche action.role, action.stop_loss with
      | some tranche, some stop_loss =>
        match tranche.quantity with
        | some quantity =>
          _register_brackets s index actions (brackets.set action.role
            { role := action.role
              side := tranche.side
              quantity := quantity
              stop_loss := stop_loss
              take_profit := action.take_profit
              active_from := index + 1
              breakeven := false })
        | none => _register_brackets s index actions brackets
      | _, _ => _register_brackets s index actions brackets
    | .MOVE_STOP =>
      match brackets.get? action.role, action.stop_loss with
      | some existing, some stop_loss =>
        _register_brackets s index actions (brackets.set action.role
          { existing with stop_loss := stop_loss, breakeven := true, active_from := index + 1 })
      | _, _ => _register_brackets s index actions brackets
    | .CLOSE =>
      let (brackets, deferred) := _register_brackets s index actions (brackets.erase action.role)
      (brackets, action :: deferred)
    | .OPEN =>
      let (brackets, deferred) := _register_brackets s index actions brackets
      (brackets, action :: deferred)

/-- Register the actions of a decision and queue its orders. -/
def Simulation.register (sim : Simulation D) (d : TradeDecision D) (index : Nat) : Simulation D :=
  let (brackets, deferred) := _register_brackets d.state index d.actions sim.brackets
  { sim with state := d.state, brackets := brackets, queued := sim.queued ++ deferred }

/-- The loop over the orders of the previous bar: closes are filled at the open, entries are collected. -/
def fillQueued (rate : D) (index : Nat) (bar : Bar D) :
    List (TradeAction D) → Simulation D → Simulation D × List (TradeAction D)
  | [], sim => (sim, [])
  | action :: actions, sim =>
    match action.kind with
    | .CLOSE =>
      fillQueued rate index bar actions (record_exit rate index bar action.role bar.open_ (action.reason.getD .REVERSAL)
        { sim with brackets := sim.brackets.erase action.role })
    | .OPEN =>
      let (sim, entered) := fillQueued rate index bar actions sim
      (sim, action :: entered)
    | _ => fillQueued rate index bar actions sim

section Loop

variable (config : UtBotConfig D) (spec : SymbolSpec D) (rate : D) (confirm_over_budget : Bool)

/-- Why an entry is given up, with the budget. -/
def _skip_reason (stop_distance equity : D) (ruined : Bool) : Except Exc (Option (SkipReason × D)) :=
  if ruined ∨ equity ≤ 0 then .ok (some (.ACCOUNT_RUINED, equity * config.risk_pct))
  else do
    let outcome ← size_entry config stop_distance spec equity rate
    if outcome.rejection = some .NON_POSITIVE_RISK then return some (.NON_POSITIVE_RISK, outcome.budget)
    else if outcome.rejection = some .BELOW_BROKER_MINIMUM ∨ outcome.lots.isNone then
      return some (.BELOW_BROKER_MINIMUM, outcome.budget)
    else if outcome.requires_confirmation && !confirm_over_budget then
      return some (.AWAITING_CONFIRMATION, outcome.budget)
    else return none

/-- The entries are skipped, and the signal with them, or they get their quantity. -/
def sizeEntries (index : Nat) (bar : Bar D) (entered : List (TradeAction D)) (sim : Simulation D) :
    Except Exc (Simulation D × List (TradeAction D) × Option D) :=
  match entered, sim.state.side, sim.state.pending_stop with
  | _ :: _, some side, some pending_stop => do
    let stop_distance := PyDecimal.abs (bar.open_ - pending_stop)
    let skip ← _skip_reason config spec rate confirm_over_budget stop_distance sim.equity sim.ruined
    match skip with
    | some (reason, budget) =>
      let skipped : BacktestSkip D :=
        { bar_index := index
          open_time := bar.open_time
          side := side
          reason := reason
          stop_distance := stop_distance
          budget := budget
          equity := sim.equity }
      return ({ sim with skips := sim.skips ++ [skipped], state := {} }, [], none)
    | none => do
      let outcome ← size_entry config stop_distance spec sim.equity rate
      return (sim, entered, outcome.quantity)
  | _, _, _ => .ok (sim, entered, none)

/-- The loop that fills the entries at the open. -/
def fillEntries (index : Nat) (bar : Bar D) (quantity : Option D) :
    List (TradeAction D) → Simulation D → Except Exc (Simulation D)
  | [], sim => .ok sim
  | action :: actions, sim =>
    match action.side, quantity with
    | some side, some size =>
      let fill : BacktestFill D :=
        { bar_index := index
          open_time := bar.open_time
          kind := .ENTRY
          role := action.role
          side := side
          price := bar.open_
          quantity := size }
      fillEntries index bar quantity actions
        { sim with fills := sim.fills ++ [fill], open_entries := sim.open_entries.set action.role fill }
    | _, _ => .error (.assertionError "")

/-- The loop over the brackets that are active on the bar. -/
def hitBrackets (index : Nat) (bar : Bar D) : List TrancheRole → Simulation D → Simulation D
  | [], sim => sim
  | role :: roles, sim =>
    match sim.brackets.get? role with
    | none => hitBrackets index bar roles sim
    | some bracket =>
      if index < bracket.active_from then hitBrackets index bar roles sim
      else
        match _bracket_exit bracket bar with
        | none => hitBrackets index bar roles sim
        | some (price, close_reason) =>
          let closed := record_exit rate index bar role price close_reason
            { sim with brackets := sim.brackets.erase role }
          hitBrackets index bar roles
            { closed with state := (on_tranche_closed closed.state role close_reason).state }

/-- The entries of the bar are reported to the trade manager. -/
def confirmEntries (index : Nat) (bar : Bar D) (entered : List (TradeAction D)) (quantity : Option D)
    (sim : Simulation D) : Except Exc (Simulation D) :=
  match entered with
  | [] => .ok sim
  | _ :: _ => do
    let decision ← on_entry_filled sim.state bar.open_ index config quantity sim.state.reference_close
    return sim.register decision index

/-- One turn of the loop of `run_backtest`. -/
def barStep (index : Nat) (bar : Bar D) (signal : BarSignal D) (sim : Simulation D) : Except Exc (Simulation D) := do
  let (sim, entered) := fillQueued rate index bar sim.queued { sim with queued := [] }
  let (sim, entered, quantity) ← sizeEntries config spec rate confirm_over_budget index bar entered sim
  let sim ← fillEntries index bar quantity entered sim
  let sim := hitBrackets rate index bar sim.brackets.keys sim
  let sim ← confirmEntries config index bar entered quantity sim
  return sim.register (on_bar_close sim.state bar signal config) index

/-- The loop of `run_backtest`, from an index on. -/
def runBars : Nat → List (Bar D × BarSignal D) → Simulation D → Except Exc (Simulation D)
  | _, [], sim => .ok sim
  | index, (bar, signal) :: rows, sim => do
    let sim ← barStep config spec rate confirm_over_budget index bar signal sim
    runBars (index + 1) rows sim

/-- The local variables before the first bar. -/
def Simulation.start (initial_equity : D) : Simulation D where
  equity := initial_equity
  peak_equity := initial_equity
  max_drawdown := PyDecimal.ofInt 0

def run_backtest (F : Type) [PyFloat F] [Boundary F D] (bars : List (Bar D)) (initial_equity : D) :
    Except Exc (BacktestResult D) := do
  let signals ← compute_signals F bars config
  let sim ← runBars config spec rate confirm_over_budget 0 (bars.zip signals) (.start initial_equity)
  return {
    fills := sim.fills
    trades := sim.trades
    skips := sim.skips
    final_state := sim.state
    initial_equity := initial_equity
    final_equity := sim.equity
    peak_equity := sim.peak_equity
    max_drawdown := sim.max_drawdown
    ruined := sim.ruined }

end Loop

end MtossBot
