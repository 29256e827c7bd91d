import MtossBot.Domain.Enums
import MtossBot.Strategies.UtBot.Signals

/-!
# The trade manager

`application/trade_manager.py`: the life of the two tranches of a trade, over any arithmetic.
-/

namespace MtossBot

inductive TrancheRole where
  | T1
  | T2
deriving DecidableEq, Repr

inductive TrancheState where
  | PENDING_ENTRY
  | OPEN
  | CLOSED
deriving DecidableEq, Repr

inductive CloseReason where
  | STOP_LOSS
  | TAKE_PROFIT
  | BREAKEVEN_STOP
  | HULL_FLIP
  | REVERSAL
  | INVALID_RISK
  | ENTRY_GAP
deriving DecidableEq, Repr

inductive ActionKind where
  | OPEN
  | SET_BRACKETS
  | MOVE_STOP
  | CLOSE
deriving DecidableEq, Repr

structure TradeAction (D : Type) where
  kind : ActionKind
  role : TrancheRole
  side : Option OrderSide := none
  quantity : Option D := none
  stop_loss : Option D := none
  take_profit : Option D := none
  reason : Option CloseReason := none
deriving DecidableEq

structure Tranche (D : Type) where
  role : TrancheRole
  side : OrderSide
  state : TrancheState
  quantity : Option D := none
  entry_price : Option D := none
  stop_loss : Option D := none
  take_profit : Option D := none
  entry_bar_index : Option Int := none
  breakeven_moved : Bool := false
  close_reason : Option CloseReason := none
deriving DecidableEq

structure TradeState (D : Type) where
  side : Option OrderSide := none
  pending_stop : Option D := none
  reference_close : Option D := none
  tranches : List (Tranche D) := []
deriving DecidableEq

structure TradeDecision (D : Type) where
  state : TradeState D
  actions : List (TradeAction D)
deriving DecidableEq

namespace TradeState

variable {D : Type}

def tranche (s : TradeState D) (role : TrancheRole) : Option (Tranche D) := s.tranches.find? fun item => item.role = role

def live_tranches (s : TradeState D) : List (Tranche D) := s.tranches.filter fun item => item.state ≠ .CLOSED

def is_flat (s : TradeState D) : Bool := s.live_tranches.isEmpty

end TradeState

section Structure

variable {D : Type}

/-- The tranche of a role replaced. -/
def _replace (s : TradeState D) (updated : Tranche D) : TradeState D :=
  { s with tranches := s.tranches.map fun item => if item.role = updated.role then updated else item }

/-- A tranche closed for a reason. -/
def Tranche.closed (t : Tranche D) (reason : CloseReason) : Tranche D :=
  { t with state := .CLOSED, close_reason := some reason }

/-- The order to close a tranche. -/
def Tranche.closeAction (t : Tranche D) (reason : CloseReason) : TradeAction D where
  kind := .CLOSE
  role := t.role
  quantity := t.quantity
  reason := some reason

/-- A state with every tranche closed starts over. -/
def flatten_if_done (s : TradeState D) : TradeState D := if s.is_flat then {} else s

/-- A tranche waiting to be entered. -/
def pendingTranche (side : OrderSide) (role : TrancheRole) : Tranche D where
  role := role
  side := side
  state := .PENDING_ENTRY

/-- The order to enter a tranche. -/
def openAction (side : OrderSide) (role : TrancheRole) : TradeAction D where
  kind := .OPEN
  role := role
  side := some side

/-- The loop of `_apply_signal` that closes the live tranches of the other side. -/
def closeReversed (side : OrderSide) : List (Tranche D) → TradeState D → TradeState D × List (TradeAction D)
  | [], s => (s, [])
  | t :: l, s =>
    if t.side = side then closeReversed side l s
    else
      let (s', actions) := closeReversed side l (_replace s (t.closed .REVERSAL))
      (s', t.closeAction .REVERSAL :: actions)

/-- The loop of `_abort_entry` that closes the live tranches. -/
def closeAll (reason : CloseReason) : List (Tranche D) → TradeState D → TradeState D × List (TradeAction D)
  | [], s => (s, [])
  | t :: l, s =>
    let (s', actions) := closeAll reason l (_replace s (t.closed reason))
    (s', t.closeAction reason :: actions)

def _abort_entry (s : TradeState D) (reason : CloseReason) : TradeDecision D :=
  let (updated, actions) := closeAll reason s.live_tranches s
  ⟨flatten_if_done updated, actions⟩

def on_tranche_closed (s : TradeState D) (role : TrancheRole) (reason : CloseReason) : TradeDecision D :=
  match s.tranche role with
  | none => ⟨s, []⟩
  | some tranche =>
    if tranche.state = .CLOSED then ⟨s, []⟩
    else ⟨flatten_if_done (_replace s (tranche.closed reason)), []⟩

/-- The loop of `on_entry_filled` that records a quantity on the pending tranches. -/
def recordQuantity (quantity : Option D) (pending : List (Tranche D)) (s : TradeState D) : TradeState D :=
  match quantity with
  | none => s
  | some quantity => pending.foldl (fun s tranche => _replace s { tranche with quantity := some quantity }) s

/-- The tranches waiting to be entered. -/
def TradeState.pending (s : TradeState D) : List (Tranche D) := s.tranches.filter fun item => item.state = .PENDING_ENTRY

end Structure

section

variable {D : Type} [PyDecimal D]

/-- Whether a bar reached a price: by its high for a long, by its low for a short. -/
def _touched (side : OrderSide) (price : D) (bar : Bar D) : Bool :=
  match side with
  | .BUY => price ≤ bar.high
  | .SELL => bar.low ≤ price

/-- The runner's stop goes to its entry once the bar reaches the target of the other tranche. -/
def _apply_breakeven (s : TradeState D) (bar : Bar D) (signal : BarSignal D) : TradeState D × List (TradeAction D) :=
  match s.tranche .T2, s.tranche .T1 with
  | some runner, some fixed =>
    if runner.state ≠ .OPEN ∨ runner.breakeven_moved then (s, [])
    else
      match fixed.take_profit, runner.entry_price with
      | some take_profit, some entry_price =>
        -- not on the bar of the entry
        if runner.entry_bar_index.all (signal.index ≤ ·) then (s, [])
        else if !_touched runner.side take_profit bar then (s, [])
        else
          (_replace s { runner with stop_loss := some entry_price, breakeven_moved := true },
            [{ kind := .MOVE_STOP, role := .T2, stop_loss := some entry_price }])
      | _, _ => (s, [])
  | _, _ => (s, [])

/-- Whether the colour of the Hull band turned against a side. -/
def BarSignal.flipped (signal : BarSignal D) (side : OrderSide) : Bool :=
  match side with
  | .BUY => signal.hull_flip_down
  | .SELL => signal.hull_flip_up

/-- The runner is closed when the colour of the Hull band turns against it. -/
def _apply_hull_exit (s : TradeState D) (signal : BarSignal D) (config : UtBotConfig D) :
    TradeState D × List (TradeAction D) :=
  match s.tranche .T2 with
  | none => (s, [])
  | some runner =>
    if runner.state ≠ .OPEN then (s, [])
    else if !config.use_hull_exit then (s, [])
    else if config.only_after_be && !runner.breakeven_moved then (s, [])
    else if !signal.flipped runner.side then (s, [])
    else (_replace s (runner.closed .HULL_FLIP), [runner.closeAction .HULL_FLIP])

/-- The side a signal is on, with the stop of an entry on it; buying comes first. -/
def BarSignal.entry (signal : BarSignal D) : Option (OrderSide × Option D) :=
  if signal.buy then some (.BUY, signal.stop_low)
  else if signal.sell then some (.SELL, signal.stop_high)
  else none

/-- The other side is closed, and if nothing is left a new trade is entered. -/
def _apply_signal (s : TradeState D) (bar : Bar D) (signal : BarSignal D) : TradeState D × List (TradeAction D) :=
  match signal.entry with
  | none => (s, [])
  | some (side, pending_stop) =>
    let (s', actions) := closeReversed side s.live_tranches s
    if !s'.is_flat then (s', actions)
    else
      match pending_stop with
      | none => (s', actions)
      | some pending_stop =>
        ({ side := some side
           pending_stop := some pending_stop
           reference_close := some bar.close
           tranches := [pendingTranche side .T1, pendingTranche side .T2] },
          actions ++ [openAction side .T1, openAction side .T2])

def on_bar_close (s : TradeState D) (bar : Bar D) (signal : BarSignal D) (config : UtBotConfig D) : TradeDecision D :=
  let (s₁, breakeven_actions) := _apply_breakeven s bar signal
  let (s₂, hull_actions) := _apply_hull_exit s₁ signal config
  let (s₃, signal_actions) := _apply_signal s₂ bar signal
  ⟨s₃, breakeven_actions ++ hull_actions ++ signal_actions⟩

def _entry_gap_reason (entry_price : D) (reference_close : Option D) (config : UtBotConfig D) : Option CloseReason :=
  match config.max_entry_gap_bps, reference_close with
  | some max_entry_gap_bps, some reference_close =>
    if reference_close ≤ 0 then none
    else
      let drift := PyDecimal.abs (entry_price - reference_close) / reference_close * PyDecimal.ofInt 10000
      if PyDecimal.ofInt max_entry_gap_bps < drift then some .ENTRY_GAP else none
  | _, _ => none

/-- A pending tranche filled: the first one has a target, the runner has none. -/
def Tranche.filled (t : Tranche D) (entry_price : D) (bar_index : Int) (stop_loss target : D) : Tranche D :=
  { t with
    state := .OPEN
    entry_price := some entry_price
    entry_bar_index := some bar_index
    stop_loss := some stop_loss
    take_profit := if t.role = .T1 then some target else none }

/-- The order to attach the brackets of a filled tranche. -/
def Tranche.bracketAction (t : Tranche D) (stop_loss target : D) : TradeAction D where
  kind := .SET_BRACKETS
  role := t.role
  stop_loss := some stop_loss
  take_profit := if t.role = .T1 then some target else none

/-- The loop of `on_entry_filled` that opens the pending tranches. -/
def fillPending (entry_price : D) (bar_index : Int) (stop_loss target : D) (pending : List (Tranche D))
    (s : TradeState D) : TradeDecision D :=
  ⟨pending.foldl (fun s tranche => _replace s (tranche.filled entry_price bar_index stop_loss target)) s,
    pending.map fun tranche => tranche.bracketAction stop_loss target⟩

/-- The risk of an entry: what it loses at its stop. -/
def entryRisk (side : OrderSide) (entry_price stop_loss : D) : D :=
  match side with
  | .BUY => entry_price - stop_loss
  | .SELL => stop_loss - entry_price

/-- The target of an entry. -/
def entryTarget (side : OrderSide) (entry_price rr_mult risk : D) : D :=
  match side with
  | .BUY => entry_price + rr_mult * risk
  | .SELL => entry_price - rr_mult * risk

def on_entry_filled (s : TradeState D) (entry_price : D) (bar_index : Int) (config : UtBotConfig D)
    (quantity : Option D := none) (reference_close : Option D := none) : Except Exc (TradeDecision D) :=
  match s.side, s.pending_stop with
  | some side, some stop_loss =>
    if s.pending.isEmpty then .error (.valueError "no tranche is awaiting entry")
    else
      let s := recordQuantity quantity s.pending s
      match _entry_gap_reason entry_price reference_close config with
      | some reason => .ok (_abort_entry s reason)
      | none =>
        let risk := entryRisk side entry_price stop_loss
        if risk ≤ 0 then .ok (_abort_entry s .INVALID_RISK)
        else .ok (fillPending entry_price bar_index stop_loss (entryTarget side entry_price config.rr_mult risk) s.pending s)
  | _, _ => .error (.valueError "cannot fill an entry without a pending signal")

end

end MtossBot
