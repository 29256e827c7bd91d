import MtossBot.Domain.DecimalValue
import MtossBot.Library.Dict

/-!
# The fake broker

`FakeBroker`. What the clock says is an argument.
-/

namespace MtossBot

/-- A `BrokerPosition`, or a `model_copy` of one: what a copy replaces, the quantity and the brackets, is not validated. -/
structure HeldPosition where
  position_ref : String
  account_id : UUID
  symbol : String
  side : OrderSide
  quantity : DecimalValue
  entry_price : Decimal
  stop_loss : Option DecimalValue
  take_profit : Option DecimalValue
  tranche_ref : Option String
  opened_at : Option Datetime
deriving DecidableEq

/-- A position as the model made it. -/
def HeldPosition.ofModel (p : BrokerPosition) : HeldPosition where
  position_ref := p.position_ref
  account_id := p.account_id
  symbol := p.symbol
  side := p.side
  quantity := .finite p.quantity
  entry_price := p.entry_price
  stop_loss := p.stop_loss.map .finite
  take_profit := p.take_profit.map .finite
  tranche_ref := p.tranche_ref
  opened_at := p.opened_at

structure FakeBroker where
  results : Dict (UUID × String) BrokerOrderResult := .empty
  positions : Dict (UUID × String) HeldPosition := .empty
  submitted_keys : List String := []

namespace FakeBroker

/-- The result of the order with a sequence number. -/
def submitted (sequence : Nat) (intent : ExecutionIntent) : BrokerOrderResult where
  client_order_id := intent.idempotency_key
  broker_order_id := some ("fake-" ++ toString sequence)
  state := .SUBMITTED
  filled_quantity := ⟨false, 0, 0⟩
  average_price := none
  broker_request_id := some ("fake-request-" ++ toString sequence)
  accepted := BrokerOrderResultFields.errors_unfilled rfl rfl

/-- The position an order opens. -/
def positionFields (sequence : Nat) (now : Datetime) (intent : ExecutionIntent) (entry_price : Decimal) :
    BrokerPositionFields where
  position_ref := "fake-position-" ++ toString sequence
  account_id := intent.account_id
  symbol := intent.symbol
  side := intent.side
  quantity := intent.quantity
  entry_price := entry_price
  stop_loss := intent.stop_loss
  take_profit := intent.take_profit
  tranche_ref := intent.tranche_ref
  opened_at := some now

def submit (now : Datetime) (broker : FakeBroker) (intent : ExecutionIntent) :
    Except Exc BrokerOrderResult × FakeBroker :=
  let key := (intent.account_id, intent.idempotency_key)
  match broker.results.get? key with
  | some existing => (.ok existing, broker)
  | none =>
    let sequence := broker.results.keys.length + 1
    let result := submitted sequence intent
    let broker := { broker with
      results := broker.results.set key result
      submitted_keys := broker.submitted_keys ++ [intent.idempotency_key] }
    match intent.reduce_only, intent.pricing_reference with
    | false, some entry_price =>
      match BrokerPosition.create (positionFields sequence now intent entry_price) with
      | .ok position =>
        (.ok result,
          { broker with
            positions := broker.positions.set (intent.account_id, position.position_ref) (.ofModel position) })
      | .error e => (.error e, broker)
    | _, _ => (.ok result, broker)

def lookup_by_client_order_id (broker : FakeBroker) (account_id : UUID) (client_order_id : String) :
    Option BrokerOrderResult :=
  broker.results.get? (account_id, client_order_id)

/-- What both methods raise for a position that is not there. -/
def unknownPosition (position_ref : String) : Exc := .lookupError ("unknown position " ++ position_ref)

def modify_position_sltp (broker : FakeBroker) (account_id : UUID) (position_ref : String)
    (stop_loss take_profit : Option DecimalValue) : Except Exc HeldPosition × FakeBroker :=
  match broker.positions.get? (account_id, position_ref) with
  | none => (.error (unknownPosition position_ref), broker)
  | some position =>
    let updated := { position with stop_loss := stop_loss, take_profit := take_profit }
    (.ok updated, { broker with positions := broker.positions.set (account_id, position_ref) updated })

/-- What is left of a position when some of it is closed: a copy with the rest, or nothing. -/
def HeldPosition.closed (position : HeldPosition) (closing : DecimalValue) : Except Exc (Option HeldPosition) := do
  if ← closing.gt position.quantity then
    .error (.valueError "cannot close more than the open quantity")
  else
    let remaining ← position.quantity.sub closing
    if ← remaining.gt (.finite 0) then return some { position with quantity := remaining }
    else return none

/-- The report of a close; the model refuses a quantity that is not finite. -/
def closeResult (position_ref : String) (entry_price : Decimal) : DecimalValue → Except Exc BrokerOrderResult
  | .finite closing =>
    BrokerOrderResult.create
      { client_order_id := position_ref
        broker_order_id := some ("fake-close-" ++ position_ref)
        state := .FILLED
        filled_quantity := closing
        average_price := some entry_price
        broker_request_id := none }
  | _ => .error (.validationError "BrokerOrderResult" [("filled_quantity", "order result decimal must be finite")])

/-- The position is updated before the report is made, which may raise. -/
def close_position (broker : FakeBroker) (account_id : UUID) (position_ref : String) (quantity : Option DecimalValue) :
    Except Exc BrokerOrderResult × FakeBroker :=
  match broker.positions.get? (account_id, position_ref) with
  | none => (.error (unknownPosition position_ref), broker)
  | some position =>
    let closing := quantity.getD position.quantity
    match HeldPosition.closed position closing with
    | .error e => (.error e, broker)
    | .ok left =>
      let positions := match left with
        | some rest => broker.positions.set (account_id, position_ref) rest
        | none => broker.positions.erase (account_id, position_ref)
      (closeResult position_ref position.entry_price closing, { broker with positions := positions })

end FakeBroker
end MtossBot
