import MtossBot.Application.OrderStateMachine
import MtossBot.Domain.Orders

/-!
# Rows of `order_intents`

`OrderIntentRecord`, with the defaults of its columns as the defaults of its fields, and its two decoders.
-/

namespace MtossBot

/-- A row of `order_intents`. -/
structure OrderIntentRecord where
  id : UUID
  account_id : UUID
  signal_id : UUID
  target_version : Int
  market : String
  symbol : String
  side : OrderSide
  order_type : OrderType := .LIMIT
  quantity : Decimal
  limit_price : Option Decimal := none
  reference_price : Option Decimal := none
  stop_loss : Option Decimal := none
  take_profit : Option Decimal := none
  reduce_only : Bool := false
  tranche_ref : Option String := none
  currency : String
  expires_at : Datetime
  idempotency_key : String
  state : OrderState
  broker_order_id : Option String := none
  filled_quantity : Decimal := ⟨false, 0, 0⟩
  average_price : Option Decimal := none
  broker_request_id : Option String := none
  error_code : Option String := none
  risk_decision_id : Option UUID
  approval_id : Option UUID
deriving DecidableEq

namespace OrderIntentRecord

/-- The keyword arguments `as_domain` passes. -/
def domainFields (r : OrderIntentRecord) : ExecutionIntentFields where
  intent_id := r.id
  account_id := r.account_id
  signal_id := r.signal_id
  target_version := r.target_version
  market := r.market
  symbol := r.symbol
  side := r.side
  order_type := r.order_type
  quantity := r.quantity
  limit_price := r.limit_price
  reference_price := r.reference_price
  stop_loss := r.stop_loss
  take_profit := r.take_profit
  reduce_only := r.reduce_only
  tranche_ref := r.tranche_ref
  currency := r.currency
  expires_at := r.expires_at
  idempotency_key := r.idempotency_key

def as_domain (r : OrderIntentRecord) : Except Exc ExecutionIntent := ExecutionIntent.create r.domainFields

def as_broker_result (r : OrderIntentRecord) : Except Exc BrokerOrderResult :=
  BrokerOrderResult.create
    { client_order_id := r.idempotency_key
      broker_order_id := r.broker_order_id
      state := r.state
      filled_quantity := r.filled_quantity
      average_price := r.average_price
      broker_request_id := r.broker_request_id
      error_code := r.error_code }

/-- The states a broker may report at once for an order that was just queued, by way of `SUBMITTED`. -/
def IMMEDIATE : List OrderState := [.PARTIALLY_FILLED, .FILLED, .CANCELED]

/-- The state `save_broker_result` leaves a row in. -/
def nextState (current target : OrderState) : Except Exc OrderState :=
  if current = .QUEUED ∧ target ∈ IMMEDIATE then do
    let submitted ← transition current .SUBMITTED
    transition submitted target
  else transition current target

/-- What `save_broker_result` makes of the row before it flushes. -/
def withResult (r : OrderIntentRecord) (result : BrokerOrderResult) : Except Exc OrderIntentRecord :=
  if result.client_order_id ≠ r.idempotency_key then
    .error (.valueError "broker result client order ID does not match stored idempotency key")
  else do
    let state ← nextState r.state result.state
    return { r with
      state := state
      broker_order_id := result.broker_order_id
      filled_quantity := result.filled_quantity
      average_price := result.average_price
      broker_request_id := result.broker_request_id
      error_code := result.error_code }

/-! ## The order read back from a row -/

/-- The order read back has the fields of the row, the expiry in UTC. -/
theorem as_domain_fields {r : OrderIntentRecord} {intent : ExecutionIntent} (h : r.as_domain = .ok intent) :
    intent.toExecutionIntentFields = r.domainFields.normalise := ExecutionIntent.create_ok h

/-- The expiry is all that the model changes. -/
theorem normalise_expires_at (f : ExecutionIntentFields) : ∃ t, f.normalise = { f with expires_at := t } := by
  unfold ExecutionIntentFields.normalise
  split
  · exact ⟨f.expires_at, rfl⟩
  · exact ⟨_, rfl⟩

/-- The order read back has the identifier of the row. -/
theorem as_domain_intent_id {r : OrderIntentRecord} {intent : ExecutionIntent} (h : r.as_domain = .ok intent) :
    intent.intent_id = r.id := by
  obtain ⟨t, ht⟩ := normalise_expires_at r.domainFields
  rw [as_domain_fields h, ht]
  rfl

/-- It has the account of the row. -/
theorem as_domain_account_id {r : OrderIntentRecord} {intent : ExecutionIntent} (h : r.as_domain = .ok intent) :
    intent.account_id = r.account_id := by
  obtain ⟨t, ht⟩ := normalise_expires_at r.domainFields
  rw [as_domain_fields h, ht]
  rfl

/-- And it has the key of the row. -/
theorem as_domain_idempotency_key {r : OrderIntentRecord} {intent : ExecutionIntent} (h : r.as_domain = .ok intent) :
    intent.idempotency_key = r.idempotency_key := by
  obtain ⟨t, ht⟩ := normalise_expires_at r.domainFields
  rw [as_domain_fields h, ht]
  rfl

/-! ## What storing a result does -/

/-- The state a row ends in is the state reported. -/
theorem nextState_ok {current target s : OrderState} (h : nextState current target = .ok s) : s = target := by
  unfold nextState at h
  split at h
  · cases hs : transition current .SUBMITTED with
    | error e => rw [hs] at h; cases h
    | ok submitted =>
      rw [hs] at h
      exact (transition_ok h).1
  · exact (transition_ok h).1

/-- No result makes a row `QUEUED` whose state is `QUEUED`. -/
theorem nextState_queued_ne {s : OrderState} (h : nextState .QUEUED s = .ok s) : s ≠ .QUEUED := by
  rintro rfl
  simp [nextState, IMMEDIATE, transition, ALLOWED] at h

/-- A row with a result stored: the result's fields, and the other columns as they were. -/
structure Stored (r r' : OrderIntentRecord) (result : BrokerOrderResult) : Prop where
  client_order_id : result.client_order_id = r.idempotency_key
  step : nextState r.state result.state = .ok result.state
  eq : r' = { r with
    state := result.state
    broker_order_id := result.broker_order_id
    filled_quantity := result.filled_quantity
    average_price := result.average_price
    broker_request_id := result.broker_request_id
    error_code := result.error_code }

/-- A row that takes a result is stored with it. -/
theorem withResult_ok {r r' : OrderIntentRecord} {result : BrokerOrderResult} (h : r.withResult result = .ok r') :
    Stored r r' result := by
  unfold withResult at h
  split at h
  · cases h
  · rename_i hid
    cases hs : nextState r.state result.state with
    | error e => rw [hs] at h; cases h
    | ok s =>
      have hs' : s = result.state := nextState_ok hs
      rw [hs] at h
      subst hs'
      exact ⟨not_not.mp hid, hs, (Except.ok.inj h).symm⟩

namespace Stored

variable {r r' : OrderIntentRecord} {result : BrokerOrderResult}

/-- A stored result leaves the identifier. -/
theorem id (h : Stored r r' result) : r'.id = r.id := by rw [h.eq]

/-- It leaves the key. -/
theorem idempotency_key (h : Stored r r' result) : r'.idempotency_key = r.idempotency_key := by rw [h.eq]

/-- It leaves the decision on the risk. -/
theorem risk_decision_id (h : Stored r r' result) : r'.risk_decision_id = r.risk_decision_id := by rw [h.eq]

/-- It leaves the approval. -/
theorem approval_id (h : Stored r r' result) : r'.approval_id = r.approval_id := by rw [h.eq]

/-- The state is that of the result. -/
theorem state (h : Stored r r' result) : r'.state = result.state := by rw [h.eq]

/-- A queued row leaves `QUEUED`. -/
theorem state_ne_queued (h : Stored r r' result) (hq : r.state = .QUEUED) : r'.state ≠ .QUEUED := by
  rw [h.state]
  exact nextState_queued_ne (hq ▸ h.step)

/-- What is read back from the row is the result, field by field. -/
theorem as_broker_result (h : Stored r r' result) : r'.as_broker_result = .ok result := by
  rw [h.eq, OrderIntentRecord.as_broker_result]
  rw [← BrokerOrderResult.create_fields result]
  congr 1
  rcases result with ⟨⟨_, _, _, _, _, _, _⟩, _⟩
  simp only [BrokerOrderResultFields.mk.injEq, and_true]
  exact h.client_order_id.symm

end Stored
end OrderIntentRecord
end MtossBot
