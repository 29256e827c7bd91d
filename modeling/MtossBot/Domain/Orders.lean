import MtossBot.Domain.Decimal
import MtossBot.Domain.Enums
import MtossBot.Exc
import MtossBot.Library.Uuid

/-!
# Orders

The models of `domain/orders.py`. A model's keyword arguments are a plain structure; the model itself is that structure with the
proof that its validators accept it, so an invalid intent or result cannot be built. A failed validation names the field and the
message of each error, field validators first, as the models run them.
-/

namespace MtossBot

def ORDER_NUMERIC_PRECISION : Int := 28
def ORDER_NUMERIC_SCALE : Int := 10
def ORDER_NUMERIC_INTEGER_DIGITS : Int := ORDER_NUMERIC_PRECISION - ORDER_NUMERIC_SCALE

/-- The check of a finite `Decimal` input against `NUMERIC(28,10)`. -/
def validate_order_decimal_input (value : Decimal) (field_name : String) : Except String Decimal :=
  let scale := max (-value.exponent) 0
  let integer_digits := if value.toRat = 0 then 0 else max (value.adjusted + 1) 0
  if scale > ORDER_NUMERIC_SCALE ∨ integer_digits > ORDER_NUMERIC_INTEGER_DIGITS ∨
      integer_digits + scale > ORDER_NUMERIC_PRECISION then
    .error (field_name ++ " must fit PostgreSQL NUMERIC(28,10) exactly")
  else .ok value

/-- The check returns the value it is given. -/
theorem validate_order_decimal_input_eq {value value' : Decimal} {field_name : String}
    (h : validate_order_decimal_input value field_name = .ok value') : value' = value := by
  unfold validate_order_decimal_input at h
  dsimp only at h
  rcases ite_eq_iff.mp h with ⟨_, h⟩ | ⟨_, h⟩
  · cases h
  · exact (Except.ok.inj h).symm

/-- A field validator that refuses what is not positive. -/
def require_positive (message : String) (value : Decimal) : Except String Decimal :=
  if value.toRat ≤ 0 then .error message else .ok value

/-- The errors of one field, under its name. -/
def fieldErrors {α : Type} (field : String) : Except String α → List (String × String)
  | .ok _ => []
  | .error message => [(field, message)]

/-- A validator of an optional field: `None` passes. -/
def optionalField {α : Type} (check : α → Except String α) : Option α → Except String (Option α)
  | none => .ok none
  | some value => (check value).map some

/-! ## `ExecutionIntent` -/

/-- The keyword arguments of `ExecutionIntent`. -/
structure ExecutionIntentFields where
  intent_id : UUID
  account_id : UUID
  signal_id : UUID
  target_version : Int
  market : String
  symbol : String
  side : OrderSide
  order_type : OrderType := .LIMIT
  quantity : Decimal
  limit_price : Option Decimal
  reference_price : Option Decimal := none
  stop_loss : Option Decimal := none
  take_profit : Option Decimal := none
  reduce_only : Bool := false
  tranche_ref : Option String := none
  currency : String
  expires_at : Datetime
  idempotency_key : String
deriving DecidableEq

namespace ExecutionIntentFields

/-- `limit_price` where there is one, else `reference_price`. -/
def pricing_reference (f : ExecutionIntentFields) : Option Decimal :=
  match f.limit_price with
  | some price => some price
  | none => f.reference_price

def check_quantity (value : Decimal) : Except String Decimal := do
  let value ← validate_order_decimal_input value "quantity"
  require_positive "quantity must be positive" value

def check_limit_price (value : Decimal) : Except String Decimal := do
  let value ← validate_order_decimal_input value "limit_price"
  require_positive "limit_price must be positive" value

/-- The validators `reference_price`, `stop_loss` and `take_profit` share. -/
def check_bracket (value : Decimal) : Except String Decimal := do
  let value ← validate_order_decimal_input value "bracket price"
  require_positive "bracket prices must be positive" value

def require_short_tranche_ref (value : String) : Except String String :=
  if value = "" ∨ value.length > 16 then .error "tranche_ref must be 1-16 characters" else .ok value

def require_sha256_key (value : String) : Except String String :=
  if value.length ≠ 64 ∨ value.toList.any (fun character => character ∉ lowerHex) then
    .error "idempotency_key must be a lowercase SHA-256 hex digest"
  else .ok value

/-- The errors of the field validators, in the order of the fields. -/
def field_errors (f : ExecutionIntentFields) : List (String × String) :=
  fieldErrors "quantity" (check_quantity f.quantity) ++
  fieldErrors "limit_price" (optionalField check_limit_price f.limit_price) ++
  fieldErrors "reference_price" (optionalField check_bracket f.reference_price) ++
  fieldErrors "stop_loss" (optionalField check_bracket f.stop_loss) ++
  fieldErrors "take_profit" (optionalField check_bracket f.take_profit) ++
  fieldErrors "tranche_ref" (optionalField require_short_tranche_ref f.tranche_ref) ++
  fieldErrors "expires_at" (f.expires_at.require_timezone "expires_at must be timezone-aware") ++
  fieldErrors "idempotency_key" (require_sha256_key f.idempotency_key)

def require_consistent_pricing (f : ExecutionIntentFields) : Except String Unit :=
  match f.order_type with
  | .LIMIT => if f.limit_price = none then .error "limit orders require limit_price" else .ok ()
  | .MARKET =>
    if f.limit_price ≠ none then .error "market orders must not carry a limit_price"
    else if f.reference_price = none then .error "market orders require reference_price for risk sizing"
    else .ok ()

def require_brackets_on_the_correct_side (f : ExecutionIntentFields) : Except String Unit :=
  match f.pricing_reference with
  | none => .ok ()
  | some anchor =>
    match f.side with
    | .BUY =>
      if f.stop_loss.any (fun stop => stop.toRat ≥ anchor.toRat) then
        .error "buy stop_loss must sit below the entry price"
      else if f.take_profit.any (fun target => target.toRat ≤ anchor.toRat) then
        .error "buy take_profit must sit above the entry price"
      else .ok ()
    | .SELL =>
      if f.stop_loss.any (fun stop => stop.toRat ≤ anchor.toRat) then
        .error "sell stop_loss must sit above the entry price"
      else if f.take_profit.any (fun target => target.toRat ≥ anchor.toRat) then
        .error "sell take_profit must sit below the entry price"
      else .ok ()

/-- The error of the first model validator that raises. -/
def model_errors (f : ExecutionIntentFields) : List (String × String) :=
  match f.require_consistent_pricing with
  | .error message => [("", message)]
  | .ok _ => fieldErrors "" f.require_brackets_on_the_correct_side

/-- All errors: the model validators run on a model whose fields are valid. -/
def errors (f : ExecutionIntentFields) : List (String × String) :=
  if f.field_errors = [] then f.model_errors else f.field_errors

/-- The fields as the model keeps them: the expiry in UTC. -/
def normalise (f : ExecutionIntentFields) : ExecutionIntentFields :=
  match f.expires_at with
  | .naive _ => f
  | .aware t _ => { f with expires_at := .aware t 0 }

/-- What the model accepts and leaves as it is. -/
def Accepted (f : ExecutionIntentFields) : Prop := f.errors = [] ∧ f.normalise = f

instance (f : ExecutionIntentFields) : Decidable f.Accepted := inferInstanceAs (Decidable (_ ∧ _))

theorem normalise_idem (f : ExecutionIntentFields) : f.normalise.normalise = f.normalise := by
  rcases f with ⟨_, _, _, _, _, _, _, _, _, _, _, _, _, _, _, _, ⟨_⟩ | ⟨_, _⟩, _⟩ <;> rfl

/-- Only the offset the expiry is shown with changes, and no validator looks at it. -/
theorem errors_normalise (f : ExecutionIntentFields) : f.normalise.errors = f.errors := by
  rcases f with ⟨_, _, _, _, _, _, _, _, _, _, _, _, _, _, _, _, ⟨_⟩ | ⟨_, _⟩, _⟩ <;> rfl

end ExecutionIntentFields

/-- An order the model accepts. -/
structure ExecutionIntent extends ExecutionIntentFields where
  accepted : toExecutionIntentFields.Accepted
deriving DecidableEq

/-- `ExecutionIntent(**fields)`. -/
def ExecutionIntent.create (f : ExecutionIntentFields) : Except Exc ExecutionIntent :=
  if h : f.errors = [] then
    .ok ⟨f.normalise, by rw [ExecutionIntentFields.errors_normalise]; exact h, f.normalise_idem⟩
  else .error (.validationError "ExecutionIntent" f.errors)

theorem ExecutionIntent.ext_fields {i j : ExecutionIntent} (h : i.toExecutionIntentFields = j.toExecutionIntentFields) :
    i = j := by
  cases i
  cases j
  cases h
  rfl

/-- The fields of an accepted order make that order again. -/
theorem ExecutionIntent.create_fields (i : ExecutionIntent) : ExecutionIntent.create i.toExecutionIntentFields = .ok i := by
  rw [create, dif_pos i.accepted.1]
  exact congrArg Except.ok (ext_fields i.accepted.2)

/-- What the constructor returns has the fields it was given, the expiry in UTC. -/
theorem ExecutionIntent.create_ok {f : ExecutionIntentFields} {i : ExecutionIntent} (h : create f = .ok i) :
    i.toExecutionIntentFields = f.normalise := by
  unfold create at h
  split at h
  · exact (congrArg toExecutionIntentFields (Except.ok.inj h)).symm
  · cases h

/-! ## `BrokerOrderResult` -/

/-- The keyword arguments of `BrokerOrderResult`. -/
structure BrokerOrderResultFields where
  client_order_id : String
  broker_order_id : Option String
  state : OrderState
  filled_quantity : Decimal
  average_price : Option Decimal
  broker_request_id : Option String
  error_code : Option String := none
deriving DecidableEq

namespace BrokerOrderResultFields

def check_filled_quantity (value : Decimal) : Except String Decimal := do
  let value ← validate_order_decimal_input value "order result decimal"
  if value.toRat < 0 then .error "filled_quantity cannot be negative" else .ok value

def check_average_price (value : Decimal) : Except String Decimal := do
  let value ← validate_order_decimal_input value "order result decimal"
  require_positive "average_price must be positive" value

/-- All errors; there is no model validator. -/
def errors (f : BrokerOrderResultFields) : List (String × String) :=
  fieldErrors "filled_quantity" (check_filled_quantity f.filled_quantity) ++
  fieldErrors "average_price" (optionalField check_average_price f.average_price)

/-- A report of an order with nothing filled is accepted. -/
theorem errors_unfilled {f : BrokerOrderResultFields} (hf : f.filled_quantity = ⟨false, 0, 0⟩) (ha : f.average_price = none) :
    f.errors = [] := by
  rw [errors, hf, ha]
  decide

end BrokerOrderResultFields

/-- A broker's report on an order that the model accepts. -/
structure BrokerOrderResult extends BrokerOrderResultFields where
  accepted : toBrokerOrderResultFields.errors = []
deriving DecidableEq

/-- `BrokerOrderResult(**fields)`. -/
def BrokerOrderResult.create (f : BrokerOrderResultFields) : Except Exc BrokerOrderResult :=
  if h : f.errors = [] then .ok ⟨f, h⟩ else .error (.validationError "BrokerOrderResult" f.errors)

theorem BrokerOrderResult.create_fields (r : BrokerOrderResult) :
    BrokerOrderResult.create r.toBrokerOrderResultFields = .ok r := by
  rw [create, dif_pos r.accepted]

/-- What the constructor returns has the fields it was given. -/
theorem BrokerOrderResult.create_ok {f : BrokerOrderResultFields} {r : BrokerOrderResult} (h : create f = .ok r) :
    r.toBrokerOrderResultFields = f := by
  unfold create at h
  split at h
  · exact (congrArg toBrokerOrderResultFields (Except.ok.inj h)).symm
  · cases h

/-! ## `BrokerPosition` -/

/-- The keyword arguments of `BrokerPosition`. -/
structure BrokerPositionFields where
  position_ref : String
  account_id : UUID
  symbol : String
  side : OrderSide
  quantity : Decimal
  entry_price : Decimal
  stop_loss : Option Decimal := none
  take_profit : Option Decimal := none
  tranche_ref : Option String := none
  opened_at : Option Datetime := none
deriving DecidableEq

namespace BrokerPositionFields

def check_decimal (value : Decimal) : Except String Decimal := validate_order_decimal_input value "position decimal"

def check_positive (value : Decimal) : Except String Decimal := do
  let value ← check_decimal value
  require_positive "position quantity and entry price must be positive" value

/-- All errors; there is no model validator. -/
def errors (f : BrokerPositionFields) : List (String × String) :=
  fieldErrors "quantity" (check_positive f.quantity) ++
  fieldErrors "entry_price" (check_positive f.entry_price) ++
  fieldErrors "stop_loss" (optionalField check_decimal f.stop_loss) ++
  fieldErrors "take_profit" (optionalField check_decimal f.take_profit) ++
  match f.opened_at with
  | none => []
  | some t => fieldErrors "opened_at" (t.require_timezone "opened_at must be timezone-aware")

/-- The fields as the model keeps them: the time in UTC. -/
def normalise (f : BrokerPositionFields) : BrokerPositionFields :=
  match f.opened_at with
  | some (.aware t _) => { f with opened_at := some (.aware t 0) }
  | _ => f

theorem errors_normalise (f : BrokerPositionFields) : f.normalise.errors = f.errors := by
  rcases f with ⟨_, _, _, _, _, _, _, _, _, _ | ⟨_⟩ | ⟨_, _⟩⟩ <;> rfl

end BrokerPositionFields

/-- A position the model accepts. -/
structure BrokerPosition extends BrokerPositionFields where
  accepted : toBrokerPositionFields.errors = []
deriving DecidableEq

/-- `BrokerPosition(**fields)`. -/
def BrokerPosition.create (f : BrokerPositionFields) : Except Exc BrokerPosition :=
  if h : f.errors = [] then .ok ⟨f.normalise, by rw [BrokerPositionFields.errors_normalise]; exact h⟩
  else .error (.validationError "BrokerPosition" f.errors)

end MtossBot
