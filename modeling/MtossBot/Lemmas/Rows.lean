import MtossBot.Infrastructure.FakeBroker
import MtossBot.Infrastructure.OrderRepository

/-!
# Orders and their rows

Which orders can be read back from the rows that `create_with_outbox` writes, and what they are then; and that the fake broker opens a
position for every such order.
-/

namespace MtossBot

@[simp] theorem fieldErrors_none {α : Type} (field : String) (check : α → Except String α) :
    fieldErrors field (optionalField check none) = [] := rfl

namespace ExecutionIntentFields

variable {f : ExecutionIntentFields}

/-- An order has no errors when neither its fields nor the whole of them has one. -/
theorem errors_eq_nil_iff : f.errors = [] ↔ f.field_errors = [] ∧ f.model_errors = [] := by
  unfold errors
  split
  · rename_i h
    simp [h]
  · rename_i h
    simp [h]

/-- A limit order has a limit, and an order at market has none. -/
theorem limit_price_iff (h : f.model_errors = []) : f.limit_price ≠ none ↔ f.order_type = .LIMIT := by
  unfold model_errors require_consistent_pricing at h
  cases htype : f.order_type with
  | LIMIT =>
    rw [htype] at h
    by_cases hlimit : f.limit_price = none
    · simp [hlimit] at h
    · simp [hlimit]
  | MARKET =>
    rw [htype] at h
    by_cases hlimit : f.limit_price = none
    · simp [hlimit]
    · simp [hlimit] at h

/-- The fields with the defaults in the columns that are left out of the row. -/
def stored (f : ExecutionIntentFields) : ExecutionIntentFields :=
  { f with
    order_type := .LIMIT
    reference_price := none
    stop_loss := none
    take_profit := none
    reduce_only := false
    tranche_ref := none }

/-- To normalise and to store commute. -/
theorem normalise_stored (f : ExecutionIntentFields) : f.stored.normalise = f.normalise.stored := by
  rcases f with ⟨_, _, _, _, _, _, _, _, _, _, _, _, _, _, _, _, ⟨_⟩ | ⟨_, _⟩, _⟩ <;> rfl

/-- Fields without errors have none when stored. -/
theorem field_errors_stored (h : f.field_errors = []) : f.stored.field_errors = [] := by
  simp only [field_errors, List.append_eq_nil_iff] at h
  obtain ⟨⟨⟨⟨⟨⟨⟨hquantity, hlimit⟩, _⟩, _⟩, _⟩, _⟩, hexpires⟩, hkey⟩ := h
  simp only [field_errors, stored, fieldErrors_none, hquantity, hlimit, hexpires, hkey, List.append_nil]

/-- What is stored is accepted just when the order was a limit order. -/
theorem errors_stored (h : f.errors = []) : f.stored.errors = [] ↔ f.order_type = .LIMIT := by
  obtain ⟨hfields, hmodel⟩ := errors_eq_nil_iff.mp h
  rw [← limit_price_iff hmodel, errors_eq_nil_iff, and_iff_right (field_errors_stored hfields)]
  unfold model_errors require_consistent_pricing require_brackets_on_the_correct_side
  cases hlimit : f.limit_price with
  | none => simp [stored, hlimit]
  | some price => cases hside : f.side <;> simp [stored, hlimit, hside, pricing_reference, fieldErrors]

end ExecutionIntentFields

section Rows

variable {intent : ExecutionIntent} {state : OrderState} {risk_decision_id approval_id : UUID}

/-- What the row of an order passes to the model. -/
theorem OrderRepository.domainFields_record :
    (OrderRepository.record intent state risk_decision_id approval_id).domainFields = intent.stored := rfl

/-- The order that is read back from the row of a limit order. -/
def ExecutionIntent.readBack (intent : ExecutionIntent) (h : intent.order_type = .LIMIT) : ExecutionIntent where
  toExecutionIntentFields := intent.stored
  accepted := ⟨(ExecutionIntentFields.errors_stored intent.accepted.1).mpr h, by
    rw [ExecutionIntentFields.normalise_stored, intent.accepted.2]⟩

/-- A limit order is read back from its row. -/
theorem as_domain_limit (h : intent.order_type = .LIMIT) :
    (OrderRepository.record intent state risk_decision_id approval_id).as_domain = .ok (intent.readBack h) := by
  rw [OrderIntentRecord.as_domain, OrderRepository.domainFields_record]
  exact (intent.readBack h).create_fields

/-- An order that is read back was a limit order. -/
theorem order_type_of_as_domain {intent' : ExecutionIntent}
    (h : (OrderRepository.record intent state risk_decision_id approval_id).as_domain = .ok intent') :
    intent.order_type = .LIMIT := by
  rw [OrderIntentRecord.as_domain, OrderRepository.domainFields_record, ExecutionIntent.create] at h
  split at h
  · rename_i herrors
    exact (ExecutionIntentFields.errors_stored intent.accepted.1).mp herrors
  · cases h

end Rows

/-! ## The fake broker -/

/-- A check that passes under one message passes under another. -/
theorem check_message {bad : Prop} [Decidable bad] {value value' : Decimal} {message : String} (message' : String)
    (h : (if bad then Except.error message else .ok value) = .ok value') :
    (if bad then Except.error message' else .ok value) = Except.ok value := by
  by_cases hbad : bad
  · rw [if_pos hbad] at h
    cases h
  · rw [if_neg hbad]

/-- Whether a decimal is accepted does not depend on the name of its field. -/
theorem validate_order_decimal_input_name {value value' : Decimal} {name : String} (name' : String)
    (h : validate_order_decimal_input value name = .ok value') : validate_order_decimal_input value name' = .ok value :=
  check_message _ h

/-- Nor does it depend on the message. -/
theorem require_positive_message {value value' : Decimal} {message : String} (message' : String)
    (h : require_positive message value = .ok value') : require_positive message' value = .ok value :=
  check_message _ h

/-- A field without errors passed its check. -/
theorem fieldErrors_eq_nil {α : Type} {field : String} {x : Except String α} (h : fieldErrors field x = []) : ∃ a, x = .ok a := by
  cases x with
  | ok a => exact ⟨a, rfl⟩
  | error message => cases h

/-- A check for what fits and is positive has made both checks of the value. -/
theorem check_positive_ok {value value' : Decimal} {name message : String}
    (h : (do
      let value ← validate_order_decimal_input value name
      require_positive message value) = .ok value') :
    validate_order_decimal_input value name = .ok value ∧ require_positive message value = .ok value' := by
  cases hv : validate_order_decimal_input value name with
  | error e =>
    rw [hv] at h
    cases h
  | ok v =>
    obtain rfl := validate_order_decimal_input_eq hv
    rw [hv] at h
    exact ⟨rfl, h⟩

/-- What is checked to be positive is positive. -/
theorem require_positive_pos {value value' : Decimal} {message : String} (h : require_positive message value = .ok value') :
    0 < value.toRat := by
  unfold require_positive at h
  split at h
  · cases h
  · exact not_le.mp ‹_›

/-- A positive decimal that fits is accepted under every name. -/
theorem fieldErrors_positive {value value' : Decimal} {field name message : String}
    (h : (do
      let value ← validate_order_decimal_input value name
      require_positive message value) = .ok value') :
    fieldErrors field (BrokerPositionFields.check_positive value) = [] := by
  obtain ⟨hfits, hpos⟩ := check_positive_ok h
  rw [BrokerPositionFields.check_positive, BrokerPositionFields.check_decimal, validate_order_decimal_input_name _ hfits]
  show fieldErrors field (require_positive _ value) = []
  rw [require_positive_message _ hpos]
  rfl

/-- So did an optional field that is there. -/
theorem optionalField_some_ok {α : Type} {check : α → Except String α} {value : α} {field : String}
    (h : fieldErrors field (optionalField check (some value)) = []) : ∃ a, check value = .ok a := by
  obtain ⟨a, ha⟩ := fieldErrors_eq_nil h
  cases hc : check value with
  | ok b => exact ⟨b, rfl⟩
  | error e =>
    rw [optionalField, hc] at ha
    cases ha

/-- A bracket of an order is one of its position. -/
theorem fieldErrors_bracket {bracket : Option Decimal} {field field' : String}
    (h : fieldErrors field (optionalField ExecutionIntentFields.check_bracket bracket) = []) :
    fieldErrors field' (optionalField BrokerPositionFields.check_decimal bracket) = [] := by
  cases bracket with
  | none => rfl
  | some value =>
    obtain ⟨a, ha⟩ := optionalField_some_ok h
    unfold ExecutionIntentFields.check_bracket at ha
    cases hv : validate_order_decimal_input value "bracket price" with
    | error e =>
      rw [hv] at ha
      cases ha
    | ok v =>
      rw [optionalField, BrokerPositionFields.check_decimal, validate_order_decimal_input_name _ hv]
      rfl

namespace FakeBroker

/-- The position of an order that has a price is accepted. -/
theorem positionFields_errors (intent : ExecutionIntent) {price : Decimal} (hprice : intent.pricing_reference = some price)
    (sequence : Nat) (t offset : Int) : (positionFields sequence (.aware t offset) intent price).errors = [] := by
  have h := (ExecutionIntentFields.errors_eq_nil_iff.mp intent.accepted.1).1
  simp only [ExecutionIntentFields.field_errors, List.append_eq_nil_iff] at h
  obtain ⟨⟨⟨⟨⟨⟨⟨hquantity, hlimit⟩, hreference⟩, hstop⟩, htake⟩, _⟩, _⟩, _⟩ := h
  have hentry : fieldErrors "entry_price" (BrokerPositionFields.check_positive price) = [] := by
    unfold ExecutionIntentFields.pricing_reference at hprice
    split at hprice
    · rename_i limit hl
      rw [hl, Option.some.inj hprice] at hlimit
      obtain ⟨a, ha⟩ := optionalField_some_ok hlimit
      exact fieldErrors_positive ha
    · rw [hprice] at hreference
      obtain ⟨a, ha⟩ := optionalField_some_ok hreference
      exact fieldErrors_positive ha
  obtain ⟨a, ha⟩ := fieldErrors_eq_nil hquantity
  simp only [BrokerPositionFields.errors, positionFields, fieldErrors_positive ha, hentry, fieldErrors_bracket hstop,
    fieldErrors_bracket htake, List.append_nil]
  rfl

/-- The broker opens a position for a new order that does not close one. -/
theorem submit_opens {broker : FakeBroker} {intent : ExecutionIntent} {price : Decimal} (t : Int)
    (hnew : broker.results.get? (intent.account_id, intent.idempotency_key) = none) (hopen : intent.reduce_only = false)
    (hprice : intent.pricing_reference = some price) :
    ∃ broker' key position, submit (.aware t 0) broker intent = (.ok (submitted (broker.results.keys.length + 1) intent), broker') ∧
      broker'.positions = broker.positions.set key position := by
  simp only [submit, hnew, hopen, hprice, BrokerPosition.create, dif_pos (positionFields_errors intent hprice _ t 0)]
  exact ⟨_, _, _, rfl, rfl⟩

end FakeBroker

end MtossBot
