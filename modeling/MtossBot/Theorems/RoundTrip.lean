import MtossBot.Lemmas.Rows

/-!
# Reading a stored order back

The row that `create_with_outbox` writes leaves out six columns. The order read back from it is the order that was written just when
these six have their defaults in the order.
-/

namespace MtossBot

/-- The columns that `create_with_outbox` leaves out have their defaults in the order. -/
structure ExecutionIntent.Plain (intent : ExecutionIntent) : Prop where
  order_type : intent.order_type = .LIMIT
  reference_price : intent.reference_price = none
  stop_loss : intent.stop_loss = none
  take_profit : intent.take_profit = none
  reduce_only : intent.reduce_only = false
  tranche_ref : intent.tranche_ref = none

namespace RoundTripAux

/-- Putting the defaults in changes nothing just when they are there. -/
theorem stored_eq_iff (intent : ExecutionIntent) :
    intent.stored = intent.toExecutionIntentFields ↔ intent.Plain := by
  constructor
  · intro h
    exact ⟨(congrArg (·.order_type) h).symm, (congrArg (·.reference_price) h).symm, (congrArg (·.stop_loss) h).symm,
      (congrArg (·.take_profit) h).symm, (congrArg (·.reduce_only) h).symm, (congrArg (·.tranche_ref) h).symm⟩
  · rintro ⟨h₁, h₂, h₃, h₄, h₅, h₆⟩
    rcases intent with ⟨⟨⟩, _⟩
    simp only at h₁ h₂ h₃ h₄ h₅ h₆
    subst h₁ h₂ h₃ h₄ h₅ h₆
    rfl

end RoundTripAux

open RoundTripAux

/-- An order is read back as it was written if and only if the columns that are left out have their defaults in it. -/
theorem round_trip_iff (intent : ExecutionIntent) (state : OrderState) (risk_decision_id approval_id : UUID) :
    (OrderRepository.record intent state risk_decision_id approval_id).as_domain = .ok intent ↔ intent.Plain := by
  rw [← stored_eq_iff, OrderIntentRecord.as_domain, OrderRepository.domainFields_record]
  constructor
  · intro h
    calc intent.stored
        = intent.normalise.stored := by rw [intent.accepted.2]
      _ = intent.stored.normalise := (ExecutionIntentFields.normalise_stored _).symm
      _ = intent.toExecutionIntentFields := (ExecutionIntent.create_ok h).symm
  · intro h
    rw [h]
    exact intent.create_fields

/-- An entry at market, with the prices of its brackets. -/
def marketEntry : ExecutionIntent where
  intent_id := ⟨1⟩
  account_id := ⟨2⟩
  signal_id := ⟨3⟩
  target_version := 1
  market := "MT5"
  symbol := "XAUUSD"
  side := .BUY
  order_type := .MARKET
  quantity := .ofInt 1
  limit_price := none
  reference_price := some (.ofInt 4000)
  stop_loss := some (.ofInt 3990)
  take_profit := some (.ofInt 4020)
  tranche_ref := some "T1"
  currency := "USD"
  expires_at := .aware 1000 0
  idempotency_key := String.ofList (List.replicate 64 'a')
  accepted := by decide

/-- Reading the stored entry back raises: it became a limit order without a limit. -/
theorem market_entry_lost :
    (OrderRepository.record marketEntry .QUEUED ⟨4⟩ ⟨5⟩).as_domain =
      .error (.validationError "ExecutionIntent" [("", "limit orders require limit_price")]) := by
  rw [OrderIntentRecord.as_domain, OrderRepository.domainFields_record]
  decide

end MtossBot
