/-!
# Enumerations of the domain

`OrderSide`, `OrderType` and `OrderState`, with the texts of their values.
-/

namespace MtossBot

inductive OrderSide where
  | BUY
  | SELL
deriving DecidableEq, Repr

inductive OrderType where
  | MARKET
  | LIMIT
deriving DecidableEq, Repr

inductive OrderState where
  | CREATED
  | PENDING_APPROVAL
  | QUEUED
  | SUBMITTED
  | PARTIALLY_FILLED
  | FILLED
  | CANCELED
  | REJECTED
  | EXPIRED
  | UNKNOWN
deriving DecidableEq, Repr

def OrderSide.value : OrderSide → String
  | .BUY => "BUY"
  | .SELL => "SELL"

def OrderState.value : OrderState → String
  | .CREATED => "CREATED"
  | .PENDING_APPROVAL => "PENDING_APPROVAL"
  | .QUEUED => "QUEUED"
  | .SUBMITTED => "SUBMITTED"
  | .PARTIALLY_FILLED => "PARTIALLY_FILLED"
  | .FILLED => "FILLED"
  | .CANCELED => "CANCELED"
  | .REJECTED => "REJECTED"
  | .EXPIRED => "EXPIRED"
  | .UNKNOWN => "UNKNOWN"

end MtossBot
