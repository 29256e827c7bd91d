import MtossBot.Domain.Decimal
import MtossBot.Library.Uuid

/-!
# Approvals

The models of `domain/approvals.py`.
-/

namespace MtossBot

inductive ApprovalMode where
  | AUTO
  | MANUAL
  | CONDITIONAL
deriving DecidableEq, Repr

inductive ApprovalStatus where
  | APPROVED
  | PENDING
  | REJECTED
  | EXPIRED
deriving DecidableEq, Repr

/-- How orders are approved; a conditional policy has a limit. -/
structure ApprovalPolicyConfig where
  mode : ApprovalMode
  auto_notional_limit : Option ℚ
  conditional_requires_limit : mode = .CONDITIONAL → auto_notional_limit ≠ none

structure ApprovalDecision where
  approval_id : UUID
  status : ApprovalStatus
  reason : String
deriving DecidableEq

end MtossBot
