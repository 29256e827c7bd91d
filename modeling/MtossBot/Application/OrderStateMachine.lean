import MtossBot.Domain.Enums
import MtossBot.Exc

/-!
# The order state machine

`ALLOWED` and `transition`.
-/

namespace MtossBot

def ALLOWED : OrderState → List OrderState
  | .CREATED => [.PENDING_APPROVAL, .QUEUED, .REJECTED]
  | .PENDING_APPROVAL => [.QUEUED, .REJECTED, .EXPIRED]
  | .QUEUED => [.SUBMITTED, .REJECTED, .EXPIRED, .UNKNOWN]
  | .SUBMITTED => [.PARTIALLY_FILLED, .FILLED, .CANCELED, .REJECTED, .UNKNOWN]
  | .PARTIALLY_FILLED => [.FILLED, .CANCELED, .UNKNOWN]
  | .UNKNOWN => [.SUBMITTED, .PARTIALLY_FILLED, .FILLED, .CANCELED, .REJECTED]
  | .FILLED => []
  | .CANCELED => []
  | .REJECTED => []
  | .EXPIRED => []

def transition (current target : OrderState) : Except Exc OrderState :=
  if target ∈ ALLOWED current then .ok target
  else .error (.invalidOrderTransition ("cannot transition " ++ current.value ++ " -> " ++ target.value))

/-- A transition that is allowed ends in its target. -/
theorem transition_ok {current target s : OrderState} (h : transition current target = .ok s) :
    s = target ∧ target ∈ ALLOWED current := by
  unfold transition at h
  split at h
  · rename_i hmem
    exact ⟨(Except.ok.inj h).symm, hmem⟩
  · cases h

end MtossBot
