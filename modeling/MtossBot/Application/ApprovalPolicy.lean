import MtossBot.Domain.Approvals
import MtossBot.Exc

/-!
# The approval policy

`ApprovalPolicy.decide`. The identifier that `uuid4` draws for the decision is an argument.
-/

namespace MtossBot
namespace ApprovalPolicy

/-- The instant of an aware datetime; a naive one raises. -/
def _as_utc (value : Datetime) (field_name : String) : Except Exc Int :=
  match value with
  | .naive _ => .error (.valueError (field_name ++ " must be timezone-aware"))
  | .aware t _ => .ok t

/-- The decision on an order of a notional, at an instant, with an expiry. -/
def decision (approval_id : UUID) (config : ApprovalPolicyConfig) (notional : ℚ) (current expiry : Int) :
    ApprovalDecision :=
  if current ≥ expiry then ⟨approval_id, .EXPIRED, "signal expired"⟩
  else if config.mode = .AUTO then ⟨approval_id, .APPROVED, "auto policy"⟩
  else if config.mode = .CONDITIONAL ∧ config.auto_notional_limit.any (fun limit => notional ≤ limit) then
    ⟨approval_id, .APPROVED, "within auto limit"⟩
  else ⟨approval_id, .PENDING, "manual approval required"⟩

def decide (approval_id : UUID) (config : ApprovalPolicyConfig) (order_notional : ℚ) (now expires_at : Datetime) :
    Except Exc ApprovalDecision := do
  let current ← _as_utc now "now"
  let expiry ← _as_utc expires_at "expires_at"
  return decision approval_id config order_notional current expiry

/-- The policy approves at once: the order has not expired, and the policy asks nobody about it. -/
def Approves (config : ApprovalPolicyConfig) (notional : ℚ) (current expiry : Int) : Prop :=
  current < expiry ∧
    (config.mode = .AUTO ∨ config.mode = .CONDITIONAL ∧ ∃ limit, config.auto_notional_limit = some limit ∧ notional ≤ limit)

theorem decision_approved_iff {approval_id : UUID} {config : ApprovalPolicyConfig} {notional : ℚ} {current expiry : Int} :
    (decision approval_id config notional current expiry).status = .APPROVED ↔ Approves config notional current expiry := by
  rw [decision, Approves, ← not_le]
  by_cases hexpired : current ≥ expiry
  · simp [hexpired]
  · by_cases hauto : config.mode = .AUTO
    · simp [hexpired, hauto]
    · by_cases hcond : config.mode = .CONDITIONAL
      · cases hlimit : config.auto_notional_limit with
        | none => simp [hexpired, hcond]
        | some limit => by_cases hfits : notional ≤ limit <;> simp [hexpired, hcond, hfits]
      · simp [hexpired, hauto, hcond]

/-- An approved order is one that the policy approves at an instant before its expiry. -/
theorem decide_approved {approval_id : UUID} {config : ApprovalPolicyConfig} {notional : ℚ} {now expires_at : Datetime}
    {d : ApprovalDecision} (h : decide approval_id config notional now expires_at = .ok d) (hd : d.status = .APPROVED) :
    ∃ t o u p, now = .aware t o ∧ expires_at = .aware u p ∧ Approves config notional t u := by
  cases now with
  | naive t => cases h
  | aware t o =>
    cases expires_at with
    | naive u => cases h
    | aware u p =>
      have hdec : decision approval_id config notional t u = d := Except.ok.inj h
      exact ⟨t, o, u, p, rfl, rfl, decision_approved_iff.mp (hdec ▸ hd)⟩

end ApprovalPolicy
end MtossBot
