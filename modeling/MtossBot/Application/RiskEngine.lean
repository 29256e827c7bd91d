import MtossBot.Domain.Risk
import MtossBot.Library.Dict
import Mathlib.Order.Bounds.Basic

/-!
# The risk engine

`RiskEngine.evaluate`: every metric needs a rule, and every rule's limit is checked. The identifier that `uuid4` draws for the
decision is an argument.
-/

namespace MtossBot
namespace RiskEngine

/-- The limits of the rules by metric, each list in the order of the rules. -/
def grouped (rules : List RiskRule) : Dict RiskMetric (List ℚ) :=
  rules.foldl (fun d rule => d.set rule.metric ((d.get? rule.metric).getD [] ++ [rule.limit])) .empty

/-- The value the context has for a metric. -/
def actual (context : RiskContext) : RiskMetric → ℚ
  | .ORDER_NOTIONAL => context.order_notional
  | .ACCOUNT_CAPITAL => context.account_capital
  | .SYMBOL_WEIGHT => context.resulting_symbol_weight
  | .DAILY_LOSS => context.daily_loss
  | .MAX_DRAWDOWN => context.drawdown

/-- `min(limits)`, of a list that is not empty. -/
def minimum : List ℚ → ℚ
  | [] => 0
  | [x] => x
  | x :: y :: l => min x (minimum (y :: l))

/-- The violation of one metric, if its value exceeds its smallest limit. -/
def violation (context : RiskContext) (entry : RiskMetric × List ℚ) : Option RiskViolation :=
  if actual context entry.1 > minimum entry.2 then
    some ⟨"LIMIT_EXCEEDED", some entry.1, some (actual context entry.1), some (minimum entry.2)⟩
  else none

def evaluate (decision_id : UUID) (context : RiskContext) (rules : List RiskRule) : RiskDecision :=
  let groups := grouped rules
  if RiskMetric.all.any fun metric => metric ∉ groups.keys then
    ⟨decision_id, false, [⟨"MISSING_REQUIRED_LIMIT", none, none, none⟩]⟩
  else
    let violations := groups.entries.filterMap (violation context)
    ⟨decision_id, violations.isEmpty, violations⟩

/-- A decision allows exactly when it has no violation. -/
theorem evaluate_allowed_iff (decision_id : UUID) (context : RiskContext) (rules : List RiskRule) :
    (evaluate decision_id context rules).allowed = true ↔ (evaluate decision_id context rules).violations = [] := by
  unfold evaluate
  dsimp only
  split
  · simp
  · exact List.isEmpty_iff

/-! ## What is denied -/

/-- Some metric has no rule, or exceeds the limit of one of its rules. -/
def Denied (context : RiskContext) (rules : List RiskRule) : Prop :=
  ∃ metric, (∀ rule ∈ rules, rule.metric ≠ metric) ∨ ∃ rule ∈ rules, rule.metric = metric ∧ rule.limit < actual context metric

/-- The limits of one metric, in the order of the rules. -/
def limitsOf (rules : List RiskRule) (metric : RiskMetric) : List ℚ :=
  (rules.filter fun rule => rule.metric = metric).map (·.limit)

variable {context : RiskContext} {rules : List RiskRule} {metric : RiskMetric}

/-- The limits of a metric are those of its rules. -/
theorem mem_limitsOf {limit : ℚ} : limit ∈ limitsOf rules metric ↔ ∃ rule ∈ rules, rule.metric = metric ∧ rule.limit = limit := by
  simp [limitsOf, and_assoc]

/-- A metric without limits has no rule. -/
theorem limitsOf_eq_nil_iff : limitsOf rules metric = [] ↔ ∀ rule ∈ rules, rule.metric ≠ metric := by
  simp [limitsOf]

/-- What is grouped under a metric, from a dictionary on. -/
theorem get?_group (rules : List RiskRule) (metric : RiskMetric) (d : Dict RiskMetric (List ℚ)) :
    (rules.foldl (fun d rule => d.set rule.metric ((d.get? rule.metric).getD [] ++ [rule.limit])) d).get? metric =
      if limitsOf rules metric = [] then d.get? metric else some ((d.get? metric).getD [] ++ limitsOf rules metric) := by
  induction rules generalizing d with
  | nil => simp [limitsOf]
  | cons rule rules ih =>
    rw [List.foldl_cons, ih]
    by_cases hmetric : rule.metric = metric
    · subst hmetric
      have hcons : limitsOf (rule :: rules) rule.metric = rule.limit :: limitsOf rules rule.metric := by simp [limitsOf]
      by_cases hnil : limitsOf rules rule.metric = [] <;> simp [hcons, hnil]
    · have hcons : limitsOf (rule :: rules) metric = limitsOf rules metric := by simp [limitsOf, hmetric]
      rw [hcons, Dict.get?_set_of_ne d _ (Ne.symm hmetric)]

/-- Grouped by metric, the rules have the limits of each. -/
theorem get?_grouped : (grouped rules).get? metric = if limitsOf rules metric = [] then none else some (limitsOf rules metric) := by
  rw [grouped, get?_group]
  rfl

/-- The metrics of the groups are those with a limit. -/
theorem mem_keys_grouped : metric ∈ (grouped rules).keys ↔ limitsOf rules metric ≠ [] := by
  rw [Dict.mem_keys_iff, get?_grouped]
  split <;> simp_all

/-- A value exceeds the smallest limit just when it exceeds one of them. -/
theorem minimum_lt_iff {l : List ℚ} {x : ℚ} (h : l ≠ []) : minimum l < x ↔ ∃ y ∈ l, y < x := by
  induction l with
  | nil => exact absurd rfl h
  | cons y l ih =>
    cases l with
    | nil => simp [minimum]
    | cons z l =>
      rw [minimum, min_lt_iff, ih (List.cons_ne_nil z l)]
      simp

/-- The smallest of some limits is one of them, and no other is below it. -/
theorem isLeast_minimum {l : List ℚ} (h : l ≠ []) : IsLeast {x | x ∈ l} (minimum l) := by
  constructor
  · induction l with
    | nil => exact absurd rfl h
    | cons y l ih =>
      cases l with
      | nil => simp [minimum]
      | cons z l =>
        rcases min_choice y (minimum (z :: l)) with hy | hz
        · simp [minimum, hy]
        · simp only [minimum, hz]
          exact List.mem_cons_of_mem _ (ih (List.cons_ne_nil z l))
  · intro x hx
    by_contra hless
    have hx' : minimum l < minimum l := (minimum_lt_iff h).mpr ⟨x, hx, by simpa using hless⟩
    exact lt_irrefl _ hx'

/-- Every metric has a rule. -/
def Covered (rules : List RiskRule) : Prop := ∀ metric, ∃ rule ∈ rules, rule.metric = metric

/-- The rules cover every metric when each has a limit. -/
theorem covered_iff : Covered rules ↔ ∀ metric, limitsOf rules metric ≠ [] := by
  refine forall_congr' ?_
  intro metric
  rw [ne_eq, limitsOf_eq_nil_iff]
  push Not
  rfl

/-- A metric is missing just when they do not. -/
theorem missing_iff : (RiskMetric.all.any fun metric => metric ∉ (grouped rules).keys) = true ↔ ¬ Covered rules := by
  have hall : ∀ metric, metric ∈ RiskMetric.all := by
    intro metric
    cases metric <;> decide
  rw [covered_iff]
  push Not
  simp only [List.any_eq_true, decide_eq_true_eq, mem_keys_grouped, hall, true_and, not_not]

/-- Without a rule for every metric, nothing is allowed. -/
theorem evaluate_of_not_covered (h : ¬ Covered rules) (decision_id : UUID) (context : RiskContext) :
    evaluate decision_id context rules = ⟨decision_id, false, [⟨"MISSING_REQUIRED_LIMIT", none, none, none⟩]⟩ := by
  unfold evaluate
  exact if_pos (missing_iff.mpr h)

/-- With a rule for every metric, a decision has the violations of the groups. -/
theorem violations_of_covered (h : Covered rules) (decision_id : UUID) (context : RiskContext) :
    (evaluate decision_id context rules).violations = (grouped rules).entries.filterMap (violation context) := by
  unfold evaluate
  rw [if_neg (fun hm => missing_iff.mp hm h)]

/-- The violations of a decision: one for each metric that exceeds its smallest limit. -/
theorem mem_violations (h : Covered rules) {decision_id : UUID} {v : RiskViolation} :
    v ∈ (evaluate decision_id context rules).violations ↔ ∃ metric, minimum (limitsOf rules metric) < actual context metric ∧
      v = ⟨"LIMIT_EXCEEDED", some metric, some (actual context metric), some (minimum (limitsOf rules metric))⟩ := by
  have hentry : ∀ metric limits, (metric, limits) ∈ (grouped rules).entries ↔ limits = limitsOf rules metric := by
    intro metric limits
    rw [Dict.mem_entries_iff, get?_grouped, if_neg (covered_iff.mp h metric), Option.some.injEq, eq_comm]
  rw [violations_of_covered h, List.mem_filterMap]
  constructor
  · rintro ⟨⟨metric, limits⟩, hmem, hv⟩
    obtain rfl := (hentry metric limits).mp hmem
    unfold violation at hv
    split at hv
    · rename_i hexceeds
      exact ⟨metric, hexceeds, (Option.some.inj hv).symm⟩
    · cases hv
  · rintro ⟨metric, hexceeds, rfl⟩
    exact ⟨(metric, limitsOf rules metric), (hentry metric _).mpr rfl, if_pos hexceeds⟩

/-- A decision denies exactly when a metric has no rule or exceeds a limit. -/
theorem evaluate_denied_iff (decision_id : UUID) (context : RiskContext) (rules : List RiskRule) :
    (evaluate decision_id context rules).allowed = false ↔ Denied context rules := by
  by_cases h : Covered rules
  · have hviolations : (evaluate decision_id context rules).allowed = false ↔
        ∃ v, v ∈ (evaluate decision_id context rules).violations := by
      rw [← Bool.not_eq_true, evaluate_allowed_iff, List.eq_nil_iff_forall_not_mem]
      push Not
      rfl
    rw [hviolations]
    simp only [mem_violations h]
    constructor
    · rintro ⟨v, metric, hexceeds, _⟩
      obtain ⟨limit, hlimit, hless⟩ := (minimum_lt_iff (covered_iff.mp h metric)).mp hexceeds
      obtain ⟨rule, hrule, hmetric, rfl⟩ := mem_limitsOf.mp hlimit
      exact ⟨metric, .inr ⟨rule, hrule, hmetric, hless⟩⟩
    · rintro ⟨metric, hnone | ⟨rule, hrule, hmetric, hless⟩⟩
      · obtain ⟨rule, hrule, hmetric⟩ := h metric
        exact absurd hmetric (hnone rule hrule)
      · exact ⟨_, metric, (minimum_lt_iff (covered_iff.mp h metric)).mpr
          ⟨rule.limit, mem_limitsOf.mpr ⟨rule, hrule, hmetric, rfl⟩, hless⟩, rfl⟩
  · have hmissing : ∃ metric, ∀ rule ∈ rules, rule.metric ≠ metric := by
      simpa [Covered] using h
    obtain ⟨metric, hnone⟩ := hmissing
    rw [evaluate_of_not_covered h]
    exact iff_of_true rfl ⟨metric, .inl hnone⟩

/-- No metric has two violations. -/
theorem nodup_violations (decision_id : UUID) (context : RiskContext) (rules : List RiskRule) :
    ((evaluate decision_id context rules).violations.map (·.metric)).Nodup := by
  by_cases h : Covered rules
  · have hsub : ∀ l : List (RiskMetric × List ℚ),
        ((l.filterMap (violation context)).map (·.metric)).Sublist ((l.map Prod.fst).map some) := by
      intro l
      induction l with
      | nil => simp
      | cons entry l ih =>
        by_cases hexceeds : actual context entry.1 > minimum entry.2
        · have hv : violation context entry =
              some ⟨"LIMIT_EXCEEDED", some entry.1, some (actual context entry.1), some (minimum entry.2)⟩ := if_pos hexceeds
          rw [List.filterMap_cons_some hv]
          simp only [List.map_cons]
          exact ih.cons_cons _
        · have hv : violation context entry = none := if_neg hexceeds
          rw [List.filterMap_cons_none hv]
          exact ih.cons _
    rw [violations_of_covered h]
    exact ((grouped rules).nodup.map (Option.some_injective _)).sublist (hsub _)
  · rw [evaluate_of_not_covered h]
    simp

end RiskEngine
end MtossBot
