import MtossBot.Application.RiskEngine

/-!
# What a risk decision says

`RiskEngine.evaluate` fails closed: a metric without a rule denies. Otherwise every metric answers for its tightest limit, so
neither the order nor the number of the rules matters, and more rules only deny more.
-/

namespace MtossBot
namespace RiskEvaluationAux

open RiskEngine

variable {context : RiskContext} {rules rules' : List RiskRule}

/-- The limits that the rules give for a metric. -/
def limits (rules : List RiskRule) (metric : RiskMetric) : Set ℚ := {limit | ∃ rule ∈ rules, rule.metric = metric ∧ rule.limit = limit}

/-- The limit that counts is the least one given. -/
theorem isLeast_limits (h : Covered rules) (metric : RiskMetric) :
    IsLeast (limits rules metric) (minimum (limitsOf rules metric)) := by
  have hleast := isLeast_minimum (covered_iff.mp h metric)
  simp only [mem_limitsOf] at hleast
  exact hleast

/-- The violations in terms of the least limits. -/
theorem mem_violations_least (h : Covered rules) {decision_id : UUID} {v : RiskViolation} :
    v ∈ (evaluate decision_id context rules).violations ↔ ∃ metric limit, IsLeast (limits rules metric) limit ∧
      limit < actual context metric ∧ v = ⟨"LIMIT_EXCEEDED", some metric, some (actual context metric), some limit⟩ := by
  rw [mem_violations h]
  refine exists_congr ?_
  intro metric
  have hleast := isLeast_limits h metric
  constructor
  · rintro ⟨hexceeds, rfl⟩
    exact ⟨_, hleast, hexceeds, rfl⟩
  · rintro ⟨limit, hlimit, hexceeds, rfl⟩
    obtain rfl := hlimit.unique hleast
    exact ⟨hexceeds, rfl⟩

/-- What is denied depends on which rules are given only, and more rules deny more once every metric is covered. -/
theorem denied_mono (h : Covered rules) (hsub : ∀ rule ∈ rules, rule ∈ rules') (hd : Denied context rules) :
    Denied context rules' := by
  obtain ⟨metric, hnone | ⟨rule, hrule, hmetric, hless⟩⟩ := hd
  · obtain ⟨rule, hrule, hmetric⟩ := h metric
    exact absurd hmetric (hnone rule hrule)
  · exact ⟨metric, .inr ⟨rule, hsub rule hrule, hmetric, hless⟩⟩

theorem covered_congr (h : ∀ rule, rule ∈ rules' ↔ rule ∈ rules) : Covered rules' ↔ Covered rules := by
  simp only [Covered, h]

/-- The same rules, in any order and any number of times, have the same violations. -/
theorem violations_perm (h : ∀ rule, rule ∈ rules' ↔ rule ∈ rules) (id id' : UUID) (context : RiskContext) :
    (evaluate id' context rules').violations.Perm (evaluate id context rules).violations := by
  by_cases hc : Covered rules
  · have hlimits : limits rules' = limits rules := by
      funext metric
      simp only [limits, h]
    refine (List.perm_ext_iff_of_nodup (nodup_violations id' context rules').of_map
      (nodup_violations id context rules).of_map).mpr fun v => ?_
    rw [mem_violations_least ((covered_congr h).mpr hc), mem_violations_least hc, hlimits]
  · rw [evaluate_of_not_covered hc, evaluate_of_not_covered ((covered_congr h).not.mpr hc)]

end RiskEvaluationAux

open RiskEvaluationAux RiskEngine

/-- A decision allows just when every metric has a rule and every rule's limit is kept; its violations are then, one for each metric
exceeded, with the least limit given for it; the same rules in any order and any number give the same decision; and rules added to
rules that cover every metric never allow what was denied. -/
theorem risk_evaluation (decision_id : UUID) (context : RiskContext) (rules : List RiskRule) :
    ((evaluate decision_id context rules).allowed = true ↔
      (∀ metric, ∃ rule ∈ rules, rule.metric = metric) ∧ ∀ rule ∈ rules, actual context rule.metric ≤ rule.limit) ∧
    ((∀ metric, ∃ rule ∈ rules, rule.metric = metric) →
      ((evaluate decision_id context rules).violations.map (·.metric)).Nodup ∧
      ∀ v, v ∈ (evaluate decision_id context rules).violations ↔
        ∃ metric limit, IsLeast {limit | ∃ rule ∈ rules, rule.metric = metric ∧ rule.limit = limit} limit ∧
          limit < actual context metric ∧ v = ⟨"LIMIT_EXCEEDED", some metric, some (actual context metric), some limit⟩) ∧
    (∀ decision_id' rules', (∀ rule, rule ∈ rules' ↔ rule ∈ rules) →
      (evaluate decision_id' context rules').allowed = (evaluate decision_id context rules).allowed ∧
      (evaluate decision_id' context rules').violations.Perm (evaluate decision_id context rules).violations) ∧
    ((∀ metric, ∃ rule ∈ rules, rule.metric = metric) → (evaluate decision_id context rules).allowed = false →
      ∀ decision_id' added, (evaluate decision_id' context (rules ++ added)).allowed = false) := by
  refine ⟨?_, ?_, ?_, ?_⟩
  · rw [← Bool.not_eq_false, evaluate_denied_iff, Denied]
    push Not
    constructor
    · intro hkept
      exact ⟨fun metric => (hkept metric).1, fun rule hrule => (hkept rule.metric).2 rule hrule rfl⟩
    · rintro ⟨hcovered, hkept⟩ metric
      exact ⟨hcovered metric, fun rule hrule hmetric => hmetric ▸ hkept rule hrule⟩
  · intro hcovered
    exact ⟨nodup_violations decision_id context rules, fun v => mem_violations_least hcovered⟩
  · intro decision_id' rules' hsame
    have hperm := violations_perm hsame decision_id decision_id' context
    refine ⟨?_, hperm⟩
    rw [Bool.eq_iff_iff, evaluate_allowed_iff, evaluate_allowed_iff]
    constructor
    · intro hnil
      simpa [hnil] using hperm
    · intro hnil
      simpa [hnil] using hperm
  · intro hcovered hdenied decision_id' added
    rw [evaluate_denied_iff] at hdenied ⊢
    exact denied_mono hcovered (fun rule hrule => List.mem_append_left _ hrule) hdenied

end MtossBot
