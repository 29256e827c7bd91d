import Mathlib.Order.WithBot
import MtossBot.Lemmas.Console
import MtossBot.Lemmas.Quotients

/-!
# Risk limits in the console

The limits of the risk rules after any requests: without reauthentication they only become tighter. A limit that the screen cannot show is
accepted all the same: one with a text that is too long takes the screen away, and with one that has no row neither the screen nor another
change works until a reset.
-/

namespace MtossBot

/-- The place of a value among the numbers and the infinities; a NaN has none. -/
def DecimalValue.level : DecimalValue → Option (WithBot (WithTop ℚ))
  | .finite d => some (d.toRat : WithTop ℚ)
  | .infinity sign => some (if sign then ⊥ else ((⊤ : WithTop ℚ) : WithBot (WithTop ℚ)))
  | .nan _ => none

namespace Console

/-- The limit of a rule that is in force. -/
def Limit (store : ConsoleStore) (base : RiskBase) (level : WithBot (WithTop ℚ)) : Prop :=
  ∃ limit, DecimalValue.ofText (effective_limit store base) = some limit ∧ limit.level = some level

/-- An update that is stored: it is not above the limit in force, or reauthenticated. -/
def Stored (store : ConsoleStore) (base : RiskBase) (limit : String) (reauthenticated : Bool) : Prop :=
  ∃ value x y, DecimalValue.ofText limit = some value ∧ value.level = some y ∧ Limit store base x ∧ (y ≤ x ∨ reauthenticated = true)

/-- A limit without a row: no number, or so small a part of what is used that the usage has too many digits. -/
def Broken (base : RiskBase) (limit : String) : Prop :=
  limit ≠ base.limit ∧ ∀ d : Decimal, DecimalValue.ofText limit = some (.finite d) →
    0 < d.toRat ∧ d.toRat * (10 ^ 25 - 1 / 2000) ≤ base.actual.toRat

/-- A limit whose text there is no memory for. -/
def Unprintable (memory : Memory) (limit : String) : Prop :=
  ∃ d : Decimal, DecimalValue.ofText limit = some (.finite d) ∧ memory.longest < plainLength d

/-- The screen of the rules is shown. -/
def RiskShown (memory : Memory) (store : ConsoleStore) : Prop := ∃ risk, (get_risk_rules store none).sent memory = .ok (.risk risk)

namespace ConsoleLimitsAux

variable {store : ConsoleStore} {base : RiskBase} {a b : DecimalValue} {x y : WithBot (WithTop ℚ)}

/-! ## Values -/

/-- Values are compared by their places. -/
theorem gt_level (hx : a.level = some x) (hy : b.level = some y) : a.gt b = .ok (decide (y < x)) := by
  cases a with
  | nan _ => cases hx
  | finite a =>
    cases hx
    cases b with
    | nan _ => cases hy
    | finite b =>
      cases hy
      simp only [DecimalValue.gt, Except.ok.injEq, decide_eq_decide, WithBot.coe_lt_coe, WithTop.coe_lt_coe]
      rfl
    | infinity sign =>
      cases hy
      cases sign <;> simp [DecimalValue.gt]
  | infinity sign =>
    cases hx
    cases b with
    | nan _ => cases hy
    | finite b =>
      cases hy
      have htop : ((b.toRat : WithTop ℚ) : WithBot (WithTop ℚ)) < ((⊤ : WithTop ℚ) : WithBot (WithTop ℚ)) :=
        WithBot.coe_lt_coe.mpr (WithTop.coe_lt_top _)
      cases sign
      · simpa [DecimalValue.gt] using htop
      · simp [DecimalValue.gt]
    | infinity sign' =>
      cases hy
      cases sign <;> cases sign' <;> simp [DecimalValue.gt]

/-- One limit is in force. -/
theorem limit_unique (hx : Limit store base x) (hy : Limit store base y) : x = y := by
  obtain ⟨limit, htext, hx⟩ := hx
  obtain ⟨limit', htext', hy⟩ := hy
  rw [htext] at htext'
  cases htext'
  exact Option.some.inj (hx.symm.trans hy)

/-! ## Rows -/

/-- Every rule has something in use. -/
theorem toRat_actual_pos : ∀ base ∈ _RISK_BASE, 0 < base.actual.toRat := by decide +kernel

/-- No two rules have one name. -/
theorem base_of_id : ∀ base ∈ _RISK_BASE, ∀ other ∈ _RISK_BASE, other.rule_id = base.rule_id → other = base :=
  fun _ hbase _ hother heq => List.inj_on_of_nodup_map (by decide) hother hbase heq

/-- There is a usage unless the limit is too small a part of what is used. -/
theorem usage_of_ok_iff {actual limit : Decimal} (hactual : 0 < actual.toRat) (hlimit : 0 < limit.toRat) :
    (∃ usage, usage_of actual (.finite limit) = .ok usage) ↔ actual.toRat < limit.toRat * (10 ^ 25 - 1 / 2000) := by
  have hcoefficient : limit.coefficient ≠ 0 := (Decimal.coefficient_pos_iff.mpr hlimit.ne').ne'
  have hreach : Decimal.reach 25 = 10 ^ 25 - 1 / 2000 := by norm_num [Decimal.reach, Decimal.prec]
  have hquantize : ∀ percent : Decimal, percent.coefficient < 10 ^ Decimal.prec →
      ((∃ usage, percent.quantize (-1) = .ok usage) ↔ |percent.toRat| < 10 ^ (27 : Int)) := by
    intro percent hdigits
    rw [Decimal.quantize_ok_iff hdigits]
    rfl
  -- a ratio is quantized when it is below the power of ten that has one digit too many
  have hquantized : ∀ ratio, actual.truediv limit = .ok ratio →
      ((∃ usage, (do let percent ← ratio.mul (.ofInt 100); percent.quantize (-1)) = .ok usage) ↔ |ratio.toRat| < 10 ^ (25 : Int)) := by
    intro ratio hratio
    have hscaled : (∃ percent, ratio.mul (.ofInt 100) = .ok percent ∧ |percent.toRat| < 10 ^ (27 : Int)) ↔ |ratio.toRat| < 10 ^ (25 : Int) := by
      rw [← not_le (a := (10 : ℚ) ^ (25 : Int)), ← Decimal.reach_le_scaled_iff (Decimal.coefficient_finalize_lt hratio) 2 25, not_le]
      exact Decimal.finalize_lt_iff (by decide) (by decide)
    rw [← hscaled]
    constructor
    · rintro ⟨usage, husage⟩
      obtain ⟨percent, hpercent, husage⟩ := except_bind_eq_ok husage
      exact ⟨percent, hpercent, (hquantize percent (Decimal.coefficient_finalize_lt hpercent)).mp ⟨usage, husage⟩⟩
    · rintro ⟨percent, hpercent, hbelow⟩
      obtain ⟨usage, husage⟩ := (hquantize percent (Decimal.coefficient_finalize_lt hpercent)).mpr hbelow
      exact ⟨usage, by rw [hpercent]; exact husage⟩
  have hratio : (∃ ratio, actual.truediv limit = .ok ratio ∧ |ratio.toRat| < 10 ^ (25 : Int)) ↔
      actual.toRat < limit.toRat * (10 ^ 25 - 1 / 2000) := by
    rw [Decimal.truediv, Decimal.finalize_lt_iff (by decide) (by decide), ← not_le, Decimal.reach_le_quotient_iff hcoefficient, not_le, hreach,
      abs_of_pos (div_pos hactual hlimit), div_lt_iff₀ hlimit, mul_comm]
  rw [← hratio]
  constructor
  · rintro ⟨usage, husage⟩
    obtain ⟨ratio, hdivided, hrest⟩ := except_bind_eq_ok husage
    exact ⟨ratio, hdivided, (hquantized ratio hdivided).mp ⟨usage, hrest⟩⟩
  · rintro ⟨ratio, hdivided, hbelow⟩
    obtain ⟨usage, husage⟩ := (hquantized ratio hdivided).mpr hbelow
    refine ⟨usage, ?_⟩
    show (do let ratio ← actual.truediv limit; let percent ← ratio.mul (.ofInt 100); percent.quantize (-1)) = _
    rw [hdivided]
    exact husage

/-- A row shows the limit in force, which is a number. -/
theorem limit_of_row {row : RiskRuleRow} (h : risk_rule store base = .ok row) : row.rule_id = base.rule_id ∧
    row.actual = base.actual ∧ DecimalValue.ofText (effective_limit store base) = some (.finite row.limit) ∧
    usage_value store base (.finite row.limit) = .ok row.usage_percent := by
  unfold risk_rule at h
  obtain ⟨limit, hlimit, h⟩ := except_bind_eq_ok h
  obtain ⟨usage, husage, h⟩ := except_bind_eq_ok h
  unfold _d at hlimit
  split at hlimit
  · rename_i d htext
    cases hlimit
    cases limit with
    | finite limit =>
      cases h
      exact ⟨rfl, rfl, htext, husage⟩
    | infinity _ => cases h
    | nan _ => cases h
  · cases hlimit

/-- A rule is shown when its limit is a number, unless its usage cannot be shown. -/
theorem risk_rule_ok_iff (hactual : 0 < base.actual.toRat) : (∃ row, risk_rule store base = .ok row) ↔
    ∃ limit : Decimal, DecimalValue.ofText (effective_limit store base) = some (.finite limit) ∧
      (effective_limit store base = base.limit ∨ limit.toRat ≤ 0 ∨ base.actual.toRat < limit.toRat * (10 ^ 25 - 1 / 2000)) := by
  have husage : ∀ limit : Decimal, (∃ usage, usage_value store base (.finite limit) = .ok usage) ↔
      (effective_limit store base = base.limit ∨ limit.toRat ≤ 0 ∨ base.actual.toRat < limit.toRat * (10 ^ 25 - 1 / 2000)) := by
    intro limit
    unfold usage_value
    by_cases hsame : effective_limit store base = base.limit
    · rw [if_neg (not_not.mpr hsame)]
      exact iff_of_true ⟨_, rfl⟩ (.inl hsame)
    · rw [if_pos hsame]
      have hgt : (DecimalValue.finite limit).gt (.finite (.ofInt 0)) = .ok (decide (0 < limit.toRat)) := by
        have hzero : (Decimal.ofInt 0).toRat = 0 := by decide
        show Except.ok (decide ((Decimal.ofInt 0).toRat < limit.toRat)) = _
        rw [hzero]
      simp only [hgt, bind, Except.bind, decide_eq_true_eq]
      by_cases hpos : 0 < limit.toRat
      · rw [if_pos hpos, usage_of_ok_iff hactual hpos]
        exact ⟨fun h => .inr (.inr h), fun h => (h.resolve_left hsame).resolve_left (not_le.mpr hpos)⟩
      · rw [if_neg hpos]
        exact iff_of_true ⟨_, rfl⟩ (.inr (.inl (not_lt.mp hpos)))
  constructor
  · rintro ⟨row, hrow⟩
    obtain ⟨-, -, htext, hshown⟩ := limit_of_row hrow
    exact ⟨row.limit, htext, (husage _).mp ⟨_, hshown⟩⟩
  · rintro ⟨limit, htext, hshown⟩
    obtain ⟨usage, husage⟩ := (husage limit).mpr hshown
    unfold risk_rule _d
    rw [htext]
    simp only [bind, Except.bind]
    rw [husage]
    exact ⟨_, rfl⟩

/-! ## The screen -/

/-- The screen is built rule by rule. -/
theorem build_risk_eq (store : ConsoleStore) {state : ScreenState} (hstate : state ∉ [ScreenState.empty, .loading]) : build_risk store state = (do
    let rules ← _RISK_BASE.mapM (risk_rule store)
    return ⟨rules, _RISK_HISTORY, [_RISK_NOTICE], AS_OF⟩) :=
  if_neg fun h => hstate (by rcases h with rfl | rfl <;> simp)

/-- The screen fails only when it cannot show a rule. -/
theorem build_risk_ok_iff (store : ConsoleStore) : (∃ risk, build_risk store .normal = .ok risk) ↔
    ∀ base ∈ _RISK_BASE, ∃ row, risk_rule store base = .ok row := by
  rw [build_risk_eq store (by decide)]
  constructor
  · rintro ⟨risk, hrisk⟩ base hbase
    obtain ⟨rows, hrows, -⟩ := except_bind_eq_ok hrisk
    obtain ⟨row, -, hrow⟩ := row_of_fixture hrows hbase
    exact ⟨row, hrow⟩
  · intro h
    obtain ⟨rows, hrows⟩ := exists_rows h
    rw [hrows]
    exact ⟨_, rfl⟩

/-- A row that the screen shows is that of its rule. -/
theorem rule_of_row {risk : RiskPayload} (h : build_risk store .normal = .ok risk) {row : RiskRuleRow} (hrow : row ∈ risk.rules) :
    ∃ base ∈ _RISK_BASE, risk_rule store base = .ok row := by
  rw [build_risk_eq store (by decide)] at h
  obtain ⟨rows, hrows, h⟩ := except_bind_eq_ok h
  cases h
  exact fixture_of_row hrows hrow

/-- A screen that is built has the row of each rule. -/
theorem row_of_rule {risk : RiskPayload} (h : build_risk store .normal = .ok risk) (hbase : base ∈ _RISK_BASE) :
    ∃ row ∈ risk.rules, risk_rule store base = .ok row := by
  rw [build_risk_eq store (by decide)] at h
  obtain ⟨rows, hrows, h⟩ := except_bind_eq_ok h
  cases h
  exact row_of_fixture hrows hbase

/-- What is shown of a rule depends on its limit only. -/
theorem risk_rule_congr {store' : ConsoleStore} (h : effective_limit store' base = effective_limit store base) :
    risk_rule store' base = risk_rule store base := by
  have husage : usage_value store' base = usage_value store base := by
    funext limit
    unfold usage_value
    rw [h]
  unfold risk_rule
  rw [h, husage]

/-- Stores with the same limits have the same limit in force. -/
theorem effective_limit_congr {store' : ConsoleStore} (h : store'.risk_limits = store.risk_limits) (base : RiskBase) :
    effective_limit store' base = effective_limit store base := by
  unfold effective_limit
  rw [h]

/-- They have the same screen. -/
theorem build_risk_congr {store' : ConsoleStore} (h : store'.risk_limits = store.risk_limits) (state : ScreenState) :
    build_risk store' state = build_risk store state := by
  have hrules : risk_rule store' = risk_rule store := funext fun base => risk_rule_congr (effective_limit_congr h base)
  unfold build_risk
  rw [hrules]

/-- And the limit in force has the same value. -/
theorem limit_congr {store' : ConsoleStore} (h : effective_limit store' base = effective_limit store base) :
    Limit store' base x ↔ Limit store base x := by
  unfold Limit
  rw [h]

/-! ## Updates -/

/-- While the screen is shown, an update changes a rule's limit when it is stored. -/
theorem update_of_shown {risk : RiskPayload} (h : build_risk store .normal = .ok risk) (rule_id limit : String) (reauthenticated : Bool) :
    (∃ base ∈ _RISK_BASE, base.rule_id = rule_id ∧ Stored store base limit reauthenticated ∧
      (effect store (.update_risk_rule rule_id limit reauthenticated)).risk_limits = store.risk_limits.set rule_id limit) ∨
    (∀ base ∈ _RISK_BASE, base.rule_id = rule_id → ¬Stored store base limit reauthenticated) ∧
      (effect store (.update_risk_rule rule_id limit reauthenticated)).risk_limits = store.risk_limits := by
  rw [effect_update_risk_rule]
  dsimp only
  unfold update_risk_rule
  rw [h]
  dsimp only
  cases hfind : risk.rules.find? fun rule => rule.rule_id = rule_id with
  | none =>
    refine .inr ⟨fun base hbase hid _ => ?_, rfl⟩
    obtain ⟨row, hrow, hshown⟩ := row_of_rule h hbase
    have := List.find?_eq_none.mp hfind row hrow
    simp [(limit_of_row hshown).1, hid] at this
  | some current =>
    obtain ⟨base, hbase, hrow⟩ := rule_of_row h (List.mem_of_find?_eq_some hfind)
    obtain ⟨hid, -, htext, -⟩ := limit_of_row hrow
    have hnamed : base.rule_id = rule_id := by
      rw [← hid]
      simpa using List.find?_some hfind
    have hx : Limit store base (current.limit.toRat : WithTop ℚ) := ⟨_, htext, rfl⟩
    have hother : ∀ base' ∈ _RISK_BASE, base'.rule_id = rule_id → base' = base := fun base' hbase' hid' =>
      base_of_id base hbase base' hbase' (hid'.trans hnamed.symm)
    dsimp only
    cases hlimit : DecimalValue.ofText limit with
    | none =>
      refine .inr ⟨fun base' hbase' hid' => ?_, rfl⟩
      rintro ⟨value, _, _, hvalue, -⟩
      rw [hlimit] at hvalue
      cases hvalue
    | some value =>
      dsimp only
      cases hlevel : value.level with
      | none =>
        cases value with
        | finite d => cases hlevel
        | infinity sign => cases hlevel
        | nan signaling =>
          refine .inr ⟨fun base' hbase' hid' => ?_, rfl⟩
          rintro ⟨value, _, y, hvalue, hy, -⟩
          rw [hlimit] at hvalue
          cases hvalue
          cases hy
      | some y =>
        have hgt : value.gt (.finite current.limit) = _ := gt_level hlevel (y := (current.limit.toRat : WithTop ℚ)) rfl
        rw [hgt]
        dsimp only
        by_cases hallowed : y ≤ (current.limit.toRat : WithTop ℚ) ∨ reauthenticated = true
        · refine .inl ⟨base, hbase, hnamed, ⟨value, _, y, hlimit, hlevel, hx, hallowed⟩, ?_⟩
          rw [if_neg ?_]
          simpa [or_iff_not_imp_left] using hallowed
        · refine .inr ⟨fun base' hbase' hid' => ?_, ?_⟩
          · rintro ⟨value', x', y', hvalue, hy, hx', hallowed'⟩
            rw [hother base' hbase' hid'] at hx'
            rw [hlimit] at hvalue
            cases hvalue
            rw [hlevel] at hy
            cases hy
            rw [limit_unique hx' hx] at hallowed'
            exact hallowed hallowed'
          · obtain ⟨hlooser, hplain⟩ := not_or.mp hallowed
            rw [if_pos (by simp [not_le.mp hlooser, hplain])]

/-- While the screen fails, no limit is changed. -/
theorem update_of_failed {e : Exc} (h : build_risk store .normal = .error e) (rule_id limit : String) (reauthenticated : Bool) :
    update_risk_rule store rule_id limit reauthenticated = (.raised e, store) := by
  unfold update_risk_rule
  rw [h]

/-- An update changes the limit of its rule only. -/
theorem effective_limit_set {store' : ConsoleStore} {rule_id limit : String} (h : store'.risk_limits = store.risk_limits.set rule_id limit) :
    effective_limit store' base = if base.rule_id = rule_id then limit else effective_limit store base := by
  unfold effective_limit
  rw [h, Dict.get?_set]
  split <;> rfl

/-! ## Any requests -/

/-- The fixed limits can be compared. -/
theorem comparable_base : ∀ base ∈ _RISK_BASE, ((DecimalValue.ofText base.limit).bind DecimalValue.level).isSome := by decide

/-- At the start every rule has the limit of its fixture. -/
theorem limit_start (hbase : base ∈ _RISK_BASE) : ∃ x, Limit {} base x := by
  obtain ⟨x, hx⟩ := Option.isSome_iff_exists.mp (comparable_base base hbase)
  obtain ⟨value, hvalue, hx⟩ := Option.bind_eq_some_iff.mp hx
  exact ⟨x, value, hvalue, hx⟩

/-- One request: the limit can be compared, and is not above the one before but after a reset or a reauthenticated update. -/
theorem limit_step (hbase : base ∈ _RISK_BASE) (hx : Limit store base x) (request : ConsoleRequest) :
    ∃ y, Limit (effect store request) base y ∧
      (request ≠ .post_reset → (∀ limit, request ≠ .update_risk_rule base.rule_id limit true) → y ≤ x) := by
  have hkeep : (effect store request).risk_limits = store.risk_limits → ∃ y, Limit (effect store request) base y ∧
      (request ≠ .post_reset → (∀ limit, request ≠ .update_risk_rule base.rule_id limit true) → y ≤ x) := fun heq =>
    ⟨x, (limit_congr (effective_limit_congr heq base)).mpr hx, fun _ _ => le_rfl⟩
  by_cases hreset : request = .post_reset
  · obtain ⟨y, hy⟩ := limit_start hbase
    rw [hreset]
    exact ⟨y, hy, fun hno => absurd rfl hno⟩
  by_cases hupdate : ∀ rule_id limit reauthenticated, request ≠ .update_risk_rule rule_id limit reauthenticated
  · exact hkeep (effect_risk_limits hreset hupdate)
  · push Not at hupdate
    obtain ⟨rule_id, limit, reauthenticated, rfl⟩ := hupdate
    cases hbuild : build_risk store .normal with
    | error e =>
      have hsame : (effect store (.update_risk_rule rule_id limit reauthenticated)).risk_limits = store.risk_limits := by
        rw [effect_update_risk_rule, update_of_failed hbuild]
      exact hkeep hsame
    | ok risk =>
      rcases update_of_shown hbuild rule_id limit reauthenticated with ⟨updated, hupdated, hid, hstored, hset⟩ | ⟨-, hsame⟩
      · by_cases hbase' : base.rule_id = rule_id
        · have heq : updated = base := base_of_id base hbase updated hupdated (hid.trans hbase'.symm)
          subst heq
          obtain ⟨value, x', y, hvalue, hy, hx', hallowed⟩ := hstored
          rw [limit_unique hx' hx] at hallowed
          refine ⟨y, ⟨value, ?_, hy⟩, fun _ hplain => hallowed.resolve_right ?_⟩
          · rw [effective_limit_set hset, if_pos hbase', hvalue]
          · rintro rfl
            exact hplain limit (by rw [hbase'])
        · refine ⟨x, (limit_congr ?_).mpr hx, fun _ _ => le_rfl⟩
          rw [effective_limit_set hset, if_neg hbase']
      · exact hkeep hsame

/-- Whatever was served, a limit is in force that can be compared. -/
theorem limit_served {internal_api_key : String} {log : List Arrival} (h : Served internal_api_key log store) (hbase : base ∈ _RISK_BASE) :
    ∃ x, Limit store base x := by
  refine ServedFrom.rule (P := fun _ store => ∃ x, Limit store base x) (limit_start hbase) ?_ h
  rintro drawn history store request ⟨x, hx⟩
  obtain ⟨y, hy, -⟩ := limit_step hbase hx request
  rw [handle_store]
  exact ⟨y, hy⟩

/-! ## Limits that cannot be shown -/

/-- The fixed limits are finite and have few digits. -/
theorem finite_base : ∀ base ∈ _RISK_BASE, ∃ d, DecimalValue.ofText base.limit = some (.finite d) ∧ Short d := by
  simp only [_RISK_BASE, List.forall_mem_cons]
  refine ⟨⟨⟨false, 10000000, 0⟩, ?_⟩, ⟨⟨false, 150000000, 0⟩, ?_⟩, ⟨⟨false, 200, -3⟩, ?_⟩, ⟨⟨false, 300, -4⟩, ?_⟩, ⟨⟨false, 1000, -4⟩, ?_⟩, by simp⟩
  all_goals decide

/-- A rule has a row unless its limit is broken. -/
theorem risk_rule_ok_iff_not_broken (hbase : base ∈ _RISK_BASE) : (∃ row, risk_rule store base = .ok row) ↔
    ¬Broken base (effective_limit store base) := by
  rw [risk_rule_ok_iff (toRat_actual_pos base hbase)]
  constructor
  · rintro ⟨limit, htext, hshown⟩ ⟨hchanged, hbroken⟩
    obtain ⟨hpos, hsmall⟩ := hbroken limit htext
    exact (hshown.resolve_left hchanged).elim (not_le.mpr hpos) (not_lt.mpr hsmall)
  · intro hno
    by_cases hchanged : effective_limit store base = base.limit
    · obtain ⟨d, hd, -⟩ := finite_base base hbase
      exact ⟨d, by rw [hchanged, hd], .inl hchanged⟩
    · have hsome : ¬∀ d : Decimal, DecimalValue.ofText (effective_limit store base) = some (.finite d) →
          0 < d.toRat ∧ d.toRat * (10 ^ 25 - 1 / 2000) ≤ base.actual.toRat := fun h => hno ⟨hchanged, h⟩
      push Not at hsome
      obtain ⟨d, htext, hd⟩ := hsome
      refine ⟨d, htext, .inr ?_⟩
      by_cases hpos : 0 < d.toRat
      · exact .inr (hd hpos)
      · exact .inl (not_lt.mp hpos)

/-- The screen is built unless the limit of a rule is broken. -/
theorem built_iff (store : ConsoleStore) : (∃ risk, build_risk store .normal = .ok risk) ↔
    ∀ base ∈ _RISK_BASE, ¬Broken base (effective_limit store base) := by
  rw [build_risk_ok_iff]
  exact forall₂_congr fun base hbase => risk_rule_ok_iff_not_broken hbase

/-! ## Limits that cannot be written -/

/-- The fixed amounts are short. -/
theorem short_base : ∀ base ∈ _RISK_BASE, Short base.actual ∧ Short base.usage := by decide

/-- What a row shows beside its limit has few digits. -/
theorem short_row {row : RiskRuleRow} (hbase : base ∈ _RISK_BASE) (h : risk_rule store base = .ok row) :
    Short row.actual ∧ Short row.usage_percent := by
  obtain ⟨-, hactual, -, husage⟩ := limit_of_row h
  obtain ⟨hshort, hfixture⟩ := short_base base hbase
  refine ⟨hactual ▸ hshort, ?_⟩
  unfold usage_value at husage
  split at husage
  · obtain ⟨positive, -, husage⟩ := except_bind_eq_ok husage
    split at husage
    · obtain ⟨ratio, -, husage⟩ := except_bind_eq_ok husage
      obtain ⟨percent, -, husage⟩ := except_bind_eq_ok husage
      exact short_of_quantized husage (by decide) (by decide)
    · exact Except.ok.inj husage ▸ hfixture
  · exact Except.ok.inj husage ▸ hfixture

/-- The screen is shown when all rules have a row and there is memory for their limits. -/
theorem risk_shown_iff_built (memory : Memory) (store : ConsoleStore) : RiskShown memory store ↔
    ∃ risk, build_risk store .normal = .ok risk ∧ ∀ row ∈ risk.rules, plainLength row.limit ≤ memory.longest := by
  have hreply : ∀ risk, get_risk_rules store none = .ok (.risk risk) ↔ build_risk store .normal = .ok risk := by
    intro risk
    show ConsoleReply.of ConsoleBody.risk (build_risk store .normal) = _ ↔ _
    cases build_risk store .normal <;> simp [ConsoleReply.of]
  unfold RiskShown
  refine exists_congr fun risk => ?_
  rw [sent_eq_ok, hreply]
  refine and_congr_right fun hbuilt => ?_
  show (∀ d ∈ risk.rules.flatMap fun row => [row.actual, row.limit, row.usage_percent], _) ↔ _
  constructor
  · intro h row hrow
    exact h row.limit (List.mem_flatMap.mpr ⟨row, hrow, by simp⟩)
  · intro h d hd
    obtain ⟨row, hrow, hd⟩ := List.mem_flatMap.mp hd
    obtain ⟨base, hbase, hrule⟩ := rule_of_row hbuilt hrow
    obtain ⟨hactual, husage⟩ := short_row hbase hrule
    simp only [List.mem_cons, List.not_mem_nil, or_false] at hd
    rcases hd with rfl | rfl | rfl
    · exact hactual.fits memory
    · exact h row hrow
    · exact husage.fits memory

/-- The screen is shown unless a limit is broken or has no text. -/
theorem risk_shown_iff (memory : Memory) (store : ConsoleStore) : RiskShown memory store ↔
    ∀ base ∈ _RISK_BASE, ¬Broken base (effective_limit store base) ∧ ¬Unprintable memory (effective_limit store base) := by
  rw [risk_shown_iff_built]
  constructor
  · rintro ⟨risk, hbuilt, hfits⟩ base hbase
    refine ⟨(built_iff store).mp ⟨risk, hbuilt⟩ base hbase, ?_⟩
    rintro ⟨d, htext, hlong⟩
    obtain ⟨row, hrow, hrule⟩ := row_of_rule hbuilt hbase
    obtain ⟨-, -, hlimit, -⟩ := limit_of_row hrule
    rw [htext] at hlimit
    cases hlimit
    exact absurd (hfits row hrow) (not_le.mpr hlong)
  · intro h
    obtain ⟨risk, hbuilt⟩ := (built_iff store).mpr fun base hbase => (h base hbase).1
    refine ⟨risk, hbuilt, fun row hrow => ?_⟩
    obtain ⟨base, hbase, hrule⟩ := rule_of_row hbuilt hrow
    obtain ⟨-, -, hlimit, -⟩ := limit_of_row hrule
    exact not_lt.mp fun hlong => (h base hbase).2 ⟨row.limit, hlimit, hlong⟩

/-- With no limit stored it is shown. -/
theorem shown_start (memory : Memory) : RiskShown memory {} :=
  (risk_shown_iff memory {}).mpr fun base hbase => by
    obtain ⟨d, htext, hshort⟩ := finite_base base hbase
    refine ⟨fun hbroken => hbroken.1 rfl, ?_⟩
    rintro ⟨d', htext', hlong⟩
    cases htext.symm.trans htext'
    exact absurd (hshort.fits memory) (not_le.mpr hlong)

end ConsoleLimitsAux

open ConsoleLimitsAux

/-- In every run a limit can be compared, and while no update of its rule is reauthenticated and nothing is reset it only becomes tighter. -/
theorem limits_only_tighten {internal_api_key : String} {log more : List Arrival} {store store' : ConsoleStore}
    (h : Served internal_api_key log store) (hmore : ServedFrom internal_api_key store more store') {base : RiskBase} (hbase : base ∈ _RISK_BASE)
    (hreset : .post_reset ∉ accepted internal_api_key more)
    (hplain : ∀ limit, .update_risk_rule base.rule_id limit true ∉ accepted internal_api_key more) :
    ∃ before after, Limit store base before ∧ Limit store' base after ∧ after ≤ before := by
  obtain ⟨x, hx⟩ := limit_served h hbase
  have hrun := ServedFrom.rule (P := fun history store' => .post_reset ∉ history →
    (∀ limit, .update_risk_rule base.rule_id limit true ∉ history) → ∃ y, Limit store' base y ∧ y ≤ x) (fun _ _ => ⟨x, hx, le_rfl⟩)
    (fun drawn history store request ih hreset hplain => by
      obtain ⟨y, hy, hle⟩ := ih (fun hmem => hreset (by simp [hmem])) fun limit hmem => hplain limit (by simp [hmem])
      obtain ⟨z, hz, hstep⟩ := limit_step hbase hy request
      rw [handle_store]
      refine ⟨z, hz, (hstep ?_ fun limit => ?_).trans hle⟩
      · rintro rfl
        exact hreset (by simp)
      · rintro rfl
        exact hplain limit (by simp)) hmore
  obtain ⟨y, hy, hle⟩ := hrun hreset hplain
  exact ⟨x, y, hx, hy, hle⟩

/-- A smaller limit for the daily loss. -/
theorem limits_only_tighten_loss : ∃ before after, Limit {} (_RISK_BASE.get ⟨3, by decide⟩) before ∧
    Limit (serve "key" ⟨0⟩ {} ⟨some "key", .update_risk_rule "risk-daily-loss" "0.02" false⟩).2 (_RISK_BASE.get ⟨3, by decide⟩) after ∧
    after ≤ before :=
  limits_only_tighten .start (.step ⟨0⟩ _ .start) (List.get_mem _ _) (by decide) fun _ hmem => by
    have heq : accepted "key" [⟨some "key", .update_risk_rule "risk-daily-loss" "0.02" false⟩] =
      [.update_risk_rule "risk-daily-loss" "0.02" false] := by decide
    rw [List.nil_append, heq] at hmem
    simp at hmem

/-- The screen of the rules is shown unless a rule has no row or there is no memory for its limit; a request takes it away exactly when it is
an update that is stored with such a limit. -/
theorem risk_screen_breaks_iff (memory : Memory) (drawn : UUID) (store : ConsoleStore) (request : ConsoleRequest) :
    (RiskShown memory store ↔
      ∀ base ∈ _RISK_BASE, ¬Broken base (effective_limit store base) ∧ ¬Unprintable memory (effective_limit store base)) ∧
    (RiskShown memory store → (¬RiskShown memory (handle drawn store request).2 ↔
      ∃ base ∈ _RISK_BASE, ∃ limit reauthenticated, request = .update_risk_rule base.rule_id limit reauthenticated ∧
        Stored store base limit reauthenticated ∧ (Broken base limit ∨ Unprintable memory limit))) := by
  refine ⟨risk_shown_iff memory store, fun hshown => ?_⟩
  rw [handle_store]
  have hkeep : (effect store request).risk_limits = store.risk_limits → RiskShown memory (effect store request) := by
    intro heq
    rw [risk_shown_iff_built, build_risk_congr heq]
    exact (risk_shown_iff_built memory store).mp hshown
  obtain ⟨risk, hrisk, -⟩ := (risk_shown_iff_built memory store).mp hshown
  constructor
  · intro hfails
    by_cases hreset : request = .post_reset
    · rw [hreset] at hfails
      exact absurd (shown_start memory) hfails
    by_cases hupdate : ∀ rule_id limit reauthenticated, request ≠ .update_risk_rule rule_id limit reauthenticated
    · exact absurd (hkeep (effect_risk_limits hreset hupdate)) hfails
    · push Not at hupdate
      obtain ⟨rule_id, limit, reauthenticated, rfl⟩ := hupdate
      rcases update_of_shown hrisk rule_id limit reauthenticated with ⟨base, hbase, rfl, hstored, hset⟩ | ⟨-, hsame⟩
      · refine ⟨base, hbase, limit, reauthenticated, rfl, hstored, ?_⟩
        by_contra hfine
        refine hfails ((risk_shown_iff memory _).mpr fun other hother => ?_)
        rw [effective_limit_set hset]
        split
        · rename_i hid
          rw [base_of_id base hbase other hother hid]
          exact not_or.mp hfine
        · exact (risk_shown_iff memory store).mp hshown other hother
      · exact absurd (hkeep hsame) hfails
  · rintro ⟨base, hbase, limit, reauthenticated, rfl, hstored, hbroken⟩ hshown'
    rcases update_of_shown hrisk base.rule_id limit reauthenticated with ⟨_, _, _, _, hset⟩ | ⟨hno, -⟩
    · have hfine := (risk_shown_iff memory _).mp hshown' base hbase
      rw [effective_limit_set hset, if_pos rfl] at hfine
      exact not_or.mpr hfine hbroken
    · exact hno base hbase rfl hstored

/-- A process with room for texts of some billion characters. -/
def roomy : Memory := ⟨2 ^ 32, by decide, by decide⟩

/-- A limit of a trillion digits is stored, and then there is no screen. -/
theorem risk_screen_breaks_iff_huge :
    ¬RiskShown roomy (handle ⟨0⟩ {} (.update_risk_rule "risk-daily-loss" "1E+999999999999" true)).2 := by
  have hscreen := risk_screen_breaks_iff roomy ⟨0⟩ {} (.update_risk_rule "risk-daily-loss" "1E+999999999999" true)
  have hbase : _RISK_BASE.get ⟨3, by decide⟩ ∈ _RISK_BASE := List.get_mem _ _
  obtain ⟨x, hx⟩ := limit_start hbase
  have htext : DecimalValue.ofText "1E+999999999999" = some (.finite ⟨false, 1, 999999999999⟩) := by decide
  refine (hscreen.2 (shown_start roomy)).mpr ⟨_, hbase, "1E+999999999999", true, rfl, ?_, .inr ⟨_, htext, by decide⟩⟩
  exact ⟨_, x, _, htext, rfl, hx, .inr rfl⟩

/-- Once the rules cannot be built they cannot be until a reset: the screen fails, the session with it, and every update of a limit is
answered with the same error. -/
theorem risk_failure_lasts (memory : Memory) {internal_api_key : String} {more : List Arrival} {store store' : ConsoleStore} {e : Exc}
    (h : build_risk store .normal = .error e) (hmore : ServedFrom internal_api_key store more store')
    (hreset : .post_reset ∉ accepted internal_api_key more) :
    (∀ state, normalise_state state ∉ [.empty, .loading, .forbidden, .server_error] →
      (get_risk_rules store' state).sent memory = .raised e) ∧
    (∀ state role, normalise_state state ∉ [.empty, .loading, .server_error] → (get_session store' state role).sent memory = .raised e) ∧
    ∀ drawn rule_id limit reauthenticated,
      handle drawn store' (.update_risk_rule rule_id limit reauthenticated) = (.raised e, store') := by
  -- the limits are those that the screen failed with
  have hlimits : store'.risk_limits = store.risk_limits := by
    refine ServedFrom.rule (P := fun history store' => .post_reset ∉ history → store'.risk_limits = store.risk_limits) (fun _ => rfl)
      (fun drawn history store' request ih hreset => ?_) hmore hreset
    have hsame := ih fun hmem => hreset (by simp [hmem])
    rw [handle_store, ← hsame]
    by_cases hupdate : ∀ rule_id limit reauthenticated, request ≠ .update_risk_rule rule_id limit reauthenticated
    · refine effect_risk_limits ?_ hupdate
      rintro rfl
      exact hreset (by simp)
    · push Not at hupdate
      obtain ⟨rule_id, limit, reauthenticated, rfl⟩ := hupdate
      rw [effect_update_risk_rule, update_of_failed ((build_risk_congr hsame .normal).trans h)]
  have hbuild : ∀ state ∉ [ScreenState.empty, .loading], build_risk store' state = .error e := fun state hstate => by
    rw [build_risk_congr hlimits, build_risk_eq store hstate, ← @build_risk_eq store .normal (by decide), h]
  refine ⟨fun state hstate => ?_, fun state role hstate => ?_, fun drawn rule_id limit reauthenticated => ?_⟩
  · unfold get_risk_rules
    generalize normalise_state state = resolved at hstate
    rw [hbuild resolved fun hmem => hstate (List.mem_append_left [ScreenState.forbidden, .server_error] hmem)]
    cases resolved <;> first | rfl | simp at hstate
  · obtain ⟨rows, hrows⟩ := build_approvals_ok store' (normalise_state state)
    unfold get_session
    generalize normalise_state state = resolved at hstate hrows
    have hserver : resolved ≠ .server_error := by
      rintro rfl
      simp at hstate
    dsimp only
    rw [if_neg hserver]
    unfold build_session
    rw [hrows, hbuild resolved fun hmem => hstate (List.mem_append_left [ScreenState.server_error] hmem)]
    rfl
  · exact update_of_failed (hbuild .normal (by decide)) rule_id limit reauthenticated

/-- A limit below all numbers is tighter, so it needs no reauthentication; no later update works. -/
theorem risk_failure_lasts_infinity : ∃ e, ∀ drawn, (handle drawn
    (serve "key" ⟨0⟩ (effect {} (.update_risk_rule "risk-daily-loss" "-Infinity" false)) ⟨some "key", .post_resume⟩).2
    (.update_risk_rule "risk-daily-loss" "0.02" true)).1 = .raised e := by
  have hfails : build_risk (effect {} (.update_risk_rule "risk-daily-loss" "-Infinity" false)) .normal =
      .error (.validationError "RiskRuleRow" [("limit", "Input should be a finite number")]) := by decide
  have hlasts := risk_failure_lasts roomy hfails (@ServedFrom.step "key" _ _ _ ⟨0⟩ ⟨some "key", .post_resume⟩ .start) (by decide)
  exact ⟨_, fun drawn => by rw [hlasts.2.2]⟩

end Console
end MtossBot
