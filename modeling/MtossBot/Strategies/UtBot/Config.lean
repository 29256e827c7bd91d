import MtossBot.Domain.Numeric

/-!
# Settings of the strategy

`UtBotConfig`, over any arithmetic.
-/

namespace MtossBot

inductive HullMode where
  | HMA
  | THMA
  | EHMA
deriving DecidableEq, Repr

inductive SizingMode where
  | FIXED
  | RISK_PERCENT
deriving DecidableEq, Repr

/-- The keyword arguments of `UtBotConfig`. -/
structure UtBotConfigFields (D : Type) where
  symbol : String := "XAUUSD"
  timeframe : String := "H1"
  sizing_mode : SizingMode := .RISK_PERCENT
  risk_pct : D
  base_lots : D
  max_lots : D
  confirmation_deadline_seconds : Int := 300
  ut_key : D
  ut_atr : Int := 6
  sl_len : Int := 4
  rr_mult : D
  use_hull_exit : Bool := true
  only_after_be : Bool := false
  hull_mode : HullMode := .HMA
  hull_len : Int := 55
  hull_mult : D
  max_entry_gap_bps : Option Int := none

namespace UtBotConfigFields

variable {D : Type} [PyDecimal D]

def require_positive_setting (field : String) (value : D) : List (String × String) :=
  if value ≤ 0 then [(field, "strategy settings must be positive")] else []

/-- The validators of `risk_pct`: positive first, then at most `0.5`. -/
def require_sane_risk (value : D) : List (String × String) :=
  if value ≤ 0 then [("risk_pct", "strategy settings must be positive")]
  else if PyDecimal.ofInt 1 / PyDecimal.ofInt 2 < value then
    [("risk_pct", "risk_pct above 0.5 risks the whole account on one trade")]
  else []

def require_positive_length (field : String) (value : Int) : List (String × String) :=
  if value < 1 then [(field, "lengths must be at least 1")] else []

def require_positive_gap (value : Option Int) : List (String × String) :=
  if value.any (· ≤ 0) then [("max_entry_gap_bps", "max_entry_gap_bps must be positive when set")] else []

/-- The errors of the field validators, in the order of the fields. -/
def field_errors (f : UtBotConfigFields D) : List (String × String) :=
  require_sane_risk f.risk_pct ++ require_positive_setting "base_lots" f.base_lots ++
  require_positive_setting "max_lots" f.max_lots ++
  require_positive_length "confirmation_deadline_seconds" f.confirmation_deadline_seconds ++
  require_positive_setting "ut_key" f.ut_key ++ require_positive_length "ut_atr" f.ut_atr ++
  require_positive_length "sl_len" f.sl_len ++ require_positive_setting "rr_mult" f.rr_mult ++
  require_positive_length "hull_len" f.hull_len ++ require_positive_setting "hull_mult" f.hull_mult ++
  require_positive_gap f.max_entry_gap_bps

def require_cap_above_floor (f : UtBotConfigFields D) : List (String × String) :=
  if f.max_lots < f.base_lots then [("", "max_lots must not be below base_lots")] else []

/-- All errors: the model validator runs on settings whose fields are valid. -/
def errors (f : UtBotConfigFields D) : List (String × String) :=
  if f.field_errors = [] then f.require_cap_above_floor else f.field_errors

end UtBotConfigFields

/-- Settings that the model accepts. -/
structure UtBotConfig (D : Type) [PyDecimal D] extends UtBotConfigFields D where
  accepted : toUtBotConfigFields.errors = []

/-- The length of a window, which every indicator checks to be positive. -/
structure Length where
  val : Nat
  pos : 0 < val

/-- `max(n, 1)`. -/
def Length.atLeastOne (n : Nat) : Length := ⟨max n 1, by omega⟩

namespace UtBotConfig

variable {D : Type} [PyDecimal D]

/-- The fields of accepted settings have no errors. -/
theorem field_errors_eq_nil (config : UtBotConfig D) : config.field_errors = [] := by
  have h := config.accepted
  unfold UtBotConfigFields.errors at h
  split at h
  · assumption
  · exact h

theorem ut_atr_pos (config : UtBotConfig D) : 1 ≤ config.ut_atr := by
  have h := config.field_errors_eq_nil
  simp only [UtBotConfigFields.field_errors, UtBotConfigFields.require_positive_length, List.append_eq_nil_iff,
    ite_eq_right_iff, reduceCtorEq, imp_false, not_lt] at h
  exact h.1.1.1.1.1.2

theorem sl_len_pos (config : UtBotConfig D) : 1 ≤ config.sl_len := by
  have h := config.field_errors_eq_nil
  simp only [UtBotConfigFields.field_errors, UtBotConfigFields.require_positive_length, List.append_eq_nil_iff,
    ite_eq_right_iff, reduceCtorEq, imp_false, not_lt] at h
  exact h.1.1.1.1.2

theorem risk_pct_pos (config : UtBotConfig D) : ¬ config.risk_pct ≤ 0 := by
  have h := config.field_errors_eq_nil
  simp only [UtBotConfigFields.field_errors, List.append_eq_nil_iff] at h
  have hrisk := h.1.1.1.1.1.1.1.1.1.1
  intro hle
  rw [UtBotConfigFields.require_sane_risk, if_pos hle] at hrisk
  cases hrisk

theorem ut_key_pos (config : UtBotConfig D) : ¬ config.ut_key ≤ 0 := by
  have h := config.field_errors_eq_nil
  simp only [UtBotConfigFields.field_errors, UtBotConfigFields.require_positive_setting, List.append_eq_nil_iff,
    ite_eq_right_iff, reduceCtorEq, imp_false] at h
  exact h.1.1.1.1.1.1.2

theorem rr_mult_pos (config : UtBotConfig D) : ¬ config.rr_mult ≤ 0 := by
  have h := config.field_errors_eq_nil
  simp only [UtBotConfigFields.field_errors, UtBotConfigFields.require_positive_setting, List.append_eq_nil_iff,
    ite_eq_right_iff, reduceCtorEq, imp_false] at h
  exact h.1.1.1.2

/-- `ut_atr` as the length of a window. -/
def ut_atr_length (config : UtBotConfig D) : Length := ⟨config.ut_atr.toNat, by have := config.ut_atr_pos; omega⟩

/-- `sl_len` as the length of a window. -/
def sl_len_length (config : UtBotConfig D) : Length := ⟨config.sl_len.toNat, by have := config.sl_len_pos; omega⟩

/-- `max(int(hull_len * hull_mult), 1)`. -/
def hull_length_effective (config : UtBotConfig D) : Length :=
  .atLeastOne (PyDecimal.toInt (PyDecimal.ofInt config.hull_len * config.hull_mult)).toNat

/-- The least number of bars before signals come out, as the scheduler asks for them. -/
def warmup_bars (config : UtBotConfig D) : Int :=
  let hull_span : Int := config.hull_length_effective.val + 2
  max (max config.ut_atr config.sl_len) hull_span + 1

end UtBotConfig

/-- The settings as they are when nothing is set. -/
def UtBotConfig.default : UtBotConfig ℚ where
  risk_pct := 1 / 10
  base_lots := 1 / 100
  max_lots := 2 / 100
  ut_key := 2
  rr_mult := 1
  hull_mult := 1
  accepted := by decide +kernel

end MtossBot
