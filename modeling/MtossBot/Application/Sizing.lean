import MtossBot.Strategies.UtBot.Config

/-!
# Sizing

`application/sizing.py`, over any arithmetic. The divisions raise on a zero divisor.
-/

namespace MtossBot

inductive SizingRejection where
  | BELOW_BROKER_MINIMUM
  | NON_POSITIVE_RISK
deriving DecidableEq, Repr

/-- The keyword arguments of `SymbolSpec`. -/
structure SymbolSpecFields (D : Type) where
  symbol : String
  contract_size : D
  volume_min : D
  volume_step : D
  volume_max : D

namespace SymbolSpecFields

variable {D : Type} [PyDecimal D]

def require_positive (field : String) (value : D) : List (String × String) :=
  if value ≤ 0 then [(field, "symbol spec values must be positive")] else []

def errors (f : SymbolSpecFields D) : List (String × String) :=
  require_positive "contract_size" f.contract_size ++ require_positive "volume_min" f.volume_min ++
  require_positive "volume_step" f.volume_step ++ require_positive "volume_max" f.volume_max

end SymbolSpecFields

/-- A symbol's specification that the model accepts. -/
structure SymbolSpec (D : Type) [PyDecimal D] extends SymbolSpecFields D where
  accepted : toSymbolSpecFields.errors = []

/-- The positive values of a specification. -/
theorem SymbolSpec.positive {D : Type} [PyDecimal D] (spec : SymbolSpec D) :
    ¬ spec.contract_size ≤ 0 ∧ ¬ spec.volume_min ≤ 0 ∧ ¬ spec.volume_step ≤ 0 ∧ ¬ spec.volume_max ≤ 0 := by
  have h := spec.accepted
  simp only [SymbolSpecFields.errors, SymbolSpecFields.require_positive, List.append_eq_nil_iff, ite_eq_right_iff,
    reduceCtorEq, imp_false] at h
  exact ⟨h.1.1.1, h.1.1.2, h.1.2, h.2⟩

structure SizingOutcome (D : Type) where
  lots : Option D
  quantity : Option D
  budget : D
  risk_amount : Option D
  requires_confirmation : Bool
  rejection : Option SizingRejection := none
deriving DecidableEq

variable {D : Type} [PyDecimal D]

/-- How far the loss at the stop exceeds the budget. -/
def SizingOutcome.over_budget_by (o : SizingOutcome D) : D :=
  match o.risk_amount with
  | none => 0
  | some risk_amount => py_max (risk_amount - o.budget) 0

def _floor_to_step (value step : D) : Except Exc D := do
  let multiples ← py_div value step
  return PyDecimal.normalize (PyDecimal.floor multiples * step)

def _finalise (lots : D) (spec : SymbolSpec D) (budget risk_per_lot : D) (requires_confirmation : Bool) :
    Except Exc (SizingOutcome D) := do
  let quantised ← _floor_to_step lots spec.volume_step
  if quantised < spec.volume_min then
    return ⟨none, none, budget, none, false, some .BELOW_BROKER_MINIMUM⟩
  return ⟨some quantised, some (PyDecimal.normalize (quantised * spec.contract_size)), budget,
    some (quantised * risk_per_lot), requires_confirmation, none⟩

def size_entry (config : UtBotConfig D) (stop_distance : D) (spec : SymbolSpec D) (equity quote_to_account_rate : D) :
    Except Exc (SizingOutcome D) :=
  let budget := PyDecimal.copy_abs (equity * config.risk_pct)
  if stop_distance ≤ 0 then
    return ⟨none, none, budget, none, false, some .NON_POSITIVE_RISK⟩
  else
    let risk_per_lot := stop_distance * spec.contract_size * quote_to_account_rate
    let floor_lots := py_max config.base_lots spec.volume_min
    if config.sizing_mode = .FIXED then
      _finalise floor_lots spec budget risk_per_lot false
    else do
      let raw_lots ← py_div budget risk_per_lot
      if raw_lots < floor_lots then
        _finalise floor_lots spec budget risk_per_lot true
      else
        let capped := py_min (py_min raw_lots config.max_lots) spec.volume_max
        _finalise capped spec budget risk_per_lot false

/-! ## What an outcome says -/

/-- An outcome is a rejection, or has lots and a quantity. -/
def SizingOutcome.Decided (o : SizingOutcome D) : Prop :=
  (o.rejection ≠ none ∧ o.lots = none) ∨ (o.rejection = none ∧ o.lots ≠ none ∧ o.quantity ≠ none)

theorem _floor_to_step_error {value step : D} {e : Exc} (h : _floor_to_step value step = .error e) :
    e = .divisionByZero := by
  unfold _floor_to_step at h
  cases hd : py_div value step with
  | error e' =>
    rw [hd] at h
    exact Except.error.inj h ▸ py_div_error hd
  | ok m => rw [hd] at h; cases h

theorem _finalise_error {lots budget risk : D} {spec : SymbolSpec D} {confirm : Bool} {e : Exc}
    (h : _finalise lots spec budget risk confirm = .error e) : e = .divisionByZero := by
  unfold _finalise at h
  cases hf : _floor_to_step lots spec.volume_step with
  | error e' =>
    rw [hf] at h
    exact Except.error.inj h ▸ _floor_to_step_error hf
  | ok q =>
    simp only [hf, bind, Except.bind] at h
    split at h <;> cases h

/-- Sizing raises nothing but a division by zero. -/
theorem size_entry_error {config : UtBotConfig D} {distance equity rate : D} {spec : SymbolSpec D} {e : Exc}
    (h : size_entry config distance spec equity rate = .error e) : e = .divisionByZero := by
  unfold size_entry at h
  dsimp only at h
  split at h
  · cases h
  · split at h
    · exact _finalise_error h
    · cases hd : py_div (PyDecimal.copy_abs (equity * config.risk_pct)) (distance * spec.contract_size * rate) with
      | error e' =>
        rw [hd] at h
        exact Except.error.inj h ▸ py_div_error hd
      | ok raw =>
        simp only [hd, bind, Except.bind] at h
        split at h <;> exact _finalise_error h

theorem _finalise_decided {lots budget risk : D} {spec : SymbolSpec D} {confirm : Bool} {o : SizingOutcome D}
    (h : _finalise lots spec budget risk confirm = .ok o) : o.Decided := by
  unfold _finalise at h
  cases hf : _floor_to_step lots spec.volume_step with
  | error e => rw [hf] at h; cases h
  | ok q =>
    simp only [hf, bind, Except.bind] at h
    split at h
    · cases h
      exact .inl ⟨by simp, rfl⟩
    · cases h
      exact .inr ⟨rfl, by simp, by simp⟩

/-- Every outcome is a rejection, or has lots and a quantity. -/
theorem size_entry_decided {config : UtBotConfig D} {distance equity rate : D} {spec : SymbolSpec D} {o : SizingOutcome D}
    (h : size_entry config distance spec equity rate = .ok o) : o.Decided := by
  unfold size_entry at h
  dsimp only at h
  split at h
  · cases h
    exact .inl ⟨by simp, rfl⟩
  · split at h
    · exact _finalise_decided h
    · cases hd : py_div (PyDecimal.copy_abs (equity * config.risk_pct)) (distance * spec.contract_size * rate) with
      | error e => rw [hd] at h; cases h
      | ok raw =>
        simp only [hd, bind, Except.bind] at h
        split at h <;> exact _finalise_decided h

end MtossBot
