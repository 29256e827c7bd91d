import Mathlib.Tactic.Linarith
import Mathlib.Tactic.Positivity
import MtossBot.Application.Sizing
import MtossBot.Library.Grid

/-!
# What sizing returns

`size_entry` over exact arithmetic, by its three ways to a quantity: the fixed quantity, the floor that needs a confirmation, and the
quantity the budget allows.
-/

namespace MtossBot

/-- `max_lots * 2`. -/
def UtBotConfig.max_total_lots (config : UtBotConfig ℚ) : ℚ := config.max_lots * 2

/-- The lots an entry has at least. -/
def floorLots (config : UtBotConfig ℚ) (spec : SymbolSpec ℚ) : ℚ := max config.base_lots spec.volume_min

/-- What one lot loses at the stop, in the currency of the account. -/
def riskPerLot (stop_distance : ℚ) (spec : SymbolSpec ℚ) (rate : ℚ) : ℚ := stop_distance * spec.contract_size * rate

/-- The loss that a tranche may make. -/
def riskBudget (config : UtBotConfig ℚ) (equity : ℚ) : ℚ := |equity * config.risk_pct|

/-- The quantity is not taken from the budget: it is fixed, or the budget does not allow the least lots. -/
def OnFloor (config : UtBotConfig ℚ) (stop_distance : ℚ) (spec : SymbolSpec ℚ) (equity rate : ℚ) : Prop :=
  config.sizing_mode = .FIXED ∨ riskBudget config equity / riskPerLot stop_distance spec rate < floorLots config spec

namespace SizingAux

variable {config : UtBotConfig ℚ} {spec : SymbolSpec ℚ} {distance equity rate lots budget risk : ℚ} {confirm : Bool}
  {o : SizingOutcome ℚ}

/-- The step is positive. -/
theorem volume_step_pos (spec : SymbolSpec ℚ) : (0 : ℚ) < spec.volume_step := not_le.mp spec.positive.2.2.1

/-- The least volume is positive. -/
theorem volume_min_pos (spec : SymbolSpec ℚ) : (0 : ℚ) < spec.volume_min := not_le.mp spec.positive.2.1

/-- At a positive distance and rate a lot has some risk. -/
theorem riskPerLot_pos (spec : SymbolSpec ℚ) (hd : 0 < distance) (hr : 0 < rate) : 0 < riskPerLot distance spec rate :=
  mul_pos (mul_pos hd (not_le.mp spec.positive.1)) hr

/-- The cap of accepted settings is not below their floor. -/
theorem base_lots_le_max_lots (config : UtBotConfig ℚ) : (config.base_lots : ℚ) ≤ config.max_lots := by
  have h := config.accepted
  rw [UtBotConfigFields.errors, if_pos config.field_errors_eq_nil, UtBotConfigFields.require_cap_above_floor] at h
  by_contra hlt
  rw [if_pos (not_le.mp hlt)] at h
  cases h

/-- Division by what is positive is division. -/
theorem py_div_eq {a b : ℚ} (hb : 0 < b) : py_div a b = .ok (a / b) := by
  unfold py_div
  rw [if_neg fun h => absurd hb (not_lt.mpr h.1)]

/-- Rounding down by division and multiplication is rounding down to the step. -/
theorem _floor_to_step_eq {value step : ℚ} (h : 0 < step) : _floor_to_step value step = .ok (floorTo step value) := by
  rw [_floor_to_step, py_div_eq h]
  rfl

/-- What becomes of a quantity: it is rounded down to the step, and refused if it is then below the minimum. -/
theorem _finalise_eq : _finalise lots spec budget risk confirm = .ok
    (if floorTo spec.volume_step lots < spec.volume_min then ⟨none, none, budget, none, false, some .BELOW_BROKER_MINIMUM⟩
    else ⟨some (floorTo spec.volume_step lots), some (floorTo spec.volume_step lots * spec.contract_size), budget,
      some (floorTo spec.volume_step lots * risk), confirm, none⟩) := by
  rw [_finalise, _floor_to_step_eq (volume_step_pos spec)]
  show (if floorTo spec.volume_step lots < spec.volume_min then _ else _ : Except Exc (SizingOutcome ℚ)) = _
  split <;> rfl

/-- The three ways to a quantity. -/
theorem size_entry_eq (config : UtBotConfig ℚ) (spec : SymbolSpec ℚ) (equity : ℚ) (hd : 0 < distance) (hr : 0 < rate) :
    size_entry config distance spec equity rate =
      if config.sizing_mode = .FIXED then
        _finalise (floorLots config spec) spec (riskBudget config equity) (riskPerLot distance spec rate) false
      else if riskBudget config equity / riskPerLot distance spec rate < floorLots config spec then
        _finalise (floorLots config spec) spec (riskBudget config equity) (riskPerLot distance spec rate) true
      else
        _finalise (min (min (riskBudget config equity / riskPerLot distance spec rate) config.max_lots) spec.volume_max) spec
          (riskBudget config equity) (riskPerLot distance spec rate) false := by
  have hdistance : ¬ distance ≤ 0 := not_le.mpr hd
  have hdiv : py_div (riskBudget config equity) (riskPerLot distance spec rate) = _ := py_div_eq (riskPerLot_pos spec hd hr)
  unfold size_entry
  simp only [py_max_eq, py_min_eq]
  rw [if_neg hdistance]
  split
  · rfl
  · show (py_div (riskBudget config equity) (riskPerLot distance spec rate) >>= _) = _
    rw [hdiv]
    rfl

/-- What was finalised into lots: the quantity rounded down, when it is not below the minimum. -/
theorem _finalise_lots {x : ℚ} (h : _finalise lots spec budget risk confirm = .ok o) (hx : o.lots = some x) :
    x = floorTo spec.volume_step lots ∧ ¬floorTo spec.volume_step lots < spec.volume_min ∧
      o = ⟨some x, some (x * spec.contract_size), budget, some (x * risk), confirm, none⟩ := by
  rw [_finalise_eq, Except.ok.injEq] at h
  split at h
  · rw [← h] at hx
    cases hx
  · rename_i hmin
    rw [← h] at hx
    obtain rfl : floorTo spec.volume_step lots = x := Option.some.inj hx
    exact ⟨rfl, hmin, h.symm⟩

/-- A rejection means that the lots are below the least volume. -/
theorem _finalise_rejected (h : _finalise lots spec budget risk confirm = .ok o) (hr : o.rejection ≠ none) :
    floorTo spec.volume_step lots < spec.volume_min := by
  rw [_finalise_eq, Except.ok.injEq] at h
  split at h
  · assumption
  · rw [← h] at hr
    exact absurd rfl hr

/-- On the floor the base lots are finalised. -/
theorem size_entry_floor (hd : 0 < distance) (hr : 0 < rate) (hfloor : OnFloor config distance spec equity rate) :
    ∃ confirm, size_entry config distance spec equity rate =
      _finalise (floorLots config spec) spec (riskBudget config equity) (riskPerLot distance spec rate) confirm := by
  rw [size_entry_eq config spec equity hd hr]
  split
  · exact ⟨false, rfl⟩
  · rename_i hmode
    rw [if_pos (hfloor.resolve_left hmode)]
    exact ⟨true, rfl⟩

/-- The quantity the budget allows, under both caps. -/
def affordable (config : UtBotConfig ℚ) (distance : ℚ) (spec : SymbolSpec ℚ) (equity rate : ℚ) : ℚ :=
  min (min (riskBudget config equity / riskPerLot distance spec rate) config.max_lots) spec.volume_max

/-- Elsewhere the affordable lots are. -/
theorem size_entry_sized (hd : 0 < distance) (hr : 0 < rate) (hsized : ¬OnFloor config distance spec equity rate) :
    size_entry config distance spec equity rate =
      _finalise (affordable config distance spec equity rate) spec (riskBudget config equity) (riskPerLot distance spec rate)
        false := by
  obtain ⟨hmode, hraw⟩ := not_or.mp hsized
  rw [size_entry_eq config spec equity hd hr, if_neg hmode, if_neg hraw]
  rfl

/-- Both caps hold of the floor's lots, rounded down, just when the minimum volume is under the cap of the settings and the rounded
lots are under the cap of the broker. -/
theorem floor_caps_iff (hmin : ¬floorTo spec.volume_step (floorLots config spec) < spec.volume_min) :
    floorTo spec.volume_step (floorLots config spec) ≤ config.max_lots ↔ spec.volume_min ≤ (config.max_lots : ℚ) := by
  constructor
  · exact fun h => (not_lt.mp hmin).trans h
  · intro h
    calc floorTo spec.volume_step (floorLots config spec)
        ≤ floorLots config spec := Grid.floorTo_le (volume_step_pos spec)
      _ ≤ config.max_lots := max_le (base_lots_le_max_lots config) h

end SizingAux

/-- The lots of an entry are on the grid of the broker and within every bound, and so are the two tranches together. -/
structure WithinCaps (config : UtBotConfig ℚ) (spec : SymbolSpec ℚ) (lots : ℚ) : Prop where
  multiple : ∃ n : ℕ, 0 < n ∧ lots = n * spec.volume_step
  volume_min : spec.volume_min ≤ lots
  caps : lots ≤ min (config.max_lots : ℚ) spec.volume_max
  total : lots + lots ≤ config.max_total_lots

/-- Whatever is returned for an entry is within every bound. -/
def Capped (config : UtBotConfig ℚ) (stop_distance : ℚ) (spec : SymbolSpec ℚ) (equity rate : ℚ) : Prop :=
  ∀ o lots, size_entry config stop_distance spec equity rate = .ok o → o.lots = some lots →
    o.quantity = some (lots * spec.contract_size) ∧ WithinCaps config spec lots

namespace SizingAux

/-- Lots that are rounded down are on the grid; the rest is a matter of the two caps. -/
theorem withinCaps_iff {config : UtBotConfig ℚ} {spec : SymbolSpec ℚ} {lots : ℚ}
    (hmin : ¬floorTo spec.volume_step lots < spec.volume_min) :
    WithinCaps config spec (floorTo spec.volume_step lots) ↔
      floorTo spec.volume_step lots ≤ config.max_lots ∧ floorTo spec.volume_step lots ≤ spec.volume_max := by
  have hpos : 0 < floorTo spec.volume_step lots := lt_of_lt_of_le (volume_min_pos spec) (not_lt.mp hmin)
  constructor
  · exact fun h => le_min_iff.mp h.caps
  · intro h
    refine ⟨Grid.pos_multiple (volume_step_pos spec) (Grid.floorTo_mem _ _) hpos, not_lt.mp hmin, le_min h.1 h.2, ?_⟩
    have hmax := h.1
    rw [UtBotConfig.max_total_lots]
    linarith

end SizingAux

open SizingAux

/-- What is returned respects every cap if and only if it does not come from the floor, or the floor rounds down to less than the
minimum volume (and is refused), or it rounds down to no more than the broker's maximum and the minimum volume is not above
`max_lots`. -/
theorem within_caps_iff (config : UtBotConfig ℚ) (spec : SymbolSpec ℚ) (equity : ℚ) {stop_distance rate : ℚ}
    (hd : 0 < stop_distance) (hr : 0 < rate) :
    Capped config stop_distance spec equity rate ↔
      (OnFloor config stop_distance spec equity rate →
        floorTo spec.volume_step (floorLots config spec) < spec.volume_min ∨
          spec.volume_min ≤ (config.max_lots : ℚ) ∧ floorTo spec.volume_step (floorLots config spec) ≤ spec.volume_max) := by
  constructor
  · intro h hfloor
    by_cases hmin : floorTo spec.volume_step (floorLots config spec) < spec.volume_min
    · exact .inl hmin
    · obtain ⟨confirm, hsize⟩ := size_entry_floor hd hr hfloor
      rw [Capped, hsize, _finalise_eq, if_neg hmin] at h
      have hcaps := (withinCaps_iff hmin).mp (h _ _ rfl rfl).2
      exact .inr ⟨(floor_caps_iff hmin).mp hcaps.1, hcaps.2⟩
  · intro h o lots ho hlots
    by_cases hfloor : OnFloor config stop_distance spec equity rate
    · obtain ⟨confirm, hsize⟩ := size_entry_floor hd hr hfloor
      rw [hsize] at ho
      obtain ⟨rfl, hmin, rfl⟩ := _finalise_lots ho hlots
      obtain ⟨hmax, hvolume⟩ := (h hfloor).resolve_left hmin
      exact ⟨rfl, (withinCaps_iff hmin).mpr ⟨(floor_caps_iff hmin).mpr hmax, hvolume⟩⟩
    · rw [size_entry_sized hd hr hfloor] at ho
      obtain ⟨rfl, hmin, rfl⟩ := _finalise_lots ho hlots
      have hle : floorTo spec.volume_step (affordable config stop_distance spec equity rate) ≤ _ :=
        Grid.floorTo_le (volume_step_pos spec)
      have hcaps := le_min_iff.mp hle
      exact ⟨rfl, (withinCaps_iff hmin).mpr ⟨(le_min_iff.mp hcaps.1).2, hcaps.2⟩⟩

/-- Gold, in lots of 100 ounces, traded in hundredths of a lot. -/
def goldSpec : SymbolSpec ℚ where
  symbol := "XAUUSD"
  contract_size := 100
  volume_min := 1 / 100
  volume_step := 1 / 100
  volume_max := 50
  accepted := by decide +kernel

/-- Gold, traded in tenths of a lot. -/
def coarseSpec : SymbolSpec ℚ where
  toSymbolSpecFields := { goldSpec.toSymbolSpecFields with volume_min := 1 / 10, volume_step := 1 / 10 }
  accepted := by decide +kernel

/-- With hundredths of a lot and the settings as they are, the caps hold. -/
theorem within_caps_default : Capped .default 10 goldSpec 10000 1 :=
  (within_caps_iff .default goldSpec 10000 (by norm_num) (by norm_num)).mpr fun _ =>
    .inr ⟨by decide +kernel, by decide +kernel⟩

/-- With tenths of a lot the floor is above the cap of the settings, and is returned. -/
theorem floor_exceeds_cap : ¬Capped .default 10 coarseSpec 100 1 := by
  intro h
  have hcaps := (h ⟨some (1 / 10), some 10, 10, some 100, true, none⟩ (1 / 10) (by decide +kernel) rfl).2.caps
  exact absurd hcaps (by decide +kernel)

/-- An entry that needs no confirmation loses at most the budget at its stop, and its lots are the most that the budget and both caps
allow; where it is refused although the budget allows the least lots, the most that is allowed is below the minimum volume. -/
theorem risk_sizing (config : UtBotConfig ℚ) (spec : SymbolSpec ℚ) (equity : ℚ) {stop_distance rate : ℚ}
    (hmode : config.sizing_mode = .RISK_PERCENT) (hd : 0 < stop_distance) (hr : 0 < rate) {o : SizingOutcome ℚ}
    (ho : size_entry config stop_distance spec equity rate = .ok o) :
    (∀ lots, o.lots = some lots → o.requires_confirmation = false →
      o.budget = |equity * config.risk_pct| ∧ o.risk_amount = some (lots * (stop_distance * spec.contract_size * rate)) ∧
        lots * (stop_distance * spec.contract_size * rate) ≤ o.budget ∧
        IsGreatest {y | y ∈ multiplesOf spec.volume_step ∧
          y ≤ min (min (o.budget / (stop_distance * spec.contract_size * rate)) config.max_lots) spec.volume_max} lots) ∧
      (o.rejection = some .BELOW_BROKER_MINIMUM →
        max config.base_lots spec.volume_min ≤ |equity * config.risk_pct| / (stop_distance * spec.contract_size * rate) →
        ∀ lots, IsGreatest {y | y ∈ multiplesOf spec.volume_step ∧
          y ≤ min (min (|equity * config.risk_pct| / (stop_distance * spec.contract_size * rate)) config.max_lots)
            spec.volume_max} lots → lots < spec.volume_min) := by
  have hrisk := riskPerLot_pos spec hd hr
  have hstep := volume_step_pos spec
  refine ⟨?_, ?_⟩
  · intro lots hlots hconfirm
    by_cases hfloor : OnFloor config stop_distance spec equity rate
    · have hraw := hfloor.resolve_left (by rw [hmode]; exact nofun)
      rw [size_entry_eq config spec equity hd hr, if_neg (by rw [hmode]; exact nofun), if_pos hraw] at ho
      obtain ⟨_, _, rfl⟩ := _finalise_lots ho hlots
      cases hconfirm
    · rw [size_entry_sized hd hr hfloor] at ho
      obtain ⟨rfl, _, rfl⟩ := _finalise_lots ho hlots
      have hgreatest : IsGreatest {y | y ∈ multiplesOf spec.volume_step ∧ y ≤ affordable config stop_distance spec equity rate} _ :=
        Grid.isGreatest_floorTo hstep
      refine ⟨rfl, rfl, ?_, hgreatest⟩
      have hle := (le_min_iff.mp (le_min_iff.mp hgreatest.1.2).1).1
      exact (le_div_iff₀ hrisk).mp hle
  · intro hrejected hraw lots hgreatest
    have hsized : ¬OnFloor config stop_distance spec equity rate :=
      not_or.mpr ⟨by rw [hmode]; exact nofun, not_lt.mpr hraw⟩
    rw [size_entry_sized hd hr hsized] at ho
    have hbelow := _finalise_rejected ho (by rw [hrejected]; exact nofun)
    rw [hgreatest.unique (Grid.isGreatest_floorTo hstep)]
    exact hbelow

/-- An account of 10000 that risks a tenth of it over a distance of 10 buys two hundredths of a lot, as many as the cap allows. -/
theorem risk_sizing_default :
    IsGreatest {y | y ∈ multiplesOf (1 / 100 : ℚ) ∧ y ≤ min (min (1000 / (10 * 100 * 1)) (2 / 100)) 50} (2 / 100 : ℚ) := by
  have h := (risk_sizing .default goldSpec 10000 rfl (show (0 : ℚ) < 10 by norm_num) (show (0 : ℚ) < 1 by norm_num)
    (o := ⟨some (2 / 100), some 2, 1000, some 20, false, none⟩) (by decide +kernel)).1 (2 / 100) rfl rfl
  exact h.2.2.2

end MtossBot
