import MtossBot.Theorems.SizingCaps

/-!
# When a person is asked

An entry in `RISK_PERCENT` that needs a confirmation, against its budget; and two entries that need none, compared.
-/

namespace MtossBot

/-- A person is asked only about lots that lose more than the budget. -/
def SizingOutcome.AsksWhenNeeded (o : SizingOutcome ℚ) : Prop :=
  ∀ lots, o.lots = some lots → o.requires_confirmation = true →
    ∃ risk_amount, o.risk_amount = some risk_amount ∧ o.budget < risk_amount ∧ 0 < o.over_budget_by

/-- The budget pays for the least lots rounded down to the grid, but not for the least lots. -/
def BudgetInGap (config : UtBotConfig ℚ) (stop_distance : ℚ) (spec : SymbolSpec ℚ) (equity rate : ℚ) : Prop :=
  floorTo spec.volume_step (floorLots config spec) * riskPerLot stop_distance spec rate ≤ riskBudget config equity ∧
    riskBudget config equity < floorLots config spec * riskPerLot stop_distance spec rate

open SizingAux

/-- A person is asked only when it is needed if and only if the least lots round down to less than the minimum volume (and are
refused), or the budget is not in the gap between the least lots rounded down and the least lots. -/
theorem asks_when_needed_iff (config : UtBotConfig ℚ) (spec : SymbolSpec ℚ) (equity : ℚ) {stop_distance rate : ℚ}
    (hmode : config.sizing_mode = .RISK_PERCENT) (hd : 0 < stop_distance) (hr : 0 < rate) :
    (∀ o, size_entry config stop_distance spec equity rate = .ok o → o.AsksWhenNeeded) ↔
      (spec.volume_min ≤ floorTo spec.volume_step (floorLots config spec) →
        ¬BudgetInGap config stop_distance spec equity rate) := by
  have hrisk := riskPerLot_pos spec hd hr
  rw [size_entry_eq config spec equity hd hr, if_neg (by rw [hmode]; exact nofun)]
  constructor
  · intro h hmin hgap
    rw [if_pos ((div_lt_iff₀ hrisk).mpr hgap.2), _finalise_eq, if_neg (not_lt.mpr hmin)] at h
    obtain ⟨risk_amount, hamount, hover, _⟩ := h _ rfl _ rfl rfl
    cases hamount
    exact absurd hgap.1 (not_le.mpr hover)
  · intro h o ho lots hlots hconfirm
    split at ho
    · rename_i hraw
      obtain ⟨rfl, hmin, rfl⟩ := _finalise_lots ho hlots
      have hover : riskBudget config equity < floorTo spec.volume_step (floorLots config spec) *
          riskPerLot stop_distance spec rate := by
        by_contra hle
        exact h (not_lt.mp hmin) ⟨not_lt.mp hle, (div_lt_iff₀ hrisk).mp hraw⟩
      refine ⟨_, rfl, hover, ?_⟩
      simp only [SizingOutcome.over_budget_by, py_max_eq]
      exact lt_max_of_lt_left (sub_pos.mpr hover)
    · obtain ⟨_, _, rfl⟩ := _finalise_lots ho hlots
      cases hconfirm

/-- With least lots on the grid, a person is asked only when it is needed. -/
theorem asks_when_needed_default : ∃ o, size_entry .default 20 goldSpec 100 1 = .ok o ∧ o.requires_confirmation = true ∧
    o.AsksWhenNeeded := by
  obtain ⟨o, ho, hasks⟩ := exists_ok_of_check (r := size_entry .default 20 goldSpec 100 1)
    (p := fun o => o.requires_confirmation) (by decide +kernel)
  refine ⟨o, ho, hasks, ?_⟩
  have hneeded := (asks_when_needed_iff .default goldSpec 100 rfl (by norm_num : (0 : ℚ) < 20) (by norm_num : (0 : ℚ) < 1)).mpr
    fun _ hgap => absurd hgap (by unfold BudgetInGap; decide +kernel)
  exact hneeded o ho

/-- Settings whose least lots are between two steps of the grid. -/
def offGridConfig : UtBotConfig ℚ where
  toUtBotConfigFields := { UtBotConfig.default.toUtBotConfigFields with base_lots := 15 / 1000 }
  accepted := by decide +kernel

/-- A person is asked about a hundredth of a lot, which loses 10 of a budget of 12. -/
theorem asks_without_need : ¬∀ o, size_entry offGridConfig 10 goldSpec 120 1 = .ok o → o.AsksWhenNeeded := by
  intro h
  have hsize : size_entry offGridConfig 10 goldSpec 120 1 = .ok ⟨some (1 / 100), some 1, 12, some 10, true, none⟩ := by
    decide +kernel
  obtain ⟨risk_amount, hamount, hover, _⟩ := h _ hsize _ rfl rfl
  cases hamount
  exact absurd hover (by decide)

/-- An entry is accepted without asking, with so many lots. -/
def AcceptedFor (config : UtBotConfig ℚ) (stop_distance : ℚ) (spec : SymbolSpec ℚ) (equity rate lots : ℚ) : Prop :=
  ∃ o, size_entry config stop_distance spec equity rate = .ok o ∧ o.requires_confirmation = false ∧ o.lots = some lots

/-- What is accepted for one equity is accepted for the other at any tighter stop, with at least as many lots. -/
def SizedInOrder (config : UtBotConfig ℚ) (spec : SymbolSpec ℚ) (rate e₁ e₂ : ℚ) : Prop :=
  ∀ r₁ r₂ lots₁, r₂ ≤ r₁ → 0 < r₂ → AcceptedFor config r₁ spec e₁ rate lots₁ →
    ∃ lots₂, lots₁ ≤ lots₂ ∧ AcceptedFor config r₂ spec e₂ rate lots₂

namespace SizingAux

variable {config : UtBotConfig ℚ} {spec : SymbolSpec ℚ} {distance equity rate lots : ℚ}

/-- What is accepted without asking: the lots that are affordable, if the budget buys the least lots. -/
theorem acceptedFor_iff (hmode : config.sizing_mode = .RISK_PERCENT) (hd : 0 < distance) (hr : 0 < rate) :
    AcceptedFor config distance spec equity rate lots ↔
      floorLots config spec ≤ riskBudget config equity / riskPerLot distance spec rate ∧
        lots = floorTo spec.volume_step (affordable config distance spec equity rate) ∧ spec.volume_min ≤ lots := by
  have hne : config.sizing_mode ≠ .FIXED := by rw [hmode]; exact nofun
  constructor
  · rintro ⟨o, ho, hconfirm, hlots⟩
    by_cases hraw : riskBudget config equity / riskPerLot distance spec rate < floorLots config spec
    · rw [size_entry_eq config spec equity hd hr, if_neg hne, if_pos hraw] at ho
      obtain ⟨_, _, rfl⟩ := _finalise_lots ho hlots
      cases hconfirm
    · rw [size_entry_sized hd hr (not_or.mpr ⟨hne, hraw⟩)] at ho
      obtain ⟨rfl, hmin, rfl⟩ := _finalise_lots ho hlots
      exact ⟨not_lt.mp hraw, rfl, not_lt.mp hmin⟩
  · rintro ⟨hraw, rfl, hmin⟩
    have hsize := size_entry_sized hd hr (not_or.mpr ⟨hne, not_lt.mpr hraw⟩)
    rw [_finalise_eq, if_neg (not_lt.mpr hmin)] at hsize
    exact ⟨_, hsize, rfl, rfl⟩

theorem affordable_eq (config : UtBotConfig ℚ) (distance : ℚ) (spec : SymbolSpec ℚ) (equity rate : ℚ) :
    affordable config distance spec equity rate =
      min (riskBudget config equity / riskPerLot distance spec rate) (min (config.max_lots : ℚ) spec.volume_max) :=
  min_assoc _ _ _

theorem riskBudget_eq (config : UtBotConfig ℚ) (equity : ℚ) : riskBudget config equity = |equity| * config.risk_pct := by
  have hpct : (0 : ℚ) < config.risk_pct := not_le.mp config.risk_pct_pos
  rw [riskBudget, abs_mul, abs_of_pos hpct]

/-- At some distance the budget buys so many lots. -/
theorem exists_distance (config : UtBotConfig ℚ) (spec : SymbolSpec ℚ) (he : equity ≠ 0) (hr : 0 < rate) (hl : 0 < lots) :
    ∃ distance, 0 < distance ∧ riskBudget config equity / riskPerLot distance spec rate = lots := by
  have hsize : (0 : ℚ) < spec.contract_size := not_le.mp spec.positive.1
  have hpct : (0 : ℚ) < config.risk_pct := not_le.mp config.risk_pct_pos
  have hbudget : 0 < riskBudget config equity := by
    rw [riskBudget_eq]
    exact mul_pos (abs_pos.mpr he) hpct
  refine ⟨riskBudget config equity / (spec.contract_size * rate * lots), by positivity, ?_⟩
  rw [riskPerLot]
  field_simp

/-- What is affordable is at most what the budget buys and what the caps leave. -/
theorem floor_affordable_le (config : UtBotConfig ℚ) (distance : ℚ) (spec : SymbolSpec ℚ) (equity rate : ℚ) :
    floorTo spec.volume_step (affordable config distance spec equity rate) ≤
        riskBudget config equity / riskPerLot distance spec rate ∧
      floorTo spec.volume_step (affordable config distance spec equity rate) ≤
        floorTo spec.volume_step (min (config.max_lots : ℚ) spec.volume_max) := by
  have hstep := volume_step_pos spec
  rw [affordable_eq]
  exact ⟨(Grid.floorTo_le hstep).trans (min_le_left _ _), Grid.floorTo_mono hstep (min_le_right _ _)⟩

/-- At a distance at which the budget buys what the caps leave, that is affordable. -/
theorem caps_le_affordable (h : floorTo spec.volume_step (min (config.max_lots : ℚ) spec.volume_max) ≤
      riskBudget config equity / riskPerLot distance spec rate) :
    floorTo spec.volume_step (min (config.max_lots : ℚ) spec.volume_max) ≤
      floorTo spec.volume_step (affordable config distance spec equity rate) := by
  have hstep := volume_step_pos spec
  refine Grid.le_floorTo hstep (Grid.floorTo_mem _ _) ?_
  rw [affordable_eq]
  exact le_min h (Grid.floorTo_le hstep)

/-- A larger equity buys more, and so does a tighter stop. -/
theorem bought_mono {e₁ e₂ r₁ r₂ : ℚ} (he : |e₁| ≤ |e₂|) (hr : 0 < rate) (hd : 0 < r₂) (hle : r₂ ≤ r₁) :
    riskBudget config e₁ / riskPerLot r₁ spec rate ≤ riskBudget config e₂ / riskPerLot r₂ spec rate := by
  have hpct : (0 : ℚ) < config.risk_pct := not_le.mp config.risk_pct_pos
  have hsize : (0 : ℚ) < spec.contract_size := not_le.mp spec.positive.1
  have hrisk : riskPerLot r₂ spec rate ≤ riskPerLot r₁ spec rate := by
    unfold riskPerLot
    gcongr
  have hbudget : riskBudget config e₁ ≤ riskBudget config e₂ := by
    rw [riskBudget_eq, riskBudget_eq]
    gcongr
  exact div_le_div₀ (abs_nonneg _) hbudget (riskPerLot_pos spec hd hr) hrisk

theorem bought_lt {e₁ e₂ : ℚ} (he : |e₂| < |e₁|) (hr : 0 < rate) (hd : 0 < distance) :
    riskBudget config e₂ / riskPerLot distance spec rate < riskBudget config e₁ / riskPerLot distance spec rate := by
  have hpct : (0 : ℚ) < config.risk_pct := not_le.mp config.risk_pct_pos
  refine div_lt_div_of_pos_right ?_ (riskPerLot_pos spec hd hr)
  rw [riskBudget_eq, riskBudget_eq]
  exact mul_lt_mul_of_pos_right he hpct

end SizingAux

/-- Sizes are in order for two equities if and only if the first is not larger in amount, or the caps leave less than the minimum
volume (and nothing is ever accepted without asking). -/
theorem sized_in_order_iff (config : UtBotConfig ℚ) (spec : SymbolSpec ℚ) {rate : ℚ} (e₁ e₂ : ℚ)
    (hmode : config.sizing_mode = .RISK_PERCENT) (hr : 0 < rate) :
    SizedInOrder config spec rate e₁ e₂ ↔
      |e₁| ≤ |e₂| ∨ floorTo spec.volume_step (min (config.max_lots : ℚ) spec.volume_max) < spec.volume_min := by
  constructor
  · intro h
    by_contra hnot
    obtain ⟨hequity, hcaps⟩ := not_or.mp hnot
    have hequity := not_le.mp hequity
    have hcaps := not_lt.mp hcaps
    -- at this distance the first equity buys what the caps allow, or the least lots if these are more
    have hfloor : 0 < floorLots config spec := lt_max_of_lt_right (volume_min_pos spec)
    have hleast : 0 < max (floorLots config spec) (floorTo spec.volume_step (min (config.max_lots : ℚ) spec.volume_max)) :=
      lt_max_of_lt_left hfloor
    obtain ⟨r, hpos, hraw₁⟩ := exists_distance config spec (abs_pos.mp ((abs_nonneg e₂).trans_lt hequity)) hr hleast
    have hlots : floorTo spec.volume_step (min (config.max_lots : ℚ) spec.volume_max) ≤
        floorTo spec.volume_step (affordable config r spec e₁ rate) := caps_le_affordable (hraw₁ ▸ le_max_right _ _)
    have hfor : AcceptedFor config r spec e₁ rate (floorTo spec.volume_step (affordable config r spec e₁ rate)) :=
      (acceptedFor_iff hmode hpos hr).mpr ⟨hraw₁ ▸ le_max_left _ _, rfl, hcaps.trans hlots⟩
    obtain ⟨lots₂, hle, hfor₂⟩ := h r r _ le_rfl hpos hfor
    obtain ⟨hraw₂, rfl, _⟩ := (acceptedFor_iff hmode hpos hr).mp hfor₂
    have hless : riskBudget config e₂ / riskPerLot r spec rate < riskBudget config e₁ / riskPerLot r spec rate :=
      bought_lt hequity hr hpos
    rw [hraw₁] at hless
    have hless := (lt_max_iff.mp hless).resolve_left (not_lt.mpr hraw₂)
    exact absurd (hlots.trans (hle.trans (floor_affordable_le config r spec e₂ rate).1)) (not_le.mpr hless)
  · rintro h r₁ r₂ lots₁ hle hpos hfor
    have hpos₁ := hpos.trans_le hle
    obtain ⟨hraw, rfl, hmin⟩ := (acceptedFor_iff hmode hpos₁ hr).mp hfor
    rcases h with hequity | hcaps
    · have hbuys : riskBudget config e₁ / riskPerLot r₁ spec rate ≤ riskBudget config e₂ / riskPerLot r₂ spec rate :=
        bought_mono hequity hr hpos hle
      have hlots : floorTo spec.volume_step (affordable config r₁ spec e₁ rate) ≤
          floorTo spec.volume_step (affordable config r₂ spec e₂ rate) := by
        refine Grid.floorTo_mono (volume_step_pos spec) ?_
        unfold affordable
        gcongr
      exact ⟨_, hlots, (acceptedFor_iff hmode hpos hr).mpr ⟨hraw.trans hbuys, rfl, hmin.trans hlots⟩⟩
    · exact absurd (hmin.trans (floor_affordable_le config r₁ spec e₁ rate).2) (not_le.mpr hcaps)

/-- Of two positive equities the larger is sized no smaller. -/
theorem sized_in_order_default : SizedInOrder .default goldSpec 1 100 10000 :=
  (sized_in_order_iff .default goldSpec 100 10000 rfl (by norm_num)).mpr (.inl (by norm_num))

/-- A debt of 10000 is sized like an account of 10000, and larger than an account of 100. -/
theorem sized_out_of_order : (-10000 : ℚ) ≤ 100 ∧ ¬SizedInOrder .default goldSpec 1 (-10000) 100 := by
  refine ⟨by norm_num, ?_⟩
  intro h
  have hdebt : size_entry .default 10 goldSpec (-10000) 1 = .ok ⟨some (2 / 100), some 2, 1000, some 20, false, none⟩ := by
    decide +kernel
  have hsmall : size_entry .default 10 goldSpec 100 1 = .ok ⟨some (1 / 100), some 1, 10, some 10, false, none⟩ := by
    decide +kernel
  obtain ⟨lots₂, hle, o, ho, _, hlots⟩ := h 10 10 (2 / 100) le_rfl (by norm_num) ⟨_, hdebt, rfl, rfl⟩
  rw [hsmall] at ho
  cases ho
  cases hlots
  exact absurd hle (by norm_num)

end MtossBot
