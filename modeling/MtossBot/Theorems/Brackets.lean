import MtossBot.Domain.OrderDecimal
import MtossBot.Lemmas.TradeRuns

/-!
# Brackets

When the order model accepts the brackets of an entry. The stop and the entry price have ten decimals at most; the target is a
product, whose decimals are those of the stop and of `rr_mult` together.
-/

namespace MtossBot

/-- A positive price that the order models accept. -/
def Decimal.Price (d : Decimal) : Prop := validate_order_decimal_input d "price" = .ok d ∧ 0 < d.toRat

/-- The bracket validators of `ExecutionIntent` accept the levels of an action. -/
def BracketsAccepted (a : TradeAction Decimal) : Prop :=
  optionalField ExecutionIntentFields.check_bracket a.stop_loss = .ok a.stop_loss ∧
    optionalField ExecutionIntentFields.check_bracket a.take_profit = .ok a.take_profit

/-- The levels of an action are on the correct side of an entry, for every order with these levels. -/
def OnCorrectSide (side : OrderSide) (entry_price : Decimal) (a : TradeAction Decimal) : Prop :=
  ∀ f : ExecutionIntentFields, f.side = side → f.pricing_reference = some entry_price → f.stop_loss = a.stop_loss →
    f.take_profit = a.take_profit → f.require_brackets_on_the_correct_side = .ok ()

/-- The target of an entry can be an order's. With an `rr_mult` that has no decimals it only has to lie between zero and `10 ^ 18`.
With one that has decimals, so has the target, more than ten of them, unless the amounts are so large that the 28 digits of a
result leave no more. -/
def TargetFits (side : OrderSide) (entry_price stop_loss rr_mult : Decimal) : Prop :=
  if 0 ≤ rr_mult.exponent then
    match side with
    | .BUY => entry_price.toRat + rr_mult.toRat * (entry_price.toRat - stop_loss.toRat) < 10 ^ 18
    | .SELL => rr_mult.toRat * (stop_loss.toRat - entry_price.toRat) < entry_price.toRat
  else
    match side with
    | .BUY =>
      let move := rr_mult * (entry_price - stop_loss)
      (10 ^ 17 ≤ move.toRat ∨ 10 ^ 17 ≤ (entry_price + move).toRat) ∧
        entry_price < entry_price + move ∧ (entry_price + move).toRat < 10 ^ 18
    | .SELL =>
      let move := rr_mult * (stop_loss - entry_price)
      (10 ^ 17 ≤ move.toRat ∨ 10 ^ 17 ≤ (entry_price - move).toRat) ∧ 0 < entry_price - move ∧ entry_price - move < entry_price

section Runs

variable (F : Type) [PyFloat F] [FloatText F]

/-- The input of a call is one of the program's: signals are computed from bars, and entries are filled at prices. -/
def BracketInput : TradeCall Decimal → Prop
  | .bar_close _ signal _ => ∃ bars config signals, compute_signals F bars config = .ok signals ∧ signal ∈ signals
  | .entry_filled entry_price _ _ _ _ => entry_price.Price
  | .tranche_closed _ _ => True

end Runs

/-- An entry that is given up: the price moved away, or it is on the wrong side of its stop. -/
def GivenUp (side : OrderSide) (entry_price stop_loss : Decimal) (reference_close : Option Decimal)
    (config : UtBotConfig Decimal) : Prop :=
  _entry_gap_reason entry_price reference_close config ≠ none ∨
    match side with
    | .BUY => entry_price ≤ stop_loss
    | .SELL => stop_loss ≤ entry_price

namespace BracketsAux

/-! ## The target -/

variable {entry stop rr move d : Decimal}

/-- The validator of a bracket accepts the positive decimals that fit. -/
theorem check_bracket_iff : ExecutionIntentFields.check_bracket d = .ok d ↔ d.Fits ∧ 0 < d.toRat := by
  rw [← Decimal.validate_ok_iff d "bracket price"]
  unfold ExecutionIntentFields.check_bracket
  constructor
  · intro h
    cases hv : validate_order_decimal_input d "bracket price" with
    | error e =>
      rw [hv] at h
      cases h
    | ok d' =>
      obtain rfl := validate_order_decimal_input_eq hv
      rw [hv] at h
      refine ⟨rfl, not_le.mp ?_⟩
      intro hle
      simp [bind, Except.bind, require_positive, hle] at h
  · rintro ⟨hv, hpos⟩
    rw [hv]
    simp [bind, Except.bind, require_positive, not_le.mpr hpos]

/-- A price is a positive decimal that fits. -/
theorem price_iff : d.Price ↔ d.Fits ∧ 0 < d.toRat := by rw [Decimal.Price, Decimal.validate_ok_iff]

/-- The exact difference of two prices fits, so it is not rounded. -/
theorem toRat_sub (ha : entry.Price) (hb : stop.Price) :
    (entry - stop).toRat = entry.toRat - stop.toRat ∧ (entry - stop).exponent = min entry.exponent stop.exponent := by
  obtain ⟨haf, hap⟩ := price_iff.mp ha
  obtain ⟨hbf, hbp⟩ := price_iff.mp hb
  obtain ⟨hvalue, _, hexponent⟩ := Decimal.sub_of_fits haf hbf hap.le hbp.le
  exact ⟨hvalue, hexponent⟩

/-- When a sum with a rounded product fits: the product has ten decimals, or one of them is so large that it keeps no more. -/
theorem sum_fits_iff {risk addend : Decimal} (hentry : -10 ≤ entry.exponent) (hrisk : risk.exponent = -10)
    (hmove : addend.exponent = (rr * risk).exponent) :
    (Decimal.fix (Decimal.exactAdd entry addend)).Fits ↔
      (0 ≤ rr.exponent ∨ 10 ^ 17 ≤ |(rr * risk).toRat| ∨ 10 ^ 17 ≤ |(Decimal.fix (Decimal.exactAdd entry addend)).toRat|) ∧
        |(Decimal.fix (Decimal.exactAdd entry addend)).toRat| < 10 ^ 18 := by
  have hproduct : -10 ≤ (rr * risk).exponent ↔ 0 ≤ rr.exponent ∨ 10 ^ 17 ≤ |(rr * risk).toRat| := by
    refine (Decimal.exponent_fix_iff (Decimal.exactMul rr risk)).trans (or_congr_left ?_)
    show -10 ≤ rr.exponent + risk.exponent ↔ _
    omega
  have hsum : -10 ≤ (Decimal.exactAdd entry addend).exponent ↔ -10 ≤ (rr * risk).exponent := by
    show -10 ≤ min entry.exponent addend.exponent ↔ _
    rw [hmove]
    omega
  rw [Decimal.Fits, Decimal.exponent_fix_iff, hsum, hproduct, or_assoc]

/-- A positive target, with an `rr_mult` that has decimals. -/
theorem wide_target_iff {risk addend : Decimal} (hentry : -10 ≤ entry.exponent) (hrisk : risk.exponent = -10)
    (hmove : addend.exponent = (rr * risk).exponent) (hdecimals : ¬ 0 ≤ rr.exponent) (hnonneg : 0 ≤ (rr * risk).toRat)
    (hpos : 0 < (Decimal.fix (Decimal.exactAdd entry addend)).toRat) :
    (Decimal.fix (Decimal.exactAdd entry addend)).Fits ↔
      (10 ^ 17 ≤ (rr * risk).toRat ∨ 10 ^ 17 ≤ (Decimal.fix (Decimal.exactAdd entry addend)).toRat) ∧
        (Decimal.fix (Decimal.exactAdd entry addend)).toRat < 10 ^ 18 := by
  rw [sum_fits_iff hentry hrisk hmove, or_iff_right hdecimals, abs_of_nonneg hnonneg, abs_of_pos hpos]

section Target

variable (hentry : entry.Price) (hstop : stop.Price) (hexp : stop.exponent = -10) (hrr : 0 < rr.toRat)

include hrr in
/-- The move to the target, where `rr_mult` has no decimals: exact, or at least `10 ^ 18`. -/
theorem move_cases {risk : Decimal} (hrisk : risk.exponent = -10) (hpos : 0 < risk.toRat) (hdecimals : 0 ≤ rr.exponent) :
    rr.toRat * risk.toRat < 10 ^ 18 ∧ (rr * risk).toRat = rr.toRat * risk.toRat ∨
      10 ^ 18 ≤ rr.toRat * risk.toRat ∧ 10 ^ 18 ≤ (rr * risk).toRat := by
  have hvalue := Decimal.toRat_exactMul rr risk
  have hproduct : 0 < (Decimal.exactMul rr risk).toRat := by
    rw [hvalue]
    exact mul_pos hrr hpos
  rcases lt_or_ge (rr.toRat * risk.toRat) (10 ^ 18) with hlt | hge
  · left
    have hfits : (Decimal.exactMul rr risk).Fits := by
      refine ⟨?_, by rwa [abs_of_pos hproduct, hvalue]⟩
      show -10 ≤ rr.exponent + risk.exponent
      omega
    have hmove : rr * risk = Decimal.exactMul rr risk := Decimal.fix_of_fits hfits
    exact ⟨hlt, by rw [hmove, hvalue]⟩
  · right
    have hlarge : 10 ^ 18 ≤ |(rr * risk).toRat| := Decimal.fix_large (by rwa [abs_of_pos hproduct, hvalue])
    have hnonneg : 0 ≤ (rr * risk).toRat := Decimal.fix_nonneg hproduct
    exact ⟨hge, by rwa [abs_of_nonneg hnonneg] at hlarge⟩

include hrr in
/-- A target is no distance below the entry. -/
theorem move_nonneg {risk : Decimal} (hpos : 0 < risk.toRat) : 0 ≤ (rr * risk).toRat := by
  refine Decimal.fix_nonneg ?_
  rw [Decimal.toRat_exactMul]
  exact mul_pos hrr hpos

/-- The exponent of a sum with the move, where `rr_mult` has no decimals. -/
theorem sum_exponent {risk addend : Decimal} (he : -10 ≤ entry.exponent) (hrisk : risk.exponent = -10)
    (hdecimals : 0 ≤ rr.exponent) (hmove : addend.exponent = (rr * risk).exponent) :
    -10 ≤ (Decimal.exactAdd entry addend).exponent := by
  have hproduct : rr.exponent + risk.exponent ≤ (rr * risk).exponent := Decimal.exponent_le_fix (Decimal.exactMul rr risk)
  refine le_min he ?_
  rw [hmove]
  omega

include hentry hstop hexp hrr in
/-- The target of a long. -/
theorem buy_target_iff (hrisk : 0 < entry.toRat - stop.toRat) :
    ((entry + rr * (entry - stop)).Fits ∧ 0 < (entry + rr * (entry - stop)).toRat ∧
      entry.toRat < (entry + rr * (entry - stop)).toRat) ↔ TargetFits .BUY entry stop rr := by
  obtain ⟨⟨hae, hav⟩, hap⟩ := price_iff.mp hentry
  obtain ⟨hsub, hsube⟩ := toRat_sub hentry hstop
  have hre : (entry - stop).exponent = -10 := by omega
  have hpos : 0 < (entry - stop).toRat := hsub ▸ hrisk
  have hvalue := Decimal.toRat_exactAdd entry (rr * (entry - stop))
  unfold TargetFits
  split
  · rename_i hdecimals
    have hexponent := sum_exponent hae hre hdecimals (rfl : (rr * (entry - stop)).exponent = _)
    have hfits := Decimal.fix_fits_iff hexponent
    rw [← hsub]
    rcases move_cases hrr hre hpos hdecimals with ⟨_, hmove⟩ | ⟨hlarge, hmove⟩
    · have hmpos : 0 < (rr * (entry - stop)).toRat := hmove ▸ mul_pos hrr hpos
      constructor
      · rintro ⟨hf, _⟩
        have hlt := hfits.mp hf
        rwa [hvalue, hmove, abs_of_pos (add_pos hap (mul_pos hrr hpos))] at hlt
      · intro hlt
        have hsum : (Decimal.exactAdd entry (rr * (entry - stop))).Fits := by
          refine ⟨hexponent, ?_⟩
          rwa [hvalue, hmove, abs_of_pos (add_pos hap (mul_pos hrr hpos))]
        have htarget : entry + rr * (entry - stop) = Decimal.exactAdd entry (rr * (entry - stop)) :=
          Decimal.fix_of_fits hsum
        rw [htarget]
        exact ⟨hsum, by rw [hvalue]; linarith, by rw [hvalue]; linarith⟩
    · have hno : ¬ |(Decimal.exactAdd entry (rr * (entry - stop))).toRat| < 10 ^ 18 := by
        rw [hvalue, abs_of_pos (by linarith)]
        linarith
      constructor
      · rintro ⟨hf, _⟩
        exact absurd (hfits.mp hf) hno
      · intro hlt
        linarith
  · rename_i hdecimals
    have hfits := wide_target_iff hae hre (rfl : (rr * (entry - stop)).exponent = _) hdecimals (move_nonneg hrr hpos)
    constructor
    · rintro ⟨hf, htpos, hlt⟩
      obtain ⟨hlarge, hmax⟩ := (hfits htpos).mp hf
      exact ⟨hlarge, hlt, hmax⟩
    · rintro ⟨hlarge, hlt, hmax⟩
      have htpos : 0 < (entry + rr * (entry - stop)).toRat := hap.trans hlt
      exact ⟨(hfits htpos).mpr ⟨hlarge, hmax⟩, htpos, hlt⟩

include hentry hstop hexp hrr in
/-- The target of a short. -/
theorem sell_target_iff (hrisk : 0 < stop.toRat - entry.toRat) :
    ((entry - rr * (stop - entry)).Fits ∧ 0 < (entry - rr * (stop - entry)).toRat ∧
      (entry - rr * (stop - entry)).toRat < entry.toRat) ↔ TargetFits .SELL entry stop rr := by
  obtain ⟨⟨hae, hav⟩, hap⟩ := price_iff.mp hentry
  obtain ⟨hsub, hsube⟩ := toRat_sub hstop hentry
  have hre : (stop - entry).exponent = -10 := by omega
  have hpos : 0 < (stop - entry).toRat := hsub ▸ hrisk
  have hvalue : (Decimal.exactAdd entry (rr * (stop - entry)).copy_negate).toRat =
      entry.toRat - (rr * (stop - entry)).toRat := by
    rw [Decimal.toRat_exactAdd, Decimal.toRat_copy_negate, sub_eq_add_neg]
  rw [abs_of_pos hap] at hav
  unfold TargetFits
  split
  · rename_i hdecimals
    have hexponent := sum_exponent hae hre hdecimals (rfl : (rr * (stop - entry)).copy_negate.exponent = _)
    rw [← hsub]
    rcases move_cases hrr hre hpos hdecimals with ⟨_, hmove⟩ | ⟨hlarge, hmove⟩
    · have hmpos : 0 < (rr * (stop - entry)).toRat := hmove ▸ mul_pos hrr hpos
      have hsum : |entry.toRat - (rr * (stop - entry)).toRat| < 10 ^ 18 → entry - rr * (stop - entry) =
          Decimal.exactAdd entry (rr * (stop - entry)).copy_negate := fun hlt =>
        Decimal.fix_of_fits ⟨hexponent, by rwa [hvalue]⟩
      have hlt : |entry.toRat - (rr * (stop - entry)).toRat| < 10 ^ 18 := by
        rw [abs_lt]
        constructor <;> linarith
      rw [Decimal.Fits, hsum hlt, hvalue, ← hmove]
      constructor
      · rintro ⟨_, htpos, _⟩
        linarith
      · intro hmlt
        exact ⟨⟨hexponent, hlt⟩, by linarith, by linarith⟩
    · have hneg : (entry - rr * (stop - entry)).toRat ≤ 0 := by
        refine Decimal.fix_nonpos ?_
        rw [hvalue]
        linarith
      constructor
      · rintro ⟨_, htpos, _⟩
        exact absurd htpos (not_lt.mpr hneg)
      · intro hmlt
        linarith
  · rename_i hdecimals
    have hfits := wide_target_iff hae hre (rfl : (rr * (stop - entry)).copy_negate.exponent = _) hdecimals (move_nonneg hrr hpos)
    constructor
    · rintro ⟨hf, htpos, hlt⟩
      exact ⟨((hfits htpos).mp hf).1, htpos, hlt⟩
    · rintro ⟨hlarge, htpos, hlt⟩
      exact ⟨(hfits htpos).mpr ⟨hlarge, hlt.trans hav⟩, htpos, hlt⟩

end Target

/-! ## The levels of an action -/

/-- An optional bracket is accepted when it is missing or a price. -/
theorem optional_bracket_iff {value : Option Decimal} :
    optionalField ExecutionIntentFields.check_bracket value = .ok value ↔ ∀ v, value = some v → v.Price := by
  cases value with
  | none => simp [optionalField]
  | some v =>
    have hcheck : optionalField ExecutionIntentFields.check_bracket (some v) = .ok (some v) ↔
        ExecutionIntentFields.check_bracket v = .ok v := by
      cases hc : ExecutionIntentFields.check_bracket v with
      | error e => simp [optionalField, Except.map, hc]
      | ok v' => simp [optionalField, Except.map, hc]
    simp [hcheck, check_bracket_iff, price_iff]

/-- Any order at a price with given levels. -/
def sampleFields (side : OrderSide) (price : Decimal) (stop_loss take_profit : Option Decimal) : ExecutionIntentFields where
  intent_id := ⟨1⟩
  account_id := ⟨2⟩
  signal_id := ⟨3⟩
  target_version := 1
  market := "MT5"
  symbol := "XAUUSD"
  side := side
  quantity := .ofInt 1
  limit_price := some price
  stop_loss := stop_loss
  take_profit := take_profit
  currency := "USD"
  expires_at := .aware 0 0
  idempotency_key := ""

/-- Around a purchase the stop is below the entry and the target above it. -/
theorem on_correct_side_buy {a : TradeAction Decimal} : OnCorrectSide .BUY entry a ↔
    (∀ v, a.stop_loss = some v → v.toRat < entry.toRat) ∧ ∀ v, a.take_profit = some v → entry.toRat < v.toRat := by
  have hf : ∀ f : ExecutionIntentFields, f.side = .BUY → f.pricing_reference = some entry → f.stop_loss = a.stop_loss →
      f.take_profit = a.take_profit → (f.require_brackets_on_the_correct_side = .ok () ↔
        (∀ v, a.stop_loss = some v → v.toRat < entry.toRat) ∧ ∀ v, a.take_profit = some v → entry.toRat < v.toRat) := by
    intro f hside hprice hstop htarget
    rw [ExecutionIntentFields.require_brackets_on_the_correct_side, hprice]
    simp only [hside, hstop, htarget]
    split <;> [skip; split] <;> simp_all [Option.any_eq_true]
  exact ⟨fun h => (hf (sampleFields .BUY entry a.stop_loss a.take_profit) rfl rfl rfl rfl).mp (h _ rfl rfl rfl rfl),
    fun h f h₁ h₂ h₃ h₄ => (hf f h₁ h₂ h₃ h₄).mpr h⟩

/-- Around a sale it is the other way round. -/
theorem on_correct_side_sell {a : TradeAction Decimal} : OnCorrectSide .SELL entry a ↔
    (∀ v, a.stop_loss = some v → entry.toRat < v.toRat) ∧ ∀ v, a.take_profit = some v → v.toRat < entry.toRat := by
  have hf : ∀ f : ExecutionIntentFields, f.side = .SELL → f.pricing_reference = some entry → f.stop_loss = a.stop_loss →
      f.take_profit = a.take_profit → (f.require_brackets_on_the_correct_side = .ok () ↔
        (∀ v, a.stop_loss = some v → entry.toRat < v.toRat) ∧ ∀ v, a.take_profit = some v → v.toRat < entry.toRat) := by
    intro f hside hprice hstop htarget
    rw [ExecutionIntentFields.require_brackets_on_the_correct_side, hprice]
    simp only [hside, hstop, htarget]
    split <;> [skip; split] <;> simp_all [Option.any_eq_true]
  exact ⟨fun h => (hf (sampleFields .SELL entry a.stop_loss a.take_profit) rfl rfl rfl rfl).mp (h _ rfl rfl rfl rfl),
    fun h f h₁ h₂ h₃ h₄ => (hf f h₁ h₂ h₃ h₄).mpr h⟩

/-- A level is on the side of another where a trade earns. -/
def Beyond (side : OrderSide) (level target : Decimal) : Prop :=
  match side with
  | .BUY => level.toRat < target.toRat
  | .SELL => target.toRat < level.toRat

/-- On either side the stop is beyond the entry, and the entry beyond the target. -/
theorem on_correct_side_iff (side : OrderSide) {a : TradeAction Decimal} : OnCorrectSide side entry a ↔
    (∀ v, a.stop_loss = some v → Beyond side v entry) ∧ ∀ v, a.take_profit = some v → Beyond side entry v := by
  cases side with
  | BUY => exact on_correct_side_buy
  | SELL => exact on_correct_side_sell

/-- The decimal zero is the number zero. -/
theorem toRat_zero : (0 : Decimal).toRat = 0 := by decide

/-- An entry has a risk exactly when it is beyond its stop. -/
theorem risk_iff (side : OrderSide) (hentry : entry.Price) (hstop : stop.Price) :
    ¬ entryRisk side entry stop ≤ 0 ↔ Beyond side stop entry := by
  have hle : ∀ d : Decimal, d ≤ 0 ↔ d.toRat ≤ 0 := fun d => by rw [← toRat_zero]; rfl
  cases side with
  | BUY =>
    rw [hle, entryRisk, (toRat_sub hentry hstop).1, not_le, sub_pos]
    rfl
  | SELL =>
    rw [hle, entryRisk, (toRat_sub hstop hentry).1, not_le, sub_pos]
    rfl

/-- The target of an entry is a price on the correct side just when it fits. -/
theorem target_iff (side : OrderSide) (hentry : entry.Price) (hstop : stop.Price) (hexp : stop.exponent = -10)
    (hrr : 0 < rr.toRat) (hrisk : Beyond side stop entry) :
    ((entryTarget side entry rr (entryRisk side entry stop)).Price ∧
      Beyond side entry (entryTarget side entry rr (entryRisk side entry stop))) ↔ TargetFits side entry stop rr := by
  rw [price_iff, and_assoc]
  cases side with
  | BUY => exact buy_target_iff hentry hstop hexp hrr (sub_pos.mpr hrisk)
  | SELL => exact sell_target_iff hentry hstop hexp hrr (sub_pos.mpr hrisk)

/-- An entry is given up when the price has moved away or there is nothing at risk. -/
theorem givenUp_iff {side : OrderSide} {reference_close : Option Decimal} {config : UtBotConfig Decimal}
    (hentry : entry.Price) (hstop : stop.Price) : GivenUp side entry stop reference_close config ↔
      _entry_gap_reason entry reference_close config ≠ none ∨ entryRisk side entry stop ≤ 0 := by
  refine or_congr_right ?_
  rw [← not_iff_not, risk_iff side hentry hstop]
  cases side with
  | BUY => exact (not_le : ¬ entry.toRat ≤ stop.toRat ↔ _)
  | SELL => exact (not_le : ¬ stop.toRat ≤ entry.toRat ↔ _)

/-! ## The levels of a run -/

/-- The prices of a state: the stop of a pending entry went through the conversion to ten decimals, and the entry price of an open
tranche is a price. -/
structure PricedState (s : TradeState Decimal) : Prop where
  stop : s.pending ≠ [] → ∃ stop, s.pending_stop = some stop ∧ stop.exponent = -10 ∧ stop.Price
  entry : ∀ t ∈ s.tranches, t.state = .OPEN → ∀ price, t.entry_price = some price → price.Price

/-- The first state has no tranches, and so no prices. -/
theorem pricedState_init : PricedState {} where
  stop h := absurd rfl h
  entry _ ht := absurd ht List.not_mem_nil

/-- What evolves keeps its prices. -/
theorem PricedState.continues {s s' : TradeState Decimal} (h : PricedState s) (hc : Continues s s')
    (hstop : s'.pending_stop = s.pending_stop) : PricedState s' := by
  constructor
  · intro hpend
    rw [hstop]
    refine h.stop ?_
    obtain ⟨t, ht⟩ := List.exists_mem_of_ne_nil _ hpend
    obtain ⟨hmem, hp⟩ := List.mem_filter.mp ht
    obtain ⟨u, hu, he⟩ := hc t hmem
    have htu : t = u := (evolves_keeps he).2.2.2.2 (by simpa using hp)
    exact List.ne_nil_of_mem (List.mem_filter.mpr ⟨htu ▸ hu, hp⟩)
  · intro t ht ho price hprice
    obtain ⟨u, hu, he⟩ := hc t ht
    exact h.entry u hu ((evolves_keeps he).2.2.2.1 ho) price (evolves_entry_price he ▸ hprice)

/-- A price that the bar model accepts is a price. -/
theorem bar_price {d : Decimal} {field : String} (h : BarFields.price_errors field d = []) : d.Price := by
  unfold BarFields.price_errors at h
  split at h
  · cases h
  · rename_i hfits
    split at h
    · cases h
    · rename_i hpos
      rw [price_iff]
      refine ⟨?_, not_le.mp hpos⟩
      rw [← Decimal.validate_ok_iff d ""]
      simp only [PyDecimal.fitsOrderNumeric, Bool.not_eq_true] at hfits
      cases hv : validate_order_decimal_input d "" with
      | error e => simp [hv] at hfits
      | ok d' => rw [validate_order_decimal_input_eq hv]

/-- So are the low and the high of a bar. -/
theorem bar_prices (bar : Bar Decimal) : bar.low.Price ∧ bar.high.Price := by
  have h : bar.field_errors = [] := by
    have h := bar.accepted
    unfold BarFields.errors at h
    split at h
    · assumption
    · exact h
  simp only [BarFields.field_errors, List.append_eq_nil_iff] at h
  exact ⟨bar_price h.1.1.1.2, bar_price h.1.1.1.1.2⟩

variable {F : Type} [PyFloat F] [FloatText F]

/-- The stop of a computed signal has ten decimals. -/
theorem signal_stop (laws : FloatLaws F) {bars : List (Bar Decimal)} {config : UtBotConfig Decimal}
    {signals : List (BarSignal Decimal)} (h : compute_signals F bars config = .ok signals) {signal : BarSignal Decimal}
    (hs : signal ∈ signals) {side : OrderSide} (hentry : signal.entry = some (side, some stop)) :
    stop.exponent = -10 ∧ stop.Price := by
  have hconvert : ∀ d : Decimal, d.Price → to_order_decimal (FloatText.ofDecimal d : F) = .ok stop →
      stop.exponent = -10 ∧ stop.Price := by
    intro d hd hok
    obtain ⟨hf, hpos⟩ := price_iff.mp hd
    obtain ⟨hexp, hfits, hspos⟩ := to_order_decimal_price laws hf hpos hok
    exact ⟨hexp, price_iff.mpr ⟨hfits, hspos⟩⟩
  obtain ⟨hlow, hhigh⟩ := compute_signals_stops h hs
  unfold BarSignal.entry at hentry
  split at hentry
  · obtain ⟨bar, _, hok⟩ := hlow stop (Prod.mk.inj (Option.some.inj hentry)).2
    exact hconvert _ (bar_prices bar).1 hok
  · split at hentry
    · obtain ⟨bar, _, hok⟩ := hhigh stop (Prod.mk.inj (Option.some.inj hentry)).2
      exact hconvert _ (bar_prices bar).2 hok
    · cases hentry

/-- A call keeps the prices, and every stop it moves is one that an order can have. -/
theorem priced_step (laws : FloatLaws F) {s : TradeState Decimal} (hw : s.Wf) (h : PricedState s)
    {call : TradeCall Decimal} (hin : BracketInput F call) {d : TradeDecision Decimal} (hd : call.apply s = .ok d) :
    PricedState d.state ∧ ∀ a ∈ d.actions, a.kind = .MOVE_STOP → BracketsAccepted a := by
  cases call with
  | bar_close bar signal config =>
    obtain rfl := Except.ok.inj hd
    obtain ⟨bars, config', signals, hsignals, hmem⟩ := hin
    constructor
    · rcases on_bar_close_entry hw bar signal config with ⟨hc, hstop⟩ | ⟨side, stop, hentry, he⟩
      · exact h.continues hc hstop
      · rw [he]
        refine ⟨fun _ => ⟨stop, rfl, signal_stop laws hsignals hmem hentry⟩, ?_⟩
        intro t ht ho
        simp only [entering, List.mem_cons, List.not_mem_nil, or_false] at ht
        rcases ht with rfl | rfl <;> cases ho
    · intro a ha hk
      obtain ⟨runner, hr, ho, _, hstop, htarget⟩ := on_bar_close_move_stop hw ha hk
      refine ⟨optional_bracket_iff.mpr fun v hv => h.entry runner hr ho v (hstop ▸ hv), ?_⟩
      rw [htarget]
      rfl
  | entry_filled entry_price bar_index config quantity reference_close =>
    obtain ⟨side, stop, _, _, hpend, ⟨reason, rfl⟩ | ⟨risk, target, _, _, _, rfl⟩⟩ := on_entry_filled_cases hw hd
    · refine ⟨pricedState_init, ?_⟩
      intro a ha hk
      obtain ⟨t, _, rfl⟩ := List.mem_map.mp ha
      cases hk
    · refine ⟨⟨?_, ?_⟩, ?_⟩
      · intro hpend'
        -- every pending tranche was filled
        obtain ⟨t, ht⟩ := List.exists_mem_of_ne_nil _ hpend'
        obtain ⟨hmem, hp⟩ := List.mem_filter.mp ht
        obtain ⟨u, _, rfl⟩ := TradeState.mem_updateWhere.mp hmem
        cases hu : u.isPending with
        | false => simp_all [Tranche.isPending]
        | true => simp [hu, Tranche.entered, Tranche.filled] at hp
      · intro t ht ho price hprice
        obtain ⟨u, hu, rfl⟩ := TradeState.mem_updateWhere.mp ht
        cases hp : u.isPending with
        | false =>
          rw [hp] at ho
          exact absurd ho (hw.not_open_of_pending hpend u hu)
        | true =>
          rw [hp] at hprice
          exact Option.some.inj hprice ▸ hin
      · intro a ha hk
        obtain ⟨t, _, rfl⟩ := List.mem_map.mp ha
        cases hk
  | tranche_closed role reason =>
    obtain rfl := Except.ok.inj hd
    refine ⟨?_, ?_⟩
    · have hc := continues_on_tranche_closed hw.paired role reason
      rcases on_tranche_closed_cases hw.paired role reason with ⟨_, he⟩ | ⟨t, _, _, he⟩
      · rw [he] at hc ⊢
        exact h.continues hc rfl
      · rw [he] at hc ⊢
        dsimp only [flatten_if_done] at hc ⊢
        split
        · exact pricedState_init
        · rename_i hflat
          rw [if_neg hflat] at hc
          exact h.continues hc rfl
    · intro a ha
      rcases on_tranche_closed_cases hw.paired role reason with ⟨_, he⟩ | ⟨t, _, _, he⟩ <;> simp [he] at ha

/-- A run keeps the prices, and every stop it moves is one that an order can have. -/
theorem priced_run (laws : FloatLaws F) {calls : List (TradeCall Decimal)} {s : TradeState Decimal}
    {log : List (TradeAction Decimal)} (h : TradeRun calls s log) (hin : ∀ call ∈ calls, BracketInput F call) :
    PricedState s ∧ ∀ a ∈ log, a.kind = .MOVE_STOP → BracketsAccepted a := by
  induction h with
  | init => exact ⟨pricedState_init, fun a ha => absurd ha List.not_mem_nil⟩
  | @step calls s log call d hrun hd ih =>
    obtain ⟨hs, hlog⟩ := ih fun c hc => hin c (List.mem_append_left _ hc)
    obtain ⟨hs', hactions⟩ := priced_step laws hrun.wf hs (hin call (by simp)) hd
    refine ⟨hs', ?_⟩
    intro a ha
    rcases List.mem_append.mp ha with ha | ha
    · exact hlog a ha
    · exact hactions a ha

/-- The brackets of pending tranches that are filled can be an order's exactly when a target among them can. -/
theorem brackets_iff {side : OrderSide} {pending : List (Tranche Decimal)} (hentry : entry.Price) (hstop : stop.Price)
    (hexp : stop.exponent = -10) (hrr : 0 < rr.toRat) (hrisk : Beyond side stop entry) :
    (∀ a ∈ pending.map (·.bracketAction stop (entryTarget side entry rr (entryRisk side entry stop))),
      a.kind = .SET_BRACKETS → BracketsAccepted a ∧ OnCorrectSide side entry a) ↔
      (∀ t ∈ pending, t.role ≠ .T1) ∨ TargetFits side entry stop rr := by
  rw [← target_iff side hentry hstop hexp hrr hrisk]
  generalize entryTarget side entry rr (entryRisk side entry stop) = target
  have hset : ∀ t : Tranche Decimal, (t.role = .T1 → target.Price ∧ Beyond side entry target) ↔
      BracketsAccepted (t.bracketAction stop target) ∧ OnCorrectSide side entry (t.bracketAction stop target) := by
    intro t
    rw [on_correct_side_iff, BracketsAccepted, optional_bracket_iff, optional_bracket_iff]
    by_cases hrole : t.role = .T1
    · simp [Tranche.bracketAction, hrole, hstop, hrisk]
    · simp [Tranche.bracketAction, hrole, hstop, hrisk]
  constructor
  · intro hall
    by_cases ht : ∃ t ∈ pending, t.role = .T1
    · obtain ⟨t, ht, hrole⟩ := ht
      exact .inr ((hset t).mpr (hall _ (List.mem_map.mpr ⟨t, ht, rfl⟩) rfl) hrole)
    · left
      exact fun t hmem hrole => ht ⟨t, hmem, hrole⟩
  · intro hor a ha _
    obtain ⟨t, ht, rfl⟩ := List.mem_map.mp ha
    exact (hset t).mp fun hrole => hor.elim (fun hno => absurd hrole (hno t ht)) id

end BracketsAux

open BracketsAux

/-- In every state that calls with the program's inputs lead to, for every entry price: the order model accepts the levels that a
fill attaches, on the correct side of the entry, and every stop that is moved later, exactly when the entry is given up, or no
tranche with a target waits for it, or the target fits. -/
theorem brackets_accepted_iff {F : Type} [PyFloat F] [FloatText F] (laws : FloatLaws F) {calls : List (TradeCall Decimal)}
    {s : TradeState Decimal} {log : List (TradeAction Decimal)} (h : TradeRun calls s log)
    (hin : ∀ call ∈ calls, BracketInput F call) {side : OrderSide} {stop : Decimal} (hside : s.side = some side)
    (hstop : s.pending_stop = some stop) {entry_price : Decimal} (hentry : entry_price.Price) {bar_index : Int}
    {config : UtBotConfig Decimal} {quantity reference_close : Option Decimal} {d : TradeDecision Decimal}
    (hd : on_entry_filled s entry_price bar_index config quantity reference_close = .ok d) :
    ((∀ a ∈ d.actions, a.kind = .SET_BRACKETS → BracketsAccepted a ∧ OnCorrectSide side entry_price a) ∧
      ∀ later s' log', TradeRun (calls ++ .entry_filled entry_price bar_index config quantity reference_close :: later) s'
          (log ++ d.actions ++ log') → (∀ call ∈ later, BracketInput F call) →
        ∀ a ∈ log', a.kind = .MOVE_STOP → BracketsAccepted a) ↔
      GivenUp side entry_price stop reference_close config ∨ (∀ t ∈ s.pending, t.role ≠ .T1) ∨
        TargetFits side entry_price stop config.rr_mult := by
  obtain ⟨_, _, _, _, hpend⟩ := on_entry_filled_ok_pending hd
  obtain ⟨stop', hstop', hexp, hprice⟩ := (priced_run laws h hin).1.stop hpend
  obtain rfl : stop = stop' := Option.some.inj (hstop.symm.trans hstop')
  have hmoved : ∀ later s' log', TradeRun (calls ++ .entry_filled entry_price bar_index config quantity reference_close ::
      later) s' (log ++ d.actions ++ log') → (∀ call ∈ later, BracketInput F call) →
        ∀ a ∈ log', a.kind = .MOVE_STOP → BracketsAccepted a := by
    intro later s' log' hrun hlater a ha
    refine (priced_run laws hrun ?_).2 a (List.mem_append_right _ ha)
    intro call hcall
    rcases List.mem_append.mp hcall with hcall | hcall
    · exact hin call hcall
    · rcases List.mem_cons.mp hcall with rfl | hcall
      · exact hentry
      · exact hlater call hcall
  have hrr : 0 < config.rr_mult.toRat := by
    have hpos := config.rr_mult_pos
    rw [← toRat_zero]
    exact not_le.mp hpos
  have hclosing : ∀ reason, ∀ a ∈ (s.givenUp quantity reason).actions, a.kind = .SET_BRACKETS →
      BracketsAccepted a ∧ OnCorrectSide side entry_price a := by
    intro reason a ha hk
    obtain ⟨t, _, rfl⟩ := List.mem_map.mp ha
    cases hk
  rw [and_iff_left hmoved, givenUp_iff hentry hprice]
  rw [on_entry_filled_eq h.wf hside hstop hpend] at hd
  obtain rfl := Except.ok.inj hd
  cases hgap : _entry_gap_reason entry_price reference_close config with
  | some reason => exact iff_of_true (hclosing reason) (.inl (.inl nofun))
  | none =>
    by_cases hrisk : entryRisk side entry_price stop ≤ 0
    · simp only [if_pos hrisk]
      exact iff_of_true (hclosing .INVALID_RISK) (.inl (.inr hrisk))
    · simp only [if_neg hrisk, ne_eq, not_true_eq_false, false_or]
      rw [or_iff_right hrisk]
      exact brackets_iff hentry hprice hexp hrr ((risk_iff side hentry hprice).mp hrisk)

/-! ## A short entry -/

namespace SampleEntry

def whole (n : Nat) : Decimal := ⟨false, n, 0⟩

/-- A bar at whole prices. -/
def bar (t : Int) (open_ high low close : Nat)
    (accepted : BarFields.errors
      ⟨"XAUUSD", "H1", .aware t 0, whole open_, whole high, whole low, whole close, 0, 0⟩ = []) : Bar Decimal :=
  ⟨⟨"XAUUSD", "H1", .aware t 0, whole open_, whole high, whole low, whole close, 0, 0⟩, accepted, ⟨t, rfl⟩⟩

def falling : Bar Decimal := bar 2 100 100 90 91 (by decide)

def bars : List (Bar Decimal) :=
  [bar 0 100 101 99 100 (by decide), bar 1 100 101 99 100 (by decide), falling]

/-- Settings under which every bar is a window, with the default `rr_mult`. -/
def defaultRatio : UtBotConfig Decimal where
  risk_pct := ⟨false, 10, -2⟩
  base_lots := ⟨false, 1, -2⟩
  max_lots := ⟨false, 2, -2⟩
  ut_key := ⟨false, 1, 0⟩
  ut_atr := 1
  sl_len := 1
  hull_len := 1
  rr_mult := ⟨false, 10, -1⟩
  hull_mult := ⟨false, 10, -1⟩
  accepted := by decide +kernel

/-- The same with a whole `rr_mult`. -/
def wholeRatio : UtBotConfig Decimal :=
  { defaultRatio with rr_mult := whole 2, accepted := by decide +kernel }

def signals : Except Exc (List (BarSignal Decimal)) :=
  letI : PyFloat ℚ := .exact
  letI : FloatText ℚ := .exact
  compute_signals ℚ bars defaultRatio

/-- The signal of the last bar: a sale, with the stop at the bar's high. -/
def signal : BarSignal Decimal where
  index := 2
  open_time := .aware 2 0
  buy := false
  sell := true
  hull_green := some false
  hull_flip_down := false
  hull_flip_up := false
  trailing_stop := some ⟨false, 1010000000000, -10⟩
  stop_low := some ⟨false, 900000000000, -10⟩
  stop_high := some ⟨false, 1000000000000, -10⟩

def stop : Decimal := ⟨false, 1000000000000, -10⟩

/-- The signal of the last bar, and the entries it asks for. -/
def calls : List (TradeCall Decimal) := [.bar_close falling signal defaultRatio]

/-- The run enters both tranches. -/
theorem run_calls : TradeRun calls (entering .SELL stop (whole 91)) [openAction .SELL .T1, openAction .SELL .T2] := by
  have hd : TradeCall.apply {} (.bar_close falling signal defaultRatio) =
      .ok ⟨entering .SELL stop (whole 91), [openAction .SELL .T1, openAction .SELL .T2]⟩ := by decide
  exact .step .init hd

/-- Its signal is computed from bars. -/
theorem calls_input : ∀ call ∈ calls, @BracketInput ℚ .exact .exact call := by
  intro call hcall
  obtain rfl := List.mem_singleton.mp hcall
  have hsignals : (match signals with
      | .ok l => decide (signal ∈ l)
      | .error _ => false) = true := by decide +kernel
  cases hl : signals with
  | error e =>
    rw [hl] at hsignals
    cases hsignals
  | ok l =>
    rw [hl] at hsignals
    exact ⟨bars, defaultRatio, l, hl, of_decide_eq_true hsignals⟩

/-- Ninety-one is a price. -/
theorem price_91 : (whole 91).Price := by
  unfold Decimal.Price
  decide

/-- What a fill at 91 returns: the brackets of both tranches. -/
def filled (target : Decimal) : TradeDecision Decimal :=
  ⟨(entering .SELL stop (whole 91)).entered none (whole 91) 3 stop target,
    [(pendingTranche .SELL .T1).bracketAction stop target, (pendingTranche .SELL .T2).bracketAction stop target]⟩

/-- With a whole ratio the target of the fill has ten decimals. -/
theorem fill_whole : on_entry_filled (entering .SELL stop (whole 91)) (whole 91) 3 wholeRatio =
    .ok (filled ⟨false, 730000000000, -10⟩) := by decide +kernel

/-- With the default ratio it has eleven. -/
theorem fill_default : on_entry_filled (entering .SELL stop (whole 91)) (whole 91) 3 defaultRatio =
    .ok (filled ⟨false, 8200000000000, -11⟩) := by decide +kernel

end SampleEntry

open SampleEntry

/-- A short at 91 with its stop at 100 and a whole `rr_mult`: the target 73 fits, and its brackets are accepted. -/
theorem brackets_accepted_whole :
    (∀ a ∈ (filled ⟨false, 730000000000, -10⟩).actions, a.kind = .SET_BRACKETS →
      BracketsAccepted a ∧ OnCorrectSide .SELL (whole 91) a) ∧ TargetFits .SELL (whole 91) stop (whole 2) := by
  have hfits : TargetFits .SELL (whole 91) stop (whole 2) := by
    unfold TargetFits
    decide +kernel
  exact ⟨((@brackets_accepted_iff ℚ .exact .exact .exact _ _ _ run_calls calls_input _ _ rfl rfl _ price_91 _ _ _ _ _
    fill_whole).mpr (.inr (.inr hfits))).1, hfits⟩

/-- With the default `rr_mult` of `1.0` the target `82.00000000000` has eleven decimals, and is refused. -/
theorem default_target_refused :
    ¬ ∀ (calls : List (TradeCall Decimal)) s log, TradeRun calls s log →
      (∀ call ∈ calls, @BracketInput ℚ .exact .exact call) → ∀ entry_price : Decimal, entry_price.Price →
      ∀ bar_index config quantity reference_close d,
        on_entry_filled s entry_price bar_index config quantity reference_close = .ok d →
        ∀ a ∈ d.actions, a.kind = .SET_BRACKETS → BracketsAccepted a := by
  intro hall
  have haccepted := hall _ _ _ run_calls calls_input _ price_91 _ _ _ _ _ fill_default _ List.mem_cons_self rfl
  have hrefused : optionalField ExecutionIntentFields.check_bracket (some ⟨false, 8200000000000, -11⟩) ≠
      .ok (some ⟨false, 8200000000000, -11⟩) := by decide
  exact hrefused haccepted.2

end MtossBot
