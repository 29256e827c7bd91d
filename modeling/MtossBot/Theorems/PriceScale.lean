import MtossBot.Lemmas.Scaling
import MtossBot.Theorems.BacktestAccounting

/-!
# Signals do not depend on the unit of prices

The signals on bars whose prices are in another unit: the same entries and the same colors of the band, and the levels in that unit.
-/

namespace MtossBot

/-- A change of unit for floats and decimals that both conversions between them respect. -/
structure PriceScale (F D : Type) [PyFloat F] [PyDecimal D] [Boundary F D] extends Scaling F where
  scaleDecimal : D → D
  ofDecimal : ∀ d : D, Boundary.ofDecimal (scaleDecimal d) = scale (Boundary.ofDecimal d)
  to_order_decimal : ∀ x : F, (Boundary.to_order_decimal (scale x) : Except Exc D) = (Boundary.to_order_decimal x).map scaleDecimal

/-- On exact numbers a positive factor is one. -/
def PriceScale.exact (k : ℚ) (hk : 0 < k) : @PriceScale ℚ ℚ .exact _ .exact :=
  @PriceScale.mk ℚ ℚ .exact _ .exact
    (@Scaling.mk ℚ .exact (k * ·) (by
      show k * ((0.0 : ℚ)) = (0.0 : ℚ)
      norm_num) (mul_add k) (mul_sub k) (mul_left_comm k) (fun a c => (mul_assoc k a c).symm)
      (fun a c => (mul_div_assoc k a c).symm) (fun a => by
        show k * |a| = |k * a|
        rw [abs_mul, abs_of_pos hk])
      (fun a b => mul_lt_mul_iff_right₀ hk) fun a b => mul_le_mul_iff_right₀ hk)
    (k * ·) (fun _ => rfl) fun _ => rfl

section

variable {F D : Type} [PyFloat F] [PyDecimal D] [Boundary F D]

namespace PriceScaleAux

variable (s : PriceScale F D) {config : UtBotConfig D} {bars bars' : List (Bar D)}

/-- Series that are read off the bars. -/
theorem prices_scale {price : Bar D → D} (h : List.Forall₂ (fun bar bar' => price bar' = s.scaleDecimal (price bar)) bars bars') :
    (bars'.map fun bar => (Boundary.ofDecimal (price bar) : F)) = (bars.map fun bar => Boundary.ofDecimal (price bar)).map s.scale := by
  induction h with
  | nil => rfl
  | cons hbar _ ih => rw [List.map_cons, List.map_cons, List.map_cons, ih, hbar, s.ofDecimal]

/-- The closes are in the other unit. -/
theorem closes_scale (h : List.Forall₂ (Rescaled s.scaleDecimal) bars bars') : closes F bars' = (closes F bars).map s.scale :=
  prices_scale s (h.imp fun _ _ => Rescaled.close)

/-- So are the highs. -/
theorem highs_scale (h : List.Forall₂ (Rescaled s.scaleDecimal) bars bars') : highs F bars' = (highs F bars).map s.scale :=
  prices_scale s (h.imp fun _ _ => Rescaled.high)

/-- So are the lows. -/
theorem lows_scale (h : List.Forall₂ (Rescaled s.scaleDecimal) bars bars') : lows F bars' = (lows F bars).map s.scale :=
  prices_scale s (h.imp fun _ _ => Rescaled.low)

/-- The distance of the stop is in the other unit. -/
theorem nloss_scale (h : List.Forall₂ (Rescaled s.scaleDecimal) bars bars') : nloss F config bars' = s.series (nloss F config bars) := by
  unfold nloss
  rw [closes_scale s h, highs_scale s h, lows_scale s h, s.atr_scale, Scaling.series, Scaling.series, List.map_map, List.map_map]
  refine List.map_congr_left fun value _ => ?_
  cases value with
  | none => rfl
  | some value => exact congrArg some (s.mul_left _ _).symm

/-- So is the trailing stop. -/
theorem trailing_scale (h : List.Forall₂ (Rescaled s.scaleDecimal) bars bars') : trailing F config bars' = s.series (trailing F config bars) := by
  unfold trailing
  rw [closes_scale s h, nloss_scale s h, s.trailing_stop_scale]

/-- Purchases are signalled at the same bars. -/
theorem buys_scale (h : List.Forall₂ (Rescaled s.scaleDecimal) bars bars') : buys F config bars' = buys F config bars := by
  unfold buys crossover
  rw [closes_scale s h, trailing_scale s h, ← s.series_map_some, s.cross_scale]

/-- Sales are signalled at the same bars. -/
theorem sells_scale (h : List.Forall₂ (Rescaled s.scaleDecimal) bars bars') : sells F config bars' = sells F config bars := by
  unfold sells crossunder
  rw [closes_scale s h, trailing_scale s h, ← s.series_map_some, s.cross_scale]

/-- The band has the same colors. -/
theorem colors_scale (h : List.Forall₂ (Rescaled s.scaleDecimal) bars bars') : colors F config bars' = colors F config bars := by
  unfold colors
  rw [closes_scale s h, s.hull_scale, s.hull_colors_scale]

/-- The stops below are in the other unit. -/
theorem stop_lows_scale (h : List.Forall₂ (Rescaled s.scaleDecimal) bars bars') : stop_lows F config bars' = s.series (stop_lows F config bars) := by
  unfold stop_lows
  rw [lows_scale s h, s.lowest_scale]

/-- So are the stops above. -/
theorem stop_highs_scale (h : List.Forall₂ (Rescaled s.scaleDecimal) bars bars') : stop_highs F config bars' = s.series (stop_highs F config bars) := by
  unfold stop_highs
  rw [highs_scale s h, s.highest_scale]

/-! ## The loop -/

/-- A level is converted with its unit, or fails as before. -/
theorem optional_decimal_scale (value : Option F) :
    (_optional_decimal (value.map s.scale) : Except Exc (Option D)) = (_optional_decimal value).map (Option.map s.scaleDecimal) := by
  cases value with
  | none => rfl
  | some value =>
    simp only [_optional_decimal, Option.map_some, s.to_order_decimal]
    cases (Boundary.to_order_decimal value : Except Exc D) <;> rfl

/-- What the loop reads at a bar, in the other unit. -/
structure Rerow (s : PriceScale F D) (row row' : SignalRow F D) : Prop where
  open_time : row'.bar.open_time = row.bar.open_time
  flags : row'.buy = row.buy ∧ row'.sell = row.sell ∧ row'.color = row.color
  trailing : row'.trailing = row.trailing.map s.scale
  stop_low : row'.stop_low = row.stop_low.map s.scale
  stop_high : row'.stop_high = row.stop_high.map s.scale

/-- A row in the other unit gives the signal in that unit. -/
theorem signal_step_scale (state : Nat × Option Bool) (row row' : SignalRow F D) (h : Rerow s row row') :
    signal_step state row' = ((signal_step state row).1.map (BarSignal.repriced s.scaleDecimal), (signal_step state row).2) := by
  obtain ⟨index, previous_color⟩ := state
  obtain ⟨hbuy, hsell, hcolor⟩ := h.flags
  simp only [signal_step, h.trailing, h.stop_low, h.stop_high, optional_decimal_scale s, hbuy, hsell, hcolor, h.open_time]
  congr 1
  cases (_optional_decimal row.trailing : Except Exc (Option D)) with
  | error e => rfl
  | ok trailing_stop =>
    cases (_optional_decimal row.stop_low : Except Exc (Option D)) with
    | error e => rfl
    | ok stop_low => cases (_optional_decimal row.stop_high : Except Exc (Option D)) <;> rfl

/-- The rows are those of the bars, in the other unit. -/
theorem signalRows_scale (h : List.Forall₂ (Rescaled s.scaleDecimal) bars bars') :
    List.Forall₂ (Rerow s) (signalRows F config bars) (signalRows F config bars') := by
  have hrows : ∀ (row : Bar D × Bool × Bool × Option Bool × Option F × Option F × Option F → SignalRow F D),
      (∀ bar buy sell color trailing stop_low stop_high, row (bar, buy, sell, color, trailing, stop_low, stop_high) =
        ⟨bar, buy, sell, color, trailing, stop_low, stop_high⟩) →
      ∀ columns, List.Forall₂ (Rerow s) ((bars.zip columns).map row)
        ((bars'.zip (columns.map (Prod.map id (Prod.map id (Prod.map id (Prod.map (Option.map s.scale)
          (Prod.map (Option.map s.scale) (Option.map s.scale)))))))).map row) := by
    intro row hrow columns
    induction h generalizing columns with
    | nil => exact .nil
    | cons hbar _ ih =>
      cases columns with
      | nil => exact .nil
      | cons column columns =>
        refine .cons ?_ (ih columns)
        rw [hrow, hrow]
        exact ⟨hbar.open_time, ⟨rfl, rfl, rfl⟩, rfl, rfl, rfl⟩
  have hcolumns := fun row hrow => hrows row hrow ((buys F config bars).zip ((sells F config bars).zip ((colors F config bars).zip
    ((trailing F config bars).zip ((stop_lows F config bars).zip (stop_highs F config bars))))))
  unfold signalRows
  rw [buys_scale s h, sells_scale s h, colors_scale s h, trailing_scale s h, stop_lows_scale s h, stop_highs_scale s h]
  simp only [← List.zip_map, List.map_id] at hcolumns
  exact hcolumns _ fun _ _ _ _ _ _ _ => rfl

/-- Values are changed before or after they are collected. -/
theorem mapM_map_except {α β : Type} (g : α → β) (l : List (Except Exc α)) :
    (l.map (Except.map g)).mapM id = (l.mapM id).map (List.map g) := by
  induction l with
  | nil => rfl
  | cons x l ih =>
    rw [List.map_cons, List.mapM_cons, List.mapM_cons, ih]
    cases x with
    | error e => rfl
    | ok a => cases l.mapM id <;> rfl

end PriceScaleAux

open PriceScaleAux

/-- On bars in another unit the strategy sees the same, and says it in that unit: also where it fails. -/
theorem signals_scale (s : PriceScale F D) (config : UtBotConfig D) {bars bars' : List (Bar D)} (h : List.Forall₂ (Rescaled s.scaleDecimal) bars bars') :
    compute_signals F bars' config = (compute_signals F bars config).map (List.map (BarSignal.repriced s.scaleDecimal)) := by
  unfold compute_signals signalSeries
  rw [scan_related (signal_step_scale s) (signalRows_scale s h), mapM_map_except]

end

/-- The sample market at half the prices. -/
def halvedBars : List (Bar ℚ) :=
  [sampleBar 0 50 (101 / 2) (99 / 2) 50 (by decide +kernel), sampleBar 1 50 (101 / 2) (99 / 2) 50 (by decide +kernel),
    sampleBar 2 50 50 45 (91 / 2) (by decide +kernel), sampleBar 3 (91 / 2) (111 / 2) (91 / 2) 55 (by decide +kernel),
    sampleBar 4 55 (111 / 2) 40 41 (by decide +kernel), sampleBar 5 41 (83 / 2) 35 36 (by decide +kernel)]

/-- Bar by bar it is the sample market in the other unit. -/
theorem rescaled_halvedBars : List.Forall₂ (Rescaled fun d => 1 / 2 * d) sampleBars halvedBars := by
  have hbar : ∀ t {o h l c o' h' l' c' : ℚ} {accepted accepted'}, h' = 1 / 2 * h → l' = 1 / 2 * l → c' = 1 / 2 * c →
      Rescaled (fun d => 1 / 2 * d) (sampleBar t o h l c accepted) (sampleBar t o' h' l' c' accepted') :=
    fun _ _ _ _ _ _ _ _ _ _ _ hh hl hc => ⟨rfl, hh, hl, hc⟩
  refine .cons (hbar 0 ?_ ?_ ?_) (.cons (hbar 1 ?_ ?_ ?_) (.cons (hbar 2 ?_ ?_ ?_) (.cons (hbar 3 ?_ ?_ ?_)
    (.cons (hbar 4 ?_ ?_ ?_) (.cons (hbar 5 ?_ ?_ ?_) .nil))))) <;> norm_num

/-- At half the prices the strategy buys and sells at the same bars, its levels at half. -/
theorem signals_scale_halved : ∃ signals, @compute_signals ℚ _ ℚ .exact .exact sampleBars sampleConfig = .ok signals ∧
    signals.length = 6 ∧ signals.any BarSignal.buy = true ∧ signals.any BarSignal.sell = true ∧
    @compute_signals ℚ _ ℚ .exact .exact halvedBars sampleConfig = .ok (signals.map (BarSignal.repriced (1 / 2 * ·))) := by
  obtain ⟨signals, hsignals, hcheck⟩ := exists_ok_of_check (r := @compute_signals ℚ _ ℚ .exact .exact sampleBars sampleConfig)
    (p := fun signals => decide (signals.length = 6 ∧ signals.any BarSignal.buy = true ∧ signals.any BarSignal.sell = true))
    (by decide +kernel)
  obtain ⟨hlength, hbuy, hsell⟩ := of_decide_eq_true hcheck
  have hscale := @signals_scale ℚ ℚ .exact _ .exact (PriceScale.exact (1 / 2) (by norm_num)) sampleConfig _ _ rescaled_halvedBars
  rw [hsignals] at hscale
  exact ⟨signals, hsignals, hlength, hbuy, hsell, hscale⟩

end MtossBot
