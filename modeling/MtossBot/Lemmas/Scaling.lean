import MtossBot.Strategies.UtBot.Signals

/-!
# Prices in another unit

A change of unit is a function on floats that the arithmetic does not notice. Every indicator of prices in another unit is the indicator in
that unit, and what compares indicators stays as it was.
-/

namespace MtossBot

/-- A change of unit: it goes through sums, differences and factors, and keeps the order and zero. -/
structure Scaling (F : Type) [PyFloat F] where
  scale : F → F
  zero : scale 0.0 = 0.0
  add : ∀ a b, scale (a + b) = scale a + scale b
  sub : ∀ a b, scale (a - b) = scale a - scale b
  mul_left : ∀ c a, scale (c * a) = c * scale a
  mul_right : ∀ a c, scale (a * c) = scale a * c
  div : ∀ a c, scale (a / c) = scale a / c
  abs : ∀ a, scale (PyFloat.abs a) = PyFloat.abs (scale a)
  lt : ∀ a b, scale a < scale b ↔ a < b
  le : ∀ a b, scale a ≤ scale b ↔ a ≤ b

namespace Scaling

variable {F : Type} [PyFloat F] (s : Scaling F)

/-- A series in the other unit. -/
def series (values : List (Option F)) : List (Option F) := values.map (Option.map s.scale)

/-- A series in another unit is as long as before. -/
theorem length_series (values : List (Option F)) : (s.series values).length = values.length := List.length_map _

/-- Changing the unit of a series without gaps changes it value by value. -/
theorem series_map_some (values : List F) : s.series (values.map some) = (values.map s.scale).map some := by
  simp [series]

/-! ## Greater and smaller -/

/-- The larger of two values is the larger one in any unit. -/
theorem py_max_scale (a b : F) : py_max (s.scale a) (s.scale b) = s.scale (py_max a b) := by
  unfold py_max
  simp only [s.lt]
  split <;> rfl

/-- The smaller of two values is the smaller one in any unit. -/
theorem py_min_scale (a b : F) : py_min (s.scale a) (s.scale b) = s.scale (py_min a b) := by
  unfold py_min
  simp only [s.lt]
  split <;> rfl

/-- An operation that goes through the change goes through it from left to right. -/
theorem foldl_scale {op : F → F → F} (hop : ∀ a b, op (s.scale a) (s.scale b) = s.scale (op a b)) (a : F) (l : List F) :
    (l.map s.scale).foldl op (s.scale a) = s.scale (l.foldl op a) := by
  rw [List.foldl_map]
  exact List.foldl_hom s.scale fun x y => hop x y

/-- The least of some values is the least in any unit. -/
theorem minimum_scale (values : List F) : minimum? (values.map s.scale) = (minimum? values).map s.scale := by
  cases values with
  | nil => rfl
  | cons a l => rw [List.map_cons, minimum?, minimum?, s.foldl_scale s.py_min_scale, Option.map_some]

/-- The greatest of some values is the greatest in any unit. -/
theorem maximum_scale (values : List F) : maximum? (values.map s.scale) = (maximum? values).map s.scale := by
  cases values with
  | nil => rfl
  | cons a l => rw [List.map_cons, maximum?, maximum?, s.foldl_scale s.py_max_scale, Option.map_some]

/-! ## Windows -/

/-- A window of converted values shows the converted values. -/
theorem window_map {α β : Type} (g : α → β) (values : List α) (length : Length) (index : Nat) :
    window (values.map g) length index = (window values length index).map g := by
  rw [window, window, List.map_drop, List.map_take]

/-- A series with one value for each index. -/
theorem series_indexed {n : Nat} {f g : Nat → Option F} (h : ∀ i, f i = (g i).map s.scale) :
    (List.range n).map f = s.series ((List.range n).map g) := by
  rw [series, List.map_map]
  exact List.map_congr_left fun i _ => h i

/-- The lowest lows are in the unit of the lows. -/
theorem lowest_scale (values : List F) (length : Length) : lowest (values.map s.scale) length = s.series (lowest values length) := by
  unfold lowest
  rw [List.length_map]
  refine s.series_indexed fun index => ?_
  rw [window_map, s.minimum_scale]
  split <;> rfl

/-- The highest highs are in the unit of the highs. -/
theorem highest_scale (values : List F) (length : Length) : highest (values.map s.scale) length = s.series (highest values length) := by
  unfold highest
  rw [List.length_map]
  refine s.series_indexed fun index => ?_
  rw [window_map, s.maximum_scale]
  split <;> rfl

/-- All values of a window are there before the change and after it. -/
theorem mapM_series (items : List (Option F)) : (s.series items).mapM id = (items.mapM id).map (List.map s.scale) := by
  unfold series
  induction items with
  | nil => rfl
  | cons item items ih =>
    rw [List.map_cons, List.mapM_cons, List.mapM_cons, ih]
    cases item with
    | none => rfl
    | some a => cases items.mapM id <;> rfl

/-! ## Averages -/

/-- A simple average is in the unit of its values. -/
theorem sma_scale (values : List (Option F)) (length : Length) : sma (s.series values) length = s.series (sma values length) := by
  unfold sma
  rw [s.length_series]
  refine s.series_indexed fun index => ?_
  have hwindow : window (s.series values) length index = s.series (window values length index) := window_map _ _ _ _
  split
  · rfl
  · rw [hwindow, s.mapM_series]
    cases (window values length index).mapM id with
    | none => rfl
    | some items =>
      simp only [Option.map_some, Option.some.injEq]
      rw [s.div, ← s.foldl_scale fun a b => (s.add a b).symm, s.zero]

/-- A recursive average is in the unit of its values, since its weights have none. -/
theorem recursive_average_scale (values : List (Option F)) (length : Length) (alpha : F) :
    _recursive_average (s.series values) length alpha = s.series (_recursive_average values length alpha) := by
  unfold _recursive_average
  rw [s.sma_scale]
  have hzip : (s.series values).zip (s.series (sma values length)) =
      (values.zip (sma values length)).map (Prod.map (Option.map s.scale) (Option.map s.scale)) := List.zip_map ..
  rw [hzip]
  refine scan_map (σ := Option.map s.scale) (h := Option.map s.scale) (fun previous item => ?_) none _
  obtain ⟨value, seed⟩ := item
  unfold recursive_step
  cases previous with
  | none => rfl
  | some previous =>
    cases value with
    | none => rfl
    | some value => simp [s.add, s.mul_left]

/-- So is Wilder's average. -/
theorem rma_scale (values : List (Option F)) (length : Length) : rma (s.series values) length = s.series (rma values length) :=
  s.recursive_average_scale _ _ _

/-- So is the exponential average. -/
theorem ema_scale (values : List (Option F)) (length : Length) : ema (s.series values) length = s.series (ema values length) :=
  s.recursive_average_scale _ _ _

/-- The weights do not change, the weighted values do. -/
theorem weightedSums_scale (values : List (Option F)) (length : Length) (index : Nat) (offsets : List Nat) (norm total : F) :
    weightedSums (s.series values) length index offsets (norm, s.scale total) =
      (weightedSums values length index offsets (norm, total)).map (Prod.map id s.scale) := by
  induction offsets generalizing norm total with
  | nil => rfl
  | cons offset offsets ih =>
    have hitem : ((s.series values)[index - offset]?).join = ((values[index - offset]?).join).map s.scale := by
      rw [series, List.getElem?_map]
      rcases values[index - offset]? with _ | _ | _ <;> rfl
    rw [weightedSums, weightedSums, hitem]
    cases (values[index - offset]?).join with
    | none => rfl
    | some item =>
      dsimp only [Option.map_some]
      rw [← s.mul_right, ← s.add, ih]

/-- A weighted average is in the unit of its values. -/
theorem wma_scale (values : List (Option F)) (length : Length) : wma (s.series values) length = s.series (wma values length) := by
  unfold wma
  rw [s.length_series]
  refine s.series_indexed fun index => ?_
  split
  · rfl
  · have hsums := s.weightedSums_scale values length index (List.range length.val) 0.0 0.0
    rw [s.zero] at hsums
    rw [hsums]
    cases weightedSums values length index (List.range length.val) (0.0, 0.0) with
    | none => rfl
    | some sums => simp [s.div]

/-! ## Ranges -/

/-- The true range is in the unit of the prices. -/
theorem true_range_scale (highs lows closes : List F) :
    true_range (highs.map s.scale) (lows.map s.scale) (closes.map s.scale) = (true_range highs lows closes).map s.scale := by
  unfold true_range
  rw [List.zip_map, List.zip_map]
  refine scan_map (σ := Option.map s.scale) (fun previous_close bar => ?_) none _
  obtain ⟨high, low, close⟩ := bar
  cases previous_close with
  | none => simp [true_range_step, s.sub]
  | some previous_close => simp [true_range_step, ← s.sub, ← s.abs, s.py_max_scale]

/-- The average range is in the unit of the prices. -/
theorem atr_scale (highs lows closes : List F) (length : Length) :
    atr (highs.map s.scale) (lows.map s.scale) (closes.map s.scale) length = s.series (atr highs lows closes length) := by
  unfold atr
  rw [s.true_range_scale, ← s.series_map_some, s.rma_scale]

/-! ## The Hull band -/

/-- The difference of two averages is in their unit. -/
theorem double_minus_full_scale (half full : List (Option F)) :
    _double_minus_full (s.series half) (s.series full) = s.series (_double_minus_full half full) := by
  unfold _double_minus_full series
  rw [List.zipWith_map, List.map_zipWith]
  congr 1
  funext a b
  cases a <;> cases b <;> simp [s.sub, s.mul_left]

/-- The Hull average is in the unit of its values. -/
theorem hma_scale (values : List (Option F)) (length : Length) : hma (s.series values) length = s.series (hma values length) := by
  unfold hma
  rw [s.wma_scale, s.wma_scale, s.double_minus_full_scale, s.wma_scale]

/-- So is its exponential variant. -/
theorem ehma_scale (values : List (Option F)) (length : Length) : ehma (s.series values) length = s.series (ehma values length) := by
  unfold ehma
  rw [s.ema_scale, s.ema_scale, s.double_minus_full_scale, s.ema_scale]

/-- And so is the triple one. -/
theorem thma_scale (values : List (Option F)) (length : Length) : thma (s.series values) length = s.series (thma values length) := by
  unfold thma
  rw [s.wma_scale, s.wma_scale, s.wma_scale]
  refine (congrArg (wma · length) ?_).trans (s.wma_scale _ _)
  unfold series
  rw [List.zip_map, List.zipWith_map, List.map_zipWith]
  congr 1
  funext a bc
  obtain ⟨b, c⟩ := bc
  cases a <;> cases b <;> cases c <;> simp [s.sub, s.mul_right]

variable {D : Type} [PyDecimal D]

/-- In every mode the band is in the unit of the closes. -/
theorem hull_scale (closes : List F) (config : UtBotConfig D) : _hull (closes.map s.scale) config = s.series (_hull closes config) := by
  unfold _hull
  rw [← s.series_map_some]
  split
  · exact s.hma_scale _ _
  · exact s.ehma_scale _ _
  · exact s.thma_scale _ _

/-! ## What is compared -/

/-- The colors have no unit. -/
theorem hull_colors_scale (hull : List (Option F)) : _hull_colors (s.series hull) = _hull_colors hull := by
  have hitem : ∀ index : Nat, ((s.series hull)[index]?).join = ((hull[index]?).join).map s.scale := fun index => by
    rw [series, List.getElem?_map]
    rcases hull[index]? with _ | _ | _ <;> rfl
  unfold _hull_colors
  rw [s.length_series]
  refine List.map_congr_left fun index _ => ?_
  have hearlier : (if 2 ≤ index then ((s.series hull)[index - 2]?).join else none) =
      (if 2 ≤ index then (hull[index - 2]?).join else none).map s.scale := by
    rw [hitem]
    split <;> rfl
  rw [hitem, hearlier]
  cases (hull[index]?).join <;> cases (if 2 ≤ index then (hull[index - 2]?).join else none) <;> simp [s.lt]

/-- Whether two series cross does not depend on their unit. -/
theorem cross_scale (left right : List (Option F)) (upward : Bool) : _cross (s.series left) (s.series right) upward = _cross left right upward := by
  have hzip : (s.series left).zip (s.series right) = (left.zip right).map (Prod.map (Option.map s.scale) (Option.map s.scale)) := List.zip_map ..
  unfold _cross
  rw [hzip]
  refine (scan_map (σ := Option.map (Prod.map (Option.map s.scale) (Option.map s.scale))) (h := id) (fun was now => ?_) none _).trans
    (List.map_id _)
  obtain ⟨now_left, now_right⟩ := now
  rcases was with _ | ⟨was_left, was_right⟩
  · rfl
  · cases was_left <;> cases was_right <;> cases now_left <;> cases now_right <;> simp [cross_step, s.lt, s.le]

/-- The trailing stop is in the unit of the closes and the distances. -/
theorem trailing_stop_scale (closes : List F) (nloss : List (Option F)) :
    _trailing_stop (closes.map s.scale) (s.series nloss) = s.series (_trailing_stop closes nloss) := by
  have hzip : (closes.map s.scale).zip (s.series nloss) = (closes.zip nloss).map (Prod.map s.scale (Option.map s.scale)) := List.zip_map ..
  unfold _trailing_stop
  rw [hzip]
  refine scan_map (σ := Prod.map (Option.map s.scale) (Option.map s.scale)) (h := Option.map s.scale) (fun state item => ?_) (none, none) _
  obtain ⟨previous, previous_close⟩ := state
  obtain ⟨close, loss⟩ := item
  have hbase : (previous.map s.scale).getD 0.0 = s.scale (previous.getD 0.0) := by
    cases previous with
    | none => exact s.zero.symm
    | some previous => rfl
  have habove : (previous_close.map s.scale).any (s.scale (previous.getD 0.0) < ·) = previous_close.any (previous.getD 0.0 < ·) := by
    cases previous_close <;> simp [s.lt]
  have hbelow : (previous_close.map s.scale).any (· < s.scale (previous.getD 0.0)) = previous_close.any (· < previous.getD 0.0) := by
    cases previous_close <;> simp [s.lt]
  cases loss with
  | none => rfl
  | some loss =>
    simp only [trailing_step, Prod.map_apply, Option.map_some, hbase, habove, hbelow, s.lt, ← s.sub, ← s.add, s.py_max_scale, s.py_min_scale]
    split
    · rfl
    · split
      · rfl
      · split <;> rfl

end Scaling
/-! ## Bars and signals -/

variable {D : Type} [PyDecimal D]

/-- A bar with the prices of another in the other unit, at the same time. -/
structure Rescaled (price : D → D) (bar bar' : Bar D) : Prop where
  open_time : bar'.open_time = bar.open_time
  high : bar'.high = price bar.high
  low : bar'.low = price bar.low
  close : bar'.close = price bar.close

/-- A signal with its levels in the other unit. -/
@[simps]
def BarSignal.repriced {D : Type} (price : D → D) (signal : BarSignal D) : BarSignal D :=
  { signal with
    trailing_stop := signal.trailing_stop.map price
    stop_low := signal.stop_low.map price
    stop_high := signal.stop_high.map price }

end MtossBot
