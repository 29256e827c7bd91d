import MtossBot.Library.Series
import MtossBot.Strategies.UtBot.Config

/-!
# Indicators

`strategies/ut_bot/indicators.py`, over any arithmetic. `none` is Pine's `na`. A window's length is positive by its type.
-/

namespace MtossBot

variable {F : Type} [PyFloat F]

/-- Pine's `math.round`: a half goes away from zero. -/
def pine_round (value : F) : Int :=
  if (0.0 : F) ≤ value then PyFloat.floor (value + 0.5) else PyFloat.ceil (value - 0.5)

/-- `values[index + 1 - length : index + 1]`. -/
def window {α : Type} (values : List α) (length : Length) (index : Nat) : List α :=
  (values.take (index + 1)).drop (index + 1 - length.val)

def sma (values : List (Option F)) (length : Length) : List (Option F) :=
  (List.range values.length).map fun index =>
    if index + 1 < length.val then none
    else ((window values length index).mapM id).map fun items => items.foldl (· + ·) 0.0 / PyFloat.ofInt length.val

/-- One step of `_recursive_average`: from the previous output, on a value and what a fresh seed would be. -/
def recursive_step (alpha : F) (previous : Option F) (item : Option F × Option F) : Option F × Option F :=
  let current :=
    match previous with
    | none => item.2
    | some previous =>
      match item.1 with
      | none => none
      | some value => some (alpha * value + (1.0 - alpha) * previous)
  (current, current)

/-- The skeleton `ema` and `rma` share: seeded with an average, and seeded again after a gap. -/
def _recursive_average (values : List (Option F)) (length : Length) (alpha : F) : List (Option F) :=
  scan (recursive_step alpha) none (values.zip (sma values length))

def rma (values : List (Option F)) (length : Length) : List (Option F) :=
  _recursive_average values length (1.0 / PyFloat.ofInt length.val)

def ema (values : List (Option F)) (length : Length) : List (Option F) :=
  _recursive_average values length (2.0 / PyFloat.ofInt (length.val + 1))

/-- The inner loop of `wma` from one offset on: the sums of weights and of weighted values, unless a value is missing. -/
def weightedSums (values : List (Option F)) (length : Length) (index : Nat) : List Nat → F × F → Option (F × F)
  | [], sums => some sums
  | offset :: offsets, (norm, total) =>
    match (values[index - offset]?).join with
    | none => none
    | some item =>
      let weight : F := PyFloat.ofInt ((length.val - offset : Nat) * length.val : Nat)
      weightedSums values length index offsets (norm + weight, total + item * weight)

def wma (values : List (Option F)) (length : Length) : List (Option F) :=
  (List.range values.length).map fun index =>
    if index + 1 < length.val then none
    else (weightedSums values length index (List.range length.val) (0.0, 0.0)).map fun (norm, total) => total / norm

/-- The true range of a bar, given the close before it. -/
def true_range_step (previous_close : Option F) (bar : F × F × F) : F × Option F :=
  let (high, low, close) := bar
  match previous_close with
  | none => (high - low, some close)
  | some previous_close =>
    (py_max (py_max (high - low) (PyFloat.abs (high - previous_close))) (PyFloat.abs (low - previous_close)), some close)

/-- Pine's `ta.tr(true)`: the first bar has no close before it. -/
def true_range (highs lows closes : List F) : List F := scan true_range_step none (highs.zip (lows.zip closes))

def atr (highs lows closes : List F) (length : Length) : List (Option F) :=
  rma ((true_range highs lows closes).map some) length

def _double_minus_full (half full : List (Option F)) : List (Option F) :=
  List.zipWith (fun a b => match a, b with
    | some a, some b => some (2.0 * a - b)
    | _, _ => none) half full

/-- `max(length // n, 1)`. -/
def Length.part (length : Length) (n : Nat) : Length := .atLeastOne (length.val / n)

/-- `max(pine_round(math.sqrt(length)), 1)`. -/
def Length.root (F : Type) [PyFloat F] (length : Length) : Length :=
  .atLeastOne (pine_round (PyFloat.sqrt (PyFloat.ofInt length.val : F))).toNat

def hma (values : List (Option F)) (length : Length) : List (Option F) :=
  wma (_double_minus_full (wma values (length.part 2)) (wma values length)) (length.root F)

def ehma (values : List (Option F)) (length : Length) : List (Option F) :=
  ema (_double_minus_full (ema values (length.part 2)) (ema values length)) (length.root F)

def thma (values : List (Option F)) (length : Length) : List (Option F) :=
  let raw := List.zipWith (fun a bc => match a, bc with
    | some a, (some b, some c) => some (a * 3.0 - b - c)
    | _, _ => none) (wma values (length.part 3)) ((wma values (length.part 2)).zip (wma values length))
  wma raw length

/-- `min(items)`. -/
def minimum? : List F → Option F
  | [] => none
  | a :: l => some (l.foldl py_min a)

/-- `max(items)`. -/
def maximum? : List F → Option F
  | [] => none
  | a :: l => some (l.foldl py_max a)

def lowest (values : List F) (length : Length) : List (Option F) :=
  (List.range values.length).map fun index =>
    if index + 1 < length.val then none else minimum? (window values length index)

def highest (values : List F) (length : Length) : List (Option F) :=
  (List.range values.length).map fun index =>
    if index + 1 < length.val then none else maximum? (window values length index)

/-- Whether two series cross at a bar, given their values at the bar before it. -/
def cross_step (upward : Bool) (was : Option (Option F × Option F)) (now : Option F × Option F) :
    Bool × Option (Option F × Option F) :=
  let crosses :=
    match was, now with
    | some (some was_left, some was_right), (some now_left, some now_right) =>
      if upward then decide (now_right < now_left ∧ was_left ≤ was_right)
      else decide (now_left < now_right ∧ was_right ≤ was_left)
    | _, _ => false
  (crosses, some now)

def _cross (left right : List (Option F)) (upward : Bool) : List Bool := scan (cross_step upward) none (left.zip right)

def crossover (left right : List (Option F)) : List Bool := _cross left right true

def crossunder (left right : List (Option F)) : List Bool := _cross left right false

/-! ## Every indicator has one value for each bar -/

section Lengths

variable (values left right : List (Option F)) (length : Length)

/-- The simple average has a value, or a gap, for each bar. -/
@[simp]
theorem length_sma : (sma values length).length = values.length := by simp [sma]

/-- So has a recursive average. -/
@[simp]
theorem length_recursive_average (alpha : F) : (_recursive_average values length alpha).length = values.length := by
  simp [_recursive_average, length_scan]

/-- So has the weighted average. -/
@[simp]
theorem length_wma : (wma values length).length = values.length := by simp [wma]

/-- The average range has an entry for each bar of which all three prices are known. -/
@[simp]
theorem length_atr (highs lows closes : List F) :
    (atr highs lows closes length).length = min highs.length (min lows.length closes.length) := by
  simp [atr, rma, true_range, length_scan]

/-- The Hull average has an entry for each bar. -/
@[simp]
theorem length_hma : (hma values length).length = values.length := by simp [hma, _double_minus_full]

/-- So has its exponential variant. -/
@[simp]
theorem length_ehma : (ehma values length).length = values.length := by simp [ehma, ema, _double_minus_full]

/-- And so has the triple one. -/
@[simp]
theorem length_thma : (thma values length).length = values.length := by simp [thma]

/-- The lowest lows have an entry for each bar. -/
@[simp]
theorem length_lowest (values : List F) : (lowest values length).length = values.length := by simp [lowest]

/-- So have the highest highs. -/
@[simp]
theorem length_highest (values : List F) : (highest values length).length = values.length := by simp [highest]

/-- A crossing is decided at each bar that both series reach. -/
@[simp]
theorem length_cross (upward : Bool) : (_cross left right upward).length = min left.length right.length := by
  simp [_cross, length_scan]

end Lengths

/-! ## Extremes are values of the series -/

/-- A window shows values of the series only. -/
theorem mem_of_mem_window {α : Type} {values : List α} {length : Length} {index : Nat} {v : α}
    (h : v ∈ window values length index) : v ∈ values :=
  List.mem_of_mem_take (List.mem_of_mem_drop h)

/-- What is picked, two by two, out of a list is one of its elements. -/
theorem foldl_mem {α : Type} {pick : α → α → α} (hpick : ∀ a b, pick a b = a ∨ pick a b = b) (l : List α) (a : α) :
    l.foldl pick a ∈ a :: l := by
  induction l generalizing a with
  | nil => exact List.mem_cons_self
  | cons b l ih =>
    rcases List.mem_cons.mp (ih (pick a b)) with h | h
    · rw [List.foldl_cons, h]
      rcases hpick a b with hp | hp <;> simp [hp]
    · exact List.mem_cons_of_mem _ (List.mem_cons_of_mem _ h)

/-- The least value of a list is one of its values. -/
theorem mem_of_minimum {l : List F} {v : F} (h : minimum? l = some v) : v ∈ l := by
  cases l with
  | nil => cases h
  | cons a l =>
    rw [← Option.some.inj h]
    exact foldl_mem (fun a b => by unfold py_min; split <;> simp) l a

/-- So is the greatest. -/
theorem mem_of_maximum {l : List F} {v : F} (h : maximum? l = some v) : v ∈ l := by
  cases l with
  | nil => cases h
  | cons a l =>
    rw [← Option.some.inj h]
    exact foldl_mem (fun a b => by unfold py_max; split <;> simp) l a

/-- What is reported as the lowest was among the values. -/
theorem mem_lowest {values : List F} {length : Length} {v : F} (h : some v ∈ lowest values length) : v ∈ values := by
  obtain ⟨index, _, hv⟩ := List.mem_map.mp h
  split at hv
  · cases hv
  · exact mem_of_mem_window (mem_of_minimum hv)

/-- What is reported as the highest was among the values. -/
theorem mem_highest {values : List F} {length : Length} {v : F} (h : some v ∈ highest values length) : v ∈ values := by
  obtain ⟨index, _, hv⟩ := List.mem_map.mp h
  split at hv
  · cases hv
  · exact mem_of_mem_window (mem_of_maximum hv)

/-! ## From where on an indicator is defined -/

/-- A list is read as a whole just when each of its entries is there. -/
theorem mapM_isSome_iff {α : Type} {l : List (Option α)} : (l.mapM id).isSome ↔ ∀ x ∈ l, x.isSome := by
  induction l with
  | nil => simp
  | cons x l ih =>
    rw [List.mapM_cons]
    cases x with
    | none => simp
    | some a =>
      cases hl : l.mapM id with
      | none => simpa [hl] using ih
      | some as => simpa [hl] using ih

/-- The values in a window are those of the bars up to its end, no further back than its length. -/
theorem mem_window_iff {α : Type} {values : List α} {length : Length} {index : Nat} {v : α} :
    v ∈ window values length index ↔ ∃ j, index + 1 - length.val ≤ j ∧ j ≤ index ∧ values[j]? = some v := by
  simp only [window, List.mem_iff_getElem?, List.getElem?_drop, List.getElem?_take]
  constructor
  · rintro ⟨k, hk⟩
    split at hk
    · exact ⟨_, by omega, by omega, hk⟩
    · cases hk
  · rintro ⟨j, hj, hle, hv⟩
    refine ⟨j - (index + 1 - length.val), ?_⟩
    rw [if_pos (by omega), show index + 1 - length.val + (j - (index + 1 - length.val)) = j by omega, hv]

section Defined

variable {α : Type} {n : Nat} {values : List (Option F)} {length : Length}

/-- A full window is defined when its first value is. -/
theorem DefinedFrom.window {values : List (Option α)} (h : DefinedFrom n values) {index : Nat}
    (hindex : index < values.length) (hfull : length.val ≤ index + 1) :
    (∀ v ∈ window values length index, v.isSome) ↔ n + length.val - 1 ≤ index := by
  have hpos := length.pos
  constructor
  · intro hall
    have hfirst : values[index + 1 - length.val]? = some values[index + 1 - length.val] :=
      List.getElem?_eq_getElem (by omega)
    have := (h _ _ hfirst).mp (hall _ (mem_window_iff.mpr ⟨_, le_rfl, by omega, hfirst⟩))
    omega
  · intro hn v hv
    obtain ⟨j, hj, _, hv⟩ := mem_window_iff.mp hv
    exact (h j v hv).mpr (by omega)

/-- A simple average starts once its first window is full of values. -/
theorem definedFrom_sma (h : DefinedFrom n values) (length : Length) :
    DefinedFrom (n + length.val - 1) (sma values length) := by
  have hpos := length.pos
  refine DefinedFrom.indexed ?_
  intro index hindex
  split
  · simp only [Option.isSome_none, Bool.false_eq_true, false_iff]
    omega
  · rw [Option.isSome_map, mapM_isSome_iff]
    exact h.window hindex (by omega)

/-- A recursive average starts with the simple average that seeds it. -/
theorem definedFrom_recursive_average (h : DefinedFrom n values) (length : Length) (alpha : F) :
    DefinedFrom (n + length.val - 1) (_recursive_average values length alpha) := by
  have hpos := length.pos
  have hstep : ∀ (i : Nat) (previous : Option F) item, (values.zip (sma values length))[i]? = some item →
      (previous.isSome ↔ n + length.val ≤ i) →
      ((recursive_step alpha previous item).1.isSome ↔ n + length.val - 1 ≤ i) := by
    rintro i previous ⟨value, seed⟩ hitem hprevious
    obtain ⟨hvalue, hseed⟩ := List.getElem?_zip_eq_some.mp hitem
    have hvalue := h i value hvalue
    have hseed := definedFrom_sma h length i seed hseed
    cases previous with
    | none => exact hseed
    | some previous =>
      have hlate : n + length.val ≤ i := hprevious.mp rfl
      cases value with
      | none => exact absurd (hvalue.mpr (by omega)) (by simp)
      | some value => exact iff_of_true rfl (by omega)
  have hstate : ∀ i ≤ (values.zip (sma values length)).length,
      ((scanState (recursive_step alpha) none (values.zip (sma values length)) i).isSome ↔ n + length.val ≤ i) := by
    intro i hi
    refine scanState_invariant (P := fun i (previous : Option F) => previous.isSome ↔ n + length.val ≤ i) ?_ ?_ hi
    · simp only [Option.isSome_none, Bool.false_eq_true, false_iff]
      omega
    · intro i previous item hitem hprevious
      refine (hstep i previous item hitem hprevious).trans ?_
      omega
  intro i x hx
  rw [_recursive_average, scan_getElem?] at hx
  obtain ⟨item, hitem, rfl⟩ := Option.map_eq_some_iff.mp hx
  exact hstep i _ item hitem (hstate i (List.getElem?_eq_some_iff.mp hitem).1.le)

/-- The weighted sums are there just when no value is missing among the offsets. -/
theorem weightedSums_isSome_iff {index : Nat} {offsets : List Nat} {sums : F × F} :
    (weightedSums values length index offsets sums).isSome ↔ ∀ offset ∈ offsets, (values[index - offset]?).join.isSome := by
  induction offsets generalizing sums with
  | nil => simp [weightedSums]
  | cons offset offsets ih =>
    unfold weightedSums
    rw [List.forall_mem_cons]
    cases (values[index - offset]?).join with
    | none => simp
    | some item => simpa using ih

/-- A weighted average starts once its first window is full of values. -/
theorem definedFrom_wma (h : DefinedFrom n values) (length : Length) :
    DefinedFrom (n + length.val - 1) (wma values length) := by
  have hpos := length.pos
  refine DefinedFrom.indexed ?_
  intro index hindex
  split
  · simp only [Option.isSome_none, Bool.false_eq_true, false_iff]
    omega
  · have hwindow : (∀ v ∈ window values length index, v.isSome) ↔ n + length.val - 1 ≤ index := h.window hindex (by omega)
    rw [Option.isSome_map, weightedSums_isSome_iff, ← hwindow]
    constructor
    · intro hall v hv
      obtain ⟨j, hj, hle, hv⟩ := mem_window_iff.mp hv
      have := hall (index - j) (List.mem_range.mpr (by omega))
      rwa [show index - (index - j) = j by omega, hv] at this
    · intro hall offset hoffset
      have hlt : index - offset < values.length := by omega
      have hoffset := List.mem_range.mp hoffset
      rw [List.getElem?_eq_getElem hlt]
      exact hall _ (mem_window_iff.mpr ⟨index - offset, by omega, by omega, List.getElem?_eq_getElem hlt⟩)

/-- The difference of two averages starts with the later of them. -/
theorem definedFrom_double_minus_full {m : Nat} {half full : List (Option F)} (hh : DefinedFrom n half)
    (hf : DefinedFrom m full) : DefinedFrom (max n m) (_double_minus_full half full) :=
  hh.zipWith hf fun a b => by cases a <;> cases b <;> simp

/-- A part of a length is no longer than the length. -/
theorem Length.part_le (length : Length) (n : Nat) : (length.part n).val ≤ length.val := by
  have hpos := length.pos
  have hle : length.val / n ≤ length.val := Nat.div_le_self _ _
  simp only [Length.part, Length.atLeastOne]
  omega

/-- The first true range is there at the first bar, so the average range starts when one length of them is complete. -/
theorem definedFrom_atr {highs lows closes : List F} (length : Length) :
    DefinedFrom (length.val - 1) (atr highs lows closes length) := by
  have := definedFrom_recursive_average (DefinedFrom.map_some (true_range highs lows closes)) length
    (1.0 / PyFloat.ofInt length.val)
  rwa [Nat.zero_add] at this

/-- The parts of an average start with the whole of it, and the smoothing as much later as its own length. -/
theorem definedFrom_hma (values : List F) (length : Length) :
    DefinedFrom (length.val + (length.root F).val - 2) (hma (values.map some) length) := by
  have hpart := length.part_le 2
  have hpos := length.pos
  have hvalues := DefinedFrom.map_some values
  have := definedFrom_wma (definedFrom_double_minus_full (definedFrom_wma hvalues (length.part 2))
    (definedFrom_wma hvalues length)) (length.root F)
  rwa [show max (0 + (length.part 2).val - 1) (0 + length.val - 1) + (length.root F).val - 1 =
    length.val + (length.root F).val - 2 by omega] at this

/-- The exponential variant waits for the full average, and then for the root of the length. -/
theorem definedFrom_ehma (values : List F) (length : Length) :
    DefinedFrom (length.val + (length.root F).val - 2) (ehma (values.map some) length) := by
  have hpart := length.part_le 2
  have hpos := length.pos
  have hvalues := DefinedFrom.map_some values
  have := definedFrom_recursive_average (definedFrom_double_minus_full
    (definedFrom_recursive_average hvalues (length.part 2) (2.0 / PyFloat.ofInt ((length.part 2).val + 1)))
    (definedFrom_recursive_average hvalues length (2.0 / PyFloat.ofInt (length.val + 1)))) (length.root F)
    (2.0 / PyFloat.ofInt ((length.root F).val + 1))
  rwa [show max (0 + (length.part 2).val - 1) (0 + length.val - 1) + (length.root F).val - 1 =
    length.val + (length.root F).val - 2 by omega] at this

/-- The triple variant waits for the longest of its three averages, and then for a length of their combination. -/
theorem definedFrom_thma (values : List F) (length : Length) :
    DefinedFrom (2 * length.val - 2) (thma (values.map some) length) := by
  have hthird := length.part_le 3
  have hhalf := length.part_le 2
  have hpos := length.pos
  have hvalues := DefinedFrom.map_some values
  rw [show 2 * length.val - 2 = length.val - 1 + length.val - 1 by omega]
  refine definedFrom_wma ?_ length
  intro i x hx
  obtain ⟨a, ⟨b, c⟩, ha, hbc, rfl⟩ := List.getElem?_zipWith_eq_some.mp hx
  obtain ⟨hb, hc⟩ := List.getElem?_zip_eq_some.mp hbc
  have ha := definedFrom_wma hvalues (length.part 3) i a ha
  have hb := definedFrom_wma hvalues (length.part 2) i b hb
  have hc := definedFrom_wma hvalues length i c hc
  refine Iff.trans (b := a.isSome ∧ b.isSome ∧ c.isSome) (by cases a <;> cases b <;> cases c <;> simp) ?_
  rw [ha, hb, hc]
  omega

/-- Only the empty list has no least value. -/
theorem minimum_isSome_iff {l : List F} : (minimum? l).isSome ↔ l ≠ [] := by
  cases l <;> simp [minimum?]

/-- Only the empty list has no greatest value. -/
theorem maximum_isSome_iff {l : List F} : (maximum? l).isSome ↔ l ≠ [] := by
  cases l <;> simp [maximum?]

/-- A window of at least one value ends at every index. -/
theorem window_ne_nil {α : Type} {values : List α} {length : Length} {index : Nat} (h : index < values.length) :
    window values length index ≠ [] := by
  have hpos := length.pos
  exact List.ne_nil_of_mem (mem_window_iff.mpr ⟨index, by omega, le_rfl, List.getElem?_eq_getElem h⟩)

/-- A lowest low is reported from the first full window on. -/
theorem definedFrom_lowest (values : List F) (length : Length) :
    DefinedFrom (length.val - 1) (lowest values length) := by
  refine DefinedFrom.indexed ?_
  intro index hindex
  split
  · simp only [Option.isSome_none, Bool.false_eq_true, false_iff]
    omega
  · rw [minimum_isSome_iff]
    exact iff_of_true (window_ne_nil hindex) (by omega)

/-- A highest high is reported from the first full window on. -/
theorem definedFrom_highest (values : List F) (length : Length) :
    DefinedFrom (length.val - 1) (highest values length) := by
  refine DefinedFrom.indexed ?_
  intro index hindex
  split
  · simp only [Option.isSome_none, Bool.false_eq_true, false_iff]
    omega
  · rw [maximum_isSome_iff]
    exact iff_of_true (window_ne_nil hindex) (by omega)

end Defined

/-! ## Where two series cross -/

/-- At the first bar nothing crosses. -/
theorem cross_zero {left right : List (Option F)} {upward crosses : Bool}
    (h : (_cross left right upward)[0]? = some crosses) : crosses = false := by
  rw [_cross, scan_getElem?] at h
  obtain ⟨now, _, rfl⟩ := Option.map_eq_some_iff.mp h
  rfl

/-- Whether two series cross is read off their values at the bar and at the bar before it. -/
theorem cross_succ {left right : List (Option F)} {upward : Bool} {i : Nat} {was now : Option F × Option F}
    (hwas : (left.zip right)[i]? = some was) (hnow : (left.zip right)[i + 1]? = some now) :
    (_cross left right upward)[i + 1]? = some (cross_step upward (some was) now).1 := by
  have hb : (_cross left right upward)[i]? =
      some (cross_step upward (scanState (cross_step upward) none (left.zip right) i) was).1 := by
    rw [_cross, scan_getElem?, hwas, Option.map_some]
  exact scan_getElem?_succ (fun now _ => some now) (fun _ _ => rfl) hwas hb hnow

/-! ## No indicator looks ahead -/

variable {A : Type}

/-- A window that ends before a cut does not see the cut. -/
theorem window_take {α : Type} (values : List α) (length : Length) {n index : Nat} (h : index < n) :
    window (values.take n) length index = window values length index := by
  rw [window, take_succ_take_of_lt h, window]

/-- A simple average looks back only. -/
theorem causal_sma (length : Length) : Causal fun values : List (Option F) => sma values length :=
  Causal.indexed fun values n index h => by rw [window_take values length h]

/-- A recursive average looks back only. -/
theorem causal_recursive_average (length : Length) (alpha : F) :
    Causal fun values : List (Option F) => _recursive_average values length alpha :=
  (Causal.self.zip (causal_sma length)).scan _ _

/-- Wilder's average looks back only. -/
theorem causal_rma (length : Length) : Causal fun values : List (Option F) => rma values length :=
  causal_recursive_average length _

/-- The exponential average looks back only. -/
theorem causal_ema (length : Length) : Causal fun values : List (Option F) => ema values length :=
  causal_recursive_average length _

/-- The weighted sums at an index before a cut do not see the cut. -/
theorem weightedSums_take (values : List (Option F)) (length : Length) {n index : Nat} (h : index < n)
    (offsets : List Nat) (sums : F × F) :
    weightedSums (values.take n) length index offsets sums = weightedSums values length index offsets sums := by
  induction offsets generalizing sums with
  | nil => rfl
  | cons offset offsets ih =>
    have hget : (values.take n)[index - offset]? = values[index - offset]? := List.getElem?_take_of_lt (by omega)
    simp only [weightedSums, hget]
    cases (values[index - offset]?).join with
    | none => rfl
    | some item => exact ih _

/-- A weighted average looks back only. -/
theorem causal_wma (length : Length) : Causal fun values : List (Option F) => wma values length :=
  Causal.indexed fun values n index h => by rw [weightedSums_take values length h]

/-- The true range of prices that are causal is causal. -/
theorem causal_true_range {highs lows closes : List A → List F} (hh : Causal highs) (hl : Causal lows)
    (hc : Causal closes) : Causal fun xs => true_range (highs xs) (lows xs) (closes xs) :=
  (hh.zip (hl.zip hc)).scan _ _

/-- The average range of prices that are causal is causal. -/
theorem causal_atr {highs lows closes : List A → List F} (hh : Causal highs) (hl : Causal lows) (hc : Causal closes)
    (length : Length) : Causal fun xs => atr (highs xs) (lows xs) (closes xs) length :=
  (causal_rma length).comp ((causal_true_range hh hl hc).map some)

/-- The Hull average looks back only. -/
theorem causal_hma (length : Length) : Causal fun values : List (Option F) => hma values length :=
  (causal_wma _).comp ((causal_wma _).zipWith _ (causal_wma _))

/-- Its exponential variant looks back only. -/
theorem causal_ehma (length : Length) : Causal fun values : List (Option F) => ehma values length :=
  (causal_ema _).comp ((causal_ema _).zipWith _ (causal_ema _))

/-- The triple variant looks back only. -/
theorem causal_thma (length : Length) : Causal fun values : List (Option F) => thma values length :=
  (causal_wma _).comp ((causal_wma _).zipWith _ ((causal_wma _).zip (causal_wma _)))

/-- A lowest low looks back only. -/
theorem causal_lowest (length : Length) : Causal fun values : List F => lowest values length :=
  Causal.indexed fun values n index h => by rw [window_take values length h]

/-- A highest high looks back only. -/
theorem causal_highest (length : Length) : Causal fun values : List F => highest values length :=
  Causal.indexed fun values n index h => by rw [window_take values length h]

/-- The crossings of two causal series are causal. -/
theorem causal_cross {left right : List A → List (Option F)} (hl : Causal left) (hr : Causal right) (upward : Bool) :
    Causal fun xs => _cross (left xs) (right xs) upward :=
  (hl.zip hr).scan _ _

end MtossBot
