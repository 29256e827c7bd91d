import Mathlib.Data.Finset.Max
import MtossBot.Library.Smoothing
import MtossBot.Strategies.UtBot.Indicators

/-!
# The recursive averages, in closed form

On exact numbers, whatever gaps the series has, `rma` and `ema` are read off the run of values that ends at a bar: nothing until the
run is as long as the window, and from there on the mean the run starts with and the values after it, with weights that fall off.
-/

namespace MtossBot

/-- The value of a series at an index where it has one. -/
def valueAt (values : List (Option ℚ)) (j : Nat) : ℚ := (values[j]?.join).getD 0

/-- The values of a series from one index to another. -/
def valuesBetween (values : List (Option ℚ)) (s i : Nat) : Set ℚ := { v | ∃ j, s ≤ j ∧ j ≤ i ∧ values[j]? = some (some v) }

/-- An average of a length with a smoothing factor, in terms of the run that ends at an index. -/
structure AveragesRuns (length : Nat) (alpha : ℚ) (average : List (Option ℚ) → List (Option ℚ)) : Prop where
  isSome_iff : ∀ values s i, RunEndsAt values s i → ((average values)[i]?.join.isSome ↔ length ≤ i + 1 - s)
  value : ∀ values s i v, RunEndsAt values s i → (average values)[i]? = some (some v) →
    v = (1 - alpha) ^ (i + 1 - (s + length)) * ((∑ j ∈ Finset.Ico s (s + length), valueAt values j) / length) +
      ∑ j ∈ Finset.Icc (s + length) i, alpha * (1 - alpha) ^ (i - j) * valueAt values j
  of_run : ∀ values values' s s' i i', RunEndsAt values s i → RunEndsAt values' s' i' → i + 1 - s = i' + 1 - s' →
    (∀ k < i + 1 - s, values[s + k]? = values'[s' + k]?) → (average values)[i]? = (average values')[i']?
  between : ∀ values s i v, RunEndsAt values s i → (average values)[i]? = some (some v) →
    ∃ lowest highest, IsLeast (valuesBetween values s i) lowest ∧ IsGreatest (valuesBetween values s i) highest ∧
      lowest ≤ v ∧ v ≤ highest

namespace RecursiveAveragesAux

variable {values : List (Option ℚ)} {length : Length} {alpha : ℚ} {s i : Nat}

/-- The value at an index is the one that stands there. -/
theorem valueAt_of_getElem? {j : Nat} {v : ℚ} (h : values[j]? = some (some v)) : valueAt values j = v := by
  simp [valueAt, h]

/-- Every index of a run has a value. -/
theorem getElem?_of_run (h : RunEndsAt values s i) {j : Nat} (hj : s ≤ j) (hji : j ≤ i) :
    values[j]? = some (some (valueAt values j)) := by
  obtain ⟨v, hv⟩ := h.value j hj hji
  rw [valueAt_of_getElem? hv, hv]

/-! ## The simple average -/

/-- The literal of zero is the number zero. -/
theorem exact_zero : @OfScientific.ofScientific ℚ PyFloat.exact.toOfScientific 0 true 1 = (0 : ℚ) := by norm_num

/-- And that of one is the number one. -/
theorem exact_one : @OfScientific.ofScientific ℚ PyFloat.exact.toOfScientific 10 true 1 = (1 : ℚ) := by norm_num

/-- A list without gaps is read as it is. -/
theorem mapM_id_map_some {α β : Type} (f : α → β) (l : List α) : (l.map fun a => some (f a)).mapM id = some (l.map f) := by
  induction l with
  | nil => rfl
  | cons a l ih => simp [List.mapM_cons, ih]

/-- The sum a loop adds up from zero. -/
theorem foldl_range (x : Nat → ℚ) (n : Nat) : ((List.range n).map x).foldl (· + ·) 0 = ∑ k ∈ Finset.range n, x k := by
  induction n with
  | zero => rfl
  | succ n ih => rw [List.range_succ, List.map_append, List.foldl_append, ih, Finset.sum_range_succ]; rfl

/-- A window inside a run. -/
theorem window_of_run (h : RunEndsAt values s i) (hlong : length.val ≤ i + 1 - s) :
    window values length i = (List.range length.val).map fun k => some (valueAt values (i + 1 - length.val + k)) := by
  refine List.ext_getElem? ?_
  intro k
  have hle := h.start_le
  have hlt := h.lt_length
  have hpos := length.pos
  rw [window, List.getElem?_drop, List.getElem?_take, List.getElem?_map]
  rcases Nat.lt_or_ge k length.val with hk | hk
  · rw [if_pos (by omega), List.getElem?_range hk, Option.map_some]
    exact getElem?_of_run h (by omega) (by omega)
  · rw [if_neg (by omega), List.getElem?_eq_none (by simpa using hk), Option.map_none]

/-- The simple average is the mean of the last values of the run. -/
theorem sma_at (h : RunEndsAt values s i) :
    (@sma ℚ .exact values length)[i]? =
      some (if i + 1 - s < length.val then none else some (mean (fun k => valueAt values (i + 1 - length.val + k)) length.val)) := by
  unfold sma
  rw [List.getElem?_map, List.getElem?_range h.lt_length, Option.map_some, Option.some.injEq]
  by_cases hlong : i + 1 - s < length.val
  · rw [if_pos hlong]
    split
    · rfl
    · -- The window reaches past the start of the run, to the gap before it.
      have hgap : none ∈ window values length i := by
        have hle := h.start_le
        rcases h.maximal with hzero | hgap
        · omega
        · rcases Nat.eq_zero_or_pos s with hzero | hs
          · omega
          · exact mem_window_iff.mpr ⟨s - 1, by omega, by omega, hgap⟩
      cases hall : (window values length i).mapM id with
      | none => rfl
      | some items =>
        have hsome := mapM_isSome_iff.mp (by rw [hall]; rfl) none hgap
        cases hsome
  · have hle := h.start_le
    rw [if_neg hlong, if_neg (by omega), window_of_run h (by omega), mapM_id_map_some, Option.map_some, exact_zero,
      foldl_range]
    rfl

/-! ## The recursion -/

/-- What a recursive average is at an index where a run ends. -/
def expected (values : List (Option ℚ)) (length : Nat) (alpha : ℚ) (s i : Nat) : Option ℚ :=
  if i + 1 - s < length then none
  else some (smooth alpha (mean (fun k => valueAt values (s + k)) length) (fun k => valueAt values (s + length + k))
    (i + 1 - s - length))

/-- The seed: right when the run is exactly as long as the window, or shorter. -/
theorem seed_at (alpha : ℚ) (h : RunEndsAt values s i) (hshort : i + 1 - s ≤ length.val) :
    (@sma ℚ .exact values length)[i]? = some (expected values length.val alpha s i) := by
  have hle := h.start_le
  rw [sma_at h, expected]
  split
  · rfl
  · rw [show i + 1 - length.val = s by omega, show i + 1 - s - length.val = 0 by omega]
    rfl

/-- A value after a full window moves the average. -/
theorem expected_succ {v : ℚ} (hs : s ≤ i + 1) (hlong : length.val ≤ i + 1 - s) (hv : values[i + 1]? = some (some v)) :
    expected values length.val alpha s (i + 1) =
      (expected values length.val alpha s i).map fun previous => alpha * v + (1 - alpha) * previous := by
  have hlast : valueAt values (s + length.val + (i + 1 - s - length.val)) = v := by
    rw [show s + length.val + (i + 1 - s - length.val) = i + 1 by omega]
    exact valueAt_of_getElem? hv
  rw [expected, expected, if_neg (by omega), if_neg (by omega), Option.map_some,
    show i + 1 + 1 - s - length.val = i + 1 - s - length.val + 1 by omega, smooth, hlast]

/-- One bar of the recursion, from the average of the run before it. -/
theorem step_at {s' : Nat} {item : Option ℚ × Option ℚ} (h : RunEndsAt values s i) (h' : RunEndsAt values s' (i + 1))
    (hitem : (values.zip (@sma ℚ .exact values length))[i + 1]? = some item) :
    (@recursive_step ℚ .exact alpha (expected values length.val alpha s i) item).1 =
      expected values length.val alpha s' (i + 1) := by
  obtain ⟨value, seed⟩ := item
  obtain ⟨hvalue, hseed⟩ : values[i + 1]? = some value ∧ (@sma ℚ .exact values length)[i + 1]? = some seed :=
    List.getElem?_zip_eq_some.mp hitem
  have hpos := length.pos
  cases value with
  | none =>
    -- A gap ends the run, and what comes out is a gap too.
    have hs' : s' = i + 2 := h'.start_eq_of_gap hvalue
    have hnone : expected values length.val alpha s' (i + 1) = none := by
      rw [expected, if_pos (by omega)]
    rw [seed_at alpha h' (by omega), hnone, Option.some.injEq] at hseed
    rw [hnone, ← hseed]
    cases expected values length.val alpha s i <;> rfl
  | some v =>
    have hs' : s = s' := (h.succ hvalue).unique h'
    subst hs'
    have hle := h.start_le
    rcases Nat.lt_or_ge (i + 1 - s) length.val with hshort | hlong
    · -- The run is still too short: the seed decides.
      have hprevious : expected values length.val alpha s i = none := by rw [expected, if_pos hshort]
      rw [seed_at alpha h' (by omega), Option.some.injEq] at hseed
      rw [hprevious, hseed]
      rfl
    · rw [expected_succ hle hlong hvalue, expected, if_neg (by omega), Option.map_some]
      simp only [recursive_step, exact_one]

/-- The recursive average is read off the run that ends at the index. -/
theorem average_at (h : RunEndsAt values s i) :
    (@_recursive_average ℚ .exact values length alpha)[i]? = some (expected values length.val alpha s i) := by
  have hitem : ∀ j, j < values.length → ∃ item, (values.zip (@sma ℚ .exact values length))[j]? = some item := by
    intro j hj
    have hlt : j < (values.zip (@sma ℚ .exact values length)).length := by simpa using hj
    exact ⟨_, List.getElem?_eq_getElem hlt⟩
  induction i generalizing s with
  | zero =>
    obtain ⟨item, hget⟩ := hitem 0 h.lt_length
    have hseed := (List.getElem?_zip_eq_some.mp hget).2
    rw [seed_at alpha h (by have := length.pos; omega), Option.some.injEq] at hseed
    unfold _recursive_average
    rw [scan_getElem?, hget, scanState_zero, hseed]
    rfl
  | succ i ih =>
    have hlt := h.lt_length
    obtain ⟨s', h'⟩ : ∃ s', RunEndsAt values s' i := RunEndsAt.exists_start (by omega)
    obtain ⟨item, hget⟩ := hitem i (by omega)
    obtain ⟨item', hget'⟩ := hitem (i + 1) hlt
    unfold _recursive_average
    rw [scan_getElem?_succ (fun _ current => current) (fun _ _ => rfl) hget (ih h') hget', step_at h' h hget']

/-! ## The closed form -/

/-- An expected value is that of the smoothing, once a whole window came before it. -/
theorem expected_eq_some {v : ℚ} (h : expected values length.val alpha s i = some v) :
    length.val ≤ i + 1 - s ∧ v = smooth alpha (mean (fun k => valueAt values (s + k)) length.val)
      (fun k => valueAt values (s + length.val + k)) (i + 1 - s - length.val) := by
  unfold expected at h
  split at h
  · cases h
  · exact ⟨by omega, (Option.some.inj h).symm⟩

/-- The mean the run starts with. -/
theorem mean_eq (n : Nat) :
    mean (fun k => valueAt values (s + k)) n = (∑ j ∈ Finset.Ico s (s + n), valueAt values j) / n := by
  rw [mean, Finset.sum_Ico_eq_sum_range, Nat.add_sub_cancel_left]

/-- The values after the first window, by their indices. -/
theorem sum_eq (n : Nat) :
    ∑ k ∈ Finset.range (i + 1 - s - n), alpha * (1 - alpha) ^ (i + 1 - s - n - 1 - k) * valueAt values (s + n + k) =
      ∑ j ∈ Finset.Icc (s + n) i, alpha * (1 - alpha) ^ (i - j) * valueAt values j := by
  have hicc : Finset.Icc (s + n) i = Finset.Ico (s + n) (i + 1) := by
    ext j
    simp only [Finset.mem_Icc, Finset.mem_Ico]
    omega
  rw [hicc, Finset.sum_Ico_eq_sum_range, show i + 1 - (s + n) = i + 1 - s - n by omega]
  refine Finset.sum_congr rfl ?_
  intro k hk
  have hk := Finset.mem_range.mp hk
  rw [show i + 1 - s - n - 1 - k = i - (s + n + k) by omega]

/-- In closed form it is the mean of the first window and the later values, each with its weight. -/
theorem expected_closed {v : ℚ} (h : expected values length.val alpha s i = some v) :
    v = (1 - alpha) ^ (i + 1 - (s + length.val)) *
        ((∑ j ∈ Finset.Ico s (s + length.val), valueAt values j) / length.val) +
      ∑ j ∈ Finset.Icc (s + length.val) i, alpha * (1 - alpha) ^ (i - j) * valueAt values j := by
  obtain ⟨hlong, rfl⟩ := expected_eq_some h
  have hpos := length.pos
  rw [smooth_eq_sum, mean_eq, sum_eq, Nat.sub_sub]

/-- Runs with the same values have the same average. -/
theorem expected_congr {values' : List (Option ℚ)} {s' i' : Nat} (hlength : i + 1 - s = i' + 1 - s')
    (hsame : ∀ k < i + 1 - s, values[s + k]? = values'[s' + k]?) :
    expected values length.val alpha s i = expected values' length.val alpha s' i' := by
  have hvalue : ∀ k < i + 1 - s, valueAt values (s + k) = valueAt values' (s' + k) := by
    intro k hk
    rw [valueAt, valueAt, hsame k hk]
  unfold expected
  rw [← hlength]
  by_cases hshort : i + 1 - s < length.val
  · rw [if_pos hshort, if_pos hshort]
  · rw [if_neg hshort, if_neg hshort]
    have hmean : mean (fun k => valueAt values (s + k)) length.val = mean (fun k => valueAt values' (s' + k)) length.val := by
      simp only [mean]
      rw [Finset.sum_congr rfl fun k hk => hvalue k (by have := Finset.mem_range.mp hk; omega)]
    rw [hmean]
    refine congrArg some (smooth_congr ?_)
    intro k hk
    rw [Nat.add_assoc, Nat.add_assoc, hvalue _ (by omega)]

/-- A run that is not empty has a least and a greatest value. -/
theorem exists_extremes (h : RunEndsAt values s i) (hs : s ≤ i) :
    ∃ lowest highest, IsLeast (valuesBetween values s i) lowest ∧ IsGreatest (valuesBetween values s i) highest := by
  have hmem : ∀ j ∈ Finset.Icc s i, valueAt values j ∈ valuesBetween values s i := by
    intro j hj
    obtain ⟨hj, hji⟩ := Finset.mem_Icc.mp hj
    exact ⟨j, hj, hji, getElem?_of_run h hj hji⟩
  have hnonempty : (Finset.Icc s i).Nonempty := ⟨s, Finset.mem_Icc.mpr ⟨le_rfl, hs⟩⟩
  obtain ⟨low, hlow, hleast⟩ := Finset.exists_min_image _ (valueAt values) hnonempty
  obtain ⟨high, hhigh, hgreatest⟩ := Finset.exists_max_image _ (valueAt values) hnonempty
  refine ⟨_, _, ⟨hmem low hlow, ?_⟩, ⟨hmem high hhigh, ?_⟩⟩
  · rintro v ⟨j, hj, hji, hv⟩
    rw [← valueAt_of_getElem? hv]
    exact hleast j (Finset.mem_Icc.mpr ⟨hj, hji⟩)
  · rintro v ⟨j, hj, hji, hv⟩
    rw [← valueAt_of_getElem? hv]
    exact hgreatest j (Finset.mem_Icc.mpr ⟨hj, hji⟩)

/-- The average of a run lies between its extremes. -/
theorem expected_between (h : RunEndsAt values s i) (h0 : 0 ≤ alpha) (h1 : alpha ≤ 1) {v lowest highest : ℚ}
    (hv : expected values length.val alpha s i = some v) (hlow : lowest ∈ lowerBounds (valuesBetween values s i))
    (hhigh : highest ∈ upperBounds (valuesBetween values s i)) : lowest ≤ v ∧ v ≤ highest := by
  obtain ⟨hlong, rfl⟩ := expected_eq_some hv
  have hpos := length.pos
  have hmem : ∀ k < i + 1 - s, valueAt values (s + k) ∈ valuesBetween values s i := fun k hk =>
    ⟨s + k, by omega, by omega, getElem?_of_run h (by omega) (by omega)⟩
  have hfirst : ∀ k < length.val, valueAt values (s + k) ∈ valuesBetween values s i := fun k hk => hmem k (by omega)
  have hlater : ∀ k < i + 1 - s - length.val, valueAt values (s + length.val + k) ∈ valuesBetween values s i := by
    intro k hk
    rw [Nat.add_assoc]
    exact hmem _ (by omega)
  constructor
  · exact le_smooth h0 h1 (le_mean hpos fun k hk => hlow (hfirst k hk)) fun k hk => hlow (hlater k hk)
  · exact smooth_le h0 h1 (mean_le hpos fun k hk => hhigh (hfirst k hk)) fun k hk => hhigh (hlater k hk)

/-- Both averages, by their common skeleton. -/
theorem averages_runs (h0 : 0 ≤ alpha) (h1 : alpha ≤ 1) :
    AveragesRuns length.val alpha fun values => @_recursive_average ℚ .exact values length alpha where
  isSome_iff values s i h := by
    rw [average_at h, Option.join_some, expected]
    split <;> simp <;> omega
  value values s i v h hv := by
    rw [average_at h, Option.some.injEq] at hv
    exact expected_closed hv
  of_run values values' s s' i i' h h' hlength hsame := by
    rw [average_at h, average_at h', expected_congr hlength hsame]
  between values s i v h hv := by
    rw [average_at h, Option.some.injEq] at hv
    have hpos := length.pos
    obtain ⟨lowest, highest, hleast, hgreatest⟩ := exists_extremes h (by have := (expected_eq_some hv).1; omega)
    exact ⟨lowest, highest, hleast, hgreatest, expected_between h h0 h1 hv hleast.2 hgreatest.2⟩

/-- Wilder's average takes the weight from its length. -/
theorem rma_eq (values : List (Option ℚ)) (length : Length) :
    @rma ℚ .exact values length = @_recursive_average ℚ .exact values length (1 / length.val) := by
  unfold rma
  rw [exact_one]
  simp [PyFloat.ofInt]

/-- The exponential average takes it from its length and one. -/
theorem ema_eq (values : List (Option ℚ)) (length : Length) :
    @ema ℚ .exact values length = @_recursive_average ℚ .exact values length (2 / (length.val + 1)) := by
  have htwo : @OfScientific.ofScientific ℚ PyFloat.exact.toOfScientific 20 true 1 = (2 : ℚ) := by norm_num
  unfold ema
  rw [htwo]
  simp [PyFloat.ofInt]

end RecursiveAveragesAux

open RecursiveAveragesAux in
/-- Each index of a series ends one run, empty at a gap, and there `rma` and `ema` are the averages of that run. -/
theorem recursive_averages (length : Length) :
    (∀ (values : List (Option ℚ)) (i : Nat), i < values.length → ∃! s, RunEndsAt values s i) ∧
      AveragesRuns length.val (1 / length.val) (fun values => @rma ℚ .exact values length) ∧
      AveragesRuns length.val (2 / (length.val + 1)) (fun values => @ema ℚ .exact values length) := by
  have hone : (1 : ℚ) ≤ length.val := by exact_mod_cast length.pos
  refine ⟨?_, ?_, ?_⟩
  · intro values i hi
    obtain ⟨s, hs⟩ := RunEndsAt.exists_start hi
    exact ⟨s, hs, fun s' hs' => hs'.unique hs⟩
  · simp only [rma_eq]
    exact averages_runs (by positivity) ((div_le_one (by linarith)).mpr hone)
  · simp only [ema_eq]
    exact averages_runs (by positivity) ((div_le_one (by linarith)).mpr (by linarith))

/-- After a gap the average starts again, with the first full window. -/
example : @rma ℚ .exact [some 1, some 2, none, some 4, some 6, some 9] (.atLeastOne 2) =
    [none, some (3 / 2), none, none, some 5, some 7] := by
  decide +kernel

end MtossBot
