import MtossBot.Library.Crossing
import MtossBot.Theorems.BacktestAccounting

/-!
# The trailing stop and its signals

Over exact arithmetic, as long as prices move: the close is on one side of the stop, the signals are the changes of side and alternate,
and the stop follows the close and does not give way, but at a close that meets it from below.
-/

namespace MtossBot

/-- The signals, calculated exactly. -/
def exactSignals (config : UtBotConfig ℚ) (bars : List (Bar ℚ)) : Except Exc (List (BarSignal ℚ)) :=
  @compute_signals ℚ _ ℚ .exact .exact bars config

/-- The average range at a bar, calculated exactly. -/
def averageRangeAt (config : UtBotConfig ℚ) (bars : List (Bar ℚ)) (i : Nat) : Option ℚ :=
  ((@atr ℚ .exact (@highs ℚ ℚ _ .exact bars) (@lows ℚ ℚ _ .exact bars) (@closes ℚ ℚ _ .exact bars) config.ut_atr_length)[i]?).join

def closeAt (bars : List (Bar ℚ)) (i : Nat) : ℚ := (bars[i]?.map fun bar => bar.close).getD 0

def stopAt (signals : List (BarSignal ℚ)) (i : Nat) : ℚ := (signals[i]?.bind fun signal => signal.trailing_stop).getD 0

def BuyAt (signals : List (BarSignal ℚ)) (i : Nat) : Prop := signals[i]?.any fun signal => signal.buy

def SellAt (signals : List (BarSignal ℚ)) (i : Nat) : Prop := signals[i]?.any fun signal => signal.sell

namespace RatchetAux

/-! ## One step of the stop -/

/-- The stop after a bar, from the stop and the close before it. -/
def nextStop (base previous_close close loss : ℚ) : ℚ :=
  if base < close ∧ base < previous_close then max base (close - loss)
  else if close < base ∧ previous_close < base then min base (close + loss)
  else if base < close then close - loss
  else close + loss

variable {base previous_close close loss : ℚ}

/-- A stop at the close has no distance to keep. -/
theorem loss_of_nextStop_eq (h : nextStop base previous_close close loss = close) : loss = 0 := by
  unfold nextStop at h
  split_ifs at h with h1 h2
  · rcases max_choice base (close - loss) with hm | hm <;> rw [hm] at h <;> linarith [h1.1]
  · rcases min_choice base (close + loss) with hm | hm <;> rw [hm] at h <;> linarith [h2.1]
  · linarith
  · linarith

/-- With a distance to keep, the close stays on the side of the stop it got to. -/
theorem nextStop_lt_iff (hloss : 0 < loss) : nextStop base previous_close close loss < close ↔ base < close := by
  unfold nextStop
  split_ifs with h1 h2 h3
  · exact iff_of_true (max_lt h1.1 (by linarith)) h1.1
  · exact iff_of_false (not_lt.mpr (le_min h2.1.le (by linarith))) (not_lt.mpr h2.1.le)
  · exact iff_of_true (by linarith) h3
  · exact iff_of_false (by linarith) h3

/-- On the other side likewise, where the stop itself counts. -/
theorem lt_nextStop_iff (hloss : 0 < loss) : close < nextStop base previous_close close loss ↔ close ≤ base := by
  have hne : nextStop base previous_close close loss ≠ close := fun heq => hloss.ne' (loss_of_nextStop_eq heq)
  calc close < nextStop base previous_close close loss
      ↔ ¬nextStop base previous_close close loss < close := ⟨lt_asymm, fun h => lt_of_le_of_ne (not_lt.mp h) hne.symm⟩
    _ ↔ close ≤ base := by rw [nextStop_lt_iff hloss, not_lt]

/-- Under prices that stay above it the stop does not fall. -/
theorem le_nextStop (hclose : base < close) (hprevious : base < previous_close) :
    base ≤ nextStop base previous_close close loss := by
  rw [nextStop, if_pos ⟨hclose, hprevious⟩]
  exact le_max_left _ _

/-- Over prices that stay below it the stop does not rise. -/
theorem nextStop_le (hclose : close < base) (hprevious : previous_close < base) :
    nextStop base previous_close close loss ≤ base := by
  rw [nextStop, if_neg fun h => lt_asymm hclose h.1, if_pos ⟨hclose, hprevious⟩]
  exact min_le_left _ _

/-- The code's step, on a stop and a close. -/
theorem trailing_step_some (base previous_close close loss : ℚ) :
    (@trailing_step ℚ .exact (some base, some previous_close) (close, some loss)).1 =
      some (nextStop base previous_close close loss) := by
  simp only [trailing_step, Option.getD_some, Option.any_some, decide_eq_true_eq, nextStop]
  rw [py_max_eq, py_min_eq]
  split_ifs <;> rfl

/-- The first stop is below a positive close. -/
theorem trailing_step_none (previous_close : Option ℚ) (hclose : 0 < close) (hloss : 0 < loss) :
    ∃ stop, (@trailing_step ℚ .exact (none, previous_close) (close, some loss)).1 = some stop ∧ stop < close := by
  have hzero : @OfScientific.ofScientific ℚ PyFloat.exact.toOfScientific 0 true 1 = (0 : ℚ) := by norm_num
  simp only [trailing_step, Option.getD_none, hzero]
  rw [py_max_eq, if_neg (fun h : close < 0 ∧ _ => lt_asymm hclose h.1), if_pos hclose]
  split_ifs
  · exact ⟨_, rfl, max_lt hclose (by linarith)⟩
  · exact ⟨_, rfl, by linarith⟩

/-! ## The series at a bar -/

variable {config : UtBotConfig ℚ} {bars : List (Bar ℚ)} {signals : List (BarSignal ℚ)} {i : Nat}

/-- Exact numbers are converted as they are. -/
theorem optional_decimal_exact (value : Option ℚ) : @_optional_decimal ℚ ℚ .exact value = .ok value := by
  cases value <;> rfl

/-- Exact levels always convert. -/
theorem exactSignals_ok (config : UtBotConfig ℚ) (bars : List (Bar ℚ)) : ∃ signals, exactSignals config bars = .ok signals := by
  refine exists_mapM_ok ?_
  intro signal hsignal
  obtain ⟨state, row, _, rfl⟩ := mem_scan hsignal
  simp only [signal_step, optional_decimal_exact]
  exact ⟨_, rfl⟩

/-- The closes are those of the bars. -/
theorem closes_at (hi : i < bars.length) : (@closes ℚ ℚ _ .exact bars)[i]? = some (closeAt bars i) := by
  simp only [closes, closeAt, List.getElem?_map, List.getElem?_eq_getElem hi, Option.map_some, Option.getD_some]
  rfl

/-- The signal of a bar is read off the series at it. -/
theorem signal_at (h : exactSignals config bars = .ok signals) (hi : i < bars.length) :
    ∃ signal, signals[i]? = some signal ∧ (@trailing ℚ ℚ .exact _ .exact config bars)[i]? = some signal.trailing_stop ∧
      (@buys ℚ ℚ .exact _ .exact config bars)[i]? = some signal.buy ∧
      (@sells ℚ ℚ .exact _ .exact config bars)[i]? = some signal.sell := by
  have hlt : i < signals.length := by rwa [@length_compute_signals ℚ ℚ .exact _ .exact config bars signals h]
  have hget : signals[i]? = some signals[i] := List.getElem?_eq_getElem hlt
  obtain ⟨row, _, hrow, hstep⟩ := @compute_signals_row ℚ ℚ .exact _ .exact config bars signals h i _ hget
  obtain ⟨hbuy, hsell, _, htrailing, _⟩ := @signal_step_ok ℚ ℚ _ .exact _ row _ hstep
  obtain ⟨hbuys, hsells, _, htrailings, _⟩ := @signalRows_getElem? ℚ ℚ .exact _ .exact config bars row i hrow
  rw [optional_decimal_exact, Except.ok.injEq] at htrailing
  rw [← hbuy] at hbuys
  rw [← hsell] at hsells
  rw [htrailing] at htrailings
  exact ⟨_, hget, htrailings, hbuys, hsells⟩

/-- The trailing stop is that of the signals, once there is one. -/
theorem trailing_at (h : exactSignals config bars = .ok signals) (hi : i < bars.length) :
    (@trailing ℚ ℚ .exact _ .exact config bars)[i]? =
      some (if config.ut_atr_length.val - 1 ≤ i then some (stopAt signals i) else none) := by
  obtain ⟨signal, hsignal, htrailing, _⟩ := signal_at h hi
  have hdefined := @definedFrom_trailing ℚ ℚ .exact _ .exact config bars i _ htrailing
  rw [htrailing, stopAt, hsignal, Option.bind_some]
  cases hstop : signal.trailing_stop with
  | none =>
    rw [hstop] at hdefined
    rw [if_neg (by simpa using hdefined)]
  | some stop =>
    rw [hstop] at hdefined
    rw [if_pos (hdefined.mp rfl), Option.getD_some]

/-- The distance of the stop is the average range, as often as the key says. -/
theorem nloss_at (hi : i < bars.length) (hdefined : config.ut_atr_length.val - 1 ≤ i) :
    ∃ range, averageRangeAt config bars i = some range ∧
      (@nloss ℚ ℚ .exact _ .exact config bars)[i]? = some (some (config.ut_key * range)) := by
  have hlt : i < (@atr ℚ .exact (@highs ℚ ℚ _ .exact bars) (@lows ℚ ℚ _ .exact bars) (@closes ℚ ℚ _ .exact bars)
      config.ut_atr_length).length := by
    simpa using hi
  have hget := List.getElem?_eq_getElem hlt
  obtain ⟨range, hrange⟩ := Option.isSome_iff_exists.mp ((@definedFrom_atr ℚ .exact _ _ _ _ i _ hget).mpr hdefined)
  rw [hrange] at hget
  refine ⟨range, ?_, ?_⟩
  · rw [averageRangeAt, hget, Option.join_some]
  · rw [nloss, List.getElem?_map, hget]
    rfl

/-- What the stop is computed from at a bar: its close and its distance. -/
theorem item_at (config : UtBotConfig ℚ) (hi : i < bars.length) : ∃ loss,
    ((@closes ℚ ℚ _ .exact bars).zip (@nloss ℚ ℚ .exact _ .exact config bars))[i]? = some (closeAt bars i, loss) := by
  have hlength := @length_nloss ℚ ℚ .exact _ .exact config bars
  exact ⟨_, List.getElem?_zip_eq_some.mpr ⟨closes_at hi, List.getElem?_eq_getElem (by rwa [hlength])⟩⟩

/-- The stop after the first is the next of the one before. -/
theorem stop_next (h : exactSignals config bars = .ok signals) (hi : i + 1 < bars.length)
    (hdefined : config.ut_atr_length.val ≤ i + 1) :
    ∃ range, averageRangeAt config bars (i + 1) = some range ∧
      stopAt signals (i + 1) = nextStop (stopAt signals i) (closeAt bars i) (closeAt bars (i + 1)) (config.ut_key * range) := by
  obtain ⟨range, hrange, hloss⟩ := nloss_at hi (by omega : config.ut_atr_length.val - 1 ≤ i + 1)
  obtain ⟨loss, hitem⟩ := item_at config (Nat.lt_of_succ_lt hi)
  have hbefore := trailing_at h (Nat.lt_of_succ_lt hi)
  have hafter := trailing_at h hi
  rw [if_pos (by omega)] at hbefore hafter
  have hitem' : ((@closes ℚ ℚ _ .exact bars).zip (@nloss ℚ ℚ .exact _ .exact config bars))[i + 1]? =
      some (closeAt bars (i + 1), some (config.ut_key * range)) := List.getElem?_zip_eq_some.mpr ⟨closes_at hi, hloss⟩
  have hnext := @trailing_stop_succ ℚ .exact _ _ _ _ _ _ _ hitem hbefore hitem'
  rw [trailing_step_some] at hnext
  exact ⟨range, hrange, Option.some.inj (Option.some.inj (hafter.symm.trans hnext))⟩

/-- Before the first stop there is none. -/
theorem stop_start (h : exactSignals config bars = .ok signals) (hi : i < bars.length) {loss : Option ℚ}
    (hloss : (@nloss ℚ ℚ .exact _ .exact config bars)[i]? = some loss) (hfirst : config.ut_atr_length.val - 1 = i) :
    ∃ previous_close, (@trailing ℚ ℚ .exact _ .exact config bars)[i]? =
      some (@trailing_step ℚ .exact (none, previous_close) (closeAt bars i, loss)).1 := by
  have hitem : ((@closes ℚ ℚ _ .exact bars).zip (@nloss ℚ ℚ .exact _ .exact config bars))[i]? =
      some (closeAt bars i, loss) := List.getElem?_zip_eq_some.mpr ⟨closes_at hi, hloss⟩
  cases i with
  | zero =>
    refine ⟨none, (scan_getElem? (@trailing_step ℚ .exact) (none, none) _ 0).trans ?_⟩
    rw [hitem]
    rfl
  | succ i =>
    have hbefore := trailing_at h (Nat.lt_of_succ_lt hi)
    rw [if_neg (by omega)] at hbefore
    obtain ⟨loss, hitem'⟩ := item_at config (Nat.lt_of_succ_lt hi)
    exact ⟨_, @trailing_stop_succ ℚ .exact _ _ _ _ _ _ _ hitem' hbefore hitem⟩

/-- Closes are positive. -/
theorem closeAt_pos (hi : i < bars.length) : 0 < closeAt bars i := by
  rw [closeAt, List.getElem?_eq_getElem hi]
  exact not_le.mp bars[i].close_pos

/-- The first stop is below the close. -/
theorem stop_first (h : exactSignals config bars = .ok signals) (hi : i < bars.length)
    (hfirst : config.ut_atr_length.val - 1 = i) :
    ∃ range, averageRangeAt config bars i = some range ∧ (0 < range → stopAt signals i < closeAt bars i) := by
  obtain ⟨range, hrange, hloss⟩ := nloss_at hi hfirst.le
  refine ⟨range, hrange, ?_⟩
  intro hpos
  obtain ⟨previous_close, hstart⟩ := stop_start h hi hloss hfirst
  have hkey : 0 < config.ut_key * range := mul_pos (not_le.mp config.ut_key_pos) hpos
  obtain ⟨stop, hstop, hlt⟩ := trailing_step_none previous_close (closeAt_pos hi) hkey
  have hat := trailing_at h hi
  rw [if_pos hfirst.le, hstart, hstop] at hat
  rw [← Option.some.inj (Option.some.inj hat)]
  exact hlt

/-! ## The signals are crossings -/

/-- What is compared at a bar. -/
theorem pair_at (h : exactSignals config bars = .ok signals) (hi : i < bars.length) :
    (((@closes ℚ ℚ _ .exact bars).map some).zip (@trailing ℚ ℚ .exact _ .exact config bars))[i]? =
      some (some (closeAt bars i), if config.ut_atr_length.val - 1 ≤ i then some (stopAt signals i) else none) := by
  refine List.getElem?_zip_eq_some.mpr ⟨?_, trailing_at h hi⟩
  rw [List.getElem?_map, closes_at hi, Option.map_some]

/-- What crosses at a bar are the closes and the stops of the signals. -/
theorem cross_at (h : exactSignals config bars = .ok signals) (hi : i < bars.length) (upward : Bool) :
    (@_cross ℚ .exact ((@closes ℚ ℚ _ .exact bars).map some) (@trailing ℚ ℚ .exact _ .exact config bars) upward)[i]? =
      some true ↔ config.ut_atr_length.val ≤ i ∧
        if upward then Crosses (closeAt bars) (stopAt signals) i else Crosses (stopAt signals) (closeAt bars) i := by
  have hpos := config.ut_atr_length.pos
  cases i with
  | zero =>
    refine iff_of_false ?_ (by omega)
    intro hcross
    exact absurd (@cross_zero ℚ .exact _ _ upward _ hcross) (by simp)
  | succ i =>
    have hcross := @cross_succ ℚ .exact _ _ upward _ _ _ (pair_at h (Nat.lt_of_succ_lt hi)) (pair_at h hi)
    rw [hcross, Option.some.injEq]
    by_cases hdefined : config.ut_atr_length.val ≤ i + 1
    · rw [if_pos (by omega), if_pos (by omega)]
      simp only [hdefined, true_and, Crosses, Nat.succ_pos, Nat.add_sub_cancel]
      cases upward with
      | true => simp [cross_step, and_comm]
      | false => simp [cross_step, and_comm]
    · rw [if_neg (by omega)]
      exact iff_of_false (by simp [cross_step]) fun hright => hdefined hright.1

/-- A purchase is signalled where the close crosses the stop upward. -/
theorem buyAt_iff (h : exactSignals config bars = .ok signals) :
    BuyAt signals i ↔ config.ut_atr_length.val ≤ i ∧ i < bars.length ∧ Crosses (closeAt bars) (stopAt signals) i := by
  have hlength := @length_compute_signals ℚ ℚ .exact _ .exact config bars signals h
  by_cases hi : i < bars.length
  · obtain ⟨signal, hsignal, _, hbuy, _⟩ := signal_at h hi
    have hcross := cross_at h hi true
    rw [show (@_cross ℚ .exact _ _ true)[i]? = some signal.buy from hbuy, Option.some.injEq, if_pos rfl] at hcross
    rw [BuyAt, hsignal, Option.any_some, hcross]
    exact and_congr_right fun _ => (and_iff_right hi).symm
  · rw [BuyAt, List.getElem?_eq_none (by omega)]
    exact iff_of_false (by simp) fun hright => hi hright.2.1

/-- A sale is signalled where the close crosses the stop downward. -/
theorem sellAt_iff (h : exactSignals config bars = .ok signals) :
    SellAt signals i ↔ config.ut_atr_length.val ≤ i ∧ i < bars.length ∧ Crosses (stopAt signals) (closeAt bars) i := by
  have hlength := @length_compute_signals ℚ ℚ .exact _ .exact config bars signals h
  by_cases hi : i < bars.length
  · obtain ⟨signal, hsignal, _, _, hsell⟩ := signal_at h hi
    have hcross := cross_at h hi false
    rw [show (@_cross ℚ .exact _ _ false)[i]? = some signal.sell from hsell, Option.some.injEq, if_neg (by simp)] at hcross
    rw [SellAt, hsignal, Option.any_some, hcross]
    exact and_congr_right fun _ => (and_iff_right hi).symm
  · rw [SellAt, List.getElem?_eq_none (by omega)]
    exact iff_of_false (by simp) fun hright => hi hright.2.1

/-- Where the close meets the stop, after the first, the range is zero. -/
theorem range_of_touch (h : exactSignals config bars = .ok signals) (hi : i < bars.length)
    (hdefined : config.ut_atr_length.val ≤ i) (htouch : closeAt bars i = stopAt signals i) :
    averageRangeAt config bars i = some 0 := by
  have hpos := config.ut_atr_length.pos
  obtain ⟨i, rfl⟩ : ∃ k, i = k + 1 := ⟨i - 1, by omega⟩
  obtain ⟨range, hrange, hstop⟩ := stop_next h hi hdefined
  have hloss := loss_of_nextStop_eq (hstop.symm.trans htouch.symm)
  rcases mul_eq_zero.mp hloss with hkey | hzero
  · exact absurd hkey.le config.ut_key_pos
  · rw [hrange, hzero]

/-! ## While prices move -/

end RatchetAux

/-- Every average range is positive. -/
def PricesMove (config : UtBotConfig ℚ) (bars : List (Bar ℚ)) : Prop :=
  ∀ i, config.ut_atr_length.val - 1 ≤ i → i < bars.length → ∃ range, averageRangeAt config bars i = some range ∧ 0 < range

namespace RatchetAux

section Moving

variable {config : UtBotConfig ℚ} {bars : List (Bar ℚ)} {signals : List (BarSignal ℚ)} {i j : Nat}

/-- Where prices move, the stop takes a step with a distance to keep. -/
theorem moving_next (h : exactSignals config bars = .ok signals) (hmove : PricesMove config bars) (hi : i + 1 < bars.length)
    (hdefined : config.ut_atr_length.val ≤ i + 1) : ∃ loss, 0 < loss ∧
      stopAt signals (i + 1) = nextStop (stopAt signals i) (closeAt bars i) (closeAt bars (i + 1)) loss := by
  obtain ⟨range, hrange, hstop⟩ := stop_next h hi hdefined
  obtain ⟨range', hrange', hpos⟩ := hmove (i + 1) (by omega) hi
  rw [hrange, Option.some.injEq] at hrange'
  rw [← hrange'] at hpos
  exact ⟨_, mul_pos (not_le.mp config.ut_key_pos) hpos, hstop⟩

/-- Where prices move, no close is at its stop. -/
theorem off_stop (h : exactSignals config bars = .ok signals) (hmove : PricesMove config bars) (hi : i < bars.length)
    (hdefined : config.ut_atr_length.val - 1 ≤ i) : closeAt bars i ≠ stopAt signals i := by
  rcases Nat.lt_or_ge i config.ut_atr_length.val with hlt | hge
  · obtain ⟨range, hrange, hbelow⟩ := stop_first h hi (by omega)
    obtain ⟨range', hrange', hpos⟩ := hmove i hdefined hi
    rw [hrange, Option.some.injEq] at hrange'
    rw [← hrange'] at hpos
    exact (hbelow hpos).ne'
  · intro htouch
    obtain ⟨range, hrange, hpos⟩ := hmove i hdefined hi
    rw [range_of_touch h hi hge htouch, Option.some.injEq] at hrange
    exact hpos.ne hrange

/-- Where prices move, a close is above its stop just when it is above the stop before. -/
theorem above_next (h : exactSignals config bars = .ok signals) (hmove : PricesMove config bars) (hi : i + 1 < bars.length)
    (hdefined : config.ut_atr_length.val ≤ i + 1) :
    stopAt signals (i + 1) < closeAt bars (i + 1) ↔ stopAt signals i < closeAt bars (i + 1) := by
  obtain ⟨loss, hloss, hstop⟩ := moving_next h hmove hi hdefined
  rw [hstop, nextStop_lt_iff hloss]

/-- A close is below its stop just when it is not above the stop before. -/
theorem below_next (h : exactSignals config bars = .ok signals) (hmove : PricesMove config bars) (hi : i + 1 < bars.length)
    (hdefined : config.ut_atr_length.val ≤ i + 1) :
    closeAt bars (i + 1) < stopAt signals (i + 1) ↔ closeAt bars (i + 1) ≤ stopAt signals i := by
  obtain ⟨loss, hloss, hstop⟩ := moving_next h hmove hi hdefined
  rw [hstop, lt_nextStop_iff hloss]

/-- Above the stop without a SELL, the stop does not give way. -/
theorem rises (h : exactSignals config bars = .ok signals) (hmove : PricesMove config bars) (hi : BuyAt signals i) (hij : i < j)
    (hj : j < bars.length) (hsell : ∀ k, i < k → k ≤ j → ¬SellAt signals k) : stopAt signals (j - 1) ≤ stopAt signals j := by
  obtain ⟨hdefined, _, hcross⟩ := (buyAt_iff h).mp hi
  have habove : ∀ k, i ≤ k → k ≤ j → stopAt signals k < closeAt bars k := fun k hik hkj =>
    stays_above hcross.2.2 hik
      (fun l hil hlk hcrosses => hsell l hil (by omega) ((sellAt_iff h).mpr ⟨by omega, by omega, hcrosses⟩))
      fun l hil hlk => off_stop h hmove (by omega) (by omega)
  obtain ⟨j, rfl⟩ : ∃ k, j = k + 1 := ⟨j - 1, by omega⟩
  obtain ⟨loss, _, hstop⟩ := moving_next h hmove hj (by omega)
  have hclose := (above_next h hmove hj (by omega)).mp (habove (j + 1) (by omega) le_rfl)
  rw [Nat.add_sub_cancel, hstop]
  exact le_nextStop hclose (habove j (by omega) (by omega))

/-- Below the stop without a BUY, the stop gives way only to a close that meets it. -/
theorem falls (h : exactSignals config bars = .ok signals) (hmove : PricesMove config bars) (hi : SellAt signals i) (hij : i < j)
    (hj : j < bars.length) (hbuy : ∀ k, i < k → k ≤ j → ¬BuyAt signals k)
    (hmeet : closeAt bars j ≠ stopAt signals (j - 1)) : stopAt signals j ≤ stopAt signals (j - 1) := by
  obtain ⟨hdefined, _, hcross⟩ := (sellAt_iff h).mp hi
  have hbelow : ∀ k, i ≤ k → k ≤ j → closeAt bars k < stopAt signals k := fun k hik hkj =>
    stays_above hcross.2.2 hik
      (fun l hil hlk hcrosses => hbuy l hil (by omega) ((buyAt_iff h).mpr ⟨by omega, by omega, hcrosses⟩))
      fun l hil hlk => (off_stop h hmove (by omega) (by omega)).symm
  obtain ⟨j, rfl⟩ : ∃ k, j = k + 1 := ⟨j - 1, by omega⟩
  obtain ⟨loss, _, hstop⟩ := moving_next h hmove hj (by omega)
  have hclose := (below_next h hmove hj (by omega)).mp (hbelow (j + 1) (by omega) le_rfl)
  rw [Nat.add_sub_cancel] at hmeet ⊢
  rw [hstop]
  exact nextStop_le (lt_of_le_of_ne hclose hmeet) (hbelow j (by omega) (by omega))

/-- The signals are changes of side, as the next close compares with the stop of the bar before. -/
theorem buyAt_iff_moving (h : exactSignals config bars = .ok signals) (hmove : PricesMove config bars) (hi : i < bars.length)
    (hdefined : config.ut_atr_length.val ≤ i) :
    BuyAt signals i ↔ stopAt signals (i - 1) < closeAt bars i ∧ closeAt bars (i - 1) < stopAt signals (i - 1) := by
  have hpos := config.ut_atr_length.pos
  obtain ⟨i, rfl⟩ : ∃ k, i = k + 1 := ⟨i - 1, by omega⟩
  have hoff := off_stop h hmove (Nat.lt_of_succ_lt hi) (by omega)
  rw [buyAt_iff h, Crosses, above_next h hmove hi hdefined, Nat.add_sub_cancel, lt_iff_le_and_ne (a := closeAt bars i)]
  exact ⟨fun ⟨_, _, _, hle, hlt⟩ => ⟨hlt, hle, hoff⟩, fun ⟨hlt, hle, _⟩ => ⟨hdefined, hi, Nat.succ_pos i, hle, hlt⟩⟩

/-- Where prices move, a sale is signalled when the close falls to the stop of the bar before. -/
theorem sellAt_iff_moving (h : exactSignals config bars = .ok signals) (hmove : PricesMove config bars) (hi : i < bars.length)
    (hdefined : config.ut_atr_length.val ≤ i) :
    SellAt signals i ↔ closeAt bars i ≤ stopAt signals (i - 1) ∧ stopAt signals (i - 1) < closeAt bars (i - 1) := by
  have hpos := config.ut_atr_length.pos
  obtain ⟨i, rfl⟩ : ∃ k, i = k + 1 := ⟨i - 1, by omega⟩
  have hoff := off_stop h hmove (Nat.lt_of_succ_lt hi) (by omega)
  rw [sellAt_iff h, Crosses, below_next h hmove hi hdefined, Nat.add_sub_cancel, lt_iff_le_and_ne (a := stopAt signals i)]
  exact ⟨fun ⟨_, _, _, hle, hlt⟩ => ⟨hlt, hle, hoff.symm⟩, fun ⟨hlt, hle, _⟩ => ⟨hdefined, hi, Nat.succ_pos i, hle, hlt⟩⟩

/-- The close starts above the stop, so that the crossings alternate and the first is downward. -/
theorem alternate_moving (h : exactSignals config bars = .ok signals) (hmove : PricesMove config bars)
    (hn : config.ut_atr_length.val - 1 < bars.length) :
    Alternate (config.ut_atr_length.val - 1) bars.length (closeAt bars) (stopAt signals) := by
  obtain ⟨range, hrange, hbelow⟩ := stop_first h hn rfl
  obtain ⟨range', hrange', hpos⟩ := hmove _ le_rfl hn
  rw [hrange, Option.some.injEq] at hrange'
  rw [← hrange'] at hpos
  exact alternate (hbelow hpos) fun k hk hkn => off_stop h hmove hkn hk.le

end Moving

end RatchetAux

/-- What holds of the stops and signals while prices move. -/
structure Ratchets (config : UtBotConfig ℚ) (bars : List (Bar ℚ)) (signals : List (BarSignal ℚ)) : Prop where
  stops : ∀ i, config.ut_atr_length.val - 1 ≤ i → i < bars.length →
    (∃ signal, signals[i]? = some signal ∧ signal.trailing_stop = some (stopAt signals i)) ∧ closeAt bars i ≠ stopAt signals i
  buys : ∀ i, config.ut_atr_length.val ≤ i → i < bars.length →
    (BuyAt signals i ↔ stopAt signals (i - 1) < closeAt bars i ∧ closeAt bars (i - 1) < stopAt signals (i - 1))
  sells : ∀ i, config.ut_atr_length.val ≤ i → i < bars.length →
    (SellAt signals i ↔ closeAt bars i ≤ stopAt signals (i - 1) ∧ stopAt signals (i - 1) < closeAt bars (i - 1))
  late : ∀ i, BuyAt signals i ∨ SellAt signals i → config.ut_atr_length.val ≤ i ∧ i < bars.length
  one : ∀ i, BuyAt signals i → ¬SellAt signals i
  between_buys : ∀ i j, i < j → BuyAt signals i → BuyAt signals j → ∃ k, i < k ∧ k < j ∧ SellAt signals k
  between_sells : ∀ i j, i < j → SellAt signals i → SellAt signals j → ∃ k, i < k ∧ k < j ∧ BuyAt signals k
  sell_first : ∀ j, BuyAt signals j → ∃ i < j, SellAt signals i
  rises : ∀ i j, i < j → j < bars.length → BuyAt signals i → (∀ k, i < k → k ≤ j → ¬SellAt signals k) →
    stopAt signals (j - 1) ≤ stopAt signals j
  falls : ∀ i j, i < j → j < bars.length → SellAt signals i → (∀ k, i < k → k ≤ j → ¬BuyAt signals k) →
    closeAt bars j ≠ stopAt signals (j - 1) → stopAt signals j ≤ stopAt signals (j - 1)

open RatchetAux in
/-- While prices move the stop is a ratchet and the signals alternate; a signal repeats only across a bar with an average range of zero. -/
theorem signals_alternate (config : UtBotConfig ℚ) (bars : List (Bar ℚ)) :
    ∃ signals, exactSignals config bars = .ok signals ∧ (PricesMove config bars → Ratchets config bars signals) ∧
      (∀ i j, i < j → BuyAt signals i → BuyAt signals j → (∀ k, i < k → k < j → ¬SellAt signals k) →
        ∃ k, i < k ∧ k < j ∧ averageRangeAt config bars k = some 0) ∧
      ∀ i j, i < j → SellAt signals i → SellAt signals j → (∀ k, i < k → k < j → ¬BuyAt signals k) →
        ∃ k, i < k ∧ k < j ∧ averageRangeAt config bars k = some 0 := by
  have hlength := config.ut_atr_length.pos
  obtain ⟨signals, h⟩ := exactSignals_ok config bars
  refine ⟨signals, h, ?_, ?_, ?_⟩
  · intro hmove
    constructor
    case stops =>
      intro i hdefined hi
      refine ⟨?_, off_stop h hmove hi hdefined⟩
      obtain ⟨signal, hsignal, htrailing, _⟩ := signal_at h hi
      have hat := trailing_at h hi
      rw [if_pos hdefined, htrailing] at hat
      exact ⟨signal, hsignal, Option.some.inj hat⟩
    case buys => exact fun i hdefined hi => buyAt_iff_moving h hmove hi hdefined
    case sells => exact fun i hdefined hi => sellAt_iff_moving h hmove hi hdefined
    case late =>
      rintro i (hbuy | hsell)
      · exact ⟨((buyAt_iff h).mp hbuy).1, ((buyAt_iff h).mp hbuy).2.1⟩
      · exact ⟨((sellAt_iff h).mp hsell).1, ((sellAt_iff h).mp hsell).2.1⟩
    case one => exact fun i hbuy hsell => ((buyAt_iff h).mp hbuy).2.2.asymm ((sellAt_iff h).mp hsell).2.2
    case between_buys =>
      intro i j hij hi hj
      obtain ⟨hdefined, _, hci⟩ := (buyAt_iff h).mp hi
      obtain ⟨_, hjn, hcj⟩ := (buyAt_iff h).mp hj
      obtain ⟨k, hik, hkj, hk⟩ := (alternate_moving h hmove (by omega)).between i j (by omega) hij hjn hci hcj
      exact ⟨k, hik, hkj, (sellAt_iff h).mpr ⟨by omega, by omega, hk⟩⟩
    case between_sells =>
      intro i j hij hi hj
      obtain ⟨hdefined, _, hci⟩ := (sellAt_iff h).mp hi
      obtain ⟨_, hjn, hcj⟩ := (sellAt_iff h).mp hj
      obtain ⟨k, hik, hkj, hk⟩ := (alternate_moving h hmove (by omega)).between' i j (by omega) hij hjn hci hcj
      exact ⟨k, hik, hkj, (buyAt_iff h).mpr ⟨by omega, by omega, hk⟩⟩
    case sell_first =>
      intro j hj
      obtain ⟨hdefined, hjn, hcj⟩ := (buyAt_iff h).mp hj
      obtain ⟨k, hmk, hkj, hk⟩ := (alternate_moving h hmove (by omega)).first j (by omega) hjn hcj
      exact ⟨k, hkj, (sellAt_iff h).mpr ⟨by omega, by omega, hk⟩⟩
    case rises => exact fun i j hij hj hbuy hsell => RatchetAux.rises h hmove hbuy hij hj hsell
    case falls => exact fun i j hij hj hsell hbuy hmeet => RatchetAux.falls h hmove hsell hij hj hbuy hmeet
  · intro i j hij hi hj hnone
    obtain ⟨hdefined, _, hci⟩ := (buyAt_iff h).mp hi
    obtain ⟨_, hjn, hcj⟩ := (buyAt_iff h).mp hj
    obtain ⟨k, hik, hkj, htouch⟩ := touched_between hci hcj hij fun k hik hkj hk =>
      hnone k hik hkj ((sellAt_iff h).mpr ⟨by omega, by omega, hk⟩)
    exact ⟨k, hik, hkj, range_of_touch h (by omega) (by omega) htouch⟩
  · intro i j hij hi hj hnone
    obtain ⟨hdefined, _, hci⟩ := (sellAt_iff h).mp hi
    obtain ⟨_, hjn, hcj⟩ := (sellAt_iff h).mp hj
    obtain ⟨k, hik, hkj, htouch⟩ := touched_between hci hcj hij fun k hik hkj hk =>
      hnone k hik hkj ((buyAt_iff h).mpr ⟨by omega, by omega, hk⟩)
    exact ⟨k, hik, hkj, range_of_touch h (by omega) (by omega) htouch.symm⟩

/-- A market that falls through the stop, closes at it from below, and breaks out. -/
def meetBars : List (Bar ℚ) :=
  [sampleBar 0 100 101 99 100 sample_accepted_0, sampleBar 1 90 91 89 90 (by decide +kernel),
    sampleBar 2 112 113 111 112 (by decide +kernel), sampleBar 3 170 171 169 170 (by decide +kernel)]

/-- The settings as they are, but for a range of one bar. -/
def oneBarConfig : UtBotConfig ℚ where
  toUtBotConfigFields := { UtBotConfig.default.toUtBotConfigFields with ut_atr := 1 }
  accepted := by decide +kernel

/-- Prices move throughout. -/
theorem meetBars_move : PricesMove oneBarConfig meetBars := by
  have hranges : averageRangeAt oneBarConfig meetBars 0 = some 2 ∧ averageRangeAt oneBarConfig meetBars 1 = some 11 ∧
      averageRangeAt oneBarConfig meetBars 2 = some 23 ∧ averageRangeAt oneBarConfig meetBars 3 = some 59 := by
    decide +kernel
  obtain ⟨h0, h1, h2, h3⟩ := hranges
  intro i _ hi
  have hi : i < 4 := hi
  obtain rfl | rfl | rfl | rfl : i = 0 ∨ i = 1 ∨ i = 2 ∨ i = 3 := by omega
  · exact ⟨2, h0, by norm_num⟩
  · exact ⟨11, h1, by norm_num⟩
  · exact ⟨23, h2, by norm_num⟩
  · exact ⟨59, h3, by norm_num⟩

/-- Prices move, and between a SELL and the next BUY the stop rises from 112 to 158. -/
theorem stop_gives_way : ∃ signals, exactSignals oneBarConfig meetBars = .ok signals ∧ PricesMove oneBarConfig meetBars ∧
    SellAt signals 1 ∧ BuyAt signals 3 ∧ (∀ k, 1 < k → k < 3 → ¬BuyAt signals k) ∧
    stopAt signals 1 < stopAt signals 2 := by
  obtain ⟨signals, hrun, hcheck⟩ := exists_ok_of_check (r := exactSignals oneBarConfig meetBars)
    (p := fun signals => decide ((signals[1]?.any fun signal => signal.sell) = true ∧
      (signals[3]?.any fun signal => signal.buy) = true ∧ (signals[2]?.any fun signal => signal.buy) = false ∧
      stopAt signals 1 = 112 ∧ stopAt signals 2 = 158)) (by decide +kernel)
  obtain ⟨hsell, hbuy, hnone, hone, htwo⟩ := of_decide_eq_true hcheck
  refine ⟨signals, hrun, meetBars_move, hsell, hbuy, ?_, ?_⟩
  · intro k hk hk3 hbuy2
    obtain rfl : k = 2 := by omega
    rw [BuyAt, hnone] at hbuy2
    cases hbuy2
  · rw [hone, htwo]
    norm_num

end MtossBot
