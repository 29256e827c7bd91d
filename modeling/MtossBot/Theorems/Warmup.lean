import MtossBot.Theorems.BacktestAccounting

/-!
# The history a signal needs

The last signal of a history of `warmup_bars` has its stops. Its colour needs the Hull average of two bars before, and the smoothing
of the average starts later than the settings' count of bars allows for.
-/

namespace MtossBot

variable {D : Type} [PyDecimal D]

/-- A signal with all its levels and its colour. -/
structure BarSignal.Complete (signal : BarSignal D) : Prop where
  trailing_stop : signal.trailing_stop.isSome
  stop_low : signal.stop_low.isSome
  stop_high : signal.stop_high.isSome
  hull_green : signal.hull_green.isSome

namespace WarmupAux

variable {F : Type} [PyFloat F] [Boundary F D] {config : UtBotConfig D} {bars : List (Bar D)} {signals : List (BarSignal D)}

/-- What a signal has, by its index. -/
theorem defined_at (h : compute_signals F bars config = .ok signals) {i : Nat} {signal : BarSignal D}
    (hs : signals[i]? = some signal) :
    (signal.trailing_stop.isSome ↔ config.ut_atr_length.val - 1 ≤ i) ∧
      (signal.stop_low.isSome ↔ config.sl_len_length.val - 1 ≤ i) ∧
      (signal.stop_high.isSome ↔ config.sl_len_length.val - 1 ≤ i) ∧
      (signal.hull_green.isSome ↔ hull_start F config + 2 ≤ i) := by
  obtain ⟨row, _, hrow, hstep⟩ := compute_signals_row h hs
  obtain ⟨_, _, hcolor, htrailing, hlow, hhigh⟩ := signal_step_ok hstep
  obtain ⟨_, _, hcolors, htrailings, hlows, hhighs⟩ := signalRows_getElem? hrow
  refine ⟨?_, ?_, ?_, ?_⟩
  · exact (optional_decimal_isSome htrailing).trans (definedFrom_trailing F config bars i _ htrailings)
  · exact (optional_decimal_isSome hlow).trans (definedFrom_lowest _ _ i _ hlows)
  · exact (optional_decimal_isSome hhigh).trans (definedFrom_highest _ _ i _ hhighs)
  · rw [hcolor]
    exact definedFrom_colors F config bars i _ hcolors

end WarmupAux

open WarmupAux in
/-- Of a history of `warmup_bars` the last signal is complete if and only if the smoothing of its Hull average has started, which it
always has with `THMA`. -/
theorem warmup_complete_iff (F : Type) [PyFloat F] [Boundary F D] (config : UtBotConfig D) (bars : List (Bar D))
    {signals : List (BarSignal D)} (hwarm : config.warmup_bars ≤ bars.length)
    (h : compute_signals F bars config = .ok signals) :
    ∃ signal, signals.getLast? = some signal ∧ (signal.Complete ↔ config.hull_mode = .THMA ∨
      config.hull_length_effective.val + (config.hull_length_effective.root F).val < bars.length) := by
  unfold UtBotConfig.warmup_bars at hwarm
  dsimp only at hwarm
  have hlength := length_compute_signals h
  have hlt : bars.length - 1 < signals.length := by omega
  refine ⟨signals[bars.length - 1], ?_, ?_⟩
  · rw [List.getLast?_eq_getElem?, hlength]
    exact List.getElem?_eq_getElem hlt
  · obtain ⟨htrailing, hlow, hhigh, hgreen⟩ := defined_at h (List.getElem?_eq_getElem hlt)
    have hatr : config.ut_atr_length.val - 1 ≤ bars.length - 1 := by
      simp only [UtBotConfig.ut_atr_length]
      omega
    have hsl : config.sl_len_length.val - 1 ≤ bars.length - 1 := by
      simp only [UtBotConfig.sl_len_length]
      omega
    have hhull : hull_start F config + 2 ≤ bars.length - 1 ↔ config.hull_mode = .THMA ∨
        config.hull_length_effective.val + (config.hull_length_effective.root F).val < bars.length := by
      have hpos := config.hull_length_effective.pos
      have hroot := (config.hull_length_effective.root F).pos
      have hhalf : 2 * (config.hull_length_effective.part 2).val ≤ config.hull_length_effective.val + 1 := by
        simp only [Length.part, Length.atLeastOne]
        omega
      unfold hull_start
      cases config.hull_mode with
      | HMA =>
        simp only [reduceCtorEq, false_or]
        omega
      | EHMA =>
        simp only [reduceCtorEq, false_or]
        omega
      | THMA =>
        simp only [true_or, iff_true]
        omega
    rw [← hhull, ← hgreen]
    exact ⟨fun hcomplete => hcomplete.hull_green, fun hcolor =>
      ⟨htrailing.mpr hatr, hlow.mpr hsl, hhigh.mpr hsl, hcolor⟩⟩

theorem quiet_accepted (t : Int) : BarFields.errors ⟨"XAUUSD", "H1", .aware t 0, (100 : ℚ), 101, 99, 100, 0, 0⟩ = [] :=
  sample_accepted_0

/-- A market that does not move. -/
def quietBars (n : Nat) : List (Bar ℚ) :=
  (List.range n).map fun t => sampleBar t 100 101 99 100 (quiet_accepted t)

def quietSignals (n : Nat) : Except Exc (List (BarSignal ℚ)) :=
  @compute_signals ℚ _ ℚ .exact .exact (quietBars n) .default

theorem quietSignals_ok : ∃ signals, quietSignals 58 = .ok signals ∧ ∃ signal, signals.getLast? = some signal ∧
    signal.hull_green = none := by
  obtain ⟨signals, hrun, hcheck⟩ := exists_ok_of_check (r := quietSignals 58)
    (p := fun signals => signals.getLast?.any fun signal => signal.hull_green = none) (by decide +kernel)
  obtain ⟨signal, hlast, hgreen⟩ := (Option.any_eq_true _ _).mp hcheck
  exact ⟨signals, hrun, signal, hlast, of_decide_eq_true hgreen⟩

theorem length_quietBars (n : Nat) : (quietBars n).length = n := by simp [quietBars]

theorem warmup_default : (UtBotConfig.default.warmup_bars : Int) = 58 := by decide +kernel

/-- With the settings as they are. -/
theorem warmup_complete_default : ∃ signals, quietSignals 58 = .ok signals ∧ ∃ signal, signals.getLast? = some signal ∧
    (signal.Complete ↔ UtBotConfig.default.hull_mode = .THMA ∨ UtBotConfig.default.hull_length_effective.val +
      (@Length.root ℚ .exact UtBotConfig.default.hull_length_effective).val < (quietBars 58).length) := by
  obtain ⟨signals, hrun, _⟩ := quietSignals_ok
  have hwarm : UtBotConfig.default.warmup_bars ≤ ((quietBars 58).length : Int) := by
    rw [warmup_default, length_quietBars]
    rfl
  exact ⟨signals, hrun, @warmup_complete_iff ℚ _ ℚ .exact .exact .default (quietBars 58) signals hwarm hrun⟩

/-- The settings as they are ask for 58 bars, and at the last of them the Hull band has no colour yet. -/
theorem warmup_too_short : UtBotConfig.default.warmup_bars ≤ ((quietBars 58).length : Int) ∧
    ∃ signals, quietSignals 58 = .ok signals ∧ ∃ signal, signals.getLast? = some signal ∧ ¬signal.Complete := by
  obtain ⟨signals, hrun, signal, hlast, hgreen⟩ := quietSignals_ok
  refine ⟨?_, signals, hrun, signal, hlast, ?_⟩
  · rw [warmup_default, length_quietBars]
    rfl
  · intro hcomplete
    have := hcomplete.hull_green
    rw [hgreen] at this
    cases this

end MtossBot
