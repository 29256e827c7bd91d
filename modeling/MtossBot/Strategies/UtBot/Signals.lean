import MtossBot.Domain.Bars
import MtossBot.Strategies.UtBot.Indicators

/-!
# Signals

`strategies/ut_bot/signals.py`: the trailing stop and the colours of the Hull band, bar by bar. A level that does not convert to a
decimal raises.
-/

namespace MtossBot

/-- What a closed bar says. -/
structure BarSignal (D : Type) where
  index : Int
  open_time : Datetime
  buy : Bool
  sell : Bool
  hull_green : Option Bool
  hull_flip_down : Bool
  hull_flip_up : Bool
  trailing_stop : Option D
  stop_low : Option D
  stop_high : Option D
deriving DecidableEq

variable {F D : Type} [PyFloat F]

/-- One step of `_trailing_stop`: from the stop before and the close before, on a close and its loss. -/
def trailing_step (state : Option F × Option F) (item : F × Option F) : Option F × Option F × Option F :=
  let (previous, previous_close) := state
  let (close, loss) := item
  let base := previous.getD 0.0
  let current :=
    match loss with
    | none => none
    | some loss =>
      if base < close ∧ previous_close.any (base < ·) then some (py_max base (close - loss))
      else if close < base ∧ previous_close.any (· < base) then some (py_min base (close + loss))
      else if base < close then some (close - loss)
      else some (close + loss)
  (current, current, some close)

def _trailing_stop (closes : List F) (nloss : List (Option F)) : List (Option F) :=
  scan trailing_step (none, none) (closes.zip nloss)

/-- `hull > hull[2]`: the bar before the previous one. -/
def _hull_colors (hull : List (Option F)) : List (Option Bool) :=
  (List.range hull.length).map fun index =>
    match (hull[index]?).join, if 2 ≤ index then (hull[index - 2]?).join else none with
    | some current, some earlier => some (earlier < current)
    | _, _ => none

variable [PyDecimal D] [Boundary F D]

def _hull (closes : List F) (config : UtBotConfig D) : List (Option F) :=
  match config.hull_mode with
  | .HMA => hma (closes.map some) config.hull_length_effective
  | .EHMA => ehma (closes.map some) config.hull_length_effective
  | .THMA => thma (closes.map some) (config.hull_length_effective.part 2)

def _optional_decimal (value : Option F) : Except Exc (Option D) :=
  match value with
  | none => .ok none
  | some value => (Boundary.to_order_decimal value).map some

/-- What the loop of `compute_signals` reads at one bar. -/
structure SignalRow (F D : Type) [PyDecimal D] where
  bar : Bar D
  buy : Bool
  sell : Bool
  color : Option Bool
  trailing : Option F
  stop_low : Option F
  stop_high : Option F

/-- One turn of the loop of `compute_signals`, from the index and the colour of the previous bar. -/
def signal_step (state : Nat × Option Bool) (row : SignalRow F D) : Except Exc (BarSignal D) × Nat × Option Bool :=
  let (index, previous_color) := state
  let signal := do
    let trailing_stop ← _optional_decimal row.trailing
    let stop_low ← _optional_decimal row.stop_low
    let stop_high ← _optional_decimal row.stop_high
    return {
      index := index
      open_time := row.bar.open_time
      buy := row.buy
      sell := row.sell
      hull_green := row.color
      hull_flip_down := row.color = some false ∧ previous_color = some true
      hull_flip_up := row.color = some true ∧ previous_color = some false
      trailing_stop := trailing_stop
      stop_low := stop_low
      stop_high := stop_high }
  (signal, index + 1, row.color)

section Series

variable (F) (config : UtBotConfig D) (bars : List (Bar D))

def closes : List F := bars.map fun bar => Boundary.ofDecimal bar.close

def highs : List F := bars.map fun bar => Boundary.ofDecimal bar.high

def lows : List F := bars.map fun bar => Boundary.ofDecimal bar.low

/-- `key * value` for each value of the average range. -/
def nloss : List (Option F) :=
  (atr (highs F bars) (lows F bars) (closes F bars) config.ut_atr_length).map
    (Option.map fun value => Boundary.ofDecimal config.ut_key * value)

def trailing : List (Option F) := _trailing_stop (closes F bars) (nloss F config bars)

def buys : List Bool := crossover ((closes F bars).map some) (trailing F config bars)

def sells : List Bool := crossunder ((closes F bars).map some) (trailing F config bars)

def colors : List (Option Bool) := _hull_colors (_hull (closes F bars) config)

def stop_lows : List (Option F) := lowest (lows F bars) config.sl_len_length

def stop_highs : List (Option F) := highest (highs F bars) config.sl_len_length

/-- The series, bar by bar. -/
def signalRows : List (SignalRow F D) :=
  (bars.zip ((buys F config bars).zip ((sells F config bars).zip ((colors F config bars).zip
    ((trailing F config bars).zip ((stop_lows F config bars).zip (stop_highs F config bars))))))).map
    fun (bar, buy, sell, color, trailing, stop_low, stop_high) => ⟨bar, buy, sell, color, trailing, stop_low, stop_high⟩

end Series

/-- The signals, each with the exception its conversion may raise. -/
def signalSeries (F : Type) [PyFloat F] [Boundary F D] (config : UtBotConfig D) (bars : List (Bar D)) :
    List (Except Exc (BarSignal D)) :=
  scan signal_step (0, none) (signalRows F config bars)

def compute_signals (F : Type) [PyFloat F] [Boundary F D] (bars : List (Bar D)) (config : UtBotConfig D) :
    Except Exc (List (BarSignal D)) :=
  (signalSeries F config bars).mapM id

/-! ## Every bar has its signal -/

section Lengths

variable (config : UtBotConfig D) (bars : List (Bar D))

omit [PyFloat F] in
/-- There is a close for each bar. -/
@[simp]
theorem length_closes : (closes F bars).length = bars.length := by simp [closes]

omit [PyFloat F] in
/-- There is a high for each bar. -/
@[simp]
theorem length_highs : (highs F bars).length = bars.length := by simp [highs]

omit [PyFloat F] in
/-- There is a low for each bar. -/
@[simp]
theorem length_lows : (lows F bars).length = bars.length := by simp [lows]

/-- There is a distance of the stop, or a gap, for each bar. -/
@[simp]
theorem length_nloss : (nloss F config bars).length = bars.length := by simp [nloss]

/-- The trailing stop has an entry for each bar. -/
@[simp]
theorem length_trailing : (trailing F config bars).length = bars.length := by simp [trailing, _trailing_stop, length_scan]

omit [Boundary F D] in
/-- The Hull band has an entry for each close. -/
@[simp]
theorem length_hull (closes : List F) : (_hull closes config).length = closes.length := by
  unfold _hull
  cases config.hull_mode <;> simp

/-- There is a row of indicators for each bar. -/
@[simp]
theorem length_signalRows : (signalRows F config bars).length = bars.length := by
  simp [signalRows, buys, sells, crossover, crossunder, colors, _hull_colors, stop_lows, stop_highs]

/-- There is a signal for each bar. -/
theorem length_compute_signals {config : UtBotConfig D} {bars : List (Bar D)} {signals : List (BarSignal D)}
    (h : compute_signals F bars config = .ok signals) : signals.length = bars.length := by
  have hlength := congrArg List.length (eq_map_of_mapM_ok h)
  rw [signalSeries, length_scan, length_signalRows, List.length_map] at hlength
  exact hlength.symm

end Lengths

/-! ## Where the values of a signal come from -/

omit [PyFloat F] in
/-- The signal of a bar has the values of the bar's row, the levels converted. -/
theorem signal_step_ok {state : Nat × Option Bool} {row : SignalRow F D} {signal : BarSignal D}
    (h : (signal_step state row).1 = .ok signal) :
    signal.buy = row.buy ∧ signal.sell = row.sell ∧ signal.hull_green = row.color ∧
      _optional_decimal row.trailing = .ok signal.trailing_stop ∧ _optional_decimal row.stop_low = .ok signal.stop_low ∧
      _optional_decimal row.stop_high = .ok signal.stop_high := by
  obtain ⟨trailing_stop, htrailing, h⟩ := except_bind_eq_ok h
  obtain ⟨stop_low, hlow, h⟩ := except_bind_eq_ok h
  obtain ⟨stop_high, hhigh, h⟩ := except_bind_eq_ok h
  cases h
  exact ⟨rfl, rfl, rfl, htrailing, hlow, hhigh⟩

/-- The row of a bar has the values of the series at its index. -/
theorem signalRows_getElem? {config : UtBotConfig D} {bars : List (Bar D)} {row : SignalRow F D} {i : Nat}
    (h : (signalRows F config bars)[i]? = some row) :
    (buys F config bars)[i]? = some row.buy ∧ (sells F config bars)[i]? = some row.sell ∧
      (colors F config bars)[i]? = some row.color ∧ (trailing F config bars)[i]? = some row.trailing ∧
      (stop_lows F config bars)[i]? = some row.stop_low ∧ (stop_highs F config bars)[i]? = some row.stop_high := by
  rw [signalRows, List.getElem?_map] at h
  obtain ⟨⟨bar, buy, sell, color, trailing, low, high⟩, hz, rfl⟩ := Option.map_eq_some_iff.mp h
  obtain ⟨_, hz⟩ := List.getElem?_zip_eq_some.mp hz
  obtain ⟨hbuy, hz⟩ := List.getElem?_zip_eq_some.mp hz
  obtain ⟨hsell, hz⟩ := List.getElem?_zip_eq_some.mp hz
  obtain ⟨hcolor, hz⟩ := List.getElem?_zip_eq_some.mp hz
  obtain ⟨htrailing, hz⟩ := List.getElem?_zip_eq_some.mp hz
  obtain ⟨hlow, hhigh⟩ := List.getElem?_zip_eq_some.mp hz
  exact ⟨hbuy, hsell, hcolor, htrailing, hlow, hhigh⟩

/-- A signal is computed from the row of its bar. -/
theorem compute_signals_row {config : UtBotConfig D} {bars : List (Bar D)} {signals : List (BarSignal D)}
    (h : compute_signals F bars config = .ok signals) {i : Nat} {signal : BarSignal D} (hs : signals[i]? = some signal) :
    ∃ row state, (signalRows F config bars)[i]? = some row ∧ (signal_step state row).1 = .ok signal := by
  have hmap : (signalSeries F config bars)[i]? = some (.ok signal) := by
    rw [eq_map_of_mapM_ok h, List.getElem?_map, hs, Option.map_some]
  rw [signalSeries, scan_getElem?] at hmap
  obtain ⟨row, hrow, hstep⟩ := Option.map_eq_some_iff.mp hmap
  exact ⟨row, _, hrow, hstep⟩

omit [PyFloat F] [PyDecimal D] in
/-- A converted level is the conversion of one. -/
theorem optional_decimal_some {value : Option F} {d : D} (h : _optional_decimal value = .ok (some d)) :
    ∃ v, value = some v ∧ Boundary.to_order_decimal v = .ok d := by
  cases value with
  | none => cases h
  | some v =>
    refine ⟨v, rfl, ?_⟩
    unfold _optional_decimal at h
    cases hv : (Boundary.to_order_decimal v : Except Exc D) with
    | error e =>
      simp only [hv] at h
      cases h
    | ok d' =>
      simp only [hv] at h
      cases h
      rfl

/-- The stops of a signal are the low and the high of a bar, converted to floats and back. -/
theorem compute_signals_stops {config : UtBotConfig D} {bars : List (Bar D)} {signals : List (BarSignal D)}
    (h : compute_signals F bars config = .ok signals) {signal : BarSignal D} (hs : signal ∈ signals) :
    (∀ stop, signal.stop_low = some stop → ∃ bar ∈ bars,
      Boundary.to_order_decimal (Boundary.ofDecimal bar.low : F) = .ok stop) ∧
    ∀ stop, signal.stop_high = some stop → ∃ bar ∈ bars,
      Boundary.to_order_decimal (Boundary.ofDecimal bar.high : F) = .ok stop := by
  obtain ⟨i, hi⟩ := List.mem_iff_getElem?.mp hs
  obtain ⟨row, _, hrow, hstep⟩ := compute_signals_row h hi
  obtain ⟨_, _, _, _, hlow, hhigh⟩ := signal_step_ok hstep
  obtain ⟨_, _, _, _, hlows, hhighs⟩ := signalRows_getElem? hrow
  replace hlows := List.mem_of_getElem? hlows
  replace hhighs := List.mem_of_getElem? hhighs
  constructor
  · intro stop hstop
    rw [hstop] at hlow
    obtain ⟨v, hv, hconv⟩ := optional_decimal_some hlow
    rw [hv] at hlows
    obtain ⟨bar, hbar, rfl⟩ := List.mem_map.mp (mem_lowest hlows)
    exact ⟨bar, hbar, hconv⟩
  · intro stop hstop
    rw [hstop] at hhigh
    obtain ⟨v, hv, hconv⟩ := optional_decimal_some hhigh
    rw [hv] at hhighs
    obtain ⟨bar, hbar, rfl⟩ := List.mem_map.mp (mem_highest hhighs)
    exact ⟨bar, hbar, hconv⟩

/-! ## From where on a signal is defined -/

omit [PyFloat F] [PyDecimal D] in
/-- A level that converts is there just when the value was. -/
theorem optional_decimal_isSome {value : Option F} {level : Option D} (h : _optional_decimal value = .ok level) :
    level.isSome ↔ value.isSome := by
  cases value with
  | none =>
    cases h
    rfl
  | some v =>
    unfold _optional_decimal at h
    cases hv : (Boundary.to_order_decimal v : Except Exc D) with
    | error e =>
      simp only [hv] at h
      cases h
    | ok d =>
      simp only [hv] at h
      cases h
      rfl

omit [PyDecimal D] [Boundary F D] in
/-- The stop is known at a bar just when its distance is. -/
theorem trailing_step_isSome (state : Option F × Option F) (item : F × Option F) :
    (trailing_step state item).1.isSome ↔ item.2.isSome := by
  obtain ⟨close, loss⟩ := item
  cases loss with
  | none => rfl
  | some loss =>
    refine iff_of_true ?_ rfl
    simp only [trailing_step]
    split_ifs <;> rfl

omit [PyDecimal D] [Boundary F D] in
/-- A colour needs the value two bars before. -/
theorem definedFrom_hull_colors {n : Nat} {hull : List (Option F)} (h : DefinedFrom n hull) :
    DefinedFrom (n + 2) (_hull_colors hull) := by
  refine DefinedFrom.indexed ?_
  intro index hindex
  have hcurrent := h index _ (List.getElem?_eq_getElem hindex)
  rw [List.getElem?_eq_getElem hindex, Option.join_some]
  by_cases htwo : 2 ≤ index
  · have hlt : index - 2 < hull.length := by omega
    have hearlier := h (index - 2) _ (List.getElem?_eq_getElem hlt)
    rw [if_pos htwo, List.getElem?_eq_getElem hlt, Option.join_some]
    refine Iff.trans (b := hull[index].isSome ∧ hull[index - 2].isSome) ?_ (by rw [hcurrent, hearlier]; omega)
    cases hull[index] <;> cases hull[index - 2] <;> simp
  · rw [if_neg htwo]
    refine iff_of_false ?_ (by omega)
    cases hull[index] <;> simp

omit [PyDecimal D] [Boundary F D] in
/-- A stop is computed from the stop and the close of the bar before it. -/
theorem trailing_stop_succ {closes : List F} {nloss : List (Option F)} {i : Nat} {close : F} {loss stop : Option F}
    {item : F × Option F} (hitem : (closes.zip nloss)[i]? = some (close, loss))
    (hstop : (_trailing_stop closes nloss)[i]? = some stop) (hnext : (closes.zip nloss)[i + 1]? = some item) :
    (_trailing_stop closes nloss)[i + 1]? = some (trailing_step (stop, some close) item).1 := by
  exact scan_getElem?_succ (fun item stop => (stop, some item.1)) (fun _ _ => rfl) hitem hstop hnext

section

variable (F) (config : UtBotConfig D) (bars : List (Bar D))

/-- The index of the first bar with a Hull average. -/
def hull_start : Nat :=
  match config.hull_mode with
  | .HMA => config.hull_length_effective.val + (config.hull_length_effective.root F).val - 2
  | .EHMA => config.hull_length_effective.val + (config.hull_length_effective.root F).val - 2
  | .THMA => 2 * (config.hull_length_effective.part 2).val - 2

omit [Boundary F D] in
/-- The band starts where its moving average does. -/
theorem definedFrom_hull (closes : List F) : DefinedFrom (hull_start F config) (_hull closes config) := by
  unfold hull_start _hull
  cases config.hull_mode with
  | HMA => exact definedFrom_hma closes config.hull_length_effective
  | EHMA => exact definedFrom_ehma closes config.hull_length_effective
  | THMA => exact definedFrom_thma closes (config.hull_length_effective.part 2)

/-- The color compares the band with that of two bars before, so it starts two bars later. -/
theorem definedFrom_colors : DefinedFrom (hull_start F config + 2) (colors F config bars) :=
  definedFrom_hull_colors (definedFrom_hull F config (closes F bars))

/-- The distance of the stop starts with the average range. -/
theorem definedFrom_nloss : DefinedFrom (config.ut_atr_length.val - 1) (nloss F config bars) :=
  (definedFrom_atr config.ut_atr_length).map _

/-- And the trailing stop starts with its distance. -/
theorem definedFrom_trailing : DefinedFrom (config.ut_atr_length.val - 1) (trailing F config bars) := by
  intro i x hx
  rw [trailing, _trailing_stop, scan_getElem?] at hx
  obtain ⟨⟨close, loss⟩, hitem, rfl⟩ := Option.map_eq_some_iff.mp hx
  rw [trailing_step_isSome]
  exact definedFrom_nloss F config bars i loss (List.getElem?_zip_eq_some.mp hitem).2

end

/-! ## No signal looks ahead -/

variable {A : Type}

omit [PyDecimal D] [Boundary F D] in
/-- The trailing stop of causal closes and distances is causal. -/
theorem causal_trailing_stop {closes : List A → List F} {nloss : List A → List (Option F)} (hc : Causal closes)
    (hn : Causal nloss) : Causal fun xs => _trailing_stop (closes xs) (nloss xs) :=
  (hc.zip hn).scan _ _

omit [PyDecimal D] [Boundary F D] in
/-- The colors of a band look back only. -/
theorem causal_hull_colors : Causal fun hull : List (Option F) => _hull_colors hull :=
  Causal.indexed fun hull n index h => by
    rw [List.getElem?_take_of_lt h, List.getElem?_take_of_lt (by omega)]

omit [Boundary F D] in
/-- The band looks back only, in every mode. -/
theorem causal_hull (config : UtBotConfig D) : Causal fun closes : List F => _hull closes config := by
  have hs : Causal fun closes : List F => closes.map some := Causal.self.map some
  intro xs n
  unfold _hull
  cases config.hull_mode with
  | HMA => exact ((causal_hma _).comp hs) xs n
  | EHMA => exact ((causal_ehma _).comp hs) xs n
  | THMA => exact ((causal_thma _).comp hs) xs n

section

variable (F) (config : UtBotConfig D)

omit [PyFloat F] in
/-- The closes of a prefix of the bars are a prefix of the closes. -/
theorem causal_closes : Causal fun bars : List (Bar D) => closes F bars := Causal.self.map _

omit [PyFloat F] in
/-- The highs of a prefix of the bars are a prefix of the highs. -/
theorem causal_highs : Causal fun bars : List (Bar D) => highs F bars := Causal.self.map _

omit [PyFloat F] in
/-- The lows of a prefix of the bars are a prefix of the lows. -/
theorem causal_lows : Causal fun bars : List (Bar D) => lows F bars := Causal.self.map _

/-- The trailing stop over the bars is causal. -/
theorem causal_trailing : Causal fun bars => trailing F config bars :=
  causal_trailing_stop (causal_closes F)
    ((causal_atr (causal_highs F) (causal_lows F) (causal_closes F) _).map _)

/-- The colors over the bars are causal. -/
theorem causal_colors : Causal fun bars => colors F config bars :=
  causal_hull_colors.comp ((causal_hull config).comp (causal_closes F))

/-- A row of indicators is known when its bar has closed. -/
theorem causal_signalRows : Causal fun bars => signalRows F config bars := by
  have hs : Causal fun bars : List (Bar D) => (closes F bars).map some := (causal_closes F).map some
  have ht := causal_trailing F config
  refine Causal.map _ (Causal.self.zip ?_)
  refine (causal_cross hs ht true).zip ((causal_cross hs ht false).zip ((causal_colors F config).zip (ht.zip ?_)))
  exact ((causal_lowest _).comp (causal_lows F)).zip ((causal_highest _).comp (causal_highs F))

/-- The signals of a beginning of the bars are a beginning of the signals. -/
theorem causal_signalSeries : Causal fun bars => signalSeries F config bars := (causal_signalRows F config).scan _ _

end

end MtossBot
