import MtossBot.Theorems.BacktestAccounting
import MtossBot.Theorems.NoLookAhead

/-!
# The ratios of a backtest

What `max_drawdown_pct` and `confirmation_rate` say of a backtest that returns, over exact arithmetic.
-/

namespace MtossBot

/-! ## The largest fall in percent -/

/-- The largest relative fall is met while the highest equity so far is the highest of all. -/
def WorstAtTop (es : List ℚ) : Prop :=
  ∃ top e, IsGreatest {x | x ∈ es} top ∧ Moment es top e ∧ ∀ m' e', Moment es m' e' → (m' - e') / m' ≤ (top - e) / top

open AccountsAux in
/-- The percentage is the largest of all moments if and only if the largest relative fall is met under the highest equity of all. -/
theorem max_drawdown_pct_iff (F : Type) [PyFloat F] [Boundary F ℚ] (bars : List (Bar ℚ)) (config : UtBotConfig ℚ)
    (spec : SymbolSpec ℚ) (initial rate : ℚ) (confirm : Bool) {result : BacktestResult ℚ} (hpos : 0 < initial)
    (h : run_backtest config spec rate confirm F bars initial = .ok result) :
    IsGreatest (percentFalls (equities initial rate result.trades)) result.max_drawdown_pct ↔
      WorstAtTop (equities initial rate result.trades) := by
  obtain ⟨signals, _, h⟩ := except_bind_eq_ok h
  obtain ⟨sim, hrun, h⟩ := except_bind_eq_ok h
  cases h
  have hcurve : Curve (equities initial rate sim.trades) sim.peak_equity sim.max_drawdown :=
    (accounted_runBars (accounted_start initial rate) hrun).curve
  have hfirst : ∃ rest, equities initial rate sim.trades = initial :: rest := by
    unfold equities
    cases sim.trades with
    | nil => exact ⟨[], rfl⟩
    | cons t trades => exact ⟨_, List.scanl_cons⟩
  obtain ⟨rest, hrest⟩ := hfirst
  have hmoments : ∀ m e, Moment (equities initial rate sim.trades) m e → 0 < m := by
    intro m e hmoment
    rw [hrest] at hmoment
    exact hpos.trans_le hmoment.first_le
  have hpeak : 0 < sim.peak_equity := hmoments _ _ (.of_peak hcurve.peak)
  rw [BacktestResult.max_drawdown_pct, if_neg (not_le.mpr hpeak)]
  refine (hcurve.percent_iff hmoments).trans ?_
  constructor
  · rintro ⟨e, hmoment, hbound⟩
    exact ⟨_, e, hcurve.peak, hmoment, hbound⟩
  · rintro ⟨top, e, htop, hmoment, hbound⟩
    obtain rfl := htop.unique hcurve.peak
    exact ⟨e, hmoment, hbound⟩

/-- A market that turns against the first trade, and then goes far with the second. -/
def gainBars : List (Bar ℚ) :=
  [sampleBar 0 100 101 99 100 sample_accepted_0, sampleBar 1 100 101 99 100 sample_accepted_1,
    sampleBar 2 100 100 90 91 sample_accepted_2, sampleBar 3 91 111 91 110 sample_accepted_3,
    sampleBar 4 110 300 109 300 (by decide +kernel), sampleBar 5 300 301 200 201 (by decide +kernel)]

def gainRun : Except Exc (BacktestResult ℚ) :=
  @run_backtest ℚ _ sampleConfig sampleSpec 1 true ℚ .exact .exact gainBars 100

/-- The equities of the run, and the drawdown it reports. -/
theorem gainRun_ok : ∃ result, gainRun = .ok result ∧ equities 100 1 result.trades = [100, 81, 62, 252] ∧
    result.max_drawdown_pct = 38 / 252 * 100 := by
  obtain ⟨result, hrun, hcheck⟩ := exists_ok_of_check (r := gainRun)
    (p := fun result => decide (equities 100 1 result.trades = [100, 81, 62, 252] ∧ result.max_drawdown_pct = 38 / 252 * 100))
    (by decide +kernel)
  exact ⟨result, hrun, of_decide_eq_true hcheck⟩

/-- Of this run the largest fall is not met under the highest equity. -/
theorem max_drawdown_pct_gain : ∃ result, gainRun = .ok result ∧
    (IsGreatest (percentFalls (equities 100 1 result.trades)) result.max_drawdown_pct ↔
      WorstAtTop (equities 100 1 result.trades)) := by
  obtain ⟨result, hrun, _⟩ := gainRun_ok
  exact ⟨result, hrun, @max_drawdown_pct_iff ℚ .exact .exact gainBars sampleConfig sampleSpec 100 1 true result (by norm_num) hrun⟩

/-- The account falls by 38 of 100 and then gains; the fall is reported as 38 of 252. -/
theorem max_drawdown_pct_understated : ∃ result, gainRun = .ok result ∧
    ¬IsGreatest (percentFalls (equities 100 1 result.trades)) result.max_drawdown_pct := by
  obtain ⟨result, hrun, hequities, hpct⟩ := gainRun_ok
  refine ⟨result, hrun, ?_⟩
  intro hgreatest
  rw [hequities, hpct] at hgreatest
  have hmoment : Moment [100, 81, 62, 252] (100 : ℚ) 62 := by
    refine ⟨[100, 81], [252], rfl, by simp, ?_⟩
    intro x hx
    have hx : x ∈ [(100 : ℚ), 81, 62] := hx
    simp only [List.mem_cons, List.not_mem_nil, or_false] at hx
    rcases hx with rfl | rfl | rfl <;> norm_num
  exact absurd (hgreatest.2 ⟨100, 62, hmoment, rfl⟩) (by norm_num)

/-! ## The attempts to enter -/

/-- The bars with a fill of an entry. -/
def entryBars {D : Type} (fills : List (BacktestFill D)) : Finset Nat :=
  ((fills.filter fun fill => fill.kind = .ENTRY).map fun fill => fill.bar_index).toFinset

/-- The bars at which an attempt to enter was resolved: those with a fill of an entry, and those with a skip. -/
def attemptBars {D : Type} (fills : List (BacktestFill D)) (skips : List (BacktestSkip D)) : Finset Nat :=
  entryBars fills ∪ (skips.map fun skip => skip.bar_index).toFinset

/-- How many of the attempts to enter ended at the gate, in percent. -/
def gateRate (result : BacktestResult ℚ) : ℚ :=
  if (attemptBars result.fills result.skips).card = 0 then 0
  else 100 * (result.skips.countP fun skip => skip.reason = .AWAITING_CONFIRMATION) /
    (attemptBars result.fills result.skips).card

/-- The fills and skips of the bars before an index: one skip at most for a bar, and then no entry. -/
structure AttemptLog (index : Nat) {D : Type} (fills : List (BacktestFill D)) (skips : List (BacktestSkip D)) : Prop where
  fills_before : ∀ fill ∈ fills, fill.bar_index < index
  skips_before : ∀ skip ∈ skips, skip.bar_index < index
  once : (skips.map fun skip => skip.bar_index).Nodup
  apart : ∀ skip ∈ skips, ∀ fill ∈ fills, fill.kind = .ENTRY → fill.bar_index ≠ skip.bar_index

namespace RatiosAux

variable {D : Type} [PyDecimal D] {index : Nat} {sim sim' sim'' : Simulation D}

/-- A part of a turn that adds nothing but exits of its bar. -/
structure AddsExits (index : Nat) (sim sim' : Simulation D) : Prop where
  fills : ∃ l, sim'.fills = sim.fills ++ l ∧ ∀ fill ∈ l, fill.bar_index = index ∧ fill.kind = .EXIT
  skips : sim'.skips = sim.skips

omit [PyDecimal D] in
/-- Where neither fills nor skips change, no exit is added. -/
theorem AddsExits.same (hf : sim'.fills = sim.fills) (hs : sim'.skips = sim.skips) : AddsExits index sim sim' :=
  ⟨⟨[], by simp [hf], by simp⟩, hs⟩

omit [PyDecimal D] in
/-- Exits are added one part after the other. -/
theorem AddsExits.trans (h : AddsExits index sim sim') (h' : AddsExits index sim' sim'') : AddsExits index sim sim'' := by
  obtain ⟨⟨l, hl, hexits⟩, hs⟩ := h
  obtain ⟨⟨l', hl', hexits'⟩, hs'⟩ := h'
  refine ⟨⟨l ++ l', by rw [hl', hl, List.append_assoc], ?_⟩, hs'.trans hs⟩
  intro fill hfill
  exact (List.mem_append.mp hfill).elim (hexits fill) (hexits' fill)

/-- An exit that is recorded is added. -/
theorem addsExits_record_exit (rate : D) (index : Nat) (bar : Bar D) (role : TrancheRole) (price : D) (reason : CloseReason)
    (sim : Simulation D) (brackets : Dict TrancheRole (_Bracket D)) :
    AddsExits index sim (record_exit rate index bar role price reason { sim with brackets := brackets }) := by
  unfold record_exit
  split
  · exact .same rfl rfl
  · exact ⟨⟨_, rfl, by simp⟩, rfl⟩

/-- What is filled at the open are exits. -/
theorem addsExits_fillQueued (rate : D) (index : Nat) (bar : Bar D) (actions : List (TradeAction D)) (sim : Simulation D) :
    AddsExits index sim (fillQueued rate index bar actions sim).1 := by
  induction actions generalizing sim with
  | nil => exact .same rfl rfl
  | cons action actions ih =>
    unfold fillQueued
    split
    · exact (addsExits_record_exit rate index bar action.role bar.open_ _ sim _).trans (ih _)
    · exact ih sim
    · exact ih sim

/-- What is filled at a bracket are exits. -/
theorem addsExits_hitBrackets (rate : D) (index : Nat) (bar : Bar D) (roles : List TrancheRole) (sim : Simulation D) :
    AddsExits index sim (hitBrackets rate index bar roles sim) := by
  induction roles generalizing sim with
  | nil => exact .same rfl rfl
  | cons role roles ih =>
    unfold hitBrackets
    split
    · exact ih sim
    · split
      · exact ih sim
      · split
        · exact ih sim
        · rename_i price close_reason _
          have he := addsExits_record_exit rate index bar role price close_reason sim (sim.brackets.erase role)
          dsimp only
          generalize record_exit rate index bar role price close_reason
            { sim with brackets := sim.brackets.erase role } = closed at he
          have hc : AddsExits index sim
              { closed with state := (on_tranche_closed closed.state role close_reason).state } := ⟨he.fills, he.skips⟩
          exact hc.trans (ih _)

/-- To confirm entries fills nothing. -/
theorem addsExits_confirmEntries {config : UtBotConfig D} {bar : Bar D} {entered : List (TradeAction D)} {quantity : Option D}
    (h : confirmEntries config index bar entered quantity sim = .ok sim') : AddsExits index sim sim' := by
  unfold confirmEntries at h
  split at h
  · cases h
    exact .same rfl rfl
  · obtain ⟨decision, _, h⟩ := except_bind_eq_ok h
    cases h
    exact .same rfl rfl

/-- Sizing leaves the fills; it skips the bar and its entries, or skips nothing. -/
theorem sizeEntries_skips {config : UtBotConfig D} {spec : SymbolSpec D} {rate : D} {confirm : Bool} {bar : Bar D}
    {entered entered' : List (TradeAction D)} {quantity : Option D}
    (h : sizeEntries config spec rate confirm index bar entered sim = .ok (sim', entered', quantity)) :
    sim'.fills = sim.fills ∧ (sim'.skips = sim.skips ∨
      (∃ skip, skip.bar_index = index ∧ sim'.skips = sim.skips ++ [skip]) ∧ entered' = []) := by
  unfold sizeEntries at h
  split at h
  · obtain ⟨skip, _, h⟩ := except_bind_eq_ok h
    cases skip with
    | some skip =>
      cases h
      exact ⟨rfl, .inr ⟨⟨_, rfl, rfl⟩, rfl⟩⟩
    | none =>
      obtain ⟨outcome, _, h⟩ := except_bind_eq_ok h
      cases h
      exact ⟨rfl, .inl rfl⟩
  · cases h
    exact ⟨rfl, .inl rfl⟩

/-- What is filled with the entries is at the bar, and nothing where none is entered. -/
theorem fillEntries_fills {bar : Bar D} {quantity : Option D} {entered : List (TradeAction D)}
    (h : fillEntries index bar quantity entered sim = .ok sim') :
    (∃ l, sim'.fills = sim.fills ++ l ∧ (∀ fill ∈ l, fill.bar_index = index) ∧ (entered = [] → l = [])) ∧
      sim'.skips = sim.skips := by
  induction entered generalizing sim with
  | nil =>
    cases h
    exact ⟨⟨[], by simp⟩, rfl⟩
  | cons action entered ih =>
    unfold fillEntries at h
    split at h
    · obtain ⟨⟨l, hl, hindex, -⟩, hskips⟩ := ih h
      refine ⟨⟨_ :: l, by rw [hl, List.append_assoc, List.singleton_append], ?_, by simp⟩, hskips⟩
      intro fill hfill
      rcases List.mem_cons.mp hfill with rfl | hfill
      · rfl
      · exact hindex fill hfill
    · cases h

/-- A turn adds fills of its bar, and skips the bar at most once: then what it adds are exits. -/
structure Resolves (index : Nat) (sim sim' : Simulation D) : Prop where
  fills : ∃ l, sim'.fills = sim.fills ++ l ∧ (∀ fill ∈ l, fill.bar_index = index) ∧
    (sim'.skips = sim.skips ∨
      (∃ skip, skip.bar_index = index ∧ sim'.skips = sim.skips ++ [skip]) ∧ ∀ fill ∈ l, fill.kind = .EXIT)

omit [PyDecimal D] in
/-- Exits before it leave an attempt as it is resolved. -/
theorem Resolves.before (h : AddsExits index sim sim') (h' : Resolves index sim' sim'') : Resolves index sim sim'' := by
  obtain ⟨⟨l, hl, hexits⟩, hs⟩ := h
  obtain ⟨l', hl', hindex, hskips⟩ := h'
  refine ⟨l ++ l', by rw [hl', hl, List.append_assoc], ?_, ?_⟩
  · intro fill hfill
    exact (List.mem_append.mp hfill).elim (fun hf => (hexits fill hf).1) (hindex fill)
  · rw [hs] at hskips
    refine hskips.imp_right (And.imp_right ?_)
    intro hkind fill hfill
    exact (List.mem_append.mp hfill).elim (fun hf => (hexits fill hf).2) (hkind fill)

omit [PyDecimal D] in
/-- So do exits after it. -/
theorem Resolves.after (h : Resolves index sim sim') (h' : AddsExits index sim' sim'') : Resolves index sim sim'' := by
  obtain ⟨l, hl, hindex, hskips⟩ := h
  obtain ⟨⟨l', hl', hexits⟩, hs⟩ := h'
  refine ⟨l ++ l', by rw [hl', hl, List.append_assoc], ?_, ?_⟩
  · intro fill hfill
    exact (List.mem_append.mp hfill).elim (hindex fill) fun hf => (hexits fill hf).1
  · rw [hs]
    refine hskips.imp_right (And.imp_right ?_)
    intro hkind fill hfill
    exact (List.mem_append.mp hfill).elim (hkind fill) fun hf => (hexits fill hf).2

/-- An attempt to enter is filled or skipped at its bar. -/
theorem resolves_entries {config : UtBotConfig D} {spec : SymbolSpec D} {rate : D} {confirm : Bool} {bar : Bar D}
    {entered entered' : List (TradeAction D)} {quantity : Option D}
    (hsize : sizeEntries config spec rate confirm index bar entered sim = .ok (sim', entered', quantity))
    (hfill : fillEntries index bar quantity entered' sim' = .ok sim'') : Resolves index sim sim'' := by
  obtain ⟨hfills, hskips⟩ := sizeEntries_skips hsize
  obtain ⟨⟨l, hl, hindex, hnil⟩, hs⟩ := fillEntries_fills hfill
  refine ⟨l, by rw [hl, hfills], hindex, ?_⟩
  rw [hs]
  refine hskips.imp_right (And.imp_right ?_)
  intro hentered
  simp [hnil hentered]

/-- One turn of the loop. -/
theorem resolves_barStep {config : UtBotConfig D} {spec : SymbolSpec D} {rate : D} {confirm : Bool} {bar : Bar D}
    {signal : BarSignal D} (h : barStep config spec rate confirm index bar signal sim = .ok sim') :
    Resolves index sim sim' := by
  unfold barStep at h
  obtain ⟨⟨sized, entered', quantity⟩, hsize, h⟩ := except_bind_eq_ok h
  obtain ⟨filled, hfill, h⟩ := except_bind_eq_ok h
  obtain ⟨confirmed, hconfirm, h⟩ := except_bind_eq_ok h
  cases h
  have hfirst : AddsExits index sim { sim with queued := [] } := .same rfl rfl
  have hqueued := hfirst.trans (addsExits_fillQueued rate index bar sim.queued { sim with queued := [] })
  have hexits : AddsExits index filled confirmed :=
    (addsExits_hitBrackets rate index bar filled.brackets.keys filled).trans (addsExits_confirmEntries hconfirm)
  exact (((resolves_entries hsize hfill).before hqueued).after hexits).after (.same rfl rfl)

omit [PyDecimal D] in
/-- A turn keeps the log. -/
theorem Resolves.log (h : Resolves index sim sim') (hlog : AttemptLog index sim.fills sim.skips) :
    AttemptLog (index + 1) sim'.fills sim'.skips := by
  obtain ⟨l, hl, hindex, hskips⟩ := h
  have hfills : ∀ fill ∈ sim'.fills, fill.bar_index < index + 1 := by
    intro fill hfill
    rw [hl] at hfill
    rcases List.mem_append.mp hfill with hfill | hfill
    · exact Nat.lt_succ_of_lt (hlog.fills_before fill hfill)
    · exact Nat.lt_succ_of_le (hindex fill hfill).le
  rcases hskips with hs | ⟨⟨skip, hskip, hs⟩, hexits⟩
  · rw [hs]
    refine ⟨hfills, fun skip hskip => Nat.lt_succ_of_lt (hlog.skips_before skip hskip), hlog.once, ?_⟩
    intro skip hskip fill hfill hentry
    rw [hl] at hfill
    rcases List.mem_append.mp hfill with hfill | hfill
    · exact hlog.apart skip hskip fill hfill hentry
    · have := hlog.skips_before skip hskip
      have := hindex fill hfill
      omega
  · rw [hs]
    refine ⟨hfills, ?_, ?_, ?_⟩
    · intro other hother
      rcases List.mem_append.mp hother with hother | hother
      · exact Nat.lt_succ_of_lt (hlog.skips_before other hother)
      · rw [List.mem_singleton.mp hother, hskip]
        exact Nat.lt_succ_self index
    · rw [List.map_append, List.map_cons, List.map_nil, hskip, List.nodup_append]
      refine ⟨hlog.once, List.nodup_singleton _, ?_⟩
      intro b hb b' hb'
      obtain ⟨other, hother, rfl⟩ := List.mem_map.mp hb
      rw [List.mem_singleton.mp hb']
      exact (hlog.skips_before other hother).ne
    · intro other hother fill hfill hentry
      rw [hl] at hfill
      rcases List.mem_append.mp hfill with hfill | hfill
      · rcases List.mem_append.mp hother with hother | hother
        · exact hlog.apart other hother fill hfill hentry
        · rw [List.mem_singleton.mp hother, hskip]
          exact (hlog.fills_before fill hfill).ne
      · rw [hexits fill hfill] at hentry
        cases hentry

/-- The whole loop. -/
theorem log_runBars {config : UtBotConfig D} {spec : SymbolSpec D} {rate : D} {confirm : Bool}
    {rows : List (Bar D × BarSignal D)} (hlog : AttemptLog index sim.fills sim.skips)
    (h : runBars config spec rate confirm index rows sim = .ok sim') :
    AttemptLog (index + rows.length) sim'.fills sim'.skips := by
  induction rows generalizing index sim with
  | nil =>
    cases h
    exact hlog
  | cons row rows ih =>
    obtain ⟨next, hstep, h⟩ := except_bind_eq_ok h
    have := ih ((resolves_barStep hstep).log hlog) h
    rwa [Nat.add_right_comm, Nat.add_assoc] at this

/-- Before the first bar nothing is logged. -/
theorem log_start (initial : D) : AttemptLog 0 (Simulation.start initial).fills (Simulation.start initial).skips where
  fills_before := by simp [Simulation.start]
  skips_before := by simp [Simulation.start]
  once := by simp [Simulation.start]
  apart := by simp [Simulation.start]

section

variable {fills : List (BacktestFill D)} {skips : List (BacktestSkip D)}

omit [PyDecimal D] in
/-- The bars of the entries are those at which one was filled. -/
theorem mem_entryBars {n : Nat} : n ∈ entryBars fills ↔ ∃ fill ∈ fills, fill.kind = .ENTRY ∧ fill.bar_index = n := by
  simp only [entryBars, List.mem_toFinset, List.mem_map, List.mem_filter, decide_eq_true_eq, and_assoc]

omit [PyDecimal D] in
/-- No bar counts twice. -/
theorem card_attemptBars (hlog : AttemptLog index fills skips) :
    (attemptBars fills skips).card = (entryBars fills).card + skips.length := by
  have hapart : Disjoint (entryBars fills) (skips.map fun skip => skip.bar_index).toFinset := by
    rw [Finset.disjoint_left]
    intro n hentry hskip
    obtain ⟨fill, hfill, hkind, rfl⟩ := mem_entryBars.mp hentry
    obtain ⟨skip, hskip, heq⟩ := List.mem_map.mp (List.mem_toFinset.mp hskip)
    exact hlog.apart skip hskip fill hfill hkind heq.symm
  rw [attemptBars, Finset.card_union_of_disjoint hapart, List.toFinset_card_of_nodup hlog.once, List.length_map]

omit [PyDecimal D] in
/-- The bars with fills are as many as those with entries if and only if every exit shares its bar with an entry. -/
theorem card_fill_bars_iff : (fills.map fun fill => fill.bar_index).toFinset.card = (entryBars fills).card ↔
    ∀ fill ∈ fills, fill.kind = .EXIT → ∃ entry ∈ fills, entry.kind = .ENTRY ∧ entry.bar_index = fill.bar_index := by
  have hsubset : entryBars fills ⊆ (fills.map fun fill => fill.bar_index).toFinset := by
    intro n hn
    obtain ⟨fill, hfill, _, rfl⟩ := mem_entryBars.mp hn
    exact List.mem_toFinset.mpr (List.mem_map_of_mem hfill)
  constructor
  · intro hcard fill hfill _
    have heq := Finset.eq_of_subset_of_card_le hsubset hcard.le
    rw [← mem_entryBars, heq]
    exact List.mem_toFinset.mpr (List.mem_map_of_mem hfill)
  · intro hexits
    refine congrArg Finset.card (Finset.Subset.antisymm ?_ hsubset)
    intro n hn
    obtain ⟨fill, hfill, rfl⟩ := List.mem_map.mp (List.mem_toFinset.mp hn)
    cases hkind : fill.kind with
    | ENTRY => exact mem_entryBars.mpr ⟨fill, hfill, hkind, rfl⟩
    | EXIT => exact mem_entryBars.mpr (hexits fill hfill hkind)

end

/-- A number of the skips, in percent of two wholes: zero, or the wholes are the same. -/
theorem percent_eq_iff {gated filled entries skipped : Nat} (h : gated ≤ skipped) :
    (if filled + skipped = 0 then (0 : ℚ) else (gated : ℚ) / (filled + skipped : Nat) * 100) =
      (if entries + skipped = 0 then (0 : ℚ) else 100 * (gated : ℚ) / (entries + skipped : Nat)) ↔ gated = 0 ∨ filled = entries := by
  rcases Nat.eq_zero_or_pos gated with rfl | hgated
  · simp
  · have hskipped : 0 < skipped := hgated.trans_le h
    rw [if_neg (by omega), if_neg (by omega), or_iff_right hgated.ne']
    have hg : (gated : ℚ) ≠ 0 := by positivity
    have hf : ((filled + skipped : Nat) : ℚ) ≠ 0 := by positivity
    have he : ((entries + skipped : Nat) : ℚ) ≠ 0 := by positivity
    constructor
    · intro heq
      field_simp at heq
      have : entries + skipped = filled + skipped := by exact_mod_cast heq
      omega
    · rintro rfl
      ring

end RatiosAux

open RatiosAux in
/-- The rate is that of the attempts if and only if none ended at the gate, or every exit shares its bar with an entry. -/
theorem confirmation_rate_iff (F : Type) [PyFloat F] [Boundary F ℚ] (bars : List (Bar ℚ)) (config : UtBotConfig ℚ)
    (spec : SymbolSpec ℚ) (initial rate : ℚ) (confirm : Bool) {result : BacktestResult ℚ}
    (h : run_backtest config spec rate confirm F bars initial = .ok result) :
    result.confirmation_rate = gateRate result ↔ (∀ skip ∈ result.skips, skip.reason ≠ .AWAITING_CONFIRMATION) ∨
      ∀ fill ∈ result.fills, fill.kind = .EXIT →
        ∃ entry ∈ result.fills, entry.kind = .ENTRY ∧ entry.bar_index = fill.bar_index := by
  obtain ⟨signals, _, h⟩ := except_bind_eq_ok h
  obtain ⟨sim, hrun, h⟩ := except_bind_eq_ok h
  cases h
  have hlog := log_runBars (log_start initial) hrun
  have hattempts := card_attemptBars hlog
  unfold BacktestResult.confirmation_rate gateRate
  dsimp only
  have hnone : (∀ skip ∈ sim.skips, skip.reason ≠ .AWAITING_CONFIRMATION) ↔
      (sim.skips.countP fun skip => skip.reason = .AWAITING_CONFIRMATION) = 0 := by
    simp [List.countP_eq_zero]
  rw [← card_fill_bars_iff, hattempts, hnone]
  exact percent_eq_iff List.countP_le_length

/-- The same market, when the run does not confirm. -/
def gatedRun : Except Exc (BacktestResult ℚ) :=
  @run_backtest ℚ _ sampleConfig sampleSpec 1 false ℚ .exact .exact gainBars 100

/-- In a run that confirms, nothing ends at the gate. -/
theorem confirmation_rate_gain : ∃ result, gainRun = .ok result ∧
    (result.confirmation_rate = gateRate result ↔ (∀ skip ∈ result.skips, skip.reason ≠ .AWAITING_CONFIRMATION) ∨
      ∀ fill ∈ result.fills, fill.kind = .EXIT →
        ∃ entry ∈ result.fills, entry.kind = .ENTRY ∧ entry.bar_index = fill.bar_index) := by
  obtain ⟨result, hrun, _⟩ := gainRun_ok
  exact ⟨result, hrun, @confirmation_rate_iff ℚ .exact .exact gainBars sampleConfig sampleSpec 100 1 true result hrun⟩

/-- One attempt of two ends at the gate; the bar of the exits counts as a third. -/
theorem confirmation_rate_understated : ∃ result, gatedRun = .ok result ∧ gateRate result = 50 ∧
    result.confirmation_rate = 100 / 3 := by
  obtain ⟨result, hrun, hcheck⟩ := exists_ok_of_check (r := gatedRun)
    (p := fun result => decide (gateRate result = 50 ∧ result.confirmation_rate = 100 / 3)) (by decide +kernel)
  exact ⟨result, hrun, of_decide_eq_true hcheck⟩

end MtossBot
