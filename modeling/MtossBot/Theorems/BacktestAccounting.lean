import MtossBot.Library.Curve
import MtossBot.Theorems.SizingCaps
import MtossBot.Strategies.UtBot.Backtest

/-!
# The accounts of a backtest

Over exact arithmetic, the equity of a simulation is that of its trades, its peak and drawdown are those of the equities in the
order of the trades, and once a trade leaves nothing no entry is filled.
-/

namespace MtossBot

/-- What a trade earns, in the currency of the account. -/
def BacktestTrade.profit (rate : ℚ) (t : BacktestTrade ℚ) : ℚ := t.points * t.quantity * rate

/-- The equity before the first trade, and after each. -/
def equities (initial rate : ℚ) (trades : List (BacktestTrade ℚ)) : List ℚ :=
  trades.scanl (fun equity t => equity + t.profit rate) initial

/-- One of the trades leaves nothing. -/
def Ruins (initial rate : ℚ) (trades : List (BacktestTrade ℚ)) : Prop := ∃ x ∈ (equities initial rate trades).tail, x ≤ 0

/-- The fill of a trade's exit. -/
structure ExitOf (t : BacktestTrade ℚ) (f : BacktestFill ℚ) : Prop where
  kind : f.kind = .EXIT
  role : f.role = t.role
  side : f.side = t.side
  quantity : f.quantity = t.quantity
  bar_index : f.bar_index = t.exit_bar_index
  open_time : f.open_time = t.exit_time
  price : f.price = t.exit_price
  reason : f.reason = some t.reason

/-- The exits among the fills. -/
def exitsOf (fills : List (BacktestFill ℚ)) : List (BacktestFill ℚ) := fills.filter fun f => f.kind = .EXIT

/-- The books of an account: its fills, its trades and what it says of them. -/
structure Accounts (initial rate : ℚ) (fills : List (BacktestFill ℚ)) (trades : List (BacktestTrade ℚ))
    (equity peak_equity max_drawdown : ℚ) (ruined : Bool) : Prop where
  exits : List.Forall₂ ExitOf trades (exitsOf fills)
  equity : equity = initial + (trades.map (·.profit rate)).sum
  curve : Curve (equities initial rate trades) peak_equity max_drawdown
  ruined : ruined = true ↔ Ruins initial rate trades
  /-- After the exit that ruins the account there are only exits. -/
  entries : ∀ pre post, fills = pre ++ post → Ruins initial rate (trades.take (exitsOf pre).length) →
    ∀ f ∈ post, f.kind = .EXIT

namespace AccountsAux

variable {initial rate : ℚ} {trades : List (BacktestTrade ℚ)} {fills : List (BacktestFill ℚ)}
  {equity peak_equity max_drawdown : ℚ} {ruined : Bool}

/-- Adding the profits one by one adds their sum. -/
theorem foldl_profit (rate : ℚ) (trades : List (BacktestTrade ℚ)) (initial : ℚ) :
    trades.foldl (fun equity t => equity + t.profit rate) initial = initial + (trades.map (·.profit rate)).sum := by
  induction trades generalizing initial with
  | nil => simp
  | cons t trades ih => rw [List.foldl_cons, ih, List.map_cons, List.sum_cons, add_assoc]

/-- One more trade adds one equity. -/
theorem equities_snoc (t : BacktestTrade ℚ) : equities initial rate (trades ++ [t]) =
    equities initial rate trades ++ [initial + (trades.map (·.profit rate)).sum + t.profit rate] := by
  rw [equities, List.scanl_append, foldl_profit]
  rfl

/-- One more trade ruins an account that was ruined, or takes the last of it. -/
theorem ruins_snoc (t : BacktestTrade ℚ) : Ruins initial rate (trades ++ [t]) ↔
    Ruins initial rate trades ∨ initial + (trades.map (·.profit rate)).sum + t.profit rate ≤ 0 := by
  have hne : equities initial rate trades ≠ [] := List.scanl_ne_nil
  unfold Ruins
  rw [equities_snoc, List.tail_append_of_ne_nil hne]
  simp only [List.mem_append, List.mem_singleton, or_and_right, exists_or, exists_eq_left]

/-- No trade ruins no account. -/
theorem not_ruins_nil : ¬ Ruins initial rate [] := by simp [Ruins, equities]

/-- An account ruined by its first trades is ruined. -/
theorem Ruins.of_take {n : Nat} (h : Ruins initial rate (trades.take n)) : Ruins initial rate trades := by
  obtain ⟨x, hx, hle⟩ := h
  refine ⟨x, ?_, hle⟩
  have htake : equities initial rate (trades.take n) = (equities initial rate trades).take (n + 1) := by
    rw [equities, equities, List.take_scanl]
  rw [htake] at hx
  cases hes : equities initial rate trades with
  | nil => simp [hes] at hx
  | cons e es =>
    rw [hes, List.take_succ_cons] at hx
    exact List.mem_of_mem_take hx

/-- A longer log has no fewer exits. -/
theorem length_exitsOf_le (pre post : List (BacktestFill ℚ)) : (exitsOf pre).length ≤ (exitsOf (pre ++ post)).length := by
  rw [exitsOf, exitsOf, List.filter_append, List.length_append]
  exact Nat.le_add_right _ _

/-- A place in a longer log is its end or a place in the log. -/
theorem split_snoc {α : Type} {log pre post : List α} {a : α} (h : log ++ [a] = pre ++ post) :
    post = [] ∨ ∃ post', post = post' ++ [a] ∧ log = pre ++ post' := by
  rcases List.eq_nil_or_concat post with rfl | ⟨post, b, rfl⟩
  · exact .inl rfl
  · rw [List.concat_eq_append, ← List.append_assoc] at h
    obtain ⟨rfl, hb⟩ := List.append_inj' h rfl
    exact .inr ⟨post, by rw [List.concat_eq_append, hb], rfl⟩

/-! ## What is recorded -/

/-- An exit is recorded, and its trade. -/
theorem accounts_exit (h : Accounts initial rate fills trades equity peak_equity max_drawdown ruined)
    {t : BacktestTrade ℚ} {f : BacktestFill ℚ} (hf : ExitOf t f) :
    Accounts initial rate (fills ++ [f]) (trades ++ [t]) (equity + t.profit rate)
      (max peak_equity (equity + t.profit rate))
      (max max_drawdown (max peak_equity (equity + t.profit rate) - (equity + t.profit rate)))
      (if equity + t.profit rate ≤ 0 then true else ruined) := by
  have hexits : exitsOf (fills ++ [f]) = exitsOf fills ++ [f] := by simp [exitsOf, hf.kind]
  refine ⟨?_, ?_, ?_, ?_, ?_⟩
  · rw [hexits]
    exact List.rel_append h.exits (.cons hf .nil)
  · rw [h.equity, List.map_append, List.sum_append, List.map_singleton, List.sum_singleton, add_assoc]
  · rw [equities_snoc, ← h.equity]
    exact h.curve.snoc _
  · rw [ruins_snoc, ← h.equity, ← h.ruined]
    by_cases hle : equity + t.profit rate ≤ 0 <;> simp [hle]
  · intro pre post hsplit hr g hg
    rcases split_snoc hsplit with rfl | ⟨post', rfl, hfills⟩
    · cases hg
    · have hlen : (exitsOf pre).length ≤ trades.length := by
        rw [h.exits.length_eq, hfills]
        exact length_exitsOf_le pre post'
      rw [List.take_append_of_le_length hlen] at hr
      rcases List.mem_append.mp hg with hg | hg
      · exact h.entries pre post' hfills hr g hg
      · exact List.mem_singleton.mp hg ▸ hf.kind

/-- An entry is recorded, of an account that is not ruined. -/
theorem accounts_entry (h : Accounts initial rate fills trades equity peak_equity max_drawdown ruined)
    {f : BacktestFill ℚ} (hf : f.kind = .ENTRY) (hr : ruined = false) :
    Accounts initial rate (fills ++ [f]) trades equity peak_equity max_drawdown ruined := by
  have hexits : exitsOf (fills ++ [f]) = exitsOf fills := by simp [exitsOf, hf]
  refine ⟨hexits ▸ h.exits, h.equity, h.curve, h.ruined, ?_⟩
  intro pre post hsplit hruin g hg
  rcases split_snoc hsplit with rfl | ⟨post', rfl, hfills⟩
  · cases hg
  · have htrue : ruined = true := h.ruined.mpr (Ruins.of_take hruin)
    rw [hr] at htrue
    cases htrue

/-! ## The phases of a bar -/

/-- The accounts of a simulation. -/
def Simulation.Accounted (initial rate : ℚ) (sim : Simulation ℚ) : Prop :=
  Accounts initial rate sim.fills sim.trades sim.equity sim.peak_equity sim.max_drawdown sim.ruined

variable {sim sim' : Simulation ℚ} {index : Nat} {bar : Bar ℚ}

/-- Before the first bar there is nothing to account for. -/
theorem accounted_start (initial rate : ℚ) : Simulation.Accounted initial rate (.start initial) where
  exits := .nil
  equity := by simp [Simulation.start]
  curve := Curve.singleton initial
  ruined := by simp [Simulation.start, not_ruins_nil]
  entries pre post hsplit _ f hf := by simp [(List.append_eq_nil_iff.mp hsplit.symm).2] at hf

/-- An exit is accounted for with its trade. -/
theorem accounted_record_exit (h : Simulation.Accounted initial rate sim) (role : TrancheRole) (price : ℚ)
    (reason : CloseReason) : Simulation.Accounted initial rate (record_exit rate index bar role price reason sim) := by
  unfold record_exit
  split
  · exact h
  · unfold Simulation.Accounted
    simp only [py_max_eq]
    exact accounts_exit h ⟨rfl, rfl, rfl, rfl, rfl, rfl, rfl, rfl⟩

/-- The exits filled at an open are accounted for. -/
theorem accounted_fillQueued (h : Simulation.Accounted initial rate sim) (actions : List (TradeAction ℚ)) :
    Simulation.Accounted initial rate (fillQueued rate index bar actions sim).1 := by
  induction actions generalizing sim with
  | nil => exact h
  | cons action actions ih =>
    unfold fillQueued
    split
    · refine ih (accounted_record_exit ?_ _ _ _)
      exact h
    · exact ih h
    · exact ih h

/-- An entry that is not given up is that of an account that is not ruined. -/
theorem skip_reason_ruined {config : UtBotConfig ℚ} {spec : SymbolSpec ℚ} {distance : ℚ} {confirm : Bool}
    (h : _skip_reason config spec rate confirm distance equity ruined = .ok none) : ruined = false := by
  unfold _skip_reason at h
  split at h
  · cases h
  · rename_i hr
    exact Bool.eq_false_iff.mpr fun ht => hr (.inl ht)

/-- The entries that get a quantity are those of an account that is not ruined. -/
theorem accounted_sizeEntries {config : UtBotConfig ℚ} {spec : SymbolSpec ℚ} {confirm : Bool}
    {entered entered' : List (TradeAction ℚ)} {quantity : Option ℚ} (h : Simulation.Accounted initial rate sim)
    (hs : sizeEntries config spec rate confirm index bar entered sim = .ok (sim', entered', quantity)) :
    Simulation.Accounted initial rate sim' ∧ (quantity ≠ none → sim'.ruined = false) := by
  unfold sizeEntries at hs
  split at hs
  · obtain ⟨skip, hskip, hs⟩ := except_bind_eq_ok hs
    cases skip with
    | some skip =>
      cases hs
      exact ⟨h, absurd rfl⟩
    | none =>
      obtain ⟨outcome, _, hs⟩ := except_bind_eq_ok hs
      cases hs
      exact ⟨h, fun _ => skip_reason_ruined hskip⟩
  · cases hs
    exact ⟨h, absurd rfl⟩

/-- The entries filled there change no account, and are not made after ruin. -/
theorem accounted_fillEntries {quantity : Option ℚ} {entered : List (TradeAction ℚ)}
    (h : Simulation.Accounted initial rate sim) (hr : quantity ≠ none → sim.ruined = false)
    (hf : fillEntries index bar quantity entered sim = .ok sim') : Simulation.Accounted initial rate sim' := by
  induction entered generalizing sim with
  | nil =>
    cases hf
    exact h
  | cons action entered ih =>
    unfold fillEntries at hf
    split at hf
    · refine ih ?_ ?_ hf
      · exact accounts_entry h rfl (hr (by simp))
      · exact hr
    · cases hf

/-- The exits at a bracket are accounted for. -/
theorem accounted_hitBrackets (h : Simulation.Accounted initial rate sim) (roles : List TrancheRole) :
    Simulation.Accounted initial rate (hitBrackets rate index bar roles sim) := by
  induction roles generalizing sim with
  | nil => exact h
  | cons role roles ih =>
    unfold hitBrackets
    split
    · exact ih h
    · split
      · exact ih h
      · split
        · exact ih h
        · refine ih (accounted_record_exit ?_ _ _ _)
          exact h

/-- To confirm entries changes no account. -/
theorem accounted_confirmEntries {config : UtBotConfig ℚ} {quantity : Option ℚ} {entered : List (TradeAction ℚ)}
    (h : Simulation.Accounted initial rate sim) (hc : confirmEntries config index bar entered quantity sim = .ok sim') :
    Simulation.Accounted initial rate sim' := by
  unfold confirmEntries at hc
  split at hc
  · cases hc
    exact h
  · obtain ⟨decision, _, hc⟩ := except_bind_eq_ok hc
    cases hc
    exact h

section Turn

variable {config : UtBotConfig ℚ} {spec : SymbolSpec ℚ} {confirm : Bool}

/-- A turn of the loop keeps the accounts. -/
theorem accounted_barStep {signal : BarSignal ℚ} (h : Simulation.Accounted initial rate sim)
    (hs : barStep config spec rate confirm index bar signal sim = .ok sim') : Simulation.Accounted initial rate sim' := by
  have h₁ : Simulation.Accounted initial rate (fillQueued rate index bar sim.queued { sim with queued := [] }).1 :=
    accounted_fillQueued (by exact h) sim.queued
  obtain ⟨⟨sim₂, entered, quantity⟩, hsize, hs⟩ := except_bind_eq_ok hs
  obtain ⟨h₂, hr⟩ := accounted_sizeEntries h₁ hsize
  obtain ⟨sim₃, hfill, hs⟩ := except_bind_eq_ok hs
  have h₃ := accounted_fillEntries h₂ hr hfill
  obtain ⟨sim₄, hconfirm, hs⟩ := except_bind_eq_ok hs
  have h₄ := accounted_confirmEntries (accounted_hitBrackets h₃ sim₃.brackets.keys) hconfirm
  cases hs
  exact h₄

/-- The loop keeps the accounts. -/
theorem accounted_runBars {rows : List (Bar ℚ × BarSignal ℚ)} (h : Simulation.Accounted initial rate sim)
    (hs : runBars config spec rate confirm index rows sim = .ok sim') : Simulation.Accounted initial rate sim' := by
  induction rows generalizing index sim with
  | nil =>
    cases hs
    exact h
  | cons row rows ih =>
    obtain ⟨sim₁, hstep, hs⟩ := except_bind_eq_ok hs
    exact ih (accounted_barStep h hstep) hs

end Turn

end AccountsAux

open AccountsAux

/-- The accounts of a backtest that returns. -/
theorem backtest_accounts (F : Type) [PyFloat F] [Boundary F ℚ] (bars : List (Bar ℚ)) (config : UtBotConfig ℚ)
    (spec : SymbolSpec ℚ) (initial rate : ℚ) (confirm : Bool) {result : BacktestResult ℚ}
    (h : run_backtest config spec rate confirm F bars initial = .ok result) :
    Accounts initial rate result.fills result.trades result.final_equity result.peak_equity result.max_drawdown
      result.ruined := by
  obtain ⟨signals, _, h⟩ := except_bind_eq_ok h
  obtain ⟨sim, hrun, h⟩ := except_bind_eq_ok h
  cases h
  exact accounted_runBars (accounted_start initial rate) hrun

/-- The times of the sample bars are in UTC. -/
theorem aware_utc (t : Int) : ∃ u, Datetime.aware t 0 = .aware u 0 := ⟨t, rfl⟩

/-- A bar, as accepted. -/
def sampleBar (t : Int) (open_ high low close : ℚ)
    (accepted : BarFields.errors ⟨"XAUUSD", "H1", .aware t 0, open_, high, low, close, 0, 0⟩ = []) : Bar ℚ :=
  { symbol := "XAUUSD", timeframe := "H1", open_time := .aware t 0, open_, high, low, close, accepted, utc := aware_utc t }

/-- The first bar of the sample market is accepted. -/
theorem sample_accepted_0 : BarFields.errors ⟨"XAUUSD", "H1", .aware 0 0, (100 : ℚ), 101, 99, 100, 0, 0⟩ = [] := by decide +kernel

/-- So is the second. -/
theorem sample_accepted_1 : BarFields.errors ⟨"XAUUSD", "H1", .aware 1 0, (100 : ℚ), 101, 99, 100, 0, 0⟩ = [] := by decide +kernel

/-- So is the third. -/
theorem sample_accepted_2 : BarFields.errors ⟨"XAUUSD", "H1", .aware 2 0, (100 : ℚ), 100, 90, 91, 0, 0⟩ = [] := by decide +kernel

/-- So is the fourth. -/
theorem sample_accepted_3 : BarFields.errors ⟨"XAUUSD", "H1", .aware 3 0, (91 : ℚ), 111, 91, 110, 0, 0⟩ = [] := by decide +kernel

/-- A market that turns against every trade of the strategy. -/
def sampleBars : List (Bar ℚ) :=
  [sampleBar 0 100 101 99 100 sample_accepted_0, sampleBar 1 100 101 99 100 sample_accepted_1,
    sampleBar 2 100 100 90 91 sample_accepted_2, sampleBar 3 91 111 91 110 sample_accepted_3,
    sampleBar 4 110 111 80 82 (by decide +kernel), sampleBar 5 82 83 70 72 (by decide +kernel)]

/-- Settings under which every bar is a window. -/
def sampleConfig : UtBotConfig ℚ where
  risk_pct := 1 / 10
  base_lots := 1 / 100
  max_lots := 2 / 100
  ut_key := 1
  ut_atr := 1
  sl_len := 1
  hull_len := 1
  rr_mult := 1
  hull_mult := 1
  accepted := by decide +kernel

def sampleSpec : SymbolSpec ℚ where
  symbol := "XAUUSD"
  contract_size := 100
  volume_min := 1 / 100
  volume_step := 1 / 100
  volume_max := 100
  accepted := by decide +kernel

def sampleRun : Except Exc (BacktestResult ℚ) :=
  @run_backtest ℚ _ sampleConfig sampleSpec 1 true ℚ .exact .exact sampleBars 50

/-- A small account is ruined by its second trade, and the third is not entered. -/
theorem backtest_accounts_ruined : ∃ result, sampleRun = .ok result ∧ result.ruined = true ∧ result.trades.length = 4 ∧
    result.skips.length = 1 ∧ Accounts 50 1 result.fills result.trades result.final_equity result.peak_equity
      result.max_drawdown result.ruined := by
  obtain ⟨result, hresult, hcheck⟩ : ∃ result, sampleRun = .ok result ∧
      decide (result.ruined = true ∧ result.trades.length = 4 ∧ result.skips.length = 1) = true :=
    exists_ok_of_check (by decide +kernel)
  obtain ⟨hruined, htrades, hskips⟩ := of_decide_eq_true hcheck
  exact ⟨result, hresult, hruined, htrades, hskips,
    @backtest_accounts ℚ .exact .exact sampleBars sampleConfig sampleSpec 50 1 true result hresult⟩

end MtossBot
