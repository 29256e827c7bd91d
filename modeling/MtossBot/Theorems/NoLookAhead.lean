import MtossBot.Strategies.UtBot.Backtest

/-!
# No look-ahead

What the strategy computes for a bar depends on that bar and the bars before it. For the signals this is causality of each
indicator; for the simulator it is that a turn of the loop only appends, and only entries of its own bar. Nothing is assumed of the
arithmetic, neither of the indicators nor of the money.
-/

namespace MtossBot

variable {D : Type} [PyDecimal D]

namespace NoLookAheadAux

/-! ## Sequences of computations that may raise -/

/-- If all computations of a list succeed, so do those of a beginning, with the same values. -/
theorem mapM_take_ok {α : Type} {l : List (Except Exc α)} {xs : List α} (h : l.mapM id = .ok xs) (n : Nat) :
    (l.take n).mapM id = .ok (xs.take n) := by
  rw [eq_map_of_mapM_ok h, ← List.map_take]
  exact mapM_map_ok _

/-- If a computation of a beginning raises, the list raises the same. -/
theorem mapM_take_error {α : Type} {l : List (Except Exc α)} {n : Nat} {e : Exc} (h : (l.take n).mapM id = .error e) :
    l.mapM id = .error e := by
  induction l generalizing n with
  | nil =>
    rw [List.take_nil] at h
    exact h
  | cons a l ih =>
    cases n with
    | zero => cases h
    | succ n =>
      rw [List.take_succ_cons, List.mapM_cons] at h
      rw [List.mapM_cons]
      cases a with
      | error e' => exact h
      | ok x =>
        cases hl : (l.take n).mapM id with
        | error e' =>
          rw [hl] at h
          cases h
          rw [ih hl]
          rfl
        | ok ys =>
          rw [hl] at h
          cases h

/-! ## What a turn of the loop appends -/

/-- The fills, trades and skips of the second simulation are those of the first and others, of bars that satisfy `P`. -/
structure Grows (P : Nat → Prop) (sim sim' : Simulation D) : Prop where
  fills : ∃ l, sim'.fills = sim.fills ++ l ∧ ∀ f ∈ l, P f.bar_index
  trades : ∃ l, sim'.trades = sim.trades ++ l ∧ ∀ t ∈ l, P t.exit_bar_index
  skips : ∃ l, sim'.skips = sim.skips ++ l ∧ ∀ s ∈ l, P s.bar_index

variable {P : Nat → Prop} {sim sim' sim'' : Simulation D}

omit [PyDecimal D] in
/-- A simulation with the same fills, trades and skips. -/
theorem Grows.same (hf : sim'.fills = sim.fills) (ht : sim'.trades = sim.trades) (hs : sim'.skips = sim.skips) :
    Grows P sim sim' :=
  ⟨⟨[], by simp [hf], by simp⟩, ⟨[], by simp [ht], by simp⟩, ⟨[], by simp [hs], by simp⟩⟩

omit [PyDecimal D] in
/-- Logs grow part by part. -/
theorem Grows.trans (h : Grows P sim sim') (h' : Grows P sim' sim'') : Grows P sim sim'' := by
  have hlist : ∀ {α : Type} {Q : α → Prop} {a b c : List α}, (∃ l, b = a ++ l ∧ ∀ x ∈ l, Q x) →
      (∃ l, c = b ++ l ∧ ∀ x ∈ l, Q x) → ∃ l, c = a ++ l ∧ ∀ x ∈ l, Q x := by
    rintro α Q a b c ⟨l, rfl, hl⟩ ⟨m, rfl, hm⟩
    exact ⟨l ++ m, List.append_assoc _ _ _, fun x hx => (List.mem_append.mp hx).elim (hl x) (hm x)⟩
  exact ⟨hlist h.fills h'.fills, hlist h.trades h'.trades, hlist h.skips h'.skips⟩

omit [PyDecimal D] in
/-- What grows within some bars grows within more. -/
theorem Grows.mono {Q : Nat → Prop} (h : Grows P sim sim') (hPQ : ∀ i, P i → Q i) : Grows Q sim sim' := by
  obtain ⟨⟨a, ha, hPa⟩, ⟨b, hb, hPb⟩, ⟨c, hc, hPc⟩⟩ := h
  exact ⟨⟨a, ha, fun x hx => hPQ _ (hPa x hx)⟩, ⟨b, hb, fun x hx => hPQ _ (hPb x hx)⟩, ⟨c, hc, fun x hx => hPQ _ (hPc x hx)⟩⟩

/-- A recorded exit adds to the logs at its bar. -/
theorem grows_record_exit (rate : D) (index : Nat) (bar : Bar D) (role : TrancheRole) (price : D) (reason : CloseReason)
    (sim : Simulation D) (brackets : Dict TrancheRole (_Bracket D)) :
    Grows (· = index) sim (record_exit rate index bar role price reason { sim with brackets := brackets }) := by
  unfold record_exit
  split
  · exact .same rfl rfl rfl
  · exact ⟨⟨_, rfl, by simp⟩, ⟨_, rfl, by simp⟩, ⟨[], by simp, by simp⟩⟩

/-- So do the exits filled at the open. -/
theorem grows_fillQueued (rate : D) (index : Nat) (bar : Bar D) (actions : List (TradeAction D)) (sim : Simulation D) :
    Grows (· = index) sim (fillQueued rate index bar actions sim).1 := by
  induction actions generalizing sim with
  | nil => exact .same rfl rfl rfl
  | cons action actions ih =>
    unfold fillQueued
    split
    · exact (grows_record_exit rate index bar action.role bar.open_ _ sim _).trans (ih _)
    · exact ih sim
    · exact ih sim

/-- So does a skip where entries are sized. -/
theorem grows_sizeEntries {config : UtBotConfig D} {spec : SymbolSpec D} {rate : D} {confirm : Bool} {index : Nat}
    {bar : Bar D} {entered : List (TradeAction D)} {r : Simulation D × List (TradeAction D) × Option D}
    (h : sizeEntries config spec rate confirm index bar entered sim = .ok r) : Grows (· = index) sim r.1 := by
  unfold sizeEntries at h
  split at h
  · rename_i side pending_stop _ _
    cases hs : _skip_reason config spec rate confirm (PyDecimal.abs (bar.open_ - pending_stop)) sim.equity sim.ruined with
    | error e =>
      simp only [hs, bind, Except.bind] at h
      cases h
    | ok skip =>
      simp only [hs, bind, Except.bind] at h
      cases skip with
      | some skip =>
        cases h
        exact ⟨⟨[], by simp, by simp⟩, ⟨[], by simp, by simp⟩, ⟨_, rfl, by simp⟩⟩
      | none =>
        cases ho : size_entry config (PyDecimal.abs (bar.open_ - pending_stop)) spec sim.equity rate with
        | error e =>
          simp only [ho] at h
          cases h
        | ok outcome =>
          simp only [ho] at h
          cases h
          exact .same rfl rfl rfl
  · cases h
    exact .same rfl rfl rfl

/-- So do the entries. -/
theorem grows_fillEntries {index : Nat} {bar : Bar D} {quantity : Option D} {actions : List (TradeAction D)}
    (h : fillEntries index bar quantity actions sim = .ok sim') : Grows (· = index) sim sim' := by
  induction actions generalizing sim with
  | nil =>
    cases h
    exact .same rfl rfl rfl
  | cons action actions ih =>
    unfold fillEntries at h
    split at h
    · exact Grows.trans ⟨⟨_, rfl, by simp⟩, ⟨[], by simp, by simp⟩, ⟨[], by simp, by simp⟩⟩ (ih h)
    · cases h

/-- So do the exits at a bracket. -/
theorem grows_hitBrackets (rate : D) (index : Nat) (bar : Bar D) (roles : List TrancheRole) (sim : Simulation D) :
    Grows (· = index) sim (hitBrackets rate index bar roles sim) := by
  induction roles generalizing sim with
  | nil => exact .same rfl rfl rfl
  | cons role roles ih =>
    unfold hitBrackets
    split
    · exact ih sim
    · split
      · exact ih sim
      · split
        · exact ih sim
        · rename_i price close_reason _
          have he := grows_record_exit rate index bar role price close_reason sim (sim.brackets.erase role)
          dsimp only
          generalize record_exit rate index bar role price close_reason
            { sim with brackets := sim.brackets.erase role } = closed at he
          have hc : Grows (· = index) sim
              { closed with state := (on_tranche_closed closed.state role close_reason).state } :=
            ⟨he.fills, he.trades, he.skips⟩
          exact hc.trans (ih _)

omit [PyDecimal D] in
/-- To register brackets adds nothing. -/
theorem grows_register (sim : Simulation D) (d : TradeDecision D) (index : Nat) : Grows P sim (sim.register d index) :=
  .same rfl rfl rfl

/-- Nor does confirming entries. -/
theorem grows_confirmEntries {config : UtBotConfig D} {index : Nat} {bar : Bar D} {entered : List (TradeAction D)}
    {quantity : Option D} (h : confirmEntries config index bar entered quantity sim = .ok sim') : Grows P sim sim' := by
  unfold confirmEntries at h
  split at h
  · cases h
    exact .same rfl rfl rfl
  · cases hd : on_entry_filled sim.state bar.open_ index config quantity sim.state.reference_close with
    | error e =>
      rw [hd] at h
      cases h
    | ok d =>
      rw [hd] at h
      cases h
      exact grows_register sim d index

/-- A turn of the loop appends entries of its own bar. -/
theorem grows_barStep {config : UtBotConfig D} {spec : SymbolSpec D} {rate : D} {confirm : Bool} {index : Nat}
    {bar : Bar D} {signal : BarSignal D} (h : barStep config spec rate confirm index bar signal sim = .ok sim') :
    Grows (· = index) sim sim' := by
  unfold barStep at h
  have h₀ : Grows (· = index) sim { sim with queued := [] } := .same rfl rfl rfl
  have h₁ := h₀.trans (grows_fillQueued rate index bar sim.queued { sim with queued := [] })
  generalize fillQueued rate index bar sim.queued { sim with queued := [] } = r at h h₁
  obtain ⟨sim₁, entered₁⟩ := r
  simp only [bind, Except.bind] at h
  cases h₂ : sizeEntries config spec rate confirm index bar entered₁ sim₁ with
  | error e => simp [h₂] at h
  | ok r =>
    obtain ⟨sim₂, entered₂, quantity⟩ := r
    simp only [h₂] at h
    cases h₃ : fillEntries index bar quantity entered₂ sim₂ with
    | error e => simp [h₃] at h
    | ok sim₃ =>
      simp only [h₃] at h
      cases h₅ : confirmEntries config index bar entered₂ quantity (hitBrackets rate index bar sim₃.brackets.keys sim₃) with
      | error e => simp [h₅] at h
      | ok sim₅ =>
        simp only [h₅] at h
        cases h
        have h₄ := grows_hitBrackets rate index bar sim₃.brackets.keys sim₃
        exact ((((h₁.trans (grows_sizeEntries h₂)).trans (grows_fillEntries h₃)).trans h₄).trans
          (grows_confirmEntries h₅)).trans (grows_register _ _ _)

/-- The loop over some bars appends entries of those bars. -/
theorem grows_runBars {config : UtBotConfig D} {spec : SymbolSpec D} {rate : D} {confirm : Bool} {index : Nat}
    {rows : List (Bar D × BarSignal D)} (h : runBars config spec rate confirm index rows sim = .ok sim') :
    Grows (fun i => index ≤ i ∧ i < index + rows.length) sim sim' := by
  induction rows generalizing index sim with
  | nil =>
    cases h
    exact .same rfl rfl rfl
  | cons row rows ih =>
    obtain ⟨bar, signal⟩ := row
    unfold runBars at h
    cases hs : barStep config spec rate confirm index bar signal sim with
    | error e =>
      rw [hs] at h
      cases h
    | ok sim₁ =>
      rw [hs] at h
      rw [List.length_cons]
      refine ((grows_barStep hs).mono ?_).trans ((ih h).mono ?_)
      · intro i hi
        omega
      · intro i hi
        omega

/-- What was there before a bar is what is selected by its index. -/
theorem filter_grown {α : Type} {bar_index : α → Nat} {n : Nat} {a l : List α} (ha : ∀ x ∈ a, bar_index x < n)
    (hl : ∀ x ∈ l, n ≤ bar_index x) : (a ++ l).filter (fun x => bar_index x < n) = a := by
  rw [List.filter_append, List.filter_eq_self.mpr fun x hx => decide_eq_true (ha x hx), List.filter_eq_nil_iff.mpr,
    List.append_nil]
  intro x hx
  have := hl x hx
  simp only [decide_eq_true_eq]
  omega

end NoLookAheadAux

/-- The loop over two lists is the loop over the first and then the second. -/
theorem runBars_append (config : UtBotConfig D) (spec : SymbolSpec D) (rate : D) (confirm : Bool) (index : Nat)
    (rows rows' : List (Bar D × BarSignal D)) (sim : Simulation D) :
    runBars config spec rate confirm index (rows ++ rows') sim =
      (runBars config spec rate confirm index rows sim >>=
        runBars config spec rate confirm (index + rows.length) rows') := by
  induction rows generalizing index sim with
  | nil => rfl
  | cons row rows ih =>
    simp only [List.cons_append, runBars, bind, Except.bind]
    cases barStep config spec rate confirm index row.1 row.2 sim with
    | error e => rfl
    | ok sim₁ =>
      dsimp only
      rw [ih, List.length_cons, Nat.add_assoc, Nat.add_comm 1]
      rfl

open NoLookAheadAux

/-- For all bars, a beginning of them and all settings: the signals of the beginning are the beginning of the signals; and if the
backtest of all bars returns, so does that of the beginning, with exactly the fills, trades and skips whose bar is in it. -/
theorem no_look_ahead (F : Type) [PyFloat F] [Boundary F D] (config : UtBotConfig D) (bars : List (Bar D)) (n : Nat) :
    (∀ signals, compute_signals F bars config = .ok signals →
      compute_signals F (bars.take n) config = .ok (signals.take n)) ∧
    (∀ e, compute_signals F (bars.take n) config = .error e → compute_signals F bars config = .error e) ∧
    ∀ spec rate confirm initial_equity r, run_backtest config spec rate confirm F bars initial_equity = .ok r →
      ∃ r', run_backtest config spec rate confirm F (bars.take n) initial_equity = .ok r' ∧
        r'.fills = r.fills.filter (fun f => f.bar_index < n) ∧
        r'.trades = r.trades.filter (fun t => t.exit_bar_index < n) ∧
        r'.skips = r.skips.filter (fun s => s.bar_index < n) := by
  have hseries : signalSeries F config (bars.take n) = (signalSeries F config bars).take n :=
    causal_signalSeries F config bars n
  have hok : ∀ signals, compute_signals F bars config = .ok signals →
      compute_signals F (bars.take n) config = .ok (signals.take n) := by
    intro signals h
    rw [compute_signals, hseries]
    exact mapM_take_ok h n
  refine ⟨hok, ?_, ?_⟩
  · intro e h
    rw [compute_signals, hseries] at h
    exact mapM_take_error h
  · intro spec rate confirm initial_equity r h
    unfold run_backtest at h ⊢
    cases hsig : compute_signals F bars config with
    | error e => simp [hsig, bind, Except.bind] at h
    | ok signals =>
      have hzip : (bars.take n).zip (signals.take n) = (bars.zip signals).take n := List.take_zipWith.symm
      rw [hok signals hsig]
      simp only [hsig, bind, Except.bind, hzip] at h ⊢
      rw [← List.take_append_drop n (bars.zip signals), runBars_append] at h
      simp only [bind, Except.bind] at h
      cases hpre : runBars config spec rate confirm 0 ((bars.zip signals).take n) (.start initial_equity) with
      | error e => simp [hpre] at h
      | ok sim =>
        simp only [hpre] at h
        cases hpost : runBars config spec rate confirm (0 + ((bars.zip signals).take n).length)
            ((bars.zip signals).drop n) sim with
        | error e =>
          rw [hpost] at h
          cases h
        | ok sim' =>
          simp only [hpost] at h
          cases h
          refine ⟨_, rfl, ?_⟩
          -- before the bar `n` everything is below `n`, from then on nothing is
          have hlow := (grows_runBars hpre).mono fun i hi => show i < n by
            have := hi.2
            simp only [List.length_take] at this
            omega
          have hhigh := (grows_runBars hpost).mono fun i hi => show n ≤ i by
            have := hi.1
            have := hi.2
            simp only [List.length_take, List.length_drop] at *
            omega
          obtain ⟨⟨f, hf, hPf⟩, ⟨t, ht, hPt⟩, ⟨s, hs, hPs⟩⟩ := hlow
          obtain ⟨⟨f', hf', hPf'⟩, ⟨t', ht', hPt'⟩, ⟨s', hs', hPs'⟩⟩ := hhigh
          simp only [Simulation.start, List.nil_append] at hf ht hs
          simp only [hf', ht', hs', hf, ht, hs]
          exact ⟨(filter_grown hPf hPf').symm, (filter_grown hPt hPt').symm, (filter_grown hPs hPs').symm⟩

end MtossBot
