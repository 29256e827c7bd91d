import MtossBot.Lemmas.TradeManager

/-!
# Runs of the trade manager

A run is any sequence of calls of `on_bar_close`, `on_entry_filled` and `on_tranche_closed` from the initial state, in any order and
with any arguments, none of which raises. It keeps the calls made and the actions they returned.
-/

namespace MtossBot

/-- A call of the trade manager, with its arguments. -/
inductive TradeCall (D : Type) [PyDecimal D] where
  | bar_close (bar : Bar D) (signal : BarSignal D) (config : UtBotConfig D)
  | entry_filled (entry_price : D) (bar_index : Int) (config : UtBotConfig D) (quantity reference_close : Option D)
  | tranche_closed (role : TrancheRole) (reason : CloseReason)

variable {D : Type} [PyDecimal D]

/-- What a call returns. -/
def TradeCall.apply (s : TradeState D) : TradeCall D → Except Exc (TradeDecision D)
  | bar_close bar signal config => .ok (on_bar_close s bar signal config)
  | entry_filled entry_price bar_index config quantity reference_close =>
    on_entry_filled s entry_price bar_index config quantity reference_close
  | tranche_closed role reason => .ok (on_tranche_closed s role reason)

/-- The states that calls lead to from `TradeState()`, with the calls and the actions so far. -/
inductive TradeRun : List (TradeCall D) → TradeState D → List (TradeAction D) → Prop where
  | init : TradeRun [] {} []
  | step {calls : List (TradeCall D)} {s : TradeState D} {log : List (TradeAction D)} {call : TradeCall D}
      {d : TradeDecision D} :
      TradeRun calls s log → call.apply s = .ok d → TradeRun (calls ++ [call]) d.state (log ++ d.actions)

/-- A call keeps a state well-formed. -/
theorem TradeCall.wf {s : TradeState D} (h : s.Wf) {call : TradeCall D} {d : TradeDecision D}
    (hd : call.apply s = .ok d) : d.state.Wf := by
  cases call with
  | bar_close bar signal config => exact Except.ok.inj hd ▸ wf_on_bar_close h bar signal config
  | entry_filled entry_price bar_index config quantity reference_close => exact wf_on_entry_filled h hd
  | tranche_closed role reason => exact Except.ok.inj hd ▸ wf_on_tranche_closed h role reason

/-- Every state of a run is well-formed. -/
theorem TradeRun.wf {calls : List (TradeCall D)} {s : TradeState D} {log : List (TradeAction D)}
    (h : TradeRun calls s log) : s.Wf := by
  induction h with
  | init => exact TradeState.Wf.empty
  | step _ hd ih => exact TradeCall.wf ih hd

/-! ## Where the tranches of a state come from -/

/-- The tranches of the second state are those of the first, each perhaps closed or moved. -/
def Continues (s s' : TradeState D) : Prop :=
  ∀ t' ∈ s'.tranches, ∃ t ∈ s.tranches, Relation.ReflTransGen Tranche.Evolves t t'

omit [PyDecimal D] in
/-- A trade continues as it is. -/
theorem Continues.refl (s : TradeState D) : Continues s s := fun t ht => ⟨t, ht, .refl⟩

omit [PyDecimal D] in
/-- What continues twice continues. -/
theorem Continues.trans {s s' s'' : TradeState D} (h : Continues s s') (h' : Continues s' s'') : Continues s s'' := by
  intro t ht
  obtain ⟨u, hu, hut⟩ := h' t ht
  obtain ⟨v, hv, hvu⟩ := h u hu
  exact ⟨v, hv, hvu.trans hut⟩

omit [PyDecimal D] in
/-- An update by which tranches evolve continues the trade. -/
theorem Continues.updateWhere {s : TradeState D} {p : Tranche D → Bool} {f : Tranche D → Tranche D}
    (hf : ∀ t ∈ s.tranches, p t = true → t.Evolves (f t)) : Continues s (s.updateWhere p f) := by
  intro t ht
  obtain ⟨u, hu, rfl⟩ := TradeState.mem_updateWhere.mp ht
  refine ⟨u, hu, ?_⟩
  cases hp : p u with
  | false => exact .refl
  | true => exact .single (hf u hu hp)

omit [PyDecimal D] in
/-- A tranche that evolves keeps the price of its entry. -/
theorem evolves_entry_price {t t' : Tranche D} (h : Relation.ReflTransGen Tranche.Evolves t t') :
    t'.entry_price = t.entry_price := by
  induction h with
  | refl => rfl
  | tail _ he ih => exact he.entry_price.trans ih

omit [PyDecimal D] in
/-- What a tranche keeps as it evolves. -/
theorem evolves_keeps {t t' : Tranche D} (h : Relation.ReflTransGen Tranche.Evolves t t') :
    t'.role = t.role ∧ t'.side = t.side ∧ t'.quantity = t.quantity ∧ (t'.state = .OPEN → t.state = .OPEN) ∧
      (t'.state = .PENDING_ENTRY → t' = t) := by
  induction h with
  | refl => exact ⟨rfl, rfl, rfl, id, fun _ => rfl⟩
  | tail _ he ih =>
    obtain ⟨h1, h2, h3, h4, _⟩ := ih
    exact ⟨he.role.trans h1, he.side.trans h2, he.quantity.trans h3, fun ho => h4 (he.of_open ho),
      fun hp => absurd hp he.not_pending⟩

/-- Moving stops to the entry price continues the trade. -/
theorem continues_apply_breakeven {s : TradeState D} (h : s.Paired) (bar : Bar D) (signal : BarSignal D) :
    Continues s (_apply_breakeven s bar signal).1 := by
  rcases _apply_breakeven_cases h bar signal with he | ⟨runner, entry, hr, ho, _, hp, he⟩
  · rw [he]
    exact .refl s
  · rw [he]
    exact .updateWhere (h.evolves_breakeven hr ho hp)

/-- Closing the runner on a flip of the band continues the trade. -/
theorem continues_apply_hull_exit {s : TradeState D} (h : s.Paired) (signal : BarSignal D) (config : UtBotConfig D) :
    Continues s (_apply_hull_exit s signal config).1 := by
  rcases _apply_hull_exit_cases h signal config with he | ⟨runner, hr, ho, he⟩
  · rw [he]
    exact .refl s
  · rw [he]
    exact .updateWhere (h.evolves_closed hr (by simp [Tranche.live, ho]) .HULL_FLIP)

omit [PyDecimal D] in
/-- Closing the tranches of the other side continues the trade. -/
theorem continues_reversed (s : TradeState D) (side : OrderSide) : Continues s (reversed s side).1 :=
  .updateWhere fun t _ hp => .closed t .REVERSAL (Tranche.live_of_opposes hp)

/-- After a bar close the tranches are the old ones under the old stop, or both wait to be entered on the side and under the stop
of the signal. -/
theorem on_bar_close_entry {s : TradeState D} (h : s.Wf) (bar : Bar D) (signal : BarSignal D) (config : UtBotConfig D) :
    Continues s (on_bar_close s bar signal config).state ∧
        (on_bar_close s bar signal config).state.pending_stop = s.pending_stop ∨
      ∃ side stop, signal.entry = some (side, some stop) ∧
        (on_bar_close s bar signal config).state = entering side stop bar.close := by
  have hb := wf_apply_breakeven h bar signal
  have hh := wf_apply_hull_exit hb signal config
  have hc := (continues_apply_breakeven h.paired bar signal).trans (continues_apply_hull_exit hb.paired signal config)
  have hstop₁ : (_apply_breakeven s bar signal).1.pending_stop = s.pending_stop := by
    rcases _apply_breakeven_cases h.paired bar signal with he | ⟨_, _, _, _, _, _, he⟩
    · rw [he]
    · rw [he]
      rfl
  have hstop₂ : (_apply_hull_exit (_apply_breakeven s bar signal).1 signal config).1.pending_stop = s.pending_stop := by
    rw [← hstop₁]
    rcases _apply_hull_exit_cases hb.paired signal config with he | ⟨_, _, _, he⟩
    · rw [he]
    · rw [he]
      rfl
  rcases _apply_signal_cases hh.paired bar signal with ⟨_, he⟩ | ⟨side, _, hentry, he | ⟨stop, rfl, _, he⟩⟩
  · left
    simp only [on_bar_close, he]
    exact ⟨hc, hstop₂⟩
  · left
    simp only [on_bar_close, he]
    exact ⟨hc.trans (continues_reversed _ side), hstop₂⟩
  · right
    exact ⟨side, stop, hentry, by simp only [on_bar_close, he]⟩

/-- After a bar close the tranches are the old ones, or both wait to be entered. -/
theorem on_bar_close_tranches {s : TradeState D} (h : s.Wf) (bar : Bar D) (signal : BarSignal D)
    (config : UtBotConfig D) :
    Continues s (on_bar_close s bar signal config).state ∨
      ∃ side stop, (on_bar_close s bar signal config).state = entering side stop bar.close :=
  (on_bar_close_entry h bar signal config).imp And.left fun ⟨side, stop, _, he⟩ => ⟨side, stop, he⟩

/-- Only a breakeven moves a stop, that of an open runner to its entry price. -/
theorem on_bar_close_move_stop {s : TradeState D} (h : s.Wf) {bar : Bar D} {signal : BarSignal D} {config : UtBotConfig D}
    {a : TradeAction D} (ha : a ∈ (on_bar_close s bar signal config).actions) (hk : a.kind = .MOVE_STOP) :
    ∃ runner ∈ s.tranches, runner.state = .OPEN ∧ runner.entry_price ≠ none ∧ a.stop_loss = runner.entry_price ∧
      a.take_profit = none := by
  have hb := wf_apply_breakeven h bar signal
  have hh := wf_apply_hull_exit hb signal config
  have hparts : a ∈ (_apply_breakeven s bar signal).2 ∨
      a ∈ (_apply_hull_exit (_apply_breakeven s bar signal).1 signal config).2 ∨
      a ∈ (_apply_signal (_apply_hull_exit (_apply_breakeven s bar signal).1 signal config).1 bar signal).2 := by
    simpa only [on_bar_close, List.mem_append, or_assoc] using ha
  rcases hparts with ha | ha | ha
  · rcases _apply_breakeven_cases h.paired bar signal with he | ⟨runner, entry_price, hr, ho, _, hp, he⟩
    · simp [he] at ha
    · rw [he, List.mem_singleton] at ha
      exact ⟨runner, (h.paired.tranche_iff.mp hr).1, ho, by simp [hp], by rw [ha, hp], by rw [ha]⟩
  · rcases _apply_hull_exit_cases hb.paired signal config with he | ⟨runner, _, _, he⟩
    · simp [he] at ha
    · rw [he, List.mem_singleton] at ha
      rw [ha] at hk
      cases hk
  · have hclose : ∀ side, a ∉ (reversed (_apply_hull_exit (_apply_breakeven s bar signal).1 signal config).1 side).2 := by
      intro side hmem
      obtain ⟨t, _, rfl⟩ := List.mem_map.mp hmem
      cases hk
    rcases _apply_signal_cases hh.paired bar signal with ⟨_, he⟩ | ⟨side, _, _, he | ⟨stop, _, _, he⟩⟩
    · simp [he] at ha
    · rw [he] at ha
      exact absurd ha (hclose side)
    · rw [he] at ha
      rcases List.mem_append.mp ha with ha | ha
      · exact absurd ha (hclose side)
      · simp only [List.mem_cons, List.not_mem_nil, or_false] at ha
        rcases ha with rfl | rfl <;> cases hk

omit [PyDecimal D] in
/-- A report of a close continues the trade. -/
theorem continues_on_tranche_closed {s : TradeState D} (h : s.Paired) (role : TrancheRole) (reason : CloseReason) :
    Continues s (on_tranche_closed s role reason).state := by
  rcases on_tranche_closed_cases h role reason with ⟨_, he⟩ | ⟨t, ht, hl, he⟩
  · rw [he]
    exact .refl s
  · have hc : Continues s (s.updateWhere (fun u => u.role = role) (·.closed reason)) :=
      .updateWhere (h.evolves_closed ht hl reason)
    rw [he]
    dsimp only [flatten_if_done]
    split
    · intro t ht
      cases ht
    · exact hc

/-! ## The quantity of a fill -/

/-- The quantity of the last fill among the calls. -/
def lastFill (calls : List (TradeCall D)) : Option D :=
  calls.foldl (fun last call => match call with
    | .entry_filled _ _ _ quantity _ => quantity
    | _ => last) none

/-- An open tranche has the quantity of the last fill, which is the one that opened it. -/
theorem TradeRun.quantity_eq {calls : List (TradeCall D)} {s : TradeState D} {log : List (TradeAction D)}
    (h : TradeRun calls s log) : ∀ t ∈ s.tranches, t.state = .OPEN → t.quantity = lastFill calls := by
  induction h with
  | init => simp
  | @step calls s log call d hrun hd ih =>
    have hkeep : Continues s d.state → lastFill (calls ++ [call]) = lastFill calls →
        ∀ t ∈ d.state.tranches, t.state = .OPEN → t.quantity = lastFill (calls ++ [call]) := by
      intro hc hlast t ht ho
      obtain ⟨u, hu, he⟩ := hc t ht
      obtain ⟨_, _, hq, hopen, _⟩ := evolves_keeps he
      rw [hq, hlast]
      exact ih u hu (hopen ho)
    cases call with
    | bar_close bar signal config =>
      have hd' := Except.ok.inj hd
      subst hd'
      rcases on_bar_close_tranches hrun.wf bar signal config with hc | ⟨side, stop, he⟩
      · exact hkeep hc (by simp [lastFill])
      · rw [he]
        simp [entering, pendingTranche]
    | entry_filled entry_price bar_index config quantity reference_close =>
      obtain ⟨side, stop, _, _, hpend, ⟨reason, rfl⟩ | ⟨risk, target, _, _, _, rfl⟩⟩ := on_entry_filled_cases hrun.wf hd
      · simp
      · intro t ht ho
        obtain ⟨u, hu, rfl⟩ := TradeState.mem_updateWhere.mp ht
        cases hp : u.isPending with
        | false =>
          rw [hp] at ho
          exact absurd ho (hrun.wf.not_open_of_pending hpend u hu)
        | true =>
          have hu' := (hrun.wf.tranches u hu).pending (by simpa [Tranche.isPending] using hp)
          rw [if_pos rfl, hu']
          simp only [lastFill, List.foldl_append, List.foldl_cons, List.foldl_nil]
          cases quantity <;> rfl
    | tranche_closed role reason =>
      have hd' := Except.ok.inj hd
      subst hd'
      exact hkeep (continues_on_tranche_closed hrun.wf.paired role reason) (by simp [lastFill])

/-! ## A run on fixed bars -/

namespace SampleRun

/-- A bar from 105 to 115 that closes at 110. -/
def bar : Bar ℚ where
  symbol := "XAUUSD"
  timeframe := "H1"
  open_time := .aware 0 0
  open_ := 110
  high := 115
  low := 105
  close := 110
  accepted := by decide +kernel
  utc := ⟨0, rfl⟩

/-- A signal on a bar, with the stops 100 and 120. -/
def signal (index : Int) (buy sell : Bool) : BarSignal ℚ where
  index := index
  open_time := .aware 0 0
  buy := buy
  sell := sell
  hull_green := none
  hull_flip_down := false
  hull_flip_up := false
  trailing_stop := none
  stop_low := some 100
  stop_high := some 120

/-- A signal to buy enters both tranches. -/
theorem apply_buy : TradeCall.apply {} (.bar_close bar (signal 4 true false) .default) =
    .ok ⟨entering .BUY 100 110, [openAction .BUY .T1, openAction .BUY .T2]⟩ := by
  decide

/-- A buy signal: both entries are asked for. -/
theorem run_buy : TradeRun [.bar_close bar (signal 4 true false) .default] (entering .BUY (100 : ℚ) 110)
    [openAction .BUY .T1, openAction .BUY .T2] :=
  .step .init apply_buy

/-- The fill sets the brackets of both. -/
theorem apply_fill : TradeCall.apply (entering .BUY 100 110) (.entry_filled (111 : ℚ) 5 .default (some 2) (some 110)) =
    .ok ⟨(entering .BUY 100 110).entered (some 2) 111 5 100 122,
      [(pendingTranche .BUY .T1).bracketAction 100 122, (pendingTranche .BUY .T2).bracketAction 100 122]⟩ := by
  decide +kernel

/-- Both entries are filled at 111 with quantity 2. -/
theorem run_filled : TradeRun
    [.bar_close bar (signal 4 true false) .default, .entry_filled (111 : ℚ) 5 .default (some 2) (some 110)]
    ((entering .BUY (100 : ℚ) 110).entered (some 2) 111 5 100 122)
    [openAction .BUY .T1, openAction .BUY .T2, (pendingTranche .BUY .T1).bracketAction 100 122,
      (pendingTranche .BUY .T2).bracketAction 100 122] :=
  .step run_buy apply_fill

end SampleRun

end MtossBot
