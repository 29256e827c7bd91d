import MtossBot.Lemmas.TradeRuns

/-!
# What the orders of a bar close name

A `CLOSE` or `MOVE_STOP` should name a position that exists. The breakeven move and the Hull exit check that the runner is open; the
reversal closes every live tranche of the other side, also one whose entry was only asked for.
-/

namespace MtossBot

variable {D : Type} [PyDecimal D]

/-- The action names a tranche that is open in the state, and a `CLOSE` carries the tranche's quantity, the one of its fill. -/
def NamesOpen (calls : List (TradeCall D)) (s : TradeState D) (a : TradeAction D) : Prop :=
  ∃ t ∈ s.tranches, t.role = a.role ∧ t.state = .OPEN ∧
    (a.kind = .CLOSE → a.quantity = t.quantity ∧ t.quantity = lastFill calls)

/-- A tranche waits to be entered, and the signal is on the other side. -/
def PendingOpposed (s : TradeState D) (signal : BarSignal D) : Prop :=
  ∃ t ∈ s.tranches, t.state = .PENDING_ENTRY ∧ ∃ side stop, signal.entry = some (side, stop) ∧ t.side ≠ side

namespace TradeActionsAux

omit [PyDecimal D] in
/-- An open tranche of a state was open before, with its role and quantity. -/
theorem origin_of_open {s s' : TradeState D} (h : Continues s s') {t : Tranche D} (ht : t ∈ s'.tranches)
    (ho : t.state = .OPEN) : ∃ u ∈ s.tranches, u.role = t.role ∧ u.state = .OPEN ∧ t.quantity = u.quantity := by
  obtain ⟨u, hu, he⟩ := h t ht
  obtain ⟨hr, _, hq, hopen, _⟩ := evolves_keeps he
  exact ⟨u, hu, hr.symm, hopen ho, hq⟩

omit [PyDecimal D] in
/-- Rewriting where an open tranche is leaves pending tranches alone. -/
theorem mem_updateWhere_of_pending {s : TradeState D} (h : s.Paired) {role : TrancheRole} {u : Tranche D}
    (hu : s.tranche role = some u) (ho : u.state = .OPEN) (f : Tranche D → Tranche D) {t : Tranche D}
    (ht : t ∈ s.tranches) (hp : t.state = .PENDING_ENTRY) : t ∈ (s.updateWhere (fun v => v.role = role) f).tranches := by
  refine TradeState.mem_updateWhere.mpr ⟨t, ht, if_neg ?_⟩
  intro hr
  have htu : t = u := Option.some.inj (((h.tranche_iff).mpr ⟨ht, by simpa using hr⟩).symm.trans hu)
  rw [← htu, hp] at ho
  cases ho

theorem pending_mem_breakeven {s : TradeState D} (h : s.Paired) (bar : Bar D) (signal : BarSignal D) {t : Tranche D}
    (ht : t ∈ s.tranches) (hp : t.state = .PENDING_ENTRY) : t ∈ (_apply_breakeven s bar signal).1.tranches := by
  rcases _apply_breakeven_cases h bar signal with he | ⟨runner, entry, hr, ho, _, _, he⟩
  · rw [he]
    exact ht
  · rw [he]
    exact mem_updateWhere_of_pending h hr ho _ ht hp

theorem pending_mem_hull_exit {s : TradeState D} (h : s.Paired) (signal : BarSignal D) (config : UtBotConfig D)
    {t : Tranche D} (ht : t ∈ s.tranches) (hp : t.state = .PENDING_ENTRY) :
    t ∈ (_apply_hull_exit s signal config).1.tranches := by
  rcases _apply_hull_exit_cases h signal config with he | ⟨runner, hr, ho, he⟩
  · rw [he]
    exact ht
  · rw [he]
    exact mem_updateWhere_of_pending h hr ho _ ht hp

/-- The breakeven move names an open tranche. -/
theorem breakeven_names_open {s : TradeState D} (h : s.Paired) (bar : Bar D) (signal : BarSignal D) {a : TradeAction D}
    (ha : a ∈ (_apply_breakeven s bar signal).2) :
    a.kind = .MOVE_STOP ∧ ∃ t ∈ s.tranches, t.role = a.role ∧ t.state = .OPEN := by
  rcases _apply_breakeven_cases h bar signal with he | ⟨runner, entry, hr, ho, _, _, he⟩
  · simp [he] at ha
  · simp only [he, List.mem_singleton] at ha
    obtain ⟨hmem, hrole⟩ := TradeState.tranche_eq_some hr
    subst ha
    exact ⟨rfl, runner, hmem, hrole, ho⟩

/-- The Hull exit names an open tranche, with its quantity. -/
theorem hull_exit_names_open {s : TradeState D} (h : s.Paired) (signal : BarSignal D) (config : UtBotConfig D)
    {a : TradeAction D} (ha : a ∈ (_apply_hull_exit s signal config).2) :
    ∃ t ∈ s.tranches, t.role = a.role ∧ t.state = .OPEN ∧ a.quantity = t.quantity := by
  rcases _apply_hull_exit_cases h signal config with he | ⟨runner, hr, ho, he⟩
  · simp [he] at ha
  · simp only [he, List.mem_singleton] at ha
    subst ha
    exact ⟨runner, (TradeState.tranche_eq_some hr).1, rfl, ho, rfl⟩

/-- A signal's orders are the closes of the live tranches it opposes, and entries. -/
theorem mem_signal_actions {s : TradeState D} (h : s.Paired) (bar : Bar D) (signal : BarSignal D) {a : TradeAction D}
    (ha : a ∈ (_apply_signal s bar signal).2) :
    a.kind = .OPEN ∨ ∃ side stop, signal.entry = some (side, stop) ∧
      ∃ t ∈ s.tranches, t.opposes side = true ∧ a = t.closeAction .REVERSAL := by
  have hrev : ∀ side, a ∈ (reversed s side).2 → ∃ t ∈ s.tranches, t.opposes side = true ∧ a = t.closeAction .REVERSAL := by
    intro side hmem
    obtain ⟨t, ht, rfl⟩ := List.mem_map.mp hmem
    exact ⟨t, (List.mem_filter.mp ht).1, (List.mem_filter.mp ht).2, rfl⟩
  rcases _apply_signal_cases h bar signal with ⟨_, he⟩ | ⟨side, stop, hentry, he | ⟨_, _, _, he⟩⟩
  · simp [he] at ha
  · rw [he] at ha
    exact .inr ⟨side, stop, hentry, hrev side ha⟩
  · rw [he] at ha
    rcases List.mem_append.mp ha with ha | ha
    · exact .inr ⟨side, stop, hentry, hrev side ha⟩
    · left
      simp only [List.mem_cons, List.not_mem_nil, or_false] at ha
      rcases ha with rfl | rfl <;> rfl

/-- A live tranche that the signal opposes is closed. -/
theorem closeAction_mem_signal {s : TradeState D} (h : s.Paired) (bar : Bar D) (signal : BarSignal D) {side : OrderSide}
    {stop : Option D} (hentry : signal.entry = some (side, stop)) {t : Tranche D} (ht : t ∈ s.tranches)
    (hp : t.opposes side = true) : t.closeAction .REVERSAL ∈ (_apply_signal s bar signal).2 := by
  have hrev : t.closeAction .REVERSAL ∈ (reversed s side).2 := List.mem_map.mpr ⟨t, List.mem_filter.mpr ⟨ht, hp⟩, rfl⟩
  rcases _apply_signal_cases h bar signal with ⟨hnone, _⟩ | ⟨side', _, hentry', he | ⟨_, _, _, he⟩⟩
  · rw [hnone] at hentry
    cases hentry
  · rw [hentry] at hentry'
    cases hentry'
    rw [he]
    exact hrev
  · rw [hentry] at hentry'
    cases hentry'
    rw [he]
    exact List.mem_append_left _ hrev

end TradeActionsAux

open TradeActionsAux

/-- In every state a run reaches and for every bar, signal and settings: all orders of the bar close to close a tranche or to move
its stop name a tranche that is open, with the quantity of its fill, exactly when no entry is pending that the signal opposes. -/
theorem bar_close_names_open_iff {calls : List (TradeCall D)} {s : TradeState D} {log : List (TradeAction D)}
    (h : TradeRun calls s log) (bar : Bar D) (signal : BarSignal D) (config : UtBotConfig D) :
    (∀ a ∈ (on_bar_close s bar signal config).actions, a.kind = .CLOSE ∨ a.kind = .MOVE_STOP → NamesOpen calls s a) ↔
      ¬ PendingOpposed s signal := by
  have hw := h.wf
  have hw₁ := wf_apply_breakeven hw bar signal
  have hw₂ := wf_apply_hull_exit hw₁ signal config
  have hc₁ := continues_apply_breakeven hw.paired bar signal
  have hc₂ := hc₁.trans (continues_apply_hull_exit hw₁.paired signal config)
  constructor
  · -- the pending tranche is still there when the signal is applied, and is closed
    rintro hall ⟨t, ht, hp, side, stop, hentry, hside⟩
    have ht₂ := pending_mem_hull_exit hw₁.paired signal config (pending_mem_breakeven hw.paired bar signal ht hp) hp
    have hopp : t.opposes side = true := by simp [Tranche.opposes, Tranche.live, hp, hside]
    have hmem : t.closeAction .REVERSAL ∈ (on_bar_close s bar signal config).actions :=
      List.mem_append_right _ (closeAction_mem_signal hw₂.paired bar signal hentry ht₂ hopp)
    obtain ⟨u, hu, hrole, hopen, _⟩ := hall _ hmem (.inl rfl)
    have hut : u = t := hw.paired.eq_of_role hu ht hrole
    rw [hut, hp] at hopen
    cases hopen
  · intro hno a ha hkind
    rcases List.mem_append.mp ha with ha | ha
    · rcases List.mem_append.mp ha with ha | ha
      · obtain ⟨hk, t, ht, hrole, hopen⟩ := breakeven_names_open hw.paired bar signal ha
        exact ⟨t, ht, hrole, hopen, by simp [hk]⟩
      · obtain ⟨t, ht, hrole, hopen, hq⟩ := hull_exit_names_open hw₁.paired signal config ha
        obtain ⟨u, hu, hur, huo, huq⟩ := origin_of_open hc₁ ht hopen
        exact ⟨u, hu, hur.trans hrole, huo, fun _ => ⟨hq.trans huq, h.quantity_eq u hu huo⟩⟩
    · rcases mem_signal_actions hw₂.paired bar signal ha with hk | ⟨side, stop, hentry, t, ht, hopp, rfl⟩
      · simp [hk] at hkind
      · -- what is closed is live, and it is not pending
        have hopen : t.state = .OPEN := by
          simp only [Tranche.opposes, Tranche.live, Bool.and_eq_true, decide_eq_true_eq] at hopp
          cases hs : t.state with
          | OPEN => rfl
          | CLOSED => exact absurd hs hopp.1
          | PENDING_ENTRY =>
            obtain ⟨u, hu, he⟩ := hc₂ t ht
            have hut : t = u := (evolves_keeps he).2.2.2.2 hs
            exact absurd ⟨t, hut ▸ hu, hs, side, stop, hentry, hopp.2⟩ hno
        obtain ⟨u, hu, hur, huo, huq⟩ := origin_of_open hc₂ ht hopen
        exact ⟨u, hu, hur, huo, fun _ => ⟨huq, h.quantity_eq u hu huo⟩⟩

/-! ## An entry that waits while the signal turns -/

open SampleRun

/-- A sell signal on a bar after the entries of a buy signal were filled closes two open tranches. -/
theorem bar_close_names_open_filled :
    (∀ a ∈ (on_bar_close ((entering .BUY 100 110).entered (some 2) 111 5 100 122) bar (signal 6 false true)
      .default).actions, a.kind = .CLOSE ∨ a.kind = .MOVE_STOP → NamesOpen
        [.bar_close bar (signal 4 true false) .default, .entry_filled (111 : ℚ) 5 .default (some 2) (some 110)]
        ((entering .BUY 100 110).entered (some 2) 111 5 100 122) a) ↔
      ¬ PendingOpposed ((entering .BUY (100 : ℚ) 110).entered (some 2) 111 5 100 122) (signal 6 false true) :=
  bar_close_names_open_iff run_filled bar (signal 6 false true) .default

/-- A buy signal whose entries are still pending when the sell signal comes: both are closed at market. -/
theorem bar_close_closes_pending :
    ¬ ∀ (calls : List (TradeCall ℚ)) (s : TradeState ℚ) (log : List (TradeAction ℚ)), TradeRun calls s log →
      ∀ (bar : Bar ℚ) (signal : BarSignal ℚ) (config : UtBotConfig ℚ), ∀ a ∈ (on_bar_close s bar signal config).actions,
        a.kind = .CLOSE ∨ a.kind = .MOVE_STOP → NamesOpen calls s a := by
  intro h
  have hmem : (pendingTranche .BUY .T1).closeAction .REVERSAL ∈
      (on_bar_close (entering .BUY (100 : ℚ) 110) bar (signal 5 false true) .default).actions := by decide
  obtain ⟨t, ht, _, hopen, _⟩ := h _ _ _ run_buy bar (signal 5 false true) .default _ hmem (.inl rfl)
  have hall : ∀ t ∈ (entering .BUY (100 : ℚ) 110).tranches, t.state ≠ .OPEN := by decide
  exact hall t ht hopen

end MtossBot
