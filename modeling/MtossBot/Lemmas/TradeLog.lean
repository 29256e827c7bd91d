import MtossBot.Lemmas.TradeRuns
import MtossBot.Library.Resets

/-!
# The orders of a run

How the orders a run has given so far relate to the state it is in: a tranche that is live has not been ordered closed since the
last entry, and a runner that has not moved its stop has not been ordered to. Each part of a step keeps this.
-/

namespace MtossBot

variable {D : Type} [PyDecimal D]

/-- The order enters a tranche. -/
def TradeAction.enters (a : TradeAction D) : Bool := a.kind = .OPEN

/-- The order closes the tranche of a role. -/
def TradeAction.closes (role : TrancheRole) (a : TradeAction D) : Bool := a.kind = .CLOSE ∧ a.role = role

/-- The order moves a stop. -/
def TradeAction.moves (a : TradeAction D) : Bool := a.kind = .MOVE_STOP

/-- The state agrees with the orders given so far. -/
structure Logged (s : TradeState D) (log : List (TradeAction D)) : Prop where
  closes : ∀ role, AtMostOncePer TradeAction.enters (TradeAction.closes role) log
  live : ∀ t ∈ s.tranches, t.live = true → countSince TradeAction.enters (TradeAction.closes t.role) log = 0
  moves : AtMostOncePer TradeAction.enters TradeAction.moves log
  unmoved : ∀ t ∈ s.tranches, t.role = .T2 → t.live = true → t.breakeven_moved = false →
    countSince TradeAction.enters TradeAction.moves log = 0

namespace Logged

variable {s s' : TradeState D} {log : List (TradeAction D)}

omit [PyDecimal D] in
theorem init : Logged ({} : TradeState D) [] := ⟨fun _ => .nil, by simp, .nil, by simp⟩

omit [PyDecimal D] in
/-- A state each live tranche of which comes from a live one that had moved if it has. -/
theorem weaken (h : Logged s log)
    (hs : ∀ t' ∈ s'.tranches, t'.live = true → ∃ t ∈ s.tranches, t.live = true ∧ t.role = t'.role ∧
      (t'.breakeven_moved = false → t.breakeven_moved = false)) : Logged s' log := by
  refine ⟨h.closes, ?_, h.moves, ?_⟩
  · intro t' ht' hl
    obtain ⟨t, ht, htl, htr, _⟩ := hs t' ht' hl
    rw [← htr]
    exact h.live t ht htl
  · intro t' ht' hr hl hm
    obtain ⟨t, ht, htl, htr, htm⟩ := hs t' ht' hl
    exact h.unmoved t ht (htr.trans hr) htl (htm hm)

omit [PyDecimal D] in
/-- Orders that neither enter nor close nor move change nothing. -/
theorem append_neutral (h : Logged s log) {l : List (TradeAction D)} (hl : ∀ a ∈ l, a.kind = .SET_BRACKETS) :
    Logged s (log ++ l) := by
  have hno : ∀ a ∈ l, a.enters = false := fun a ha => by simp [TradeAction.enters, hl a ha]
  have hclose : ∀ role, l.countP (TradeAction.closes role) = 0 := fun role =>
    List.countP_eq_zero.mpr fun a ha => by simp [TradeAction.closes, hl a ha]
  have hmove : l.countP TradeAction.moves = 0 :=
    List.countP_eq_zero.mpr fun a ha => by simp [TradeAction.moves, hl a ha]
  refine ⟨fun role => (h.closes role).append hno ?_, ?_, h.moves.append hno ?_, ?_⟩
  · rw [hclose]
    exact (h.closes role).countSince_le
  · intro t ht hlive
    rw [countSince_append hno, hclose, h.live t ht hlive]
  · rw [hmove]
    exact h.moves.countSince_le
  · intro t ht hr hlive hm
    rw [countSince_append hno, hmove, h.unmoved t ht hr hlive hm]

omit [PyDecimal D] in
/-- Among the orders to close some tranches of a pair, a role occurs once if its tranche is among them, else not at all. -/
theorem countP_closes (h : s.Paired) (p : Tranche D → Bool) {order : Tranche D → TradeAction D}
    (hkind : ∀ t, (order t).kind = .CLOSE) (hrole : ∀ t, (order t).role = t.role) (role : TrancheRole) :
    ((s.tranches.filter p).map order).countP (TradeAction.closes role) ≤ 1 ∧
      ((∀ t ∈ s.tranches, p t = true → t.role ≠ role) →
        ((s.tranches.filter p).map order).countP (TradeAction.closes role) = 0) := by
  have hcloses : ∀ t, (order t).closes role = decide (t.role = role) := fun t => by
    simp [TradeAction.closes, hkind, hrole]
  constructor
  · rcases h with h | ⟨a, b, h, ha, hb⟩
    · simp [h]
    · rw [h]
      cases hpa : p a <;> cases hpb : p b <;> cases role <;> simp [hpa, hpb, hcloses, ha, hb]
  · intro hno
    refine List.countP_eq_zero.mpr ?_
    intro c hc
    obtain ⟨t, ht, rfl⟩ := List.mem_map.mp hc
    rw [hcloses, decide_eq_true_eq]
    exact hno t (List.mem_filter.mp ht).1 (List.mem_filter.mp ht).2

omit [PyDecimal D] in
/-- Orders to close live tranches, after which none of them is live. -/
theorem append_closes (h : Logged s log) (hp : s.Paired) {p : Tranche D → Bool} {order : Tranche D → TradeAction D}
    (hkind : ∀ t, (order t).kind = .CLOSE) (hrole : ∀ t, (order t).role = t.role)
    (hlive : ∀ t ∈ s.tranches, p t = true → t.live = true)
    (hs' : ∀ t' ∈ s'.tranches, t'.live = true → t' ∈ s.tranches ∧ p t' = false) :
    Logged s' (log ++ (s.tranches.filter p).map order) := by
  have hno : ∀ a ∈ (s.tranches.filter p).map order, a.enters = false := by
    intro a ha
    obtain ⟨t, _, rfl⟩ := List.mem_map.mp ha
    simp [TradeAction.enters, hkind]
  have hmove : ((s.tranches.filter p).map order).countP TradeAction.moves = 0 := by
    refine List.countP_eq_zero.mpr ?_
    intro a ha
    obtain ⟨t, _, rfl⟩ := List.mem_map.mp ha
    simp [TradeAction.moves, hkind]
  refine ⟨fun role => (h.closes role).append hno ?_, ?_, h.moves.append hno ?_, ?_⟩
  · by_cases hex : ∃ t ∈ s.tranches, p t = true ∧ t.role = role
    · obtain ⟨t, ht, hpt, rfl⟩ := hex
      have h0 := h.live t ht (hlive t ht hpt)
      have h1 := (countP_closes hp p hkind hrole t.role).1
      omega
    · have h0 := (countP_closes hp p hkind hrole role).2 fun t ht hpt hr => hex ⟨t, ht, hpt, hr⟩
      have h1 := (h.closes role).countSince_le
      omega
  · intro t ht hl
    obtain ⟨hts, hpt⟩ := hs' t ht hl
    rw [countSince_append hno, h.live t hts hl, (countP_closes hp p hkind hrole t.role).2]
    intro u hu hpu hr
    rw [hp.eq_of_role hu hts hr, hpt] at hpu
    cases hpu
  · rw [hmove]
    exact h.moves.countSince_le
  · intro t ht hr hl hm
    obtain ⟨hts, _⟩ := hs' t ht hl
    rw [countSince_append hno, hmove, h.unmoved t hts hr hl hm]

omit [PyDecimal D] in
/-- After rewriting some tranches to closed ones, what is live is as it was. -/
theorem live_updateWhere {p : Tranche D → Bool} {reason : CloseReason} :
    ∀ t' ∈ (s.updateWhere p (·.closed reason)).tranches, t'.live = true → t' ∈ s.tranches ∧ p t' = false := by
  intro t' ht' hl
  obtain ⟨t, ht, rfl⟩ := TradeState.mem_updateWhere.mp ht'
  cases hpt : p t with
  | false => exact ⟨by simpa using ht, by simpa using hpt⟩
  | true =>
    rw [hpt] at hl
    cases hl

theorem apply_breakeven (h : Logged s log) (hp : s.Paired) (bar : Bar D) (signal : BarSignal D) :
    Logged (_apply_breakeven s bar signal).1 (log ++ (_apply_breakeven s bar signal).2) := by
  rcases _apply_breakeven_cases hp bar signal with he | ⟨runner, entry, hr, ho, hm, _, he⟩
  · rw [he, List.append_nil]
    exact h
  · rw [he]
    obtain ⟨hmem, hrole⟩ := TradeState.tranche_eq_some hr
    have hno : ∀ a ∈ [({ kind := .MOVE_STOP, role := .T2, stop_loss := some entry } : TradeAction D)], a.enters = false := by
      simp [TradeAction.enters]
    have h0 := h.unmoved runner hmem hrole (by simp [Tranche.live, ho]) hm
    -- the tranches keep their roles and stay live; the runner has moved
    have hs : ∀ t' ∈ (s.updateWhere (fun t => t.role = .T2) Tranche.atBreakeven).tranches, t'.live = true →
        (∃ t ∈ s.tranches, t.live = true ∧ t.role = t'.role) ∧ (t'.role = .T2 → t'.breakeven_moved = true) := by
      intro t' ht' hl
      obtain ⟨t, ht, rfl⟩ := TradeState.mem_updateWhere.mp ht'
      by_cases htr : t.role = .T2
      · simp only [htr, decide_true, if_true] at hl ⊢
        exact ⟨⟨t, ht, hl, rfl⟩, fun _ => rfl⟩
      · simp only [htr, decide_false, Bool.false_eq_true, if_false] at hl ⊢
        exact ⟨⟨t, ht, hl, rfl⟩, fun h2 => h2.elim⟩
    refine ⟨fun role => (h.closes role).append hno ?_, ?_, h.moves.append hno ?_, ?_⟩
    · have hle := (h.closes role).countSince_le
      simpa [TradeAction.closes] using hle
    · intro t' ht' hl
      obtain ⟨⟨t, ht, htl, htr⟩, _⟩ := hs t' ht' hl
      rw [countSince_append hno, ← htr, h.live t ht htl]
      simp [TradeAction.closes]
    · rw [h0]
      simp [TradeAction.moves]
    · intro t' ht' hr' hl hm'
      rw [(hs t' ht' hl).2 hr'] at hm'
      cases hm'

omit [PyDecimal D] in
/-- The tranches of a role that is there are that one. -/
theorem filter_role (hp : s.Paired) {role : TrancheRole} {t : Tranche D} (ht : s.tranche role = some t) :
    (s.tranches.filter fun u => u.role = role) = [t] := by
  obtain ⟨hmem, hr⟩ := TradeState.tranche_eq_some ht
  rcases hp with hp | ⟨a, b, hp, ha, hb⟩
  · simp [hp] at hmem
  · rw [hp] at hmem ⊢
    simp only [List.mem_cons, List.not_mem_nil, or_false] at hmem
    subst hr
    rcases hmem with rfl | rfl <;> simp [ha, hb]

theorem apply_hull_exit (h : Logged s log) (hp : s.Paired) (signal : BarSignal D) (config : UtBotConfig D) :
    Logged (_apply_hull_exit s signal config).1 (log ++ (_apply_hull_exit s signal config).2) := by
  rcases _apply_hull_exit_cases hp signal config with he | ⟨runner, hr, ho, he⟩
  · rw [he, List.append_nil]
    exact h
  · have hc : Logged (s.updateWhere (fun t => t.role = .T2) (·.closed .HULL_FLIP))
        (log ++ (s.tranches.filter fun t => t.role = .T2).map (·.closeAction .HULL_FLIP)) := by
      refine h.append_closes hp (fun _ => rfl) (fun _ => rfl) ?_ live_updateWhere
      intro t ht hrole
      have htr : t = runner := Option.some.inj (((hp.tranche_iff).mpr ⟨ht, by simpa using hrole⟩).symm.trans hr)
      simp [htr, Tranche.live, ho]
    rw [filter_role hp hr] at hc
    rw [he]
    exact hc

omit [PyDecimal D] in
theorem reversed (h : Logged s log) (hp : s.Paired) (side : OrderSide) :
    Logged (reversed s side).1 (log ++ (reversed s side).2) :=
  h.append_closes hp (fun _ => rfl) (fun _ => rfl) (fun _ _ hopp => Tranche.live_of_opposes hopp) live_updateWhere

omit [PyDecimal D] in
/-- Entering a trade starts the counts over. -/
theorem enter (h : Logged s log) (side : OrderSide) (stop close : D) :
    Logged (entering side stop close) (log ++ [openAction side .T1, openAction side .T2]) := by
  have hlog : log ++ [openAction side .T1, openAction side .T2] = (log ++ [openAction side .T1]) ++ [openAction side .T2] := by
    simp
  rw [hlog]
  exact ⟨fun role => ((h.closes role).append_reset rfl).append_reset rfl, fun t _ _ => countSince_reset rfl,
    (h.moves.append_reset rfl).append_reset rfl, fun t _ _ _ _ => countSince_reset rfl⟩

theorem apply_signal (h : Logged s log) (hp : s.Paired) (bar : Bar D) (signal : BarSignal D) :
    Logged (_apply_signal s bar signal).1 (log ++ (_apply_signal s bar signal).2) := by
  rcases _apply_signal_cases hp bar signal with ⟨_, he⟩ | ⟨side, _, _, he | ⟨stop, _, _, he⟩⟩
  · rw [he, List.append_nil]
    exact h
  · rw [he]
    exact h.reversed hp side
  · rw [he, ← List.append_assoc]
    exact (h.reversed hp side).enter side stop bar.close

/-- A call keeps the state in agreement with the orders. -/
theorem step (h : Logged s log) (hw : s.Wf) {call : TradeCall D} {d : TradeDecision D} (hd : call.apply s = .ok d) :
    Logged d.state (log ++ d.actions) := by
  cases call with
  | bar_close bar signal config =>
    have hw₁ := wf_apply_breakeven hw bar signal
    have hw₂ := wf_apply_hull_exit hw₁ signal config
    rw [← Except.ok.inj hd]
    simp only [on_bar_close, ← List.append_assoc]
    exact ((h.apply_breakeven hw.paired bar signal).apply_hull_exit hw₁.paired signal config).apply_signal hw₂.paired
      bar signal
  | entry_filled entry_price bar_index config quantity reference_close =>
    obtain ⟨side, stop, _, _, hpend, ⟨reason, rfl⟩ | ⟨risk, target, _, _, _, rfl⟩⟩ := on_entry_filled_cases hw hd
    · refine h.append_closes hw.paired (fun _ => rfl) (fun t => t.withQuantity_role quantity) ?_ (by simp)
      intro t ht hp
      rw [decide_eq_true_eq] at hp
      simp [Tranche.live, hp]
    · have hs : Logged (s.entered quantity entry_price bar_index stop target) log := by
        refine h.weaken ?_
        intro t' ht' hl
        obtain ⟨t, ht, rfl⟩ := TradeState.mem_updateWhere.mp ht'
        cases hp : t.isPending with
        | false =>
          rw [hp] at hl
          exact ⟨t, ht, by simpa using hl, rfl, by simp⟩
        | true =>
          have hpt : t.state = .PENDING_ENTRY := by simpa [Tranche.isPending] using hp
          have ht' := (hw.tranches t ht).pending hpt
          refine ⟨t, ht, by simp [Tranche.live, hpt], by simp, ?_⟩
          intro _
          rw [ht']
          rfl
      refine hs.append_neutral ?_
      intro a ha
      obtain ⟨t, _, rfl⟩ := List.mem_map.mp ha
      rfl
  | tranche_closed role reason =>
    rw [← Except.ok.inj hd]
    have hnil : (on_tranche_closed s role reason).actions = [] := by
      rcases on_tranche_closed_cases hw.paired role reason with ⟨_, he⟩ | ⟨_, _, _, he⟩ <;> rw [he]
    rw [hnil, List.append_nil]
    refine h.weaken ?_
    intro t' ht' hl
    rcases on_tranche_closed_cases hw.paired role reason with ⟨_, he⟩ | ⟨_, _, _, he⟩
    · rw [he] at ht'
      exact ⟨t', ht', hl, rfl, id⟩
    · rw [he] at ht'
      dsimp only [flatten_if_done] at ht'
      split at ht'
      · cases ht'
      · exact ⟨t', (live_updateWhere t' ht' hl).1, hl, rfl, id⟩

end Logged

/-- The state of a run agrees with its orders. -/
theorem TradeRun.logged {calls : List (TradeCall D)} {s : TradeState D} {log : List (TradeAction D)}
    (h : TradeRun calls s log) : Logged s log := by
  induction h with
  | init => exact Logged.init
  | step hrun hd ih => exact ih.step hrun.wf hd

end MtossBot
