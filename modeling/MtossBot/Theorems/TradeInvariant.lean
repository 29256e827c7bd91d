import MtossBot.Lemmas.TradeLog
import Mathlib.Tactic.Linarith

/-!
# The invariant of a trade

What holds of every state the trade manager reaches, of every step from it, and of the orders of a whole run, over exact
arithmetic.
-/

namespace MtossBot

/-- A price at which a position on a side loses, against its entry. -/
def LosesAt (side : OrderSide) (entry price : ℚ) : Prop :=
  match side with
  | .BUY => price < entry
  | .SELL => entry < price

/-- A stop that loses no more than another. -/
def LosesNoMore (side : OrderSide) (old new : ℚ) : Prop :=
  match side with
  | .BUY => old ≤ new
  | .SELL => new ≤ old

/-- What an open tranche has: its entry, a stop on the losing side of it, or at it exactly when moved there, and a target on the
winning side for the first tranche only. -/
structure Tranche.Sound (t : Tranche ℚ) : Prop where
  prices : ∃ entry stop index, t.entry_price = some entry ∧ t.stop_loss = some stop ∧ t.entry_bar_index = some index ∧
    (t.breakeven_moved = true → stop = entry) ∧ (t.breakeven_moved = false → LosesAt t.side entry stop) ∧
    (t.role = .T1 → ∃ target, t.take_profit = some target ∧ LosesAt t.side target entry)
  runner : t.role = .T2 → t.take_profit = none

/-- The invariant of a state. -/
structure TradeInvariant (s : TradeState ℚ) : Prop where
  pair : s.tranches = [] ∨ s.tranches.map Tranche.role = [.T1, .T2]
  side : ∀ t ∈ s.tranches, s.side = some t.side
  exclusive : ¬ ∃ t ∈ s.tranches, ∃ u ∈ s.tranches, t.state = .PENDING_ENTRY ∧ u.state = .OPEN
  opened : ∀ t ∈ s.tranches, t.state = .OPEN → t.Sound
  breakeven : ∀ t ∈ s.tranches, t.breakeven_moved = true → t.role = .T2

/-- While a tranche is open its stop does not move to a price that would lose more. -/
def StopsHold (s s' : TradeState ℚ) : Prop :=
  ∀ t ∈ s.tranches, ∀ t' ∈ s'.tranches, t'.role = t.role → t.state = .OPEN → t'.state = .OPEN →
    ∃ stop stop', t.stop_loss = some stop ∧ t'.stop_loss = some stop' ∧ LosesNoMore t.side stop stop'

/-- When an entry is ordered, every tranche that was live has been ordered closed before. -/
def EntersFlat (s : TradeState ℚ) (actions : List (TradeAction ℚ)) : Prop :=
  ∀ pre a post, actions = pre ++ a :: post → a.kind = .OPEN →
    ∀ t ∈ s.live_tranches, ∃ c ∈ pre, c.kind = .CLOSE ∧ c.role = t.role

/-- Between entries, each role is closed at most once and one stop is moved at most once, the runner's. -/
def OncePerTrade (log : List (TradeAction ℚ)) : Prop :=
  ∀ pre seg post, log = pre ++ seg ++ post → (∀ a ∈ seg, a.kind ≠ .OPEN) →
    (∀ role, seg.countP (fun a => a.kind = .CLOSE ∧ a.role = role) ≤ 1) ∧ seg.countP (fun a => a.kind = .MOVE_STOP) ≤ 1

namespace TradeInvariantAux

/-! ## Prices -/

theorem sound_evolves {t t' : Tranche ℚ} (h : t.Evolves t') (ho : t'.state = .OPEN) (hs : t.Sound) : t'.Sound := by
  cases h with
  | closed reason hl => cases ho
  | moved entry hr hopen he =>
    obtain ⟨entry', stop, index, h1, h2, h3, _, _, _⟩ := hs.prices
    refine ⟨⟨entry, entry, index, he, rfl, h3, fun _ => rfl, fun hf => absurd hf (by simp), ?_⟩, hs.runner⟩
    intro hr1
    simp only [hr] at hr1
    cases hr1

theorem sound_later {t t' : Tranche ℚ} (h : Relation.ReflTransGen Tranche.Evolves t t') (ho : t'.state = .OPEN)
    (hs : t.Sound) : t'.Sound := by
  induction h with
  | refl => exact hs
  | tail hrest he ih => exact sound_evolves he ho (ih (he.of_open ho))

/-- A stop that evolves loses no more. -/
theorem stop_later {t t' : Tranche ℚ} (h : Relation.ReflTransGen Tranche.Evolves t t') (ho : t'.state = .OPEN)
    (hs : t.Sound) :
    ∃ stop stop', t.stop_loss = some stop ∧ t'.stop_loss = some stop' ∧ LosesNoMore t.side stop stop' := by
  induction h with
  | refl =>
    obtain ⟨entry, stop, index, _, hstop, _⟩ := hs.prices
    exact ⟨stop, stop, hstop, hstop, by unfold LosesNoMore; split <;> exact le_refl _⟩
  | @tail u v hrest he ih =>
    obtain ⟨stop, stop', h1, h2, h3⟩ := ih (he.of_open ho)
    have hu := sound_later hrest (he.of_open ho) hs
    obtain ⟨entry, su, index, hentry, hsu, _, heq, hlt, _⟩ := hu.prices
    have hside := (evolves_keeps hrest).2.1
    cases he with
    | closed reason hl => cases ho
    | moved entry' hr hopen he =>
      obtain rfl : entry' = entry := Option.some.inj (he.symm.trans hentry)
      obtain rfl : stop' = su := Option.some.inj (h2.symm.trans hsu)
      refine ⟨stop, entry', h1, rfl, ?_⟩
      rw [hside] at hlt
      cases hb : u.breakeven_moved with
      | true => rwa [← heq hb]
      | false =>
        have hl := hlt hb
        cases hsd : t.side <;> simp only [LosesNoMore, LosesAt, hsd] at * <;> linarith

/-- A tranche that is filled at a positive risk is sound. -/
theorem sound_entered {t : Tranche ℚ} (ht : t = pendingTranche t.side t.role) {quantity : Option ℚ} {entry stop target : ℚ}
    {index : Int} {config : UtBotConfig ℚ} (hrisk : ¬ entryRisk t.side entry stop ≤ 0)
    (htarget : target = entryTarget t.side entry config.rr_mult (entryRisk t.side entry stop)) :
    (t.entered quantity entry index stop target).Sound := by
  have hside : (t.entered quantity entry index stop target).side = t.side := by cases quantity <;> rfl
  have hmoved : (t.entered quantity entry index stop target).breakeven_moved = false := by
    rw [ht]
    cases quantity <;> rfl
  have htp : (t.entered quantity entry index stop target).take_profit = if t.role = .T1 then some target else none := by
    rw [Tranche.entered, Tranche.filled, Tranche.withQuantity_role]
  have hwin : 0 < config.rr_mult * entryRisk t.side entry stop :=
    mul_pos (not_le.mp config.rr_mult_pos) (not_le.mp hrisk)
  refine ⟨⟨entry, stop, index, rfl, rfl, rfl, by simp [hmoved], ?_, fun hr => ⟨target, ?_, ?_⟩⟩, ?_⟩
  · intro _
    rw [hside]
    cases hs : t.side <;> simp only [hs, entryRisk, LosesAt] at * <;> linarith
  · rw [htp, if_pos (by rwa [Tranche.entered_role] at hr)]
  · rw [hside]
    cases hs : t.side <;> simp only [hs, entryRisk, entryTarget, LosesAt] at * <;> linarith
  · intro hr
    rw [htp, if_neg]
    rw [Tranche.entered_role] at hr
    simp [hr]

/-- Every open tranche of a run is sound. -/
theorem run_sound {calls : List (TradeCall ℚ)} {s : TradeState ℚ} {log : List (TradeAction ℚ)} (h : TradeRun calls s log) :
    ∀ t ∈ s.tranches, t.state = .OPEN → t.Sound := by
  induction h with
  | init => simp
  | @step calls s log call d hrun hd ih =>
    have hkeep : Continues s d.state → ∀ t ∈ d.state.tranches, t.state = .OPEN → t.Sound := by
      intro hc t ht ho
      obtain ⟨u, hu, he⟩ := hc t ht
      exact sound_later he ho (ih u hu ((evolves_keeps he).2.2.2.1 ho))
    cases call with
    | bar_close bar signal config =>
      have hd' := Except.ok.inj hd
      subst hd'
      rcases on_bar_close_tranches hrun.wf bar signal config with hc | ⟨side, stop, he⟩
      · exact hkeep hc
      · rw [he]
        simp [entering, pendingTranche]
    | entry_filled entry_price bar_index config quantity reference_close =>
      obtain ⟨side, stop, hside, _, hpend, ⟨reason, rfl⟩ | ⟨risk, target, rfl, hrisk, htarget, rfl⟩⟩ :=
        on_entry_filled_cases hrun.wf hd
      · simp
      · intro t ht ho
        obtain ⟨u, hu, rfl⟩ := TradeState.mem_updateWhere.mp ht
        cases hp : u.isPending with
        | false =>
          rw [hp] at ho
          exact absurd ho (hrun.wf.not_open_of_pending hpend u hu)
        | true =>
          have hu' := (hrun.wf.tranches u hu).pending (by simpa [Tranche.isPending] using hp)
          obtain rfl : side = u.side := Option.some.inj (hside.symm.trans (hrun.wf.side u hu))
          rw [if_pos rfl]
          exact sound_entered hu' hrisk htarget
    | tranche_closed role reason =>
      have hd' := Except.ok.inj hd
      subst hd'
      exact hkeep (continues_on_tranche_closed hrun.wf.paired role reason)

/-- A step never loosens the stop of a tranche that stays open. -/
theorem step_stops {s : TradeState ℚ} (h : s.Wf) (hs : ∀ t ∈ s.tranches, t.state = .OPEN → t.Sound) {call : TradeCall ℚ}
    {d : TradeDecision ℚ} (hd : call.apply s = .ok d) : StopsHold s d.state := by
  have hkeep : Continues s d.state → StopsHold s d.state := by
    intro hc t ht t' ht' hr ho ho'
    obtain ⟨u, hu, he⟩ := hc t' ht'
    have hut : u = t := h.paired.eq_of_role hu ht ((evolves_keeps he).1.symm.trans hr)
    subst hut
    exact stop_later he ho' (hs u hu ho)
  cases call with
  | bar_close bar signal config =>
    have hd' := Except.ok.inj hd
    subst hd'
    rcases on_bar_close_tranches h bar signal config with hc | ⟨side, stop, he⟩
    · exact hkeep hc
    · rw [he]
      intro t _ t' ht' _ _ ho'
      have hp : t'.state = .PENDING_ENTRY := by
        simp only [entering, List.mem_cons, List.not_mem_nil, or_false] at ht'
        rcases ht' with rfl | rfl <;> rfl
      rw [hp] at ho'
      cases ho'
  | entry_filled entry_price bar_index config quantity reference_close =>
    obtain ⟨_, _, _, _, hpend, _⟩ := on_entry_filled_cases h hd
    intro t ht _ _ _ ho _
    exact absurd ho (h.not_open_of_pending hpend t ht)
  | tranche_closed role reason =>
    have hd' := Except.ok.inj hd
    subst hd'
    exact hkeep (continues_on_tranche_closed h.paired role reason)

/-! ## Entries -/

/-- The breakeven move changes neither the roles nor the states of tranches. -/
theorem breakeven_forward {s : TradeState ℚ} (h : s.Paired) (bar : Bar ℚ) (signal : BarSignal ℚ) :
    ∀ t ∈ s.tranches, ∃ t' ∈ (_apply_breakeven s bar signal).1.tranches, t'.role = t.role ∧ t'.state = t.state := by
  intro t ht
  rcases _apply_breakeven_cases h bar signal with he | ⟨runner, entry, hr, ho, _, _, he⟩
  · rw [he]
    exact ⟨t, ht, rfl, rfl⟩
  · rw [he]
    refine ⟨_, TradeState.mem_updateWhere.mpr ⟨t, ht, rfl⟩, ?_⟩
    split <;> exact ⟨rfl, rfl⟩

/-- The Hull exit leaves a tranche as it is, or orders it closed. -/
theorem hull_exit_forward {s : TradeState ℚ} (h : s.Paired) (signal : BarSignal ℚ) (config : UtBotConfig ℚ) :
    ∀ t ∈ s.tranches, t ∈ (_apply_hull_exit s signal config).1.tranches ∨
      ∃ c ∈ (_apply_hull_exit s signal config).2, c.kind = .CLOSE ∧ c.role = t.role := by
  intro t ht
  rcases _apply_hull_exit_cases h signal config with he | ⟨runner, hr, ho, he⟩
  · rw [he]
    exact .inl ht
  · rw [he]
    by_cases hrole : t.role = .T2
    · exact .inr ⟨_, List.mem_singleton_self _, rfl, (TradeState.tranche_eq_some hr).2.trans hrole.symm⟩
    · exact .inl (TradeState.mem_updateWhere.mpr ⟨t, ht, by simp [hrole]⟩)

/-- Neither the breakeven move nor the Hull exit nor a reversal orders an entry. -/
theorem breakeven_no_entry {s : TradeState ℚ} (h : s.Paired) (bar : Bar ℚ) (signal : BarSignal ℚ) :
    ∀ c ∈ (_apply_breakeven s bar signal).2, c.kind ≠ .OPEN := by
  intro c hc
  rcases _apply_breakeven_cases h bar signal with he | ⟨_, _, _, _, _, _, he⟩
  · simp [he] at hc
  · simp only [he, List.mem_singleton] at hc
    simp [hc]

theorem hull_exit_no_entry {s : TradeState ℚ} (h : s.Paired) (signal : BarSignal ℚ) (config : UtBotConfig ℚ) :
    ∀ c ∈ (_apply_hull_exit s signal config).2, c.kind ≠ .OPEN := by
  intro c hc
  rcases _apply_hull_exit_cases h signal config with he | ⟨_, _, _, he⟩
  · simp [he] at hc
  · simp only [he, List.mem_singleton] at hc
    simp [hc, Tranche.closeAction]

theorem reversed_no_entry (s : TradeState ℚ) (side : OrderSide) : ∀ c ∈ (reversed s side).2, c.kind ≠ .OPEN := by
  intro c hc
  obtain ⟨t, _, rfl⟩ := List.mem_map.mp hc
  simp [Tranche.closeAction]

/-- A reversal that leaves nothing open orders every live tranche closed. -/
theorem reversed_closes {s : TradeState ℚ} {side : OrderSide} (hflat : (reversed s side).1.is_flat = true) {t : Tranche ℚ}
    (ht : t ∈ s.tranches) (hlive : t.live = true) : t.closeAction .REVERSAL ∈ (reversed s side).2 := by
  have hopp : t.opposes side = true := by
    by_contra hno
    have hin : t ∈ (reversed s side).1.tranches := TradeState.mem_updateWhere.mpr ⟨t, ht, if_neg hno⟩
    rw [is_flat_iff.mp hflat t hin] at hlive
    cases hlive
  exact List.mem_map.mpr ⟨t, List.mem_filter.mpr ⟨ht, hopp⟩, rfl⟩

/-- What stands before the first entry of a list of orders stands before each entry. -/
theorem prefix_of_entry {l r pre post : List (TradeAction ℚ)} {a : TradeAction ℚ} (h : l ++ r = pre ++ a :: post)
    (hl : ∀ c ∈ l, c.kind ≠ .OPEN) (ha : a.kind = .OPEN) : ∀ c ∈ l, c ∈ pre := by
  rcases List.append_eq_append_iff.mp h with ⟨mid, hpre, _⟩ | ⟨mid, hlm, hmid⟩
  · intro c hc
    rw [hpre]
    exact List.mem_append_left _ hc
  · cases mid with
    | nil =>
      intro c hc
      rwa [hlm, List.append_nil] at hc
    | cons b mid =>
      rw [List.cons_append, List.cons.injEq] at hmid
      exact absurd ha (hl a (by rw [hlm, hmid.1]; simp))

/-- No order to close or to move a stop comes with the entries of a bar close but before them. -/
theorem bar_close_enters_flat {s : TradeState ℚ} (h : s.Wf) (bar : Bar ℚ) (signal : BarSignal ℚ) (config : UtBotConfig ℚ) :
    EntersFlat s (on_bar_close s bar signal config).actions := by
  intro pre a post hactions ha t ht
  obtain ⟨hts, hlive⟩ := mem_live_tranches.mp ht
  have hw₁ := wf_apply_breakeven h bar signal
  have hw₂ := wf_apply_hull_exit hw₁ signal config
  have hkb := breakeven_no_entry h.paired bar signal
  have hkh := hull_exit_no_entry hw₁.paired signal config
  simp only [on_bar_close] at hactions
  generalize hs₁ : (_apply_breakeven s bar signal).1 = s₁ at *
  generalize hacts₁ : (_apply_breakeven s bar signal).2 = acts₁ at *
  generalize hs₂ : (_apply_hull_exit s₁ signal config).1 = s₂ at *
  generalize hacts₂ : (_apply_hull_exit s₁ signal config).2 = acts₂ at *
  have hkr := reversed_no_entry s₂
  -- without entries among the signal's orders there is no entry at all
  have hmem : a ∈ acts₁ ++ acts₂ ++ (_apply_signal s₂ bar signal).2 := by rw [hactions]; simp
  have hsig : a ∈ (_apply_signal s₂ bar signal).2 := by
    rcases List.mem_append.mp hmem with hm | hm
    · rcases List.mem_append.mp hm with hm | hm
      · exact absurd ha (hkb a hm)
      · exact absurd ha (hkh a hm)
    · exact hm
  rcases _apply_signal_cases hw₂.paired bar signal with ⟨_, he⟩ | ⟨side, _, _, he | ⟨stop, _, hflat, he⟩⟩
  · simp [he] at hsig
  · rw [he] at hsig
    exact absurd ha (hkr side a hsig)
  · rw [he, ← List.append_assoc] at hactions
    have hpre := prefix_of_entry hactions (fun c hc => by
      rcases List.mem_append.mp hc with hc | hc
      · rcases List.mem_append.mp hc with hc | hc
        · exact hkb c hc
        · exact hkh c hc
      · exact hkr side c hc) ha
    obtain ⟨t₁, ht₁, hrole₁, hstate₁⟩ := hs₁ ▸ breakeven_forward h.paired bar signal t hts
    have hlive₁ : t₁.live = true := by rwa [Tranche.live, hstate₁, ← Tranche.live]
    rcases hull_exit_forward hw₁.paired signal config t₁ ht₁ with ht₂ | ⟨c, hc, hck, hcr⟩
    · -- live when the signal is applied, so it opposes the signal and is closed
      rw [hs₂] at ht₂
      exact ⟨_, hpre _ (List.mem_append_right _ (reversed_closes hflat ht₂ hlive₁)), rfl, hrole₁⟩
    · rw [hacts₂] at hc
      exact ⟨c, hpre c (by simp [hc]), hck, hcr.trans hrole₁⟩

/-- Only a bar close orders entries. -/
theorem step_enters_flat {s : TradeState ℚ} (h : s.Wf) {call : TradeCall ℚ} {d : TradeDecision ℚ}
    (hd : call.apply s = .ok d) : EntersFlat s d.actions := by
  cases call with
  | bar_close bar signal config =>
    rw [← Except.ok.inj hd]
    exact bar_close_enters_flat h bar signal config
  | entry_filled entry_price bar_index config quantity reference_close =>
    have hk : ∀ a ∈ d.actions, a.kind ≠ .OPEN := by
      obtain ⟨_, _, _, _, _, ⟨reason, rfl⟩ | ⟨_, _, _, _, _, rfl⟩⟩ := on_entry_filled_cases h hd <;>
      · intro a ha
        obtain ⟨t, _, rfl⟩ := List.mem_map.mp ha
        simp [Tranche.closeAction, Tranche.bracketAction]
    intro pre a post hactions ha
    exact absurd ha (hk a (by rw [hactions]; simp))
  | tranche_closed role reason =>
    intro pre a post hactions
    rw [← Except.ok.inj hd] at hactions
    have hnil : (on_tranche_closed s role reason).actions = [] := by
      rcases on_tranche_closed_cases h.paired role reason with ⟨_, he⟩ | ⟨_, _, _, he⟩ <;> rw [he]
    simp [hnil] at hactions

/-- The orders of a run close each role at most once per trade. -/
theorem run_once {calls : List (TradeCall ℚ)} {s : TradeState ℚ} {log : List (TradeAction ℚ)} (h : TradeRun calls s log) :
    OncePerTrade log := by
  intro pre seg post hlog hseg
  have hno : ∀ a ∈ seg, a.enters = false := fun a ha => by simp [TradeAction.enters, hseg a ha]
  exact ⟨fun role => (h.logged.closes role).stretch hlog hno, h.logged.moves.stretch hlog hno⟩

end TradeInvariantAux

open TradeInvariantAux

/-- Every state a run reaches satisfies the invariant; no step from it loosens the stop of a tranche that stays open or orders an
entry while a tranche is live; and the orders of the run close each role and move the runner's stop at most once per trade. -/
theorem trade_invariant {calls : List (TradeCall ℚ)} {s : TradeState ℚ} {log : List (TradeAction ℚ)}
    (h : TradeRun calls s log) :
    TradeInvariant s ∧
      (∀ call d, TradeCall.apply s call = .ok d → StopsHold s d.state ∧ EntersFlat s d.actions) ∧ OncePerTrade log := by
  have hw := h.wf
  refine ⟨⟨?_, hw.side, ?_, run_sound h, fun t ht => (hw.tranches t ht).breakeven⟩, fun call d hd =>
    ⟨step_stops hw (run_sound h) hd, step_enters_flat hw hd⟩, run_once h⟩
  · rcases hw.paired with hp | ⟨a, b, hp, ha, hb⟩
    · exact .inl hp
    · right
      rw [hp, List.map_cons, List.map_cons, List.map_nil, ha, hb]
  · rintro ⟨t, ht, u, hu, hpend, hopen⟩
    exact hw.exclusive t ht u hu hpend hopen

/-- The invariant after a buy signal whose entries were filled. -/
theorem trade_invariant_filled :
    TradeInvariant ((entering .BUY (100 : ℚ) 110).entered (some 2) 111 5 100 122) ∧
      (∀ call d, TradeCall.apply ((entering .BUY (100 : ℚ) 110).entered (some 2) 111 5 100 122) call = .ok d →
        StopsHold ((entering .BUY (100 : ℚ) 110).entered (some 2) 111 5 100 122) d.state ∧
          EntersFlat ((entering .BUY (100 : ℚ) 110).entered (some 2) 111 5 100 122) d.actions) ∧
      OncePerTrade [openAction .BUY .T1, openAction .BUY .T2, (pendingTranche .BUY .T1).bracketAction (100 : ℚ) 122,
        (pendingTranche .BUY .T2).bracketAction 100 122] :=
  trade_invariant SampleRun.run_filled

end MtossBot
