import MtossBot.Application.TradeManager

/-!
# What the trade manager's functions do

Each function of the trade manager rewrites the tranches that satisfy a condition, or starts over. The loops are brought to that
form (`updateWhere`), each function gets one statement of everything it can do, and the well-formedness of states follows from
those statements alone.
-/

namespace MtossBot

variable {D : Type}

namespace TradeState

/-- The tranches that satisfy `p`, each replaced by its image. -/
def updateWhere (s : TradeState D) (p : Tranche D → Bool) (f : Tranche D → Tranche D) : TradeState D :=
  { s with tranches := s.tranches.map fun t => if p t then f t else t }

/-- No tranche, or one of each role. -/
def Paired (s : TradeState D) : Prop := s.tranches = [] ∨ ∃ a b, s.tranches = [a, b] ∧ a.role = .T1 ∧ b.role = .T2

@[simp] theorem updateWhere_side (s : TradeState D) (p : Tranche D → Bool) (f : Tranche D → Tranche D) :
    (s.updateWhere p f).side = s.side := rfl

@[simp] theorem updateWhere_pending_stop (s : TradeState D) (p : Tranche D → Bool) (f : Tranche D → Tranche D) :
    (s.updateWhere p f).pending_stop = s.pending_stop := rfl

/-- The tranches after an update are the ones before it, changed where the update applies. -/
theorem mem_updateWhere {s : TradeState D} {p : Tranche D → Bool} {f : Tranche D → Tranche D} {t : Tranche D} :
    t ∈ (s.updateWhere p f).tranches ↔ ∃ u ∈ s.tranches, (if p u then f u else u) = t :=
  List.mem_map

/-- Rewriting that keeps a condition keeps which tranches satisfy it. -/
theorem filter_updateWhere {s : TradeState D} {p q : Tranche D → Bool} {f : Tranche D → Tranche D}
    (hf : ∀ t, q (f t) = q t) :
    (s.updateWhere p f).tranches.filter q = (s.tranches.filter q).map fun t => if p t then f t else t := by
  have hq : (q ∘ fun t => if p t then f t else t) = q := by
    funext t
    cases hp : p t <;> simp [hp, hf]
  rw [updateWhere, List.filter_map, hq]

/-- Rewriting twice under a condition that the first rewriting keeps. -/
theorem updateWhere_updateWhere {s : TradeState D} {p : Tranche D → Bool} {f : Tranche D → Tranche D}
    (g : Tranche D → Tranche D) (hf : ∀ t, p (f t) = p t) :
    (s.updateWhere p f).updateWhere p g = s.updateWhere p fun t => g (f t) := by
  simp only [updateWhere, List.map_map]
  congr 1
  refine List.map_congr_left ?_
  intro t _
  cases hp : p t <;> simp [hp, hf]

/-- Rewriting that keeps the roles keeps the pair. -/
theorem Paired.updateWhere {s : TradeState D} (h : s.Paired) {p : Tranche D → Bool} {f : Tranche D → Tranche D}
    (hf : ∀ t, (f t).role = t.role) : (s.updateWhere p f).Paired := by
  have hrole : ∀ t, (if p t then f t else t).role = t.role := by
    intro t
    split
    · exact hf t
    · rfl
  rcases h with h | ⟨a, b, h, ha, hb⟩
  · left
    simp [TradeState.updateWhere, h]
  · right
    exact ⟨_, _, by rw [TradeState.updateWhere, h]; rfl, (hrole a).trans ha, (hrole b).trans hb⟩

/-- A tranche is determined by its role. -/
theorem Paired.eq_of_role {s : TradeState D} (h : s.Paired) {t u : Tranche D} (ht : t ∈ s.tranches) (hu : u ∈ s.tranches)
    (hr : t.role = u.role) : t = u := by
  rcases h with h | ⟨a, b, h, ha, hb⟩
  · simp [h] at ht
  · rw [h] at ht hu
    have hab : a.role ≠ b.role := by simp [ha, hb]
    simp only [List.mem_cons, List.not_mem_nil, or_false] at ht hu
    rcases ht with rfl | rfl <;> rcases hu with rfl | rfl
    · rfl
    · exact absurd hr hab
    · exact absurd hr.symm hab
    · rfl

/-- What `tranche` finds. -/
theorem tranche_eq_some {s : TradeState D} {role : TrancheRole} {t : Tranche D} (h : s.tranche role = some t) :
    t ∈ s.tranches ∧ t.role = role :=
  ⟨List.mem_of_find?_eq_some h, by simpa using List.find?_some h⟩

/-- A role finds the one tranche with it. -/
theorem Paired.tranche_iff {s : TradeState D} (h : s.Paired) {role : TrancheRole} {t : Tranche D} :
    s.tranche role = some t ↔ t ∈ s.tranches ∧ t.role = role := by
  refine ⟨tranche_eq_some, fun ⟨ht, hr⟩ => ?_⟩
  cases hf : s.tranche role with
  | none =>
    have hn := List.find?_eq_none.mp hf t ht
    simp [hr] at hn
  | some u =>
    obtain ⟨hu, hur⟩ := tranche_eq_some hf
    rw [h.eq_of_role hu ht (hur.trans hr.symm)]

/-- Replacing the tranche of a role rewrites where the role is. -/
theorem Paired.replace_eq {s : TradeState D} (h : s.Paired) {role : TrancheRole} {t : Tranche D}
    (ht : s.tranche role = some t) (f : Tranche D → Tranche D) (hf : ∀ t, (f t).role = t.role) :
    _replace s (f t) = s.updateWhere (fun u => u.role = role) f := by
  obtain ⟨hmem, rfl⟩ := tranche_eq_some ht
  simp only [_replace, hf, TradeState.updateWhere, decide_eq_true_eq]
  congr 1
  refine List.map_congr_left ?_
  intro u hu
  by_cases hr : u.role = t.role
  · rw [if_pos hr, if_pos hr, h.eq_of_role hu hmem hr]
  · rw [if_neg hr, if_neg hr]

/-- Replacing one by one the tranches that satisfy a condition rewrites them all. -/
theorem Paired.foldl_replace {s : TradeState D} (h : s.Paired) (p : Tranche D → Bool) (f : Tranche D → Tranche D)
    (hf : ∀ t, (f t).role = t.role) :
    (s.tranches.filter p).foldl (fun s t => _replace s (f t)) s = s.updateWhere p f := by
  obtain ⟨side, pending_stop, reference_close, tranches⟩ := s
  rcases h with h | ⟨a, b, h, ha, hb⟩
  · cases h
    rfl
  · cases h
    cases hpa : p a <;> cases hpb : p b <;> simp [_replace, TradeState.updateWhere, hf, ha, hb, hpa, hpb]

end TradeState

/-! ## The loops -/

/-- Closing all replaces the tranches one after the other, and says one action for each. -/
theorem closeAll_eq (reason : CloseReason) (l : List (Tranche D)) (s : TradeState D) :
    closeAll reason l s =
      (l.foldl (fun s t => _replace s (t.closed reason)) s, l.map fun t => t.closeAction reason) := by
  induction l generalizing s with
  | nil => rfl
  | cons t l ih => simp only [closeAll, ih, List.foldl_cons, List.map_cons]

/-- A reversal closes the tranches of the other side. -/
theorem closeReversed_eq (side : OrderSide) (l : List (Tranche D)) (s : TradeState D) :
    closeReversed side l s = closeAll .REVERSAL (l.filter fun t => t.side ≠ side) s := by
  induction l generalizing s with
  | nil => rfl
  | cons t l ih =>
    by_cases ht : t.side = side
    · simp only [closeReversed, ht, if_true, ih, ne_eq, not_true_eq_false, decide_false, Bool.false_eq_true,
        not_false_eq_true, List.filter_cons_of_neg]
    · simp only [closeReversed, ht, if_false, ih, ne_eq, not_false_eq_true, decide_true, List.filter_cons_of_pos,
        closeAll]

/-- A tranche that is not closed. -/
def Tranche.live (t : Tranche D) : Bool := t.state ≠ .CLOSED

/-- The live tranches are those of the state that live. -/
theorem mem_live_tranches {s : TradeState D} {t : Tranche D} : t ∈ s.live_tranches ↔ t ∈ s.tranches ∧ t.live = true :=
  List.mem_filter

/-- A live tranche that a signal on a side closes. -/
def Tranche.opposes (side : OrderSide) (t : Tranche D) : Bool := t.live && t.side ≠ side

/-- A signal closes every live tranche of the other side, and says so. -/
theorem closeReversed_live {s : TradeState D} (h : s.Paired) (side : OrderSide) :
    closeReversed side s.live_tranches s =
      (s.updateWhere (·.opposes side) (·.closed .REVERSAL),
        (s.tranches.filter (·.opposes side)).map (·.closeAction .REVERSAL)) := by
  have hfilter : (s.live_tranches.filter fun t => t.side ≠ side) = s.tranches.filter (·.opposes side) := by
    rw [TradeState.live_tranches, List.filter_filter]
    refine List.filter_congr ?_
    intro t _
    rw [Tranche.opposes, Tranche.live, Bool.and_comm]
  rw [closeReversed_eq, hfilter, closeAll_eq, h.foldl_replace (·.opposes side) (·.closed .REVERSAL) fun _ => rfl]

/-- The state is flat when no tranche lives. -/
theorem is_flat_iff {s : TradeState D} : s.is_flat = true ↔ ∀ t ∈ s.tranches, t.live = false := by
  rw [TradeState.is_flat, List.isEmpty_iff, TradeState.live_tranches, List.filter_eq_nil_iff]
  simp [Tranche.live]

/-- An aborted entry closes everything and starts over. -/
theorem _abort_entry_eq {s : TradeState D} (h : s.Paired) (reason : CloseReason) :
    _abort_entry s reason = ⟨{}, s.live_tranches.map (·.closeAction reason)⟩ := by
  have hclosed : (s.updateWhere (·.live) (·.closed reason)).is_flat = true := by
    rw [is_flat_iff]
    intro t ht
    obtain ⟨u, _, rfl⟩ := TradeState.mem_updateWhere.mp ht
    cases hu : u.live with
    | false => simpa using hu
    | true => rfl
  have hupd : (closeAll reason s.live_tranches s).1 = s.updateWhere (·.live) (·.closed reason) := by
    rw [closeAll_eq]
    exact h.foldl_replace (·.live) (·.closed reason) fun _ => rfl
  simp only [_abort_entry, hupd, flatten_if_done, hclosed, if_true]
  rw [closeAll_eq]

/-! ## Well-formed states -/

/-- What holds of a tranche whatever the arithmetic. -/
structure Tranche.Wf (t : Tranche D) : Prop where
  breakeven : t.breakeven_moved = true → t.role = .T2
  pending : t.state = .PENDING_ENTRY → t = pendingTranche t.side t.role
  opened : t.state = .OPEN → t.entry_price.isSome ∧ t.stop_loss.isSome ∧ t.entry_bar_index.isSome ∧
    (t.take_profit.isSome ↔ t.role = .T1)

/-- What holds of a state whatever the arithmetic. -/
structure TradeState.Wf (s : TradeState D) : Prop where
  paired : s.Paired
  side : ∀ t ∈ s.tranches, s.side = some t.side
  exclusive : ∀ t ∈ s.tranches, ∀ u ∈ s.tranches, t.state = .PENDING_ENTRY → u.state ≠ .OPEN
  pending_stop : s.tranches ≠ [] → s.pending_stop.isSome
  tranches : ∀ t ∈ s.tranches, t.Wf

/-- What `on_bar_close` and `on_tranche_closed` may do to a tranche. -/
inductive Tranche.Evolves : Tranche D → Tranche D → Prop where
  | closed (t : Tranche D) (reason : CloseReason) : t.live = true → Evolves t (t.closed reason)
  | moved (t : Tranche D) (entry_price : D) : t.role = .T2 → t.state = .OPEN → t.entry_price = some entry_price →
      Evolves t { t with stop_loss := some entry_price, breakeven_moved := true }

namespace Tranche.Evolves

variable {t t' : Tranche D}

/-- A tranche that evolves keeps its role. -/
theorem role (h : t.Evolves t') : t'.role = t.role := by cases h <;> rfl

/-- It keeps its side. -/
theorem side (h : t.Evolves t') : t'.side = t.side := by cases h <;> rfl

/-- It keeps its quantity. -/
theorem quantity (h : t.Evolves t') : t'.quantity = t.quantity := by cases h <;> rfl

/-- It keeps the price of its entry. -/
theorem entry_price (h : t.Evolves t') : t'.entry_price = t.entry_price := by cases h <;> rfl

/-- Nothing becomes pending. -/
theorem not_pending (h : t.Evolves t') : t'.state ≠ .PENDING_ENTRY := by
  cases h with
  | closed reason hl => exact nofun
  | moved entry hr ho he => simp [ho]

/-- What is open was open. -/
theorem of_open (h : t.Evolves t') (ho : t'.state = .OPEN) : t.state = .OPEN := by
  cases h with
  | closed reason hl => cases ho
  | moved entry hr hopen he => exact hopen

/-- A tranche that was well formed stays so. -/
theorem wf (h : t.Evolves t') (hw : t.Wf) : t'.Wf := by
  cases h with
  | closed reason hl => exact ⟨hw.breakeven, nofun, nofun⟩
  | moved entry hr ho he =>
    obtain ⟨h1, _, h3, h4⟩ := hw.opened ho
    exact ⟨fun _ => hr, by simp [ho], fun _ => ⟨h1, rfl, h3, h4⟩⟩

end Tranche.Evolves

/-- The state without tranches is well formed. -/
theorem TradeState.Wf.empty : ({} : TradeState D).Wf :=
  ⟨.inl rfl, by simp, by simp, fun h => absurd rfl h, by simp⟩

/-- Rewriting tranches as they may evolve keeps a state well-formed. -/
theorem TradeState.Wf.updateWhere {s : TradeState D} (h : s.Wf) {p : Tranche D → Bool} {f : Tranche D → Tranche D}
    (hrole : ∀ t, (f t).role = t.role) (hf : ∀ t ∈ s.tranches, p t = true → t.Evolves (f t)) :
    (s.updateWhere p f).Wf := by
  have hmem : ∀ t ∈ (s.updateWhere p f).tranches, t ∈ s.tranches ∨ ∃ u ∈ s.tranches, u.Evolves t := by
    intro t ht
    obtain ⟨u, hu, rfl⟩ := mem_updateWhere.mp ht
    cases hp : p u with
    | false => exact .inl (by simpa using hu)
    | true => exact .inr ⟨u, hu, by simpa using hf u hu hp⟩
  refine ⟨h.paired.updateWhere hrole, ?_, ?_, ?_, ?_⟩
  · intro t ht
    rcases hmem t ht with ht | ⟨u, hu, he⟩
    · exact h.side t ht
    · rw [he.side]
      exact h.side u hu
  · intro t ht u hu hpend hopen
    rcases hmem t ht with ht | ⟨t', _, he⟩
    · rcases hmem u hu with hu | ⟨u', hu', he⟩
      · exact h.exclusive t ht u hu hpend hopen
      · exact h.exclusive t ht u' hu' hpend (he.of_open hopen)
    · exact he.not_pending hpend
  · intro hne
    refine h.pending_stop fun hnil => hne ?_
    simp [TradeState.updateWhere, hnil]
  · intro t ht
    rcases hmem t ht with ht | ⟨u, hu, he⟩
    · exact h.tranches t ht
    · exact he.wf (h.tranches u hu)

/-- A state that may have started over. -/
theorem TradeState.Wf.flatten {s : TradeState D} (h : s.Wf) : (flatten_if_done s).Wf := by
  unfold flatten_if_done
  split
  · exact Wf.empty
  · exact h

/-- Rewriting where the role of a live tranche is closes that tranche. -/
theorem TradeState.Paired.evolves_closed {s : TradeState D} (h : s.Paired) {role : TrancheRole} {t : Tranche D}
    (ht : s.tranche role = some t) (hl : t.live = true) (reason : CloseReason) :
    ∀ u ∈ s.tranches, decide (u.role = role) = true → u.Evolves (u.closed reason) := by
  intro u hu hr
  have hut : u = t := Option.some.inj (((h.tranche_iff).mpr ⟨hu, by simpa using hr⟩).symm.trans ht)
  exact .closed u reason (hut ▸ hl)

/-- Moving the stop of an open tranche to its entry. -/
def Tranche.atBreakeven (t : Tranche D) : Tranche D := { t with stop_loss := t.entry_price, breakeven_moved := true }

/-- Rewriting where the runner is moves the stop of an open runner. -/
theorem TradeState.Paired.evolves_breakeven {s : TradeState D} (h : s.Paired) {runner : Tranche D} {entry_price : D}
    (hr : s.tranche .T2 = some runner) (ho : runner.state = .OPEN) (hp : runner.entry_price = some entry_price) :
    ∀ u ∈ s.tranches, decide (u.role = .T2) = true → u.Evolves u.atBreakeven := by
  intro u hu hrole
  have hur : u = runner := Option.some.inj (((h.tranche_iff).mpr ⟨hu, by simpa using hrole⟩).symm.trans hr)
  subst hur
  have he : u.atBreakeven = { u with stop_loss := some entry_price, breakeven_moved := true } := by
    rw [Tranche.atBreakeven, hp]
  exact he ▸ .moved u entry_price (by simpa using hrole) ho hp

/-- Only a live tranche opposes a side. -/
theorem Tranche.live_of_opposes {side : OrderSide} {t : Tranche D} (h : t.opposes side = true) : t.live = true := by
  simp only [Tranche.opposes, Bool.and_eq_true] at h
  exact h.1

/-! ## The bar close -/

section BarClose

variable [PyDecimal D]

/-- All that `_apply_breakeven` can do: nothing, or move the stop of an open runner that has not moved. -/
theorem _apply_breakeven_cases {s : TradeState D} (h : s.Paired) (bar : Bar D) (signal : BarSignal D) :
    _apply_breakeven s bar signal = (s, []) ∨
      ∃ runner entry_price, s.tranche .T2 = some runner ∧ runner.state = .OPEN ∧ runner.breakeven_moved = false ∧
        runner.entry_price = some entry_price ∧
        _apply_breakeven s bar signal = (s.updateWhere (fun t => t.role = .T2) Tranche.atBreakeven,
          [{ kind := .MOVE_STOP, role := .T2, stop_loss := some entry_price }]) := by
  unfold _apply_breakeven
  split
  · rename_i runner fixed hrunner hfixed
    split
    · exact .inl rfl
    · rename_i hopen
      split
      · rename_i take_profit entry_price htake hentry
        split
        · exact .inl rfl
        · split
          · exact .inl rfl
          · right
            simp only [not_or, not_not, Bool.not_eq_true] at hopen
            refine ⟨runner, entry_price, hrunner, hopen.1, hopen.2, hentry, ?_⟩
            rw [← h.replace_eq hrunner Tranche.atBreakeven fun _ => rfl, Tranche.atBreakeven, hentry]
      · exact .inl rfl
  · exact .inl rfl

/-- All that `_apply_hull_exit` can do: nothing, or close an open runner. -/
theorem _apply_hull_exit_cases {s : TradeState D} (h : s.Paired) (signal : BarSignal D) (config : UtBotConfig D) :
    _apply_hull_exit s signal config = (s, []) ∨
      ∃ runner, s.tranche .T2 = some runner ∧ runner.state = .OPEN ∧
        _apply_hull_exit s signal config = (s.updateWhere (fun t => t.role = .T2) (·.closed .HULL_FLIP),
          [runner.closeAction .HULL_FLIP]) := by
  unfold _apply_hull_exit
  split
  · exact .inl rfl
  · rename_i runner hrunner
    split
    · exact .inl rfl
    · rename_i hopen
      split
      · exact .inl rfl
      · split
        · exact .inl rfl
        · split
          · exact .inl rfl
          · right
            refine ⟨runner, hrunner, not_not.mp hopen, ?_⟩
            rw [← h.replace_eq hrunner (·.closed .HULL_FLIP) fun _ => rfl]

/-- A state in which both tranches of a trade wait to be entered. -/
def entering (side : OrderSide) (pending_stop reference_close : D) : TradeState D where
  side := some side
  pending_stop := some pending_stop
  reference_close := some reference_close
  tranches := [pendingTranche side .T1, pendingTranche side .T2]

/-- The state and the orders after a signal has closed the other side. -/
def reversed (s : TradeState D) (side : OrderSide) : TradeState D × List (TradeAction D) :=
  (s.updateWhere (·.opposes side) (·.closed .REVERSAL),
    (s.tranches.filter (·.opposes side)).map (·.closeAction .REVERSAL))

/-- All that `_apply_signal` can do: nothing without a signal; else close the other side, and enter if nothing is left. -/
theorem _apply_signal_cases {s : TradeState D} (h : s.Paired) (bar : Bar D) (signal : BarSignal D) :
    (signal.entry = none ∧ _apply_signal s bar signal = (s, [])) ∨
      ∃ side pending_stop, signal.entry = some (side, pending_stop) ∧
        (_apply_signal s bar signal = reversed s side ∨
          ∃ stop, pending_stop = some stop ∧ (reversed s side).1.is_flat = true ∧
            _apply_signal s bar signal =
              (entering side stop bar.close, (reversed s side).2 ++ [openAction side .T1, openAction side .T2])) := by
  unfold _apply_signal
  cases he : signal.entry with
  | none => exact .inl ⟨rfl, rfl⟩
  | some entry =>
    obtain ⟨side, pending_stop⟩ := entry
    right
    refine ⟨side, pending_stop, rfl, ?_⟩
    simp only [closeReversed_live h]
    split
    · exact .inl rfl
    · rename_i hflat
      cases pending_stop with
      | none => exact .inl rfl
      | some stop => exact .inr ⟨stop, rfl, by simpa [reversed] using hflat, rfl⟩

/-- Moving stops to the entry price keeps the state well formed. -/
theorem wf_apply_breakeven {s : TradeState D} (h : s.Wf) (bar : Bar D) (signal : BarSignal D) :
    (_apply_breakeven s bar signal).1.Wf := by
  rcases _apply_breakeven_cases h.paired bar signal with he | ⟨runner, entry, hr, ho, _, hp, he⟩
  · rw [he]
    exact h
  · rw [he]
    exact h.updateWhere (fun _ => rfl) (h.paired.evolves_breakeven hr ho hp)

/-- Closing the runner on a flip of the band keeps the state well formed. -/
theorem wf_apply_hull_exit {s : TradeState D} (h : s.Wf) (signal : BarSignal D) (config : UtBotConfig D) :
    (_apply_hull_exit s signal config).1.Wf := by
  rcases _apply_hull_exit_cases h.paired signal config with he | ⟨runner, hr, ho, he⟩
  · rw [he]
    exact h
  · rw [he]
    exact h.updateWhere (fun _ => rfl) (h.paired.evolves_closed hr (by simp [Tranche.live, ho]) .HULL_FLIP)

omit [PyDecimal D] in
/-- Closing the tranches of the other side keeps the state well formed. -/
theorem wf_reversed {s : TradeState D} (h : s.Wf) (side : OrderSide) : (reversed s side).1.Wf :=
  h.updateWhere (fun _ => rfl) fun t _ hp => .closed t .REVERSAL (Tranche.live_of_opposes hp)

omit [PyDecimal D] in
/-- The pair of pending tranches of a new entry is well formed. -/
theorem wf_entering (side : OrderSide) (stop close : D) : (entering side stop close).Wf := by
  refine ⟨.inr ⟨_, _, rfl, rfl, rfl⟩, ?_, ?_, fun _ => rfl, ?_⟩
  · simp [entering, pendingTranche]
  · simp [entering, pendingTranche]
  · intro t ht
    have ht' : t = pendingTranche t.side t.role ∧ t.state = .PENDING_ENTRY ∧ t.breakeven_moved = false := by
      simp only [entering, List.mem_cons, List.not_mem_nil, or_false] at ht
      rcases ht with rfl | rfl <;> exact ⟨rfl, rfl, rfl⟩
    exact ⟨by simp [ht'.2.2], fun _ => ht'.1, by simp [ht'.2.1]⟩

/-- Following a signal keeps the state well formed. -/
theorem wf_apply_signal {s : TradeState D} (h : s.Wf) (bar : Bar D) (signal : BarSignal D) :
    (_apply_signal s bar signal).1.Wf := by
  rcases _apply_signal_cases h.paired bar signal with ⟨_, he⟩ | ⟨side, _, _, he | ⟨stop, _, _, he⟩⟩
  · rw [he]
    exact h
  · rw [he]
    exact wf_reversed h side
  · rw [he]
    exact wf_entering side stop _

/-- `on_bar_close` keeps a state well-formed. -/
theorem wf_on_bar_close {s : TradeState D} (h : s.Wf) (bar : Bar D) (signal : BarSignal D) (config : UtBotConfig D) :
    (on_bar_close s bar signal config).state.Wf :=
  wf_apply_signal (wf_apply_hull_exit (wf_apply_breakeven h bar signal) signal config) bar signal

/-! ## Fills -/

/-- A pending tranche with a quantity. -/
def Tranche.withQuantity (t : Tranche D) (quantity : Option D) : Tranche D :=
  match quantity with
  | none => t
  | some q => { t with quantity := some q }

omit [PyDecimal D] in
/-- Recording a quantity keeps the role. -/
@[simp] theorem Tranche.withQuantity_role (t : Tranche D) (quantity : Option D) : (t.withQuantity quantity).role = t.role := by
  cases quantity <;> rfl

omit [PyDecimal D] in
/-- It keeps the state of the tranche. -/
@[simp] theorem Tranche.withQuantity_state (t : Tranche D) (quantity : Option D) :
    (t.withQuantity quantity).state = t.state := by
  cases quantity <;> rfl

/-- A tranche waiting to be entered. -/
def Tranche.isPending (t : Tranche D) : Bool := t.state = .PENDING_ENTRY

/-- The state with the quantity of a fill recorded. -/
def recorded (s : TradeState D) (quantity : Option D) : TradeState D :=
  s.updateWhere (·.isPending) (·.withQuantity quantity)

omit [PyDecimal D] in
/-- Recording a quantity at each pending tranche in turn records it at all of them at once. -/
theorem recordQuantity_eq {s : TradeState D} (h : s.Paired) (quantity : Option D) :
    recordQuantity quantity s.pending s = recorded s quantity := by
  cases quantity with
  | none => simp only [recordQuantity, recorded, TradeState.updateWhere, Tranche.withQuantity, ite_self, List.map_id']
  | some q => exact h.foldl_replace (·.isPending) (fun t => { t with quantity := some q }) fun _ => rfl

omit [PyDecimal D] in
/-- While an entry is pending, nothing is open. -/
theorem TradeState.Wf.not_open_of_pending {s : TradeState D} (h : s.Wf) (hp : s.pending ≠ []) :
    ∀ t ∈ s.tranches, t.state ≠ .OPEN := by
  obtain ⟨u, hu⟩ := List.exists_mem_of_ne_nil _ hp
  obtain ⟨hus, hup⟩ := List.mem_filter.mp hu
  exact fun t ht => h.exclusive u hus t ht (by simpa using hup)

omit [PyDecimal D] in
/-- While an entry is pending, what is live is pending. -/
theorem TradeState.Wf.live_eq_pending {s : TradeState D} (h : s.Wf) (hp : s.pending ≠ []) :
    s.live_tranches = s.pending := by
  refine List.filter_congr ?_
  intro t ht
  have hopen := h.not_open_of_pending hp t ht
  cases hs : t.state <;> simp_all

omit [PyDecimal D] in
/-- The pending tranches after the quantity of a fill is recorded. -/
theorem recorded_pending (s : TradeState D) (quantity : Option D) :
    (recorded s quantity).pending = s.pending.map (·.withQuantity quantity) := by
  rw [TradeState.pending, recorded, TradeState.filter_updateWhere fun t => by rw [t.withQuantity_state]]
  refine List.map_congr_left ?_
  intro t ht
  rw [if_pos (show t.isPending = true from (List.mem_filter.mp ht).2)]

omit [PyDecimal D] in
/-- The live tranches after the quantity of a fill is recorded. -/
theorem recorded_live {s : TradeState D} (h : s.Wf) (hp : s.pending ≠ []) (quantity : Option D) :
    (recorded s quantity).live_tranches = s.pending.map (·.withQuantity quantity) := by
  rw [TradeState.live_tranches, recorded, TradeState.filter_updateWhere fun t => by rw [t.withQuantity_state]]
  rw [← h.live_eq_pending hp, TradeState.live_tranches]
  refine List.map_congr_left ?_
  intro t ht
  have hpend : t ∈ s.pending := h.live_eq_pending hp ▸ ht
  rw [if_pos (show t.isPending = true from (List.mem_filter.mp hpend).2)]

/-- A pending tranche with the quantity, the prices and the bar of its fill. -/
def Tranche.entered (quantity : Option D) (entry_price : D) (bar_index : Int) (stop_loss target : D) (t : Tranche D) :
    Tranche D :=
  (t.withQuantity quantity).filled entry_price bar_index stop_loss target

omit [PyDecimal D] in
/-- A tranche that is entered keeps its role. -/
@[simp] theorem Tranche.entered_role (quantity : Option D) (entry_price : D) (bar_index : Int) (stop_loss target : D)
    (t : Tranche D) : (t.entered quantity entry_price bar_index stop_loss target).role = t.role :=
  t.withQuantity_role quantity

/-- The state after a fill. -/
def TradeState.entered (s : TradeState D) (quantity : Option D) (entry_price : D) (bar_index : Int) (stop_loss target : D) :
    TradeState D :=
  s.updateWhere (·.isPending) (·.entered quantity entry_price bar_index stop_loss target)

/-- The decision to give up an entry. -/
def TradeState.givenUp (s : TradeState D) (quantity : Option D) (reason : CloseReason) : TradeDecision D :=
  ⟨{}, s.pending.map fun t => (t.withQuantity quantity).closeAction reason⟩

/-- What a fill of pending tranches does: give the entry up, or open every one of them. -/
theorem on_entry_filled_eq {s : TradeState D} (h : s.Wf) {side : OrderSide} {stop_loss : D} (hside : s.side = some side)
    (hstop : s.pending_stop = some stop_loss) (hpend : s.pending ≠ []) (entry_price : D) (bar_index : Int)
    (config : UtBotConfig D) (quantity reference_close : Option D) :
    on_entry_filled s entry_price bar_index config quantity reference_close = .ok
      (match _entry_gap_reason entry_price reference_close config with
      | some reason => s.givenUp quantity reason
      | none =>
        if entryRisk side entry_price stop_loss ≤ 0 then s.givenUp quantity .INVALID_RISK
        else
          let target := entryTarget side entry_price config.rr_mult (entryRisk side entry_price stop_loss)
          ⟨s.entered quantity entry_price bar_index stop_loss target, s.pending.map (·.bracketAction stop_loss target)⟩) := by
  have hrec : (recorded s quantity).Paired := h.paired.updateWhere fun t => t.withQuantity_role quantity
  have habort : ∀ reason, _abort_entry (recorded s quantity) reason = s.givenUp quantity reason := by
    intro reason
    rw [_abort_entry_eq hrec, recorded_live h hpend, List.map_map]
    rfl
  have hempty : ¬ s.pending.isEmpty = true := by simpa using hpend
  unfold on_entry_filled
  simp only [hside, hstop, if_neg hempty, recordQuantity_eq h.paired, habort]
  cases hgap : _entry_gap_reason entry_price reference_close config with
  | some reason => rfl
  | none =>
    by_cases hrisk : entryRisk side entry_price stop_loss ≤ 0
    · simp only [if_pos hrisk]
    · simp only [if_neg hrisk, fillPending]
      congr 2
      · refine (hrec.foldl_replace (·.isPending) (·.filled entry_price bar_index stop_loss _) fun _ => rfl).trans ?_
        exact TradeState.updateWhere_updateWhere _ fun t => by rw [Tranche.isPending, t.withQuantity_state]; rfl
      · rw [recorded_pending, List.map_map]
        refine List.map_congr_left ?_
        intro t _
        simp [Tranche.bracketAction]

/-- A fill that does not raise is one of pending tranches. -/
theorem on_entry_filled_ok_pending {s : TradeState D} {entry_price : D} {bar_index : Int} {config : UtBotConfig D}
    {quantity reference_close : Option D} {d : TradeDecision D}
    (hd : on_entry_filled s entry_price bar_index config quantity reference_close = .ok d) :
    ∃ side stop_loss, s.side = some side ∧ s.pending_stop = some stop_loss ∧ s.pending ≠ [] := by
  unfold on_entry_filled at hd
  split at hd
  · rename_i side stop_loss hside hstop
    split at hd
    · cases hd
    · rename_i hpend
      exact ⟨side, stop_loss, hside, hstop, by simpa using hpend⟩
  · cases hd

/-- All that a fill can do: raise, abort the entry, or open every pending tranche. -/
theorem on_entry_filled_cases {s : TradeState D} (h : s.Wf) {entry_price : D} {bar_index : Int} {config : UtBotConfig D}
    {quantity reference_close : Option D} {d : TradeDecision D}
    (hd : on_entry_filled s entry_price bar_index config quantity reference_close = .ok d) :
    ∃ side stop_loss, s.side = some side ∧ s.pending_stop = some stop_loss ∧ s.pending ≠ [] ∧
      ((∃ reason, d = ⟨{}, s.pending.map fun t => (t.withQuantity quantity).closeAction reason⟩) ∨
        ∃ risk target, risk = entryRisk side entry_price stop_loss ∧ ¬ risk ≤ 0 ∧
          target = entryTarget side entry_price config.rr_mult risk ∧
          d = ⟨s.entered quantity entry_price bar_index stop_loss target,
            s.pending.map (·.bracketAction stop_loss target)⟩) := by
  obtain ⟨side, stop_loss, hside, hstop, hpend⟩ := on_entry_filled_ok_pending hd
  refine ⟨side, stop_loss, hside, hstop, hpend, ?_⟩
  rw [on_entry_filled_eq h hside hstop hpend] at hd
  rw [← Except.ok.inj hd]
  split
  · rename_i reason _
    exact .inl ⟨reason, rfl⟩
  · split
    · exact .inl ⟨.INVALID_RISK, rfl⟩
    · rename_i hrisk
      exact .inr ⟨_, _, rfl, hrisk, rfl, rfl⟩

/-- A fill keeps a state well-formed. -/
theorem wf_on_entry_filled {s : TradeState D} (h : s.Wf) {entry_price : D} {bar_index : Int} {config : UtBotConfig D}
    {quantity reference_close : Option D} {d : TradeDecision D}
    (hd : on_entry_filled s entry_price bar_index config quantity reference_close = .ok d) : d.state.Wf := by
  obtain ⟨side, stop, hside, hstop, hpend, ⟨reason, rfl⟩ | ⟨risk, target, _, _, _, rfl⟩⟩ := on_entry_filled_cases h hd
  · exact TradeState.Wf.empty
  · -- every tranche of the new state is a tranche that was not pending, or a pending one filled
    have hmem : ∀ t ∈ (s.entered quantity entry_price bar_index stop target).tranches,
        (t ∈ s.tranches ∧ t.isPending = false) ∨
          ∃ u ∈ s.tranches, u.isPending = true ∧ t = u.entered quantity entry_price bar_index stop target := by
      intro t ht
      obtain ⟨u, hu, rfl⟩ := TradeState.mem_updateWhere.mp ht
      cases hp : u.isPending with
      | false => exact .inl ⟨by simpa using hu, by simpa using hp⟩
      | true => exact .inr ⟨u, hu, hp, by simp⟩
    have hside' : ∀ u : Tranche D, (u.entered quantity entry_price bar_index stop target).side = u.side := by
      intro u
      cases quantity <;> rfl
    refine ⟨h.paired.updateWhere fun t => by simp, ?_, ?_, ?_, ?_⟩
    · intro t ht
      rcases hmem t ht with ⟨ht, _⟩ | ⟨u, hu, _, rfl⟩
      · exact h.side t ht
      · rw [hside']
        exact h.side u hu
    · intro t ht u hu hp
      rcases hmem t ht with ⟨_, ht⟩ | ⟨v, _, _, rfl⟩
      · simp [Tranche.isPending, hp] at ht
      · cases hp
    · intro _
      simp [TradeState.entered, hstop]
    · intro t ht
      rcases hmem t ht with ⟨ht, _⟩ | ⟨u, hu, hup, rfl⟩
      · exact h.tranches t ht
      · have hu' := (h.tranches u hu).pending (by simpa [Tranche.isPending] using hup)
        have hbe : (u.entered quantity entry_price bar_index stop target).breakeven_moved = false := by
          rw [hu']
          cases quantity <;> rfl
        refine ⟨by simp [hbe], nofun, fun _ => ⟨rfl, rfl, rfl, ?_⟩⟩
        rw [Tranche.entered_role]
        simp only [Tranche.entered, Tranche.filled, Tranche.withQuantity_role]
        cases u.role <;> simp

end BarClose

/-! ## Closes at the broker -/

/-- All that `on_tranche_closed` can do: nothing, or close a live tranche and start over if that was the last one. -/
theorem on_tranche_closed_cases {s : TradeState D} (h : s.Paired) (role : TrancheRole) (reason : CloseReason) :
    ((∀ t ∈ s.tranches, t.role = role → t.live = false) ∧ on_tranche_closed s role reason = ⟨s, []⟩) ∨
      ∃ t, s.tranche role = some t ∧ t.live = true ∧ on_tranche_closed s role reason =
        ⟨flatten_if_done (s.updateWhere (fun u => u.role = role) (·.closed reason)), []⟩ := by
  unfold on_tranche_closed
  split
  · rename_i hnone
    refine .inl ⟨?_, rfl⟩
    intro t ht hr
    rw [(h.tranche_iff).mpr ⟨ht, hr⟩] at hnone
    cases hnone
  · rename_i t ht
    split
    · rename_i hclosed
      refine .inl ⟨?_, rfl⟩
      intro u hu hr
      have hut : u = t := Option.some.inj (((h.tranche_iff).mpr ⟨hu, hr⟩).symm.trans ht)
      simp [hut, Tranche.live, hclosed]
    · rename_i hopen
      exact .inr ⟨t, ht, by simpa [Tranche.live] using hopen, by rw [← h.replace_eq ht (·.closed reason) fun _ => rfl]⟩

/-- `on_tranche_closed` keeps a state well-formed. -/
theorem wf_on_tranche_closed {s : TradeState D} (h : s.Wf) (role : TrancheRole) (reason : CloseReason) :
    (on_tranche_closed s role reason).state.Wf := by
  rcases on_tranche_closed_cases h.paired role reason with ⟨_, he⟩ | ⟨t, ht, hl, he⟩
  · rw [he]
    exact h
  · have hw : (s.updateWhere (fun u => u.role = role) (·.closed reason)).Wf :=
      h.updateWhere (fun _ => rfl) (h.paired.evolves_closed ht hl reason)
    rw [he]
    exact hw.flatten

end MtossBot
