import Mathlib.Tactic.Linarith
import MtossBot.Domain.DecimalContext
import MtossBot.Strategies.UtBot.Backtest

/-!
# Where a bracket is filled

`_bracket_exit` decides on one bar whether the stop or the target of a bracket was filled, and at what price. The two sides mirror
each other: a long is stopped out from below and takes its profit above, a short the other way round.
-/

namespace MtossBot

section Reach

variable {D : Type} [PyDecimal D]

/-- The bar reaches the stop: a long's with its low, a short's with its high. -/
def _Bracket.StopReached (bracket : _Bracket D) (bar : Bar D) : Prop :=
  match bracket.side with
  | .BUY => bar.low ≤ bracket.stop_loss
  | .SELL => bracket.stop_loss ≤ bar.high

/-- The bracket has a target and the bar reaches it: a long's with its high, a short's with its low. -/
def _Bracket.TargetReached (bracket : _Bracket D) (bar : Bar D) : Prop :=
  ∃ target, bracket.take_profit = some target ∧
    match bracket.side with
    | .BUY => target ≤ bar.high
    | .SELL => bar.low ≤ target

/-- Closing a position at the first price is no better than closing it at the second: a long is sold, a short is bought back. -/
def OrderSide.NoBetter (side : OrderSide) (price level : D) : Prop :=
  match side with
  | .BUY => price ≤ level
  | .SELL => level ≤ price

end Reach

namespace BracketFillsAux

variable {bracket : _Bracket Decimal} {bar : Bar Decimal}

/-! ### Prices of a bar -/

/-- Decimals compare by their values. -/
theorem le_iff {a b : Decimal} : a ≤ b ↔ a.toRat ≤ b.toRat := Iff.rfl

theorem lt_iff {a b : Decimal} : a < b ↔ a.toRat < b.toRat := Iff.rfl

/-- An accepted bar opens within its range. -/
theorem open_in_range (bar : Bar Decimal) : bar.low ≤ bar.open_ ∧ bar.open_ ≤ bar.high := by
  have h := bar.accepted
  unfold BarFields.errors at h
  split at h
  · unfold BarFields.require_consistent_range at h
    split at h
    · cases h
    · split at h
      · cases h
      · rename_i hmax
        split at h
        · cases h
        · rename_i hmin
          simp only [py_max, py_min, le_iff, lt_iff] at hmax hmin ⊢
          constructor
          · split at hmin <;> linarith
          · split at hmax <;> linarith
  · contradiction

/-- A fill at a level or at an open below it, where the bar reaches down to the level. -/
theorem fill_below (bar : Bar Decimal) {level : Decimal} (hreach : bar.low ≤ level) :
    let price := if bar.open_ ≤ level then bar.open_ else level
    (bar.low ≤ price ∧ price ≤ bar.high) ∧ price ≤ level := by
  obtain ⟨hlow, hhigh⟩ := open_in_range bar
  by_cases hopen : bar.open_ ≤ level
  · simp only [hopen, if_true]
    exact ⟨⟨hlow, hhigh⟩, trivial⟩
  · simp only [hopen, if_false]
    simp only [le_iff] at hreach hlow hhigh hopen ⊢
    exact ⟨⟨hreach, by linarith⟩, le_refl _⟩

/-- A fill at a level or at an open above it, where the bar reaches up to the level. -/
theorem fill_above (bar : Bar Decimal) {level : Decimal} (hreach : level ≤ bar.high) :
    let price := if level ≤ bar.open_ then bar.open_ else level
    (bar.low ≤ price ∧ price ≤ bar.high) ∧ level ≤ price := by
  obtain ⟨hlow, hhigh⟩ := open_in_range bar
  by_cases hopen : level ≤ bar.open_
  · simp only [hopen, if_true]
    exact ⟨⟨hlow, hhigh⟩, trivial⟩
  · simp only [hopen, if_false]
    simp only [le_iff] at hreach hlow hhigh hopen ⊢
    exact ⟨⟨by linarith, hreach⟩, le_refl _⟩

/-! ### The bracket on a bar -/

/-- The tag of a stop that is filled. -/
def stopReason (bracket : _Bracket Decimal) : CloseReason := if bracket.breakeven then .BREAKEVEN_STOP else .STOP_LOSS

/-- A fill at a level, or at the open when the open is no better. -/
def stopPrice (bracket : _Bracket Decimal) (bar : Bar Decimal) : Decimal :=
  match bracket.side with
  | .BUY => if bar.open_ ≤ bracket.stop_loss then bar.open_ else bracket.stop_loss
  | .SELL => if bracket.stop_loss ≤ bar.open_ then bar.open_ else bracket.stop_loss

/-- A stop that is reached is filled, whatever the target. -/
theorem exit_of_stop (h : bracket.StopReached bar) :
    _bracket_exit bracket bar = some (stopPrice bracket bar, stopReason bracket) := by
  unfold _Bracket.StopReached at h
  unfold _bracket_exit stopPrice stopReason
  cases hside : bracket.side <;> rw [hside] at h <;> simp only [h, if_true]

theorem stop_price (h : bracket.StopReached bar) :
    (bar.low ≤ stopPrice bracket bar ∧ stopPrice bracket bar ≤ bar.high) ∧
      bracket.side.NoBetter (stopPrice bracket bar) bracket.stop_loss ∧
      (bracket.side.NoBetter bar.open_ bracket.stop_loss → stopPrice bracket bar = bar.open_) ∧
      (¬ bracket.side.NoBetter bar.open_ bracket.stop_loss → stopPrice bracket bar = bracket.stop_loss) := by
  unfold _Bracket.StopReached at h
  unfold stopPrice OrderSide.NoBetter
  cases hside : bracket.side with
  | BUY =>
    rw [hside] at h
    obtain ⟨hrange, hlevel⟩ := fill_below bar h
    exact ⟨hrange, hlevel, fun hopen => if_pos hopen, fun hopen => if_neg hopen⟩
  | SELL =>
    rw [hside] at h
    obtain ⟨hrange, hlevel⟩ := fill_above bar h
    exact ⟨hrange, hlevel, fun hopen => if_pos hopen, fun hopen => if_neg hopen⟩

/-- Without the stop, a target that is reached is filled. -/
theorem exit_of_target (h : ¬ bracket.StopReached bar) {price : Decimal} {reason : CloseReason}
    (hexit : _bracket_exit bracket bar = some (price, reason)) :
    reason = .TAKE_PROFIT ∧ (bar.low ≤ price ∧ price ≤ bar.high) ∧
      ∃ target, bracket.take_profit = some target ∧ bracket.side.NoBetter target price := by
  unfold _Bracket.StopReached at h
  unfold _bracket_exit at hexit
  unfold OrderSide.NoBetter
  cases htarget : bracket.take_profit with
  | none => cases hside : bracket.side <;> simp [hside, htarget] at h hexit <;> simp [h] at hexit
  | some target =>
    cases hside : bracket.side with
    | BUY =>
      simp only [hside] at h
      simp only [hside, htarget, h, if_false] at hexit
      split at hexit
      · rename_i hreach
        obtain ⟨rfl, rfl⟩ := Prod.mk.inj (Option.some.inj hexit)
        obtain ⟨hrange, hlevel⟩ := fill_above bar hreach
        exact ⟨rfl, hrange, target, rfl, hlevel⟩
      · cases hexit
    | SELL =>
      simp only [hside] at h
      simp only [hside, htarget, h, if_false] at hexit
      split at hexit
      · rename_i hreach
        obtain ⟨rfl, rfl⟩ := Prod.mk.inj (Option.some.inj hexit)
        obtain ⟨hrange, hlevel⟩ := fill_below bar hreach
        exact ⟨rfl, hrange, target, rfl, hlevel⟩
      · cases hexit

/-- A bracket stays open exactly on the bars that reach neither level. -/
theorem exit_eq_none_iff : _bracket_exit bracket bar = none ↔ ¬ bracket.StopReached bar ∧ ¬ bracket.TargetReached bar := by
  by_cases hstop : bracket.StopReached bar
  · rw [exit_of_stop hstop]
    simp [hstop]
  · rw [and_iff_right hstop]
    unfold _Bracket.StopReached at hstop
    unfold _bracket_exit _Bracket.TargetReached
    cases htarget : bracket.take_profit with
    | none => cases hside : bracket.side <;> simp only [hside] at hstop <;> simp [hstop]
    | some target => cases hside : bracket.side <;> simp only [hside] at hstop <;> simp [hstop]

end BracketFillsAux

open BracketFillsAux

/-- A bracket is filled exactly when the bar reaches one of its levels, within the range of the bar, the stop before the target: a
stop no better than its level, and at the open when the open is beyond it; a target no worse than its level. -/
theorem bracket_fills (bracket : _Bracket Decimal) (bar : Bar Decimal) :
    (_bracket_exit bracket bar = none ↔ ¬ bracket.StopReached bar ∧ ¬ bracket.TargetReached bar) ∧
    ∀ price reason, _bracket_exit bracket bar = some (price, reason) →
      (bar.low ≤ price ∧ price ≤ bar.high) ∧
      (bracket.StopReached bar → reason = (if bracket.breakeven then .BREAKEVEN_STOP else .STOP_LOSS) ∧
        bracket.side.NoBetter price bracket.stop_loss ∧
        (bracket.side.NoBetter bar.open_ bracket.stop_loss → price = bar.open_) ∧
        (¬ bracket.side.NoBetter bar.open_ bracket.stop_loss → price = bracket.stop_loss)) ∧
      (¬ bracket.StopReached bar → reason = .TAKE_PROFIT ∧
        ∃ target, bracket.take_profit = some target ∧ bracket.side.NoBetter target price) := by
  refine ⟨exit_eq_none_iff, ?_⟩
  intro price reason hexit
  by_cases hstop : bracket.StopReached bar
  · rw [exit_of_stop hstop] at hexit
    obtain ⟨rfl, rfl⟩ := Prod.mk.inj (Option.some.inj hexit)
    obtain ⟨hrange, hlevel, hgap, hat⟩ := stop_price hstop
    exact ⟨hrange, fun _ => ⟨rfl, hlevel, hgap, hat⟩, fun hno => absurd hstop hno⟩
  · obtain ⟨hreason, hrange, htarget⟩ := exit_of_target hstop hexit
    exact ⟨hrange, fun hyes => absurd hyes hstop, fun _ => ⟨hreason, htarget⟩⟩

end MtossBot
