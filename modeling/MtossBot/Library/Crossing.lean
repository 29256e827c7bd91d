import Mathlib.Order.Lattice
import Mathlib.Tactic.Push

/-!
# Crossings of two series

Two series over a linear order, read at the natural numbers. A series crosses another where it gets above it, after not having been
above it. It stays above until the other crosses it or the two touch; so without touching, the crossings of the one and of the other
alternate. Upward and downward crossings are the same with the series exchanged.
-/

namespace MtossBot

variable {α : Type} [LinearOrder α] {left right : Nat → α} {i j m : Nat}

/-- `left` gets above `right`. -/
def Crosses (left right : Nat → α) (i : Nat) : Prop := 0 < i ∧ left (i - 1) ≤ right (i - 1) ∧ right i < left i

/-- A series does not cross one that crosses it. -/
theorem Crosses.asymm (h : Crosses left right i) : ¬Crosses right left i := fun h' => lt_asymm h.2.2 h'.2.2

/-- Above stays above, until the other crosses or touches. -/
theorem stays_above (hi : right i < left i) (hij : i ≤ j) (hcross : ∀ k, i < k → k ≤ j → ¬Crosses right left k)
    (htouch : ∀ k, i < k → k ≤ j → left k ≠ right k) : right j < left j := by
  induction j with
  | zero =>
    obtain rfl : i = 0 := by omega
    exact hi
  | succ j ih =>
    rcases Nat.lt_or_ge j i with hlt | hle
    · obtain rfl : i = j + 1 := by omega
      exact hi
    · have hbefore : right j < left j :=
        ih hle (fun k hk hkj => hcross k hk (by omega)) fun k hk hkj => htouch k hk (by omega)
      refine lt_of_le_of_ne (not_lt.mp ?_) (htouch (j + 1) (by omega) (Nat.le_refl _)).symm
      intro hafter
      exact hcross (j + 1) (by omega) (Nat.le_refl _) ⟨Nat.succ_pos j, hbefore.le, hafter⟩

/-- From above, a series crosses again only after the other has crossed it, or the two have touched. -/
theorem crossed_or_touched (hi : right i < left i) (hij : i < j) (hj : Crosses left right j) :
    ∃ k, i < k ∧ k < j ∧ (Crosses right left k ∨ left k = right k) := by
  by_contra hnone
  push Not at hnone
  have hbefore : right (j - 1) < left (j - 1) :=
    stays_above hi (by omega) (fun k hk hkj => (hnone k hk (by omega)).1) fun k hk hkj => (hnone k hk (by omega)).2
  exact absurd hj.2.1 (not_le.mpr hbefore)

/-- Two crossings of a series with none of the other between them have a touch between them. -/
theorem touched_between (hi : Crosses left right i) (hj : Crosses left right j) (hij : i < j)
    (hcross : ∀ k, i < k → k < j → ¬Crosses right left k) : ∃ k, i < k ∧ k < j ∧ left k = right k := by
  obtain ⟨k, hik, hkj, hk⟩ := crossed_or_touched hi.2.2 hij hj
  exact ⟨k, hik, hkj, hk.resolve_left (hcross k hik hkj)⟩

/-- Of two series that do not touch from an index on, one above the other there: their crossings alternate, and the first is the other's. -/
structure Alternate (m n : Nat) (left right : Nat → α) : Prop where
  between : ∀ i j, m < i → i < j → j < n → Crosses left right i → Crosses left right j → ∃ k, i < k ∧ k < j ∧ Crosses right left k
  between' : ∀ i j, m < i → i < j → j < n → Crosses right left i → Crosses right left j → ∃ k, i < k ∧ k < j ∧ Crosses left right k
  first : ∀ j, m < j → j < n → Crosses left right j → ∃ k, m < k ∧ k < j ∧ Crosses right left k

theorem alternate {n : Nat} (habove : right m < left m) (htouch : ∀ k, m < k → k < n → left k ≠ right k) :
    Alternate m n left right where
  between i j hi hij hj hci hcj := by
    obtain ⟨k, hik, hkj, hk⟩ := crossed_or_touched hci.2.2 hij hcj
    exact ⟨k, hik, hkj, hk.resolve_right (htouch k (by omega) (by omega))⟩
  between' i j hi hij hj hci hcj := by
    obtain ⟨k, hik, hkj, hk⟩ := crossed_or_touched hci.2.2 hij hcj
    exact ⟨k, hik, hkj, hk.resolve_right fun heq => htouch k (by omega) (by omega) heq.symm⟩
  first j hj hjn hcj := by
    obtain ⟨k, hmk, hkj, hk⟩ := crossed_or_touched habove hj hcj
    exact ⟨k, hmk, hkj, hk.resolve_right (htouch k hmk (by omega))⟩

end MtossBot
