import Mathlib.Data.Nat.Log
import Mathlib.Tactic.Positivity
import Mathlib.Tactic.Ring

/-!
# Rounding to a number of digits

The nearest number of at most `p` decimal digits, a tie going to the even one, with the number of digits dropped.
-/

namespace MtossBot

/-- `n / d` rounded to the nearest integer, a half to the even one. -/
def roundHalfEven (n d : Nat) : Nat :=
  if 2 * (n % d) < d ∨ 2 * (n % d) = d ∧ n / d % 2 = 0 then n / d else n / d + 1

/-- The number of decimal digits. -/
def numDigits (n : Nat) : Nat := Nat.log 10 n + 1

/-- A coefficient rounded to `p` digits, with the number of digits dropped. -/
@[irreducible] def roundDigits (p c : Nat) : Nat × Nat :=
  let dropped := numDigits c - p
  let q := roundHalfEven c (10 ^ dropped)
  if 10 ^ p ≤ q then (q / 10, dropped + 1) else (q, dropped)

namespace Digits

variable {n d m p c : Nat}

theorem roundHalfEven_one (n : Nat) : roundHalfEven n 1 = n := by simp [roundHalfEven, Nat.mod_one]

theorem le_roundHalfEven (hd : 0 < d) (h : m * d ≤ n) : m ≤ roundHalfEven n d := by
  have hq : m ≤ n / d := (Nat.le_div_iff_mul_le hd).mpr h
  unfold roundHalfEven
  split
  · exact hq
  · exact Nat.le_succ_of_le hq

theorem roundHalfEven_le (hd : 0 < d) (h : n ≤ m * d) : roundHalfEven n d ≤ m := by
  have hq : n / d ≤ m := (Nat.div_le_div_right h).trans (Nat.mul_div_cancel m hd).le
  unfold roundHalfEven
  split
  · exact hq
  · rename_i hup
    -- rounded up, the quotient is not the bound: nothing would be left over
    rcases Nat.lt_or_eq_of_le hq with hlt | rfl
    · exact hlt
    · have hmod : n % d = 0 := by
        have hdiv := Nat.div_add_mod n d
        rw [Nat.mul_comm] at hdiv
        omega
      simp [hmod, hd] at hup

/-- Half of a unit and less is rounded down to nothing, more than half is not. -/
theorem roundHalfEven_pos (hd : 0 < d) (h : d < 2 * n) : 0 < roundHalfEven n d := by
  unfold roundHalfEven
  split
  · rename_i hdown
    by_contra hzero
    have hlt : n < d := by
      rcases Nat.div_eq_zero_iff.mp (Nat.eq_zero_of_not_pos hzero) with hd' | hlt
      · omega
      · exact hlt
    rw [Nat.mod_eq_of_lt hlt] at hdown
    omega
  · exact Nat.succ_pos _

theorem lt_pow_iff (hp : 0 < p) : c < 10 ^ p ↔ numDigits c ≤ p := by
  rw [numDigits, Nat.succ_le_iff]
  constructor
  · exact Nat.log_lt_of_lt_pow' hp.ne'
  · exact Nat.lt_pow_of_log_lt (by norm_num)

/-- A number with few enough digits keeps them. -/
theorem roundDigits_of_lt (hp : 0 < p) (h : c < 10 ^ p) : roundDigits p c = (c, 0) := by
  have hdropped : numDigits c - p = 0 := Nat.sub_eq_zero_of_le ((lt_pow_iff hp).mp h)
  rw [roundDigits, hdropped, pow_zero, roundHalfEven_one, if_neg (not_le.mpr h)]

/-- A number with too many digits gets `p` of them, and is not moved across a power of ten. -/
theorem roundDigits_of_le (hp : 0 < p) (h : 10 ^ p ≤ c) :
    10 ^ (p - 1) ≤ (roundDigits p c).1 ∧ (roundDigits p c).1 < 10 ^ p ∧ 0 < (roundDigits p c).2 ∧
      10 ^ Nat.log 10 c ≤ (roundDigits p c).1 * 10 ^ (roundDigits p c).2 := by
  have hlog : p ≤ Nat.log 10 c := Nat.le_log_of_pow_le (by norm_num) h
  have hc : c ≠ 0 := ((by positivity : 0 < 10 ^ p).trans_le h).ne'
  have hdropped : numDigits c - p = Nat.log 10 c - (p - 1) := by
    unfold numDigits
    omega
  have hsplit : 10 ^ (p - 1) * 10 ^ (Nat.log 10 c - (p - 1)) = 10 ^ Nat.log 10 c := by
    rw [← pow_add]
    congr 1
    omega
  have hpow : 10 ^ p = 10 ^ (p - 1) * 10 := by rw [← pow_succ, Nat.sub_add_cancel hp]
  have hlow : 10 ^ (p - 1) ≤ roundHalfEven c (10 ^ (Nat.log 10 c - (p - 1))) :=
    le_roundHalfEven (by positivity) (hsplit ▸ Nat.pow_log_le_self 10 hc)
  have hhigh : roundHalfEven c (10 ^ (Nat.log 10 c - (p - 1))) ≤ 10 ^ p := by
    refine roundHalfEven_le (by positivity) ?_
    rw [hpow, Nat.mul_right_comm, hsplit, ← pow_succ]
    exact (Nat.lt_pow_succ_log_self (by norm_num) c).le
  simp only [roundDigits, hdropped]
  split
  · rename_i hcarry
    -- the digits carried: the rounded number is the power of ten itself
    have hq := le_antisymm hhigh hcarry
    rw [hq, hpow, Nat.mul_div_cancel _ (by norm_num : 0 < 10)]
    refine ⟨le_rfl, ?_, Nat.succ_pos _, ?_⟩
    · exact lt_mul_of_one_lt_right (by positivity) (by norm_num)
    · rw [pow_succ, ← mul_assoc, hsplit]
      exact Nat.le_mul_of_pos_right _ (by norm_num)
  · rename_i hcarry
    refine ⟨hlow, not_le.mp hcarry, by omega, ?_⟩
    rw [← hsplit]
    exact Nat.mul_le_mul_right _ hlow

/-! ## Powers of ten and multiples of five -/

/-- Half below an even number is rounded up to it. -/
theorem le_roundHalfEven_iff (hd : 0 < d) (hm : m % 2 = 0) : m ≤ roundHalfEven n d ↔ 2 * (m * d) ≤ 2 * n + d := by
  have hdiv := Nat.div_add_mod n d
  have hmod := Nat.mod_lt n hd
  unfold roundHalfEven
  generalize n / d = q at hdiv ⊢
  generalize n % d = r at hdiv hmod ⊢
  subst hdiv
  rcases Nat.lt_trichotomy m (q + 1) with hlt | rfl | hgt
  · have hle : m * d ≤ q * d := Nat.mul_le_mul_right d (by omega)
    rw [Nat.mul_comm d q]
    refine iff_of_true ?_ (by omega)
    split <;> omega
  · have hq : (q + 1) * d = d * q + d := by ring
    rw [hq]
    split <;> omega
  · have hle : (q + 2) * d ≤ m * d := Nat.mul_le_mul_right d (by omega)
    have hq : (q + 2) * d = d * q + 2 * d := by ring
    refine iff_of_false ?_ (by omega)
    split <;> omega

/-- The value of a coefficient that is rounded. -/
theorem roundDigits_value (hp : 0 < p) :
    (roundDigits p c).1 * 10 ^ (roundDigits p c).2 = roundHalfEven c (10 ^ (numDigits c - p)) * 10 ^ (numDigits c - p) := by
  rw [roundDigits]
  split
  · rename_i hcarry
    have hhigh : roundHalfEven c (10 ^ (numDigits c - p)) ≤ 10 ^ p := by
      refine roundHalfEven_le (by positivity) ?_
      rw [← pow_add]
      have hlt : c < 10 ^ numDigits c := (lt_pow_iff (Nat.succ_pos _)).mpr le_rfl
      exact hlt.le.trans (Nat.pow_le_pow_right (by norm_num) (by omega))
    rw [le_antisymm hhigh hcarry, ← Nat.sub_add_cancel hp, pow_succ, Nat.mul_div_cancel _ (by norm_num : 0 < 10), pow_succ]
    ring
  · rfl

/-- Rounded to `p` digits a number reaches a power of ten from half a unit of its last digit below it. -/
theorem pow_le_roundDigits_iff (hp : 0 < p) :
    10 ^ m ≤ (roundDigits p c).1 * 10 ^ (roundDigits p c).2 ↔ 2 * 10 ^ m ≤ 2 * c + 10 ^ (m - p) := by
  rw [roundDigits_value hp]
  have hunit : 0 < 10 ^ (numDigits c - p) := by positivity
  have hlast : 10 ^ (m - p) ≤ 10 ^ m := Nat.pow_le_pow_right (by norm_num) (Nat.sub_le m p)
  have hlt : c < 10 ^ numDigits c := (lt_pow_iff (Nat.succ_pos _)).mpr le_rfl
  rcases Nat.eq_zero_or_pos c with rfl | hc
  · have hpos : 0 < 10 ^ m := by positivity
    have hzero : roundHalfEven 0 (10 ^ (numDigits 0 - p)) = 0 := Nat.eq_zero_of_le_zero (roundHalfEven_le hunit (by simp))
    rw [hzero]
    omega
  · have hle : 10 ^ (numDigits c - 1) ≤ c := Nat.pow_log_le_self 10 hc.ne'
    rcases Nat.lt_trichotomy m (numDigits c) with hm | hm | hm
    · -- the number is as long as the power, before and after
      have hpow : 10 ^ m ≤ 10 ^ (numDigits c - 1) := Nat.pow_le_pow_right (by norm_num) (by omega)
      have hsplit : 10 ^ (numDigits c - 1 - (numDigits c - p)) * 10 ^ (numDigits c - p) = 10 ^ (numDigits c - 1) := by
        rw [← pow_add]
        congr 1
        omega
      have hreach : 10 ^ m ≤ c := hpow.trans hle
      refine iff_of_true ?_ ((Nat.mul_le_mul_left 2 hreach).trans (Nat.le_add_right _ _))
      calc 10 ^ m ≤ 10 ^ (numDigits c - 1) := hpow
        _ = 10 ^ (numDigits c - 1 - (numDigits c - p)) * 10 ^ (numDigits c - p) := hsplit.symm
        _ ≤ _ := Nat.mul_le_mul_right _ (le_roundHalfEven hunit (hsplit.trans_le hle))
    · -- the power is the next one: the last unit decides
      have hsplit : 10 ^ m = 10 ^ (m - (m - p)) * 10 ^ (m - p) := by
        rw [← pow_add]
        congr 1
        omega
      have heven : 10 ^ (m - (m - p)) % 2 = 0 := by
        have hpos : m - (m - p) ≠ 0 := by
          have : 0 < numDigits c := Nat.succ_pos _
          omega
        rw [Nat.pow_mod]
        simp [hpos]
      rw [← hm, hsplit, Nat.mul_le_mul_right_iff (by positivity), le_roundHalfEven_iff (by positivity) heven]
    · -- the power is out of reach
      have hpow : 10 ^ numDigits c ≤ 10 ^ (m - 1) := Nat.pow_le_pow_right (by norm_num) (by omega)
      have hlast' : 10 ^ (m - p) ≤ 10 ^ (m - 1) := Nat.pow_le_pow_right (by norm_num) (by omega)
      have htop : 10 ^ m = 10 ^ (m - 1) * 10 := by rw [← pow_succ, Nat.sub_add_cancel (by omega)]
      have hsplit : 10 ^ (numDigits c - (numDigits c - p)) * 10 ^ (numDigits c - p) = 10 ^ numDigits c := by
        rw [← pow_add]
        congr 1
        omega
      have hround : roundHalfEven c (10 ^ (numDigits c - p)) * 10 ^ (numDigits c - p) ≤ 10 ^ (m - 1) :=
        (Nat.mul_le_mul_right _ (roundHalfEven_le hunit (hlt.le.trans_eq hsplit.symm))).trans (hsplit.trans_le hpow)
      have hbelow : c < 10 ^ (m - 1) := hlt.trans_le hpow
      refine iff_of_false ?_ ?_
      · rw [htop]
        omega
      · rw [htop]
        omega

/-- A quotient whose last digit says that something was left over compares with multiples of five as the exact one does. -/
theorem le_sticky_iff (hd : 0 < d) (hm : 5 ∣ m) : m ≤ (if n / d % 5 = 0 then n / d + 1 else n / d) ↔ m * d ≤ n := by
  rw [← Nat.le_div_iff_mul_le hd]
  split
  · omega
  · rfl

end Digits
end MtossBot
