import RecordSheet.Binary64.Basic
import Mathlib.Order.Monotone.Basic
import Mathlib.Tactic.Ring

namespace RecordSheet.Binary64

theorem units_of_lt {m : Nat} (h : m < 2 ^ 52) : units m = m :=
  if_pos h

theorem units_of_le {m : Nat} (h : 2 ^ 52 ≤ m) :
    units m = (2 ^ 52 + m % 2 ^ 52) * 2 ^ (m / 2 ^ 52 - 1) :=
  if_neg (Nat.not_lt.2 h)

/-- The gap above a magnitude doubles from each power of two to the next. -/
theorem units_succ (m : Nat) : units (m + 1) = units m + 2 ^ (m / 2 ^ 52 - 1) := by
  rcases Nat.lt_or_ge (m + 1) (2 ^ 52) with h | h
  · have hq : m / 2 ^ 52 - 1 = 0 := by omega
    rw [units_of_lt h, units_of_lt (by omega), hq, Nat.pow_zero]
  · rcases Nat.lt_or_ge m (2 ^ 52) with hm | hm
    · have he : m + 1 = 2 ^ 52 := by omega
      rw [units_of_le h, units_of_lt hm, he, show m / 2 ^ 52 - 1 = 0 by omega]
      norm_num
      omega
    · rw [units_of_le h, units_of_le hm]
      rcases Nat.lt_or_ge (m % 2 ^ 52 + 1) (2 ^ 52) with hr | hr
      · have hq : (m + 1) / 2 ^ 52 = m / 2 ^ 52 := by omega
        have hs : (m + 1) % 2 ^ 52 = m % 2 ^ 52 + 1 := by omega
        rw [hq, hs]
        ring
      · have hq : (m + 1) / 2 ^ 52 - 1 = (m / 2 ^ 52 - 1) + 1 := by omega
        have hs : (m + 1) % 2 ^ 52 = 0 := by omega
        have hm : m % 2 ^ 52 = 2 ^ 52 - 1 := by omega
        rw [hq, hs, hm, Nat.pow_succ]
        ring

theorem units_strictMono : StrictMono units := by
  apply strictMono_nat_of_lt_succ
  intro m
  rw [units_succ]
  exact Nat.lt_add_of_pos_right (Nat.two_pow_pos _)

theorem units_pos {m : Nat} (h : 0 < m) : 0 < units m :=
  Nat.lt_of_le_of_lt (Nat.zero_le _) (units_strictMono h)

theorem units_lt (m : Nat) : units m < 2 ^ 53 * 2 ^ (m / 2 ^ 52 - 1) := by
  rcases Nat.lt_or_ge m (2 ^ 52) with h | h
  · rw [units_of_lt h]
    have hp := Nat.two_pow_pos (m / 2 ^ 52 - 1)
    omega
  · rw [units_of_le h]
    exact Nat.mul_lt_mul_of_pos_right (by omega) (Nat.two_pow_pos _)

/-- Between its neighbours a magnitude has more room than the sixteenth decimal digit takes. -/
theorem units_lt_gap (m : Nat) :
    2 * units (m + 1) + 10 ^ 16 * units m < 10 ^ 16 * units (m + 2) := by
  have hp := Nat.two_pow_pos ((m + 1) / 2 ^ 52 - 1)
  rw [units_succ (m + 1)]
  by_cases h : (m + 1) % 2 ^ 52 = 0
  · -- the smallest magnitude with its exponent: the gap below it is only half as wide
    have hu : units (m + 1) = 2 ^ 52 * 2 ^ ((m + 1) / 2 ^ 52 - 1) := by
      rw [units_of_le (by omega), h, Nat.add_zero]
    have hlt : units m < units (m + 1) := units_strictMono (Nat.lt_succ_self m)
    omega
  · have hq : m / 2 ^ 52 = (m + 1) / 2 ^ 52 := by omega
    have hs := units_succ m
    have hlt := units_lt (m + 1)
    rw [hq] at hs
    omega

end RecordSheet.Binary64
