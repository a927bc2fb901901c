import RecordSheet.Json.Literal
import RecordSheet.Proofs.Binary64.Shortest

namespace RecordSheet.Binary64

variable {num den s t : Nat}

theorem roundHalfEven_near (hden : 0 < den) :
    2 * num ≤ 2 * (roundHalfEven num den * den) + den ∧
      2 * (roundHalfEven num den * den) ≤ 2 * num + den ∧
      (roundHalfEven num den % 2 = 1 → 2 * num < 2 * (roundHalfEven num den * den) + den ∧
        2 * (roundHalfEven num den * den) < 2 * num + den) := by
  have hdiv := Nat.div_add_mod' num den
  have hmod := Nat.mod_lt num hden
  unfold roundHalfEven
  dsimp only
  split
  · omega
  · rw [Nat.add_mul, Nat.one_mul]
    omega

theorem div_le_roundHalfEven (num den : Nat) : num / den ≤ roundHalfEven num den := by
  unfold roundHalfEven
  dsimp only
  split
  · exact Nat.le_refl _
  · exact Nat.le_succ _

theorem roundHalfEven_le (num den : Nat) : roundHalfEven num den ≤ num / den + 1 := by
  unfold roundHalfEven
  dsimp only
  split
  · exact Nat.le_succ _
  · exact Nat.le_refl _

theorem units_scale (ht : t ≤ 2 ^ 53) (hs : s = 0 ∨ 2 ^ 52 ≤ t) :
    units (s * 2 ^ 52 + t) = t * 2 ^ s := by
  rcases Nat.lt_or_ge t (2 ^ 52) with hlow | hhigh
  · obtain rfl := hs.resolve_right (by omega)
    rw [Nat.zero_mul, Nat.zero_add, units_of_lt hlow, Nat.pow_zero, Nat.mul_one]
  · rw [units_of_le (by omega)]
    rcases Nat.lt_or_ge t (2 ^ 53) with hlt | hge
    · rw [show (s * 2 ^ 52 + t) / 2 ^ 52 - 1 = s by omega,
        show 2 ^ 52 + (s * 2 ^ 52 + t) % 2 ^ 52 = t by omega]
    · rw [show (s * 2 ^ 52 + t) / 2 ^ 52 - 1 = s + 1 by omega,
        show 2 ^ 52 + (s * 2 ^ 52 + t) % 2 ^ 52 = 2 ^ 52 by omega,
        show t = 2 ^ 52 * 2 by omega, Nat.pow_succ]
      ring

theorem le_units_scale_succ (ht : t ≤ 2 ^ 53) (hs : s = 0 ∨ 2 ^ 52 ≤ t) :
    (t + 1) * 2 ^ s ≤ units (s * 2 ^ 52 + t + 1) := by
  rcases Nat.lt_or_ge t (2 ^ 53) with hlt | hge
  · rw [Nat.add_assoc, units_scale hlt (hs.imp_right Nat.le_succ_of_le)]
  · rw [units_succ, units_scale ht hs, Nat.add_mul, Nat.one_mul]
    exact Nat.add_le_add_left (Nat.pow_le_pow_right Nat.zero_lt_two (by omega)) _

theorem units_pred_scale (ht : t ≤ 2 ^ 53) (hpos : 0 < t) (hgrid : s = 0 ∨ 2 ^ 52 < t) :
    units (s * 2 ^ 52 + t - 1) + 2 ^ s = t * 2 ^ s := by
  have hpred : units (s * 2 ^ 52 + (t - 1)) = (t - 1) * 2 ^ s :=
    units_scale (by omega) (hgrid.imp_right Nat.le_sub_one_of_lt)
  rw [Nat.add_sub_assoc hpos, hpred]
  calc (t - 1) * 2 ^ s + 2 ^ s
      = (t - 1 + 1) * 2 ^ s := (Nat.succ_mul _ _).symm
    _ = t * 2 ^ s := by rw [Nat.sub_add_cancel hpos]

theorem readsBack_scale (ht : t ≤ 2 ^ 53) (hs : s = 0 ∨ 2 ^ 52 ≤ t)
    (hnear : 2 * num ≤ 2 * (t * (den * 2 ^ s)) + den * 2 ^ s ∧
      2 * (t * (den * 2 ^ s)) ≤ 2 * num + den * 2 ^ s ∧
      (t % 2 = 1 → 2 * num < 2 * (t * (den * 2 ^ s)) + den * 2 ^ s ∧
        2 * (t * (den * 2 ^ s)) < 2 * num + den * 2 ^ s))
    (hlow : s = 0 ∨ 2 ^ 52 < t ∨ t * (den * 2 ^ s) ≤ num) :
    readsBack (s * 2 ^ 52 + t) num den := by
  have hthis : units (s * 2 ^ 52 + t) * den = t * (den * 2 ^ s) := by
    rw [units_scale ht hs, Nat.mul_assoc, Nat.mul_comm den]
  have hnext : t * (den * 2 ^ s) + den * 2 ^ s ≤ units (s * 2 ^ 52 + t + 1) * den := by
    calc t * (den * 2 ^ s) + den * 2 ^ s
        = (t + 1) * 2 ^ s * den := by ring
      _ ≤ units (s * 2 ^ 52 + t + 1) * den := Nat.mul_le_mul_right _ (le_units_scale_succ ht hs)
  have hprev : units (s * 2 ^ 52 + t - 1) * den + den * 2 ^ s = t * (den * 2 ^ s) ∨
      units (s * 2 ^ 52 + t - 1) * den ≤ t * (den * 2 ^ s) ∧ t % 2 = 0 ∧
        t * (den * 2 ^ s) ≤ num := by
    by_cases hgrid : 0 < t ∧ (s = 0 ∨ 2 ^ 52 < t)
    · refine .inl ?_
      rw [Nat.mul_comm den, ← Nat.add_mul, units_pred_scale ht hgrid.1 hgrid.2, Nat.mul_assoc]
    · -- zero, or the least digits of a scale: even, and rounded down
      refine .inr ⟨?_, by omega, ?_⟩
      · rw [← hthis]
        exact Nat.mul_le_mul_right _ (units_strictMono.monotone (Nat.sub_le _ _))
      · rcases Nat.eq_zero_or_pos t with hzero | hpos
        · rw [hzero, Nat.zero_mul]
          exact Nat.zero_le _
        · tauto
  have hparity : (s * 2 ^ 52 + t) % 2 = t % 2 := by omega
  rw [readsBack_iff, Nat.add_mul, Nat.add_mul, hthis, hparity]
  clear hthis hparity hlow hs ht
  generalize units (s * 2 ^ 52 + t - 1) * den = prev at *
  generalize units (s * 2 ^ 52 + t + 1) * den = next at *
  generalize t * (den * 2 ^ s) = this at *
  generalize den * 2 ^ s = step at *
  omega

/-- A quotient reads back as the magnitude it is rounded to. -/
theorem ofRatio_readsBack (num : Nat) (hden : 0 < den) :
    readsBack (ofRatio num den) (num * one) den := by
  unfold ofRatio
  extract_lets n scale
  have hstep := Nat.mul_pos hden (Nat.two_pow_pos scale)
  have hdiv : n / (den * 2 ^ scale) = n / den / 2 ^ scale := (Nat.div_div_eq_div_mul _ _ _).symm
  have hlow := div_le_roundHalfEven n (den * 2 ^ scale)
  have hhigh := roundHalfEven_le n (den * 2 ^ scale)
  have hlt : n / (den * 2 ^ scale) < 2 ^ 53 := by
    rw [hdiv, Nat.div_lt_iff_lt_mul (Nat.two_pow_pos scale), ← Nat.pow_add]
    calc n / den < 2 ^ ((n / den).log2 + 1) := Nat.lt_log2_self
      _ ≤ 2 ^ (53 + scale) := Nat.pow_le_pow_right Nat.zero_lt_two (by omega)
  have hge : scale = 0 ∨ 2 ^ 52 ≤ n / (den * 2 ^ scale) := by
    rcases Nat.eq_zero_or_pos scale with hzero | hpos
    · exact .inl hzero
    · refine .inr ?_
      have hlog : (n / den).log2 = 52 + scale := by omega
      have hne : n / den ≠ 0 := by
        intro hzero
        rw [hzero, Nat.log2_zero] at hlog
        omega
      rw [hdiv, Nat.le_div_iff_mul_le (Nat.two_pow_pos scale), ← Nat.pow_add, ← hlog]
      exact Nat.log2_self_le hne
  refine readsBack_scale (Nat.le_trans hhigh hlt) (hge.imp_right fun h => Nat.le_trans h hlow)
    (roundHalfEven_near hstep) ?_
  rcases hge with hzero | hge
  · exact .inl hzero
  · rcases Nat.eq_or_lt_of_le (Nat.le_trans hge hlow) with heq | hlt
    · -- rounded to the least digits of the scale, so not rounded up
      refine .inr (.inr ?_)
      have hsame : roundHalfEven n (den * 2 ^ scale) = n / (den * 2 ^ scale) := by omega
      calc roundHalfEven n (den * 2 ^ scale) * (den * 2 ^ scale)
          = n / (den * 2 ^ scale) * (den * 2 ^ scale) := by rw [hsame]
        _ ≤ n := Nat.div_mul_le_self _ _
    · exact .inr (.inl hlt)

theorem ofRatio_eq_iff {m : Nat} (hden : 0 < den) :
    ofRatio num den = m ↔ readsBack m (num * one) den := by
  constructor
  · rintro rfl
    exact ofRatio_readsBack num hden
  · exact readsBack_unique hden (ofRatio_readsBack num hden)

theorem ofRatio_congr {a b c d : Nat} (h : a * d = c * b) (hb : 0 < b) (hd : 0 < d) :
    ofRatio a b = ofRatio c d := by
  rw [ofRatio_eq_iff hb]
  refine readsBack_of_ratio ?_ hd hb (ofRatio_readsBack c hd)
  rw [Nat.mul_right_comm, ← h, Nat.mul_right_comm]

theorem ofRatio_of_units {m : Nat} (hden : 0 < den) (h : num * one = units m * den) :
    ofRatio num den = m := by
  have hbelow : units (m - 1) * den ≤ units m * den :=
    Nat.mul_le_mul_right _ (units_strictMono.monotone (Nat.sub_le _ _))
  have habove : units m * den < units (m + 1) * den :=
    Nat.mul_lt_mul_of_pos_right (units_strictMono (Nat.lt_succ_self m)) hden
  have hodd : m % 2 = 1 → units (m - 1) * den < units m * den := fun hodd =>
    Nat.mul_lt_mul_of_pos_right (units_strictMono (by omega)) hden
  rw [ofRatio_eq_iff hden, readsBack_iff, h, Nat.add_mul, Nat.add_mul]
  omega

theorem exists_units {a : Nat} (ha : a ≤ 2 ^ 53) (b : Nat) : ∃ m, units m = a * 2 ^ (52 + b) := by
  rcases Nat.eq_zero_or_pos a with rfl | hpos
  · exact ⟨0, (Nat.zero_mul _).symm⟩
  have hlow := Nat.log2_self_le (Nat.ne_of_gt hpos)
  have hhigh := @Nat.lt_log2_self a
  have hshift : 52 + b = (52 - a.log2) + (52 + b - (52 - a.log2)) := by omega
  refine ⟨(52 + b - (52 - a.log2)) * 2 ^ 52 + a * 2 ^ (52 - a.log2), ?_⟩
  rw [units_scale, Nat.mul_assoc, ← Nat.pow_add, ← hshift]
  · rcases Nat.le_total a.log2 52 with hle | hle
    · calc a * 2 ^ (52 - a.log2)
          ≤ 2 ^ (a.log2 + 1) * 2 ^ (52 - a.log2) := Nat.mul_le_mul_right _ (Nat.le_of_lt hhigh)
        _ = 2 ^ 53 := by
          rw [← Nat.pow_add]
          congr 1
          omega
    · rwa [Nat.sub_eq_zero_of_le hle, Nat.pow_zero, Nat.mul_one]
  · refine .inr ?_
    calc 2 ^ 52
        ≤ 2 ^ (a.log2 + (52 - a.log2)) := Nat.pow_le_pow_right Nat.zero_lt_two (by omega)
      _ = 2 ^ a.log2 * 2 ^ (52 - a.log2) := Nat.pow_add _ _ _
      _ ≤ a * 2 ^ (52 - a.log2) := Nat.mul_le_mul_right _ hlow

theorem one_eq : one = 2 ^ 1074 := by
  decide +kernel

theorem units_ofNat {a : Nat} (ha : a ≤ 2 ^ 53) (b : Nat) :
    units (ofNat (a * 2 ^ b)) = a * 2 ^ b * one := by
  obtain ⟨m, hm⟩ := exists_units ha (1022 + b)
  have hvalue : a * 2 ^ b * one = units m := by
    rw [hm, one_eq, Nat.mul_assoc, ← Nat.pow_add]
    congr 2
    omega
  have hsame : ofNat (a * 2 ^ b) = m := ofRatio_of_units Nat.one_pos (by rw [hvalue, Nat.mul_one])
  rw [hsame, hvalue]

theorem units_tenTo {k : Nat} (hk : k ≤ 22) : units (tenTo k) = 10 ^ k * one := by
  have hfive : 5 ^ k ≤ 2 ^ 53 :=
    Nat.le_trans (Nat.pow_le_pow_right (by decide) hk) (by decide)
  have hten : 10 ^ k = 5 ^ k * 2 ^ k := by rw [← Nat.mul_pow]
  have hunits := units_ofNat hfive k
  rw [← hten] at hunits
  exact hunits

end RecordSheet.Binary64

namespace RecordSheet.Literal

open Binary64

variable {word : Nat} {power : Int}

/-- A word times a power of ten is rounded only once if both are exact. -/
theorem magnitude_eq_ofRatio (hword : word ≤ 2 ^ 53) (hlow : -22 ≤ power) (hhigh : power ≤ 22) :
    magnitude word power = ofRatio (word * 10 ^ power.toNat) (10 ^ (-power).toNat) := by
  have hsmall : power.natAbs ≤ 22 := by omega
  have hplace : power < 0 ∧ power.toNat = 0 ∧ (-power).toNat = power.natAbs ∨
      0 ≤ power ∧ power.toNat = power.natAbs ∧ (-power).toNat = 0 := by omega
  have hten := units_tenTo hsmall
  have hexact := units_ofNat hword 0
  rw [Nat.pow_zero, Nat.mul_one] at hexact
  have hpos := Nat.pow_pos (n := power.natAbs) (show 0 < 10 by decide)
  obtain ⟨hneg, hnum, hden⟩ | ⟨hnonneg, hnum, hden⟩ := hplace
  · rw [magnitude, if_pos hneg, divTenTo, if_pos (Nat.le_trans hsmall (by decide)), Binary64.div,
      hexact, hten, hnum, hden]
    refine ofRatio_congr ?_ (Nat.mul_pos hpos Binary64.one_pos) hpos
    ring
  · rw [magnitude, if_neg (Int.not_lt.2 hnonneg), hnum, hden]
    split
    · rename_i hzero
      rw [hzero, Nat.zero_mul]
      exact (ofRatio_of_units Nat.one_pos (Nat.zero_mul _)).symm
    · rw [if_pos (Int.le_trans hhigh (by decide)), Binary64.mul, hexact, hten]
      refine ofRatio_congr ?_ (Nat.mul_pos Binary64.one_pos Binary64.one_pos) Nat.one_pos
      ring

end RecordSheet.Literal
