import RecordSheet.Binary64.Shortest
import RecordSheet.Proofs.Binary64.Units
import RecordSheet.Proofs.Text.Digits

namespace RecordSheet.Binary64

variable {m n : Nat} {p : Int}

theorem readsBack_iff {num den : Nat} : readsBack m num den = true ↔
    (units (m - 1) + units m) * den ≤ 2 * num ∧ 2 * num ≤ (units m + units (m + 1)) * den ∧
      (m % 2 = 1 → (units (m - 1) + units m) * den < 2 * num ∧
        2 * num < (units m + units (m + 1)) * den) := by
  unfold readsBack
  split
  · simp only [Bool.and_eq_true, decide_eq_true_eq]
    omega
  · simp only [Bool.and_eq_true, decide_eq_true_eq]
    omega

theorem readsBack_unique {num den : Nat} (hden : 0 < den) (hm : readsBack m num den)
    (hn : readsBack n num den) : m = n := by
  have hle {m n : Nat} (hm : readsBack m num den) (hn : readsBack n num den) : n ≤ m := by
    refine Nat.le_of_not_lt fun hlt => ?_
    obtain ⟨-, hhigh, hodd⟩ := readsBack_iff.1 hm
    obtain ⟨hlow, -, hodd'⟩ := readsBack_iff.1 hn
    have h₁ : units (m + 1) ≤ units n := units_strictMono.monotone hlt
    have h₀ : units m ≤ units (n - 1) := units_strictMono.monotone (by omega)
    have hmid := Nat.mul_le_mul_right den (Nat.add_le_add h₀ h₁)
    -- the middles meet only between two neighbours, and of these one is odd
    by_cases he : m % 2 = 0 ∧ n % 2 = 0
    · have hstrict : units m < units (n - 1) := units_strictMono (by omega)
      have hlt := Nat.mul_lt_mul_of_pos_right (Nat.add_lt_add_of_lt_of_le hstrict h₁) hden
      omega
    · omega
  exact Nat.le_antisymm (hle hn hm) (hle hm hn)

theorem mul_le_iff_of_ratio {a b c d : Nat} (h : a * d = c * b) (hb : 0 < b) (hd : 0 < d)
    (x : Nat) :
    (x * b ≤ 2 * a ↔ x * d ≤ 2 * c) ∧ (2 * a ≤ x * b ↔ 2 * c ≤ x * d) := by
  have h₁ : x * b * d = x * d * b := by ring
  have h₂ : 2 * a * d = 2 * c * b := by rw [Nat.mul_assoc, h, Nat.mul_assoc]
  constructor
  · rw [← Nat.mul_le_mul_right_iff hd, h₁, h₂, Nat.mul_le_mul_right_iff hb]
  · rw [← Nat.mul_le_mul_right_iff hd, h₁, h₂, Nat.mul_le_mul_right_iff hb]

theorem readsBack_of_ratio {a b c d : Nat} (h : a * d = c * b) (hb : 0 < b) (hd : 0 < d)
    (hr : readsBack m a b) : readsBack m c d := by
  obtain ⟨hlow, hhigh⟩ := mul_le_iff_of_ratio h hb hd (units (m - 1) + units m)
  obtain ⟨hlow', hhigh'⟩ := mul_le_iff_of_ratio h hb hd (units m + units (m + 1))
  rw [readsBack_iff] at hr ⊢
  omega

theorem one_pos : 0 < one := by
  decide +kernel

theorem placeNum_pos (p : Int) : 0 < placeNum p :=
  Nat.mul_pos (Nat.pow_pos (by decide)) one_pos

theorem placeDen_pos (p : Int) : 0 < placeDen p :=
  Nat.pow_pos (by decide)

theorem placeNum_eq (p : Int) : placeNum p = 10 ^ p.toNat * one :=
  rfl

theorem placeDen_eq (p : Int) : placeDen p = 10 ^ (-p).toNat :=
  rfl

theorem place_shift (p : Int) (k : Nat) :
    placeNum (p + k) * placeDen p = 10 ^ k * placeNum p * placeDen (p + k) := by
  have he : (p + k).toNat + (-p).toNat = k + p.toNat + (-(p + k)).toNat := by omega
  have hp : 10 ^ (p + k).toNat * 10 ^ (-p).toNat =
      10 ^ k * 10 ^ p.toNat * 10 ^ (-(p + k)).toNat := by
    rw [← Nat.pow_add, ← Nat.pow_add, ← Nat.pow_add, he]
  calc placeNum (p + k) * placeDen p
      = 10 ^ (p + k).toNat * 10 ^ (-p).toNat * one := by
        rw [placeNum_eq, placeDen_eq, Nat.mul_right_comm]
    _ = 10 ^ k * placeNum p * placeDen (p + k) := by
        rw [hp, placeNum_eq, placeDen_eq, Nat.mul_right_comm, ← Nat.mul_assoc (10 ^ k)]

theorem le_of_place_le {v : Nat} (k : Nat) (h : placeNum (p + k) ≤ v * placeDen (p + k)) :
    10 ^ k * placeNum p ≤ v * placeDen p := by
  refine Nat.le_of_mul_le_mul_right ?_ (placeDen_pos (p + k))
  calc 10 ^ k * placeNum p * placeDen (p + k)
      = placeNum (p + k) * placeDen p := (place_shift p k).symm
    _ ≤ v * placeDen (p + k) * placeDen p := Nat.mul_le_mul_right _ h
    _ = v * placeDen p * placeDen (p + k) := by ring

theorem lt_of_place_lt {v : Nat} (k : Nat) (h : v * placeDen (p + k) < placeNum (p + k)) :
    v * placeDen p < 10 ^ k * placeNum p := by
  refine Nat.lt_of_mul_lt_mul_right (a := placeDen (p + k)) ?_
  calc v * placeDen p * placeDen (p + k)
      = v * placeDen (p + k) * placeDen p := by ring
    _ < placeNum (p + k) * placeDen p := Nat.mul_lt_mul_of_pos_right h (placeDen_pos p)
    _ = 10 ^ k * placeNum p * placeDen (p + k) := place_shift p k

theorem placeNum_of_nonpos (h : p ≤ 0) : placeNum p = one := by
  rw [placeNum_eq, Int.toNat_of_nonpos h, Nat.pow_zero, Nat.one_mul]

theorem leadingPlace_bounds (h : 0 < m) :
    placeNum (leadingPlace m) ≤ units m * placeDen (leadingPlace m) ∧
      units m * placeDen (leadingPlace m + 1) < placeNum (leadingPlace m + 1) := by
  have hscale : placeNum (-324) ≤ placeDen (-324) := by
    rw [placeNum_of_nonpos (by decide)]
    decide +kernel
  have hpos := placeNum_pos (-324)
  have hplace : leadingPlace m =
      (decimal (units m * placeDen (-324) / placeNum (-324))).length - 325 := rfl
  generalize hw : units m * placeDen (-324) / placeNum (-324) = w at hplace
  have hwpos : 0 < w :=
    Nat.lt_of_lt_of_eq
      (Nat.div_pos (Nat.le_trans hscale (Nat.le_mul_of_pos_left _ (units_pos h))) hpos) hw
  have hlen := length_decimal_pos w
  constructor
  · have hle : 10 ^ ((decimal w).length - 1) ≤ w := ten_pow_le_of_lt_length (by omega) hwpos
    rw [← hw, Nat.le_div_iff_mul_le hpos, hw] at hle
    have hp : leadingPlace m = -324 + ((decimal w).length - 1 : Nat) := by omega
    refine Nat.le_of_mul_le_mul_right ?_ (placeDen_pos (-324))
    calc placeNum (leadingPlace m) * placeDen (-324)
        = 10 ^ ((decimal w).length - 1) * placeNum (-324) * placeDen (leadingPlace m) := by
          rw [hp, place_shift]
      _ ≤ units m * placeDen (-324) * placeDen (leadingPlace m) := Nat.mul_le_mul_right _ hle
      _ = units m * placeDen (leadingPlace m) * placeDen (-324) := Nat.mul_right_comm _ _ _
  · have hlt := (Nat.div_lt_iff_lt_mul hpos).1 (hw.trans_lt (lt_ten_pow_length w))
    have hp : leadingPlace m + 1 = -324 + ((decimal w).length : Nat) := by omega
    refine Nat.lt_of_mul_lt_mul_right (a := placeDen (-324)) ?_
    calc units m * placeDen (leadingPlace m + 1) * placeDen (-324)
        = units m * placeDen (-324) * placeDen (leadingPlace m + 1) := Nat.mul_right_comm _ _ _
      _ < 10 ^ (decimal w).length * placeNum (-324) * placeDen (leadingPlace m + 1) :=
          Nat.mul_lt_mul_of_pos_right hlt (placeDen_pos _)
      _ = placeNum (leadingPlace m + 1) * placeDen (-324) := by rw [hp, place_shift]

structure IsHit (m : Nat) (d : Decimal) : Prop where
  readsBack : readsBack m (d.digits * placeNum d.exponent) (placeDen d.exponent)
  le_succ : d.digits ≤ units m * placeDen d.exponent / placeNum d.exponent + 1

theorem hit?_spec {d : Decimal} (h : hit? m p = some d) : d.exponent = p ∧ IsHit m d := by
  unfold hit? at h
  extract_lets num den below twice belowHits aboveHits nearerBelow at h
  split at h
  · rename_i hb
    cases h
    exact ⟨rfl, (Bool.and_eq_true_iff.1 hb).1, Nat.le_succ _⟩
  · split at h
    · rename_i ha
      cases h
      exact ⟨rfl, ha, Nat.le_refl _⟩
    · cases h

/-- On a grid finer than half the gap between the neighbours of a magnitude there is a hit. -/
theorem exists_hit (hm : 0 < m)
    (h : 2 * placeNum p + units (m - 1) * placeDen p < units (m + 1) * placeDen p) :
    ∃ d, hit? m p = some d := by
  have hpos := placeNum_pos p
  have hpos' := placeDen_pos p
  unfold hit?
  extract_lets num den below twice belowHits aboveHits nearerBelow
  change 2 * num + units (m - 1) * den < units (m + 1) * den at h
  have hdiv : num * below + units m * den % num = units m * den := Nat.div_add_mod _ _
  have hmod : units m * den % num < num := Nat.mod_lt _ hpos
  have hlow : units (m - 1) * den < units m * den :=
    Nat.mul_lt_mul_of_pos_right (units_strictMono (by omega)) hpos'
  have hhigh : units m * den < units (m + 1) * den :=
    Nat.mul_lt_mul_of_pos_right (units_strictMono (by omega)) hpos'
  have hhit : belowHits ∨ aboveHits := by
    simp only [belowHits, aboveHits]
    rw [readsBack_iff, readsBack_iff, Nat.add_mul, Nat.add_mul, Nat.add_mul, Nat.one_mul,
      Nat.mul_comm below]
    omega
  split
  · exact ⟨_, rfl⟩
  · split
    · exact ⟨_, rfl⟩
    · rename_i hb ha
      rw [hhit.resolve_right ha, Bool.eq_false_of_not_eq_true ha, Bool.not_false,
        Bool.or_true] at hb
      exact absurd rfl hb

theorem firstHit_spec {grids : Nat} (hd : ∃ d, hit? m (p - grids) = some d) :
    ∃ k ≤ grids, hit? m (p - k) = some (firstHit m p (grids + 1)) := by
  induction grids generalizing p with
  | zero =>
    obtain ⟨d, hd⟩ := hd
    refine ⟨0, Nat.le_refl _, ?_⟩
    simp only [Int.natCast_zero, Int.sub_zero] at hd ⊢
    rw [firstHit, hd, Option.getD_some]
  | succ grids ih =>
    rw [firstHit]
    cases hp : hit? m p with
    | some d => exact ⟨0, Nat.zero_le _, by simpa using hp⟩
    | none =>
      have hplace : p - 1 - grids = p - (grids + 1 : Nat) := by omega
      obtain ⟨k, hk, he⟩ := ih (p := p - 1) (by rw [hplace]; exact hd)
      refine ⟨k + 1, Nat.succ_le_succ hk, ?_⟩
      rw [Option.getD_none, ← he]
      congr 1
      omega

/-- Seventeen digits always suffice. -/
theorem firstHit_isHit (h : 0 < m) :
    IsHit m (firstHit m (leadingPlace m) 17) ∧
      (firstHit m (leadingPlace m) 17).digits ≤ 10 ^ 17 := by
  obtain ⟨hle, hlt⟩ := leadingPlace_bounds h
  have hfine : ∃ d, hit? m (leadingPlace m - (16 : Nat)) = some d := by
    apply exists_hit h
    have hplace : leadingPlace m = leadingPlace m - (16 : Nat) + (16 : Nat) := by omega
    rw [hplace] at hle
    have hspace := le_of_place_le 16 hle
    have hgap := Nat.mul_lt_mul_of_pos_right (units_lt_gap (m - 1))
      (placeDen_pos (leadingPlace m - (16 : Nat)))
    rw [show m - 1 + 1 = m by omega, show m - 1 + 2 = m + 1 by omega, Nat.add_mul, Nat.mul_assoc,
      Nat.mul_assoc, Nat.mul_assoc] at hgap
    omega
  obtain ⟨k, hk, he⟩ := firstHit_spec hfine
  obtain ⟨hplace, hhit⟩ := hit?_spec he
  refine ⟨hhit, Nat.le_trans hhit.le_succ ?_⟩
  have hp : leadingPlace m + 1 = leadingPlace m - k + (k + 1 : Nat) := by omega
  rw [hp] at hlt
  rw [hplace]
  calc units m * placeDen (leadingPlace m - k) / placeNum (leadingPlace m - k) + 1
      ≤ 10 ^ (k + 1) := (Nat.div_lt_iff_lt_mul (placeNum_pos _)).2 (lt_of_place_lt (k + 1) hlt)
    _ ≤ 10 ^ 17 := Nat.pow_le_pow_right (by decide) (by omega)

theorem shortest_readsBack (h : 0 < m) : Binary64.readsBack m
    ((shortest m).digits * placeNum (shortest m).exponent) (placeDen (shortest m).exponent) := by
  have hhit := (firstHit_isHit h).1.readsBack
  rw [shortest, if_neg (Nat.ne_of_gt h)]
  dsimp only
  split
  · rename_i hten
    refine readsBack_of_ratio ?_ (placeDen_pos _) (placeDen_pos _) hhit
    have hshift := place_shift (firstHit m (leadingPlace m) 17).exponent 1
    have hdigits := Nat.div_mul_cancel (Nat.dvd_of_mod_eq_zero hten)
    simp only [Int.natCast_one, Nat.pow_one] at hshift ⊢
    rw [Nat.mul_assoc, Nat.mul_assoc, hshift]
    conv_lhs => rw [← hdigits]
    ring
  · exact hhit

theorem shortest_digits_pos (h : 0 < m) : 0 < (shortest m).digits := by
  refine Nat.pos_of_ne_zero fun hz => ?_
  have hlow := (readsBack_iff.1 (shortest_readsBack h)).1
  have hpos := Nat.mul_pos (Nat.add_pos_right (units (m - 1)) (units_pos h))
    (placeDen_pos (shortest m).exponent)
  rw [hz] at hlow
  omega

theorem shortest_digits_le (m : Nat) : (shortest m).digits ≤ 10 ^ 17 := by
  rcases Nat.eq_zero_or_pos m with rfl | h
  · decide
  · have hle := (firstHit_isHit h).2
    rw [shortest, if_neg (Nat.ne_of_gt h)]
    dsimp only
    split
    · exact Nat.le_trans (Nat.div_le_self _ _) hle
    · exact hle

end RecordSheet.Binary64
