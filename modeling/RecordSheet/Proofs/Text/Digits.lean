import RecordSheet.Text.Basic
import Mathlib.Data.List.Induction
import Mathlib.Tactic.Ring

namespace RecordSheet

variable {n : Nat} {ds es : Text}

theorem isDigit_bounds {c : Char} (h : c.isDigit) : 48 ≤ c.toNat ∧ c.toNat ≤ 57 := by
  simp only [Char.isDigit, Bool.and_eq_true, decide_eq_true_eq, ge_iff_le,
    UInt32.le_iff_toNat_le] at h
  exact h

theorem ne_of_isDigit {c d : Char} (hc : c.isDigit) (hd : d.isDigit = false) : c ≠ d := by
  rintro rfl
  rw [hc] at hd
  cases hd

theorem digitsValue_append (ds es : Text) :
    digitsValue (ds ++ es) = digitsValue ds * 10 ^ es.length + digitsValue es := by
  rw [digitsValue, Nat.ofDigitChars_append, Nat.ofDigitChars_eq_ofDigitChars_zero, Nat.mul_comm]
  rfl

theorem digitsValue_cons (c : Char) (ds : Text) :
    digitsValue (c :: ds) = (c.toNat - 48) * 10 ^ ds.length + digitsValue ds := by
  rw [← List.singleton_append, digitsValue_append]
  simp [digitsValue, Nat.ofDigitChars_cons]

@[simp] theorem digitsValue_zeros (n : Nat) : digitsValue (List.replicate n '0') = 0 := by
  simp [digitsValue]

theorem digitsValue_lt (h : ∀ c ∈ ds, c.isDigit) : digitsValue ds < 10 ^ ds.length := by
  induction ds with
  | nil => decide
  | cons c ds ih =>
    have hc := isDigit_bounds (h c List.mem_cons_self)
    have hds := ih fun d hd => h d (List.mem_cons_of_mem _ hd)
    have hle : (c.toNat - 48) * 10 ^ ds.length ≤ 9 * 10 ^ ds.length :=
      Nat.mul_le_mul_right _ (by omega)
    rw [digitsValue_cons, List.length_cons, Nat.pow_succ]
    omega

theorem length_decimal_le_iff {k : Nat} (hk : 0 < k) : (decimal n).length ≤ k ↔ n < 10 ^ k :=
  Nat.length_toDigits_le_iff (by decide) hk

theorem length_decimal_pos (n : Nat) : 0 < (decimal n).length :=
  Nat.length_toDigits_pos

theorem lt_ten_pow_length (n : Nat) : n < 10 ^ (decimal n).length :=
  (length_decimal_le_iff (length_decimal_pos n)).1 (Nat.le_refl _)

theorem ten_pow_le_of_lt_length {k : Nat} (hk : k < (decimal n).length) (hn : 0 < n) :
    10 ^ k ≤ n := by
  rcases Nat.eq_zero_or_pos k with rfl | hpos
  · exact hn
  · exact Nat.le_of_not_lt fun h => Nat.not_le_of_lt hk ((length_decimal_le_iff hpos).2 h)

theorem decimal_head_zero (h : decimal n = '0' :: ds) : n = 0 ∧ ds = [] := by
  have hds : ∀ c ∈ ds, c.isDigit := fun c hc =>
    isDigit_of_mem_decimal (h ▸ List.mem_cons_of_mem _ hc)
  have hlt : n < 10 ^ ds.length := by
    have hv := digitsValue_decimal n
    rw [h, digitsValue_cons] at hv
    have hb := digitsValue_lt hds
    simp only [Char.reduceToNat, Nat.sub_self, Nat.zero_mul, Nat.zero_add] at hv
    omega
  cases ds with
  | nil => exact ⟨by simpa using hlt, rfl⟩
  | cons d ds =>
    have hle := (length_decimal_le_iff (n := n) (Nat.succ_pos ds.length)).2 hlt
    rw [h, List.length_cons, List.length_cons] at hle
    omega

theorem digitChar_of_isDigit {c : Char} (h : c.isDigit) : Nat.digitChar (c.toNat - 48) = c := by
  have hc := isDigit_bounds h
  apply Char.toNat_inj.1
  rw [Nat.toNat_digitChar_of_lt_ten (by omega)]
  omega

theorem digitsValue_concat (ds : Text) (d : Char) :
    digitsValue (ds ++ [d]) = 10 * digitsValue ds + (d.toNat - 48) := by
  simp only [digitsValue_append, digitsValue_cons]
  simp [digitsValue]
  omega

theorem decimal_digitsValue (hne : ds ≠ []) (hds : ∀ c ∈ ds, c.isDigit)
    (hz : ∀ es, ds = '0' :: es → es = []) : decimal (digitsValue ds) = ds := by
  induction ds using List.reverseRecOn with
  | nil => exact absurd rfl hne
  | append_singleton ds d ih =>
    obtain ⟨hds, hd⟩ := List.forall_mem_append.1 hds
    have hd := hd d List.mem_cons_self
    have hlt : d.toNat - 48 < 10 := by
      have := isDigit_bounds hd
      omega
    have hlast : decimal (d.toNat - 48) = [d] := by
      rw [decimal, Nat.toDigits_of_lt_base hlt, digitChar_of_isDigit hd]
    rw [digitsValue_concat]
    cases ds with
    | nil => simpa [digitsValue] using hlast
    | cons c ds =>
      have hc : c ≠ '0' := by
        rintro rfl
        exact absurd (hz (ds ++ [d]) rfl) (List.append_ne_nil_of_right_ne_nil _ nofun)
      have hfront := ih nofun hds fun es hes => absurd (List.cons.inj hes).1 hc
      have hpos : 0 < digitsValue (c :: ds) := by
        refine Nat.pos_of_ne_zero fun h => hc ?_
        rw [h] at hfront
        exact (List.cons.inj hfront).1.symm
      rw [decimal, ← Nat.toDigits_append_toDigits (by decide) hpos hlt]
      exact congrArg₂ (· ++ ·) hfront hlast

theorem hexValue?_hexDigit : ∀ n < 16, hexValue? (hexDigit n) = some n := by
  decide

end RecordSheet
