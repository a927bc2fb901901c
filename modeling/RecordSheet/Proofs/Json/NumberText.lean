import RecordSheet.Proofs.Binary64.Rounding
import RecordSheet.Proofs.Json.DecimalText

namespace RecordSheet

namespace Binary64

variable {m n : Nat} {negative : Bool}

def isPositional (m : Nat) : Bool :=
  m = 0 || (-5 ≤ (shortest m).leading && (shortest m).leading ≤ 15)

def literal (negative : Bool) (m : Nat) : Literal :=
  if isPositional m then (shortest m).positionalLiteral negative
  else (shortest m).scientificLiteral negative

def printed (m : Nat) : Decimal :=
  if isPositional m then (shortest m).filled else shortest m

/-- Whether reading, which rounds twice, gives the magnitude that has been printed. -/
def Stable (x : Binary64) : Prop :=
  Literal.magnitude (printed x.magnitude).digits (printed x.magnitude).exponent = x.magnitude
  deriving Decidable

theorem negative_literal : (literal negative m).negative = negative := by
  unfold literal Decimal.positionalLiteral Decimal.scientificLiteral
  split
  · split
    · rfl
    · rfl
  · rfl

theorem unsigned_literal : (literal negative m).unsigned = renderMagnitude m := by
  unfold literal renderMagnitude isPositional
  dsimp only
  split
  · exact Decimal.unsigned_positionalLiteral
  · exact Decimal.unsigned_scientificLiteral

theorem shortest_zero : shortest 0 = ⟨0, 0⟩ :=
  rfl

theorem wellFormed_literal : (literal negative m).WellFormed := by
  unfold literal
  split
  · apply Decimal.wellFormed_positionalLiteral
    intro hzero
    rcases Nat.eq_zero_or_pos m with rfl | hm
    · rfl
    · exact absurd hzero (Nat.ne_of_gt (shortest_digits_pos hm))
  · exact Decimal.wellFormed_scientificLiteral

theorem printed_digits_lt (m : Nat) : (printed m).digits < 2 ^ 64 := by
  have hle := shortest_digits_le m
  have hshort : (shortest m).digits < 2 ^ 64 := by omega
  unfold printed Decimal.filled
  split
  · rename_i hpos
    split
    · rename_i hexp
      have hlead : (decimal (shortest m).digits).length + (shortest m).exponent.toNat ≤ 16 := by
        simp only [isPositional, Bool.or_eq_true, Bool.and_eq_true, decide_eq_true_eq] at hpos
        rcases hpos with rfl | ⟨-, hlead⟩
        · decide
        · rw [Decimal.leading] at hlead
          omega
      have hlt := Nat.mul_lt_mul_of_pos_right (lt_ten_pow_length (shortest m).digits)
        (Nat.pow_pos (n := (shortest m).exponent.toNat + 1) (show 0 < 10 by decide))
      rw [← Nat.pow_add] at hlt
      calc (shortest m).digits * 10 ^ ((shortest m).exponent.toNat + 1)
          < 10 ^ ((decimal (shortest m).digits).length + ((shortest m).exponent.toNat + 1)) := hlt
        _ ≤ 10 ^ 17 := Nat.pow_le_pow_right (by decide) (by omega)
        _ < 2 ^ 64 := by decide
    · exact hshort
  · exact hshort

theorem scaled_literal :
    (literal negative m).scaled = ((printed m).digits, (printed m).exponent) := by
  have hlt := printed_digits_lt m
  unfold literal
  unfold printed at hlt ⊢
  split
  · rename_i hpos
    rw [if_pos hpos] at hlt
    exact Decimal.scaled_positionalLiteral hlt
  · rename_i hpos
    rw [if_neg hpos] at hlt
    exact Decimal.scaled_scientificLiteral hlt

theorem printed_readsBack (m : Nat) : Binary64.readsBack m
    ((printed m).digits * placeNum (printed m).exponent) (placeDen (printed m).exponent) := by
  rcases Nat.eq_zero_or_pos m with rfl | hm
  · have hzero : units 0 = 0 := rfl
    rw [readsBack_iff]
    simp [printed, isPositional, Decimal.filled, shortest_zero, hzero]
  have hreads := shortest_readsBack hm
  unfold printed Decimal.filled
  split
  · split
    · rename_i hexp
      refine readsBack_of_ratio ?_ (placeDen_pos _) (placeDen_pos _) hreads
      have hshift := place_shift (-1) ((shortest m).exponent.toNat + 1)
      have hplace : (-1 : Int) + ((shortest m).exponent.toNat + 1 : Nat) =
          (shortest m).exponent := by
        omega
      rw [hplace] at hshift
      dsimp only
      rw [Nat.mul_assoc, hshift]
      ring
    · exact hreads
  · exact hreads

theorem printed_injective : Function.Injective printed := by
  intro m n h
  have hm := printed_readsBack m
  rw [h] at hm
  exact readsBack_unique (placeDen_pos _) hm (printed_readsBack n)

theorem ofRatio_printed (m : Nat) :
    ofRatio ((printed m).digits * 10 ^ (printed m).exponent.toNat)
      (10 ^ (-(printed m).exponent).toNat) = m := by
  have hreads := printed_readsBack m
  rw [placeNum_eq, ← Nat.mul_assoc] at hreads
  exact (ofRatio_eq_iff (placeDen_pos _)).2 hreads

/-- A floating number is stable if its digits and its power of ten are both exact. -/
theorem stable_of_exact {x : Binary64} (hdigits : (printed x.magnitude).digits ≤ 2 ^ 53)
    (hlow : -22 ≤ (printed x.magnitude).exponent) (hhigh : (printed x.magnitude).exponent ≤ 22) :
    x.Stable := by
  rw [Stable, Literal.magnitude_eq_ofRatio hdigits hlow hhigh]
  exact ofRatio_printed x.magnitude

theorem fraction_or_exponent_literal :
    ((literal negative m).fraction.isSome || (literal negative m).exponent.isSome) = true := by
  unfold literal Decimal.positionalLiteral Decimal.scientificLiteral
  split
  · split
    · rfl
    · rfl
  · exact Bool.or_true _

end Binary64

namespace Number

def literal : Number → Literal
  | .integer n => ⟨n.value < 0, decimal n.value.natAbs, none, none⟩
  | .float x => Binary64.literal x.negative x.magnitude

theorem text_literal (n : Number) : n.literal.text = n.render := by
  cases n with
  | integer n =>
    by_cases h : n.value < 0
    · simp [literal, Literal.text, Literal.unsigned, Literal.fractionText, Literal.exponentText,
        render, signedDecimal, h]
    · simp [literal, Literal.text, Literal.unsigned, Literal.fractionText, Literal.exponentText,
        render, signedDecimal, h]
  | float x =>
    rw [literal, Literal.text, Binary64.negative_literal, Binary64.unsigned_literal, render,
      Binary64.render]

theorem wellFormed_literal (n : Number) : n.literal.WellFormed := by
  cases n with
  | integer n =>
    refine ⟨Decimal.isNumeral_decimal _, fun ds hds => (decimal_head_zero hds).2, ?_, ?_⟩
    · intro ds hds
      cases hds
    · intro e he
      cases he
  | float x => exact Binary64.wellFormed_literal

theorem number?_integer (n : Integer64) : (literal (.integer n)).number? = some (.integer n) := by
  obtain ⟨value, hlow, hhigh⟩ := n
  have hinteger : (literal (.integer ⟨value, hlow, hhigh⟩)).integer? =
      some ⟨value, hlow, hhigh⟩ := by
    simp only [Literal.integer?, literal, digitsValue_decimal, Option.isSome_none, Bool.or_self,
      Bool.false_eq_true, ↓reduceIte, decide_eq_true_eq]
    split
    · rw [dif_pos (by omega)]
      simp only [Option.some.injEq, Integer64.mk.injEq]
      omega
    · rw [dif_pos (by omega)]
      simp only [Option.some.injEq, Integer64.mk.injEq]
      omega
  rw [Literal.number?, hinteger]

/-- A floating number is read again as the printed decimal, rounded twice. -/
theorem number?_float (x : Binary64) : (literal (.float x)).number? =
    (Binary64.ofMagnitude? x.negative (Literal.magnitude (Binary64.printed x.magnitude).digits
      (Binary64.printed x.magnitude).exponent)).map .float := by
  have hinteger : (literal (.float x)).integer? = none := by
    rw [literal, Literal.integer?, if_pos Binary64.fraction_or_exponent_literal]
  rw [Literal.number?, hinteger, literal, Binary64.scaled_literal, Binary64.negative_literal]

theorem number?_float_eq_some_iff (x : Binary64) :
    (literal (.float x)).number? = some (.float x) ↔ x.Stable := by
  obtain ⟨negative, magnitude, hfinite⟩ := x
  rw [number?_float, Binary64.Stable, Binary64.ofMagnitude?]
  dsimp only
  split
  · simp
  · rename_i hinfinite
    constructor
    · intro h
      cases h
    · intro h
      rw [h] at hinfinite
      exact absurd hfinite hinfinite

theorem literal_injective : Function.Injective literal := by
  intro a b h
  cases a with
  | integer m =>
    cases b with
    | integer n =>
      have hm := number?_integer m
      rw [h, number?_integer] at hm
      exact (Option.some.inj hm).symm
    | float y =>
      have hfloat := @Binary64.fraction_or_exponent_literal y.magnitude y.negative
      change (literal (.float y)).fraction.isSome || (literal (.float y)).exponent.isSome at hfloat
      rw [← h] at hfloat
      cases hfloat
  | float x =>
    cases b with
    | integer n =>
      have hfloat := @Binary64.fraction_or_exponent_literal x.magnitude x.negative
      change (literal (.float x)).fraction.isSome || (literal (.float x)).exponent.isSome at hfloat
      rw [h] at hfloat
      cases hfloat
    | float y =>
      obtain ⟨negative, m, hm⟩ := x
      obtain ⟨negative', n, hn⟩ := y
      have hnegative := congrArg Literal.negative h
      have hscaled := congrArg Literal.scaled h
      simp only [literal, Binary64.negative_literal, Binary64.scaled_literal] at hnegative hscaled
      obtain ⟨hdigits, hexponent⟩ := Prod.mk.inj hscaled
      have hprinted : Binary64.printed m = Binary64.printed n :=
        calc Binary64.printed m
            = ⟨(Binary64.printed m).digits, (Binary64.printed m).exponent⟩ := rfl
          _ = ⟨(Binary64.printed n).digits, (Binary64.printed n).exponent⟩ := by
            rw [hdigits, hexponent]
      cases Binary64.printed_injective hprinted
      cases hnegative
      rfl

theorem render_injective : Function.Injective render := by
  intro a b h
  rw [← text_literal, ← text_literal] at h
  exact literal_injective (Literal.text_inj (wellFormed_literal a) (wellFormed_literal b) h)

end Number

end RecordSheet
