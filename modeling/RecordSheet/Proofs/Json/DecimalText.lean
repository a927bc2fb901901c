import RecordSheet.Json.Printer
import RecordSheet.Proofs.Binary64.Shortest
import RecordSheet.Proofs.Json.Numeral

namespace RecordSheet

namespace Literal

variable {l l' : Literal} {word : Nat} {ds : Text}

theorem gather_eq (h : word * 10 ^ ds.length + digitsValue ds < 2 ^ 64) :
    gather word ds = (word * 10 ^ ds.length + digitsValue ds, 0) := by
  induction ds generalizing word with
  | nil => simp [gather, digitsValue]
  | cons d ds ih =>
    have hstep : word * 10 ^ (d :: ds).length + digitsValue (d :: ds) =
        (word * 10 + digitValue d) * 10 ^ ds.length + digitsValue ds := by
      rw [digitsValue_cons, List.length_cons, digitValue]
      ring
    have hle : word * 10 + digitValue d ≤ (word * 10 + digitValue d) * 10 ^ ds.length :=
      Nat.le_mul_of_pos_right _ (Nat.pow_pos (by decide))
    rw [hstep] at h ⊢
    rw [gather, if_pos (by omega), ih h]

theorem scaled_eq (h : digitsValue (l.whole ++ l.fractionDigits) < 2 ^ 64) :
    l.scaled = (digitsValue (l.whole ++ l.fractionDigits),
      l.exponentValue - l.fractionDigits.length) := by
  rw [digitsValue_append] at h ⊢
  have hle : digitsValue l.whole ≤ digitsValue l.whole * 10 ^ l.fractionDigits.length :=
    Nat.le_mul_of_pos_right _ (Nat.pow_pos (by decide))
  have hwhole : gather 0 l.whole = (digitsValue l.whole, 0) := by
    rw [gather_eq (by omega), Nat.zero_mul, Nat.zero_add]
  rw [scaled, hwhole]
  dsimp only
  rw [gather_eq h]
  simp only [Prod.mk.injEq, true_and]
  omega

theorem head_unsigned (h : l.WellFormed) : ∃ c t, l.unsigned = c :: t ∧ c.isDigit :=
  h.unsignedText.head

theorem text_inj (h : l.WellFormed) (h' : l'.WellFormed) (he : l.text = l'.text) : l = l' := by
  obtain ⟨c, t, hc, hd⟩ := head_unsigned h
  obtain ⟨c', t', hc', hd'⟩ := head_unsigned h'
  have hsign : l.negative = l'.negative ∧ l.unsigned = l'.unsigned := by
    rw [text, text, hc, hc'] at he
    split at he
    · split at he
      · rename_i hn hn'
        exact ⟨hn.trans hn'.symm, by rw [hc, hc', List.cons.inj he |>.2]⟩
      · cases he
        exact absurd hd' (by decide)
    · split at he
      · cases he
        exact absurd hd (by decide)
      · rename_i hn hn'
        exact ⟨(Bool.eq_false_of_not_eq_true hn).trans (Bool.eq_false_of_not_eq_true hn').symm,
          by rw [hc, hc', he]⟩
  have hread := Json.readLiteral_unsigned h Json.delimits_nil
  rw [hsign.1, hsign.2, Json.readLiteral_unsigned h' Json.delimits_nil] at hread
  cases hread
  rfl

end Literal

namespace Decimal

variable {d : Decimal} {negative : Bool}

def positionalLiteral (negative : Bool) (d : Decimal) : Literal :=
  let ds := decimal d.digits
  match d.exponent with
  | .ofNat k => ⟨negative, ds ++ List.replicate k '0', some ['0'], none⟩
  | .negSucc k =>
    let padded := List.replicate (k + 2 - ds.length) '0' ++ ds
    ⟨negative, padded.take (padded.length - (k + 1)),
      some (padded.drop (padded.length - (k + 1))), none⟩

def scientificLiteral (negative : Bool) (d : Decimal) : Literal :=
  let fraction := (decimal d.digits).drop 1
  ⟨negative, (decimal d.digits).take 1, if fraction.isEmpty then none else some fraction,
    some (d.leading < 0, decimal d.leading.natAbs)⟩

def filled (d : Decimal) : Decimal :=
  if 0 ≤ d.exponent then ⟨d.digits * 10 ^ (d.exponent.toNat + 1), -1⟩ else d

theorem unsigned_positionalLiteral :
    (d.positionalLiteral negative).unsigned = d.positional := by
  obtain ⟨digits, exponent⟩ := d
  cases exponent with
  | ofNat k =>
    simp [positionalLiteral, positional, Literal.unsigned, Literal.fractionText,
      Literal.exponentText]
  | negSucc k =>
    simp [positionalLiteral, positional, Literal.unsigned, Literal.fractionText,
      Literal.exponentText]

theorem unsigned_scientificLiteral :
    (d.scientificLiteral negative).unsigned = d.scientific := by
  obtain ⟨c, ds, hds⟩ := List.exists_cons_of_ne_nil (decimal_ne_nil d.digits)
  cases ds with
  | nil =>
    simp [scientificLiteral, scientific, Literal.unsigned, Literal.fractionText,
      Literal.exponentText, hds]
  | cons e es =>
    simp [scientificLiteral, scientific, Literal.unsigned, Literal.fractionText,
      Literal.exponentText, hds]

theorem isNumeral_decimal (n : Nat) : Literal.IsNumeral (decimal n) :=
  ⟨decimal_ne_nil n, fun _ => isDigit_of_mem_decimal⟩

theorem eq_nil_of_take_decimal {n k : Nat} {ds : Text} (h : (decimal n).take k = '0' :: ds) :
    ds = [] := by
  have hn : decimal n = '0' :: (ds ++ (decimal n).drop k) := by
    rw [← List.cons_append, ← h, List.take_append_drop]
  exact (List.append_eq_nil_iff.1 (decimal_head_zero hn).2).1

theorem wellFormed_positionalLiteral (h : d.digits = 0 → d.exponent = 0) :
    (d.positionalLiteral negative).WellFormed := by
  obtain ⟨digits, exponent⟩ := d
  have hdigit : ∀ k, ∀ c ∈ List.replicate k '0' ++ decimal digits, c.isDigit := by
    intro k c hc
    rcases List.mem_append.1 hc with hc | hc
    · rw [List.eq_of_mem_replicate hc]
      rfl
    · exact isDigit_of_mem_decimal hc
  cases exponent with
  | ofNat k =>
    refine ⟨⟨?_, ?_⟩, ?_, ?_, ?_⟩
    · exact List.append_ne_nil_of_left_ne_nil (decimal_ne_nil digits) _
    · intro c hc
      exact hdigit k c (List.mem_append.2 (List.mem_append.1 hc).symm)
    · intro ds hds
      obtain ⟨c, es, hes⟩ := List.exists_cons_of_ne_nil (decimal_ne_nil digits)
      simp only [positionalLiteral, hes, List.cons_append, List.cons.injEq] at hds
      obtain ⟨rfl, rfl⟩ := hds
      obtain ⟨hzero, rfl⟩ := decimal_head_zero hes
      have hk : k = 0 := by
        have hexponent := h hzero
        simpa using hexponent
      rw [hk, List.replicate_zero, List.append_nil]
    · intro ds hds
      cases hds
      exact ⟨List.cons_ne_nil _ _, List.forall_mem_singleton.2 rfl⟩
    · intro e he
      cases he
  | negSucc k =>
    have hpos := length_decimal_pos digits
    refine ⟨⟨?_, ?_⟩, ?_, ?_, ?_⟩
    · simp only [positionalLiteral, ne_eq, List.take_eq_nil_iff, List.length_append,
        List.length_replicate, List.append_eq_nil_iff, decimal_ne_nil, and_false, or_false]
      omega
    · intro c hc
      exact hdigit _ c (List.mem_of_mem_take hc)
    · intro ds hds
      simp only [positionalLiteral] at hds
      rcases Nat.lt_or_ge (decimal digits).length (k + 2) with hlt | hge
      · have hlen := congrArg List.length hds
        simp only [List.length_take, List.length_append, List.length_replicate,
          List.length_cons] at hlen
        exact List.eq_nil_of_length_eq_zero (by omega)
      · rw [Nat.sub_eq_zero_of_le hge, List.replicate_zero, List.nil_append] at hds
        exact eq_nil_of_take_decimal hds
    · intro ds hds
      cases hds
      refine ⟨?_, fun c hc => hdigit _ c (List.mem_of_mem_drop hc)⟩
      simp only [ne_eq, List.drop_eq_nil_iff, List.length_append, List.length_replicate]
      omega
    · intro e he
      cases he

theorem wellFormed_scientificLiteral : (d.scientificLiteral negative).WellFormed := by
  obtain ⟨c, ds, hds⟩ := List.exists_cons_of_ne_nil (decimal_ne_nil d.digits)
  have hdigit : ∀ e ∈ c :: ds, e.isDigit := fun e he => isDigit_of_mem_decimal (hds ▸ he)
  refine ⟨⟨?_, ?_⟩, ?_, ?_, ?_⟩
  · simp [scientificLiteral, hds]
  · intro e he
    simp only [scientificLiteral, hds, List.take_succ_cons, List.take_zero] at he
    exact hdigit e (List.mem_cons.2 (.inl (List.mem_singleton.1 he)))
  · intro es hes
    simp only [scientificLiteral, hds, List.take_succ_cons, List.take_zero, List.cons.injEq] at hes
    exact hes.2.symm
  · intro es hes
    simp only [scientificLiteral, hds, List.drop_succ_cons, List.drop_zero] at hes
    split at hes
    · cases hes
    · rename_i hne
      cases hes
      exact ⟨fun hnil => hne (List.isEmpty_iff.2 hnil),
        fun e he => hdigit e (List.mem_cons_of_mem _ he)⟩
  · intro e he
    cases he
    exact isNumeral_decimal _

theorem scaled_positionalLiteral (h : d.filled.digits < 2 ^ 64) :
    (d.positionalLiteral negative).scaled = (d.filled.digits, d.filled.exponent) := by
  obtain ⟨digits, exponent⟩ := d
  cases exponent with
  | ofNat k =>
    have hvalue : digitsValue (decimal digits ++ List.replicate k '0' ++ ['0']) =
        digits * 10 ^ (k + 1) := by
      rw [List.append_assoc, ← List.replicate_succ', digitsValue_append, digitsValue_decimal,
        digitsValue_zeros, List.length_replicate, Nat.add_zero]
    rw [Literal.scaled_eq]
    · exact Prod.ext hvalue rfl
    · exact hvalue.trans_lt h
  | negSucc k =>
    have hvalue :
        digitsValue (((Decimal.mk digits (.negSucc k)).positionalLiteral negative).whole ++
          ((Decimal.mk digits (.negSucc k)).positionalLiteral negative).fractionDigits) =
        digits := by
      simp [positionalLiteral, Literal.fractionDigits, digitsValue_append, digitsValue_decimal]
    have hlen : ((Decimal.mk digits (.negSucc k)).positionalLiteral
        negative).fractionDigits.length = k + 1 := by
      simp only [positionalLiteral, Literal.fractionDigits, Option.getD_some, List.length_drop,
        List.length_append, List.length_replicate]
      omega
    rw [Literal.scaled_eq, hvalue, hlen]
    · exact Prod.ext rfl (by simp [positionalLiteral, Literal.exponentValue, filled]; omega)
    · exact hvalue.trans_lt h

theorem scaled_scientificLiteral (h : d.digits < 2 ^ 64) :
    (d.scientificLiteral negative).scaled = (d.digits, d.exponent) := by
  have hfraction : (d.scientificLiteral negative).fractionDigits = (decimal d.digits).drop 1 := by
    simp only [scientificLiteral, Literal.fractionDigits]
    split
    · rename_i hf
      rw [List.isEmpty_iff.1 hf, Option.getD_none]
    · rw [Option.getD_some]
  have hvalue : digitsValue ((d.scientificLiteral negative).whole ++
      (d.scientificLiteral negative).fractionDigits) = d.digits := by
    rw [hfraction, scientificLiteral, List.take_append_drop, digitsValue_decimal]
  have hexponent : (d.scientificLiteral negative).exponentValue = d.leading := by
    by_cases hneg : d.leading < 0
    · simp only [scientificLiteral, Literal.exponentValue, hneg, decide_true, digitsValue_decimal]
      omega
    · simp only [scientificLiteral, Literal.exponentValue, hneg, decide_false, digitsValue_decimal]
      omega
  rw [Literal.scaled_eq, hvalue, hfraction, hexponent, List.length_drop]
  · have hpos := length_decimal_pos d.digits
    exact Prod.ext rfl (by simp only [leading]; omega)
  · exact hvalue.trans_lt h

end Decimal

end RecordSheet
