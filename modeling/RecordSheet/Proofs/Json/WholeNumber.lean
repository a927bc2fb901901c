import RecordSheet.Proofs.Json.Grammar
import RecordSheet.Proofs.Json.NumberText

namespace RecordSheet

namespace Literal

variable {l : Literal} {u : Text} {z : Int}

theorem NumberText.wellFormed (h : l.NumberText u) : l.WellFormed := by
  cases h with
  | positive _ h =>
    obtain ⟨h, -⟩ := h
    exact h
  | negative _ h =>
    obtain ⟨h, -⟩ := h
    exact h

theorem NumberText.eq_text (h : l.NumberText u) (hexponent : l.exponent = none) : u = l.text := by
  have hunsigned : ∀ {v}, l.UnsignedText v → v = l.unsigned := by
    intro v hv
    obtain ⟨-, he⟩ := hv
    rw [hexponent] at he
    cases he
    rw [unsigned, hexponent, exponentText]
  cases h with
  | positive hsign h => rw [text, hsign, hunsigned h, if_neg Bool.false_ne_true]
  | negative hsign h => rw [text, hsign, hunsigned h, if_pos rfl]

theorem whole?_eq_some_iff : l.whole? = some z ↔ l.fraction = none ∧ l.exponent = none ∧
    z = if l.negative then -(digitsValue l.whole : Int) else digitsValue l.whole := by
  obtain ⟨negative, whole, fraction, exponent⟩ := l
  rw [whole?]
  cases fraction with
  | some ds => simp
  | none =>
    cases exponent with
    | some e => simp
    | none => simp [eq_comm]

def Fits (l : Literal) (z : Int) : Prop :=
  -0x8000000000000000 ≤ z ∧ z ≤ 0xFFFFFFFFFFFFFFFF ∧ ¬(l.negative ∧ z = 0)

theorem number?_of_fits (h : l.whole? = some z) (hfits : l.Fits z) :
    ∃ n : Integer64, n.value = z ∧ l.number? = some (.integer n) := by
  obtain ⟨hlow, hhigh, hzero⟩ := hfits
  refine ⟨⟨z, by omega⟩, rfl, ?_⟩
  rw [← value?_eq_number?, value?, fitting?, h, Option.bind_some, dif_pos ⟨by omega, hzero⟩]
  rfl

theorem number?_of_not_fits (h : l.whole? = some z) (hfits : ¬l.Fits z) :
    l.number? = l.rounded?.map .float := by
  rw [← value?_eq_number?, value?, fitting?, h, Option.bind_some, dif_neg]
  · rfl
  · rintro ⟨hbounds, hzero⟩
    exact hfits ⟨hbounds.1, by omega, hzero⟩

theorem text_of_whole (h : l.whole? = some z) :
    l.text = if l.negative then '-' :: l.whole else l.whole := by
  obtain ⟨hfraction, hexponent, -⟩ := whole?_eq_some_iff.1 h
  rw [text, unsigned, hfraction, hexponent, fractionText, exponentText, List.append_nil,
    List.append_nil]

/-- A whole number is printed as it is written, if it is not a negative zero. -/
theorem signedDecimal_of_whole (hl : l.WellFormed) (h : l.whole? = some z)
    (hzero : ¬(l.negative ∧ z = 0)) : signedDecimal z = l.text := by
  obtain ⟨-, -, hz⟩ := whole?_eq_some_iff.1 h
  have hdigits := decimal_digitsValue hl.whole.1 hl.whole.2 hl.noLeadingZero
  rw [text_of_whole h]
  cases hsign : l.negative with
  | true =>
    simp only [hsign, ↓reduceIte, true_and] at hz hzero ⊢
    rw [signedDecimal, if_pos (by omega), hz, Int.natAbs_neg, Int.natAbs_natCast, hdigits]
  | false =>
    simp only [hsign, Bool.false_eq_true, ↓reduceIte] at hz ⊢
    rw [signedDecimal, if_neg (by omega), hz, Int.natAbs_natCast, hdigits]

theorem notMem_text_of_whole (hl : l.WellFormed) (h : l.whole? = some z) :
    ¬('.' ∈ l.text ∨ 'e' ∈ l.text) := by
  have htext : ∀ c ∈ l.text, c.isDigit ∨ c = '-' := by
    intro c hc
    rw [text_of_whole h] at hc
    split at hc
    · exact (List.mem_cons.1 hc).symm.imp_left (hl.whole.2 c)
    · exact .inl (hl.whole.2 c hc)
  rintro (hc | hc)
  · exact absurd (htext _ hc) (by decide)
  · exact absurd (htext _ hc) (by decide)

theorem mem_text_of_unsigned {c : Char} (h : c ∈ l.unsigned) : c ∈ l.text := by
  rw [text]
  split
  · exact List.mem_cons_of_mem _ h
  · exact h

theorem mem_text_of_fraction_or_exponent (h : l.fraction.isSome || l.exponent.isSome) :
    '.' ∈ l.text ∨ 'e' ∈ l.text := by
  rcases Bool.or_eq_true_iff.1 h with h | h
  · obtain ⟨ds, hds⟩ := Option.isSome_iff_exists.1 h
    refine .inl (mem_text_of_unsigned ?_)
    rw [unsigned, hds, fractionText]
    simp
  · obtain ⟨⟨sign, ds⟩, hds⟩ := Option.isSome_iff_exists.1 h
    refine .inr (mem_text_of_unsigned ?_)
    rw [unsigned, hds, exponentText]
    simp

end Literal

theorem Binary64.mem_render (x : Binary64) : '.' ∈ x.render ∨ 'e' ∈ x.render := by
  have hfloat := Literal.mem_text_of_fraction_or_exponent
    (l := (Number.float x).literal) fraction_or_exponent_literal
  rwa [Number.text_literal] at hfloat

theorem Number.quote_notMem_render (n : Number) : '"' ∉ n.render := by
  intro h
  rw [← text_literal] at h
  exact absurd (Literal.mem_text n.wellFormed_literal h) (by decide)

end RecordSheet
