import RecordSheet.Proofs.Except
import RecordSheet.Proofs.Json.Rest
import RecordSheet.Proofs.Text.Digits

namespace RecordSheet

open Utf8 Json

namespace Literal

def fractionText : Option Text → Text
  | none => []
  | some ds => '.' :: ds

def exponentText : Option (Bool × Text) → Text
  | none => []
  | some (negative, ds) => 'e' :: (if negative then '-' else '+') :: ds

def unsigned (l : Literal) : Text :=
  l.whole ++ fractionText l.fraction ++ exponentText l.exponent

def text (l : Literal) : Text :=
  if l.negative then '-' :: l.unsigned else l.unsigned

def IsNumeral (ds : Text) : Prop :=
  ds ≠ [] ∧ ∀ c ∈ ds, c.isDigit

structure WellFormed (l : Literal) : Prop where
  whole : IsNumeral l.whole
  noLeadingZero : ∀ ds, l.whole = '0' :: ds → ds = []
  fraction : ∀ ds, l.fraction = some ds → IsNumeral ds
  exponent : ∀ e, l.exponent = some e → IsNumeral e.2

inductive ExponentText : Text → Option (Bool × Text) → Prop
  | none : ExponentText [] none
  | unsigned {e : Char} {ds : Text} : e = 'e' ∨ e = 'E' → ExponentText (e :: ds) (some (false, ds))
  | plus {e : Char} {ds : Text} :
      e = 'e' ∨ e = 'E' → ExponentText (e :: '+' :: ds) (some (false, ds))
  | minus {e : Char} {ds : Text} :
      e = 'e' ∨ e = 'E' → ExponentText (e :: '-' :: ds) (some (true, ds))

theorem exponentText_of_exponentText (exponent : Option (Bool × Text)) :
    ExponentText (exponentText exponent) exponent := by
  match exponent with
  | .none => exact .none
  | some (true, ds) => exact .minus (.inl rfl)
  | some (false, ds) => exact .plus (.inl rfl)

inductive UnsignedText : Text → Literal → Prop
  | mk {l : Literal} {exponent : Text} : l.WellFormed → ExponentText exponent l.exponent →
      UnsignedText (l.whole ++ fractionText l.fraction ++ exponent) l

inductive NumberText : Text → Literal → Prop
  | positive {t : Text} {l : Literal} : l.negative = false → UnsignedText t l → NumberText t l
  | negative {t : Text} {l : Literal} :
      l.negative = true → UnsignedText t l → NumberText ('-' :: t) l

theorem WellFormed.unsignedText {l : Literal} (h : l.WellFormed) : UnsignedText l.unsigned l :=
  .mk h (exponentText_of_exponentText l.exponent)

theorem UnsignedText.head {t : Text} {l : Literal} (h : l.UnsignedText t) :
    ∃ c u, t = c :: u ∧ c.isDigit := by
  cases h with
  | @mk _ exponent h _ =>
    obtain ⟨hne, hds⟩ := h.whole
    obtain ⟨c, u, hc⟩ := List.exists_cons_of_ne_nil hne
    refine ⟨c, u ++ fractionText l.fraction ++ exponent, ?_, hds c (hc ▸ List.mem_cons_self)⟩
    rw [hc, List.cons_append, List.cons_append]

theorem mem_text {l : Literal} (h : l.WellFormed) {c : Char} (hc : c ∈ l.text) :
    c.isDigit ∨ c ∈ ['-', '+', '.', 'e'] := by
  have hunsigned : ∀ c ∈ l.unsigned, c.isDigit ∨ c ∈ ['-', '+', '.', 'e'] := by
    intro c hc
    rw [unsigned, List.append_assoc, List.mem_append, List.mem_append] at hc
    rcases hc with hc | hc | hc
    · exact .inl (h.whole.2 c hc)
    · cases hf : l.fraction with
      | none =>
        rw [hf] at hc
        cases hc
      | some ds =>
        rw [hf] at hc
        rcases List.mem_cons.1 hc with rfl | hc
        · exact .inr (by decide)
        · exact .inl ((h.fraction ds hf).2 c hc)
    · cases he : l.exponent with
      | none =>
        rw [he] at hc
        cases hc
      | some e =>
        obtain ⟨negative, ds⟩ := e
        rw [he, exponentText, List.mem_cons, List.mem_cons] at hc
        rcases hc with rfl | rfl | hc
        · exact .inr (by decide)
        · refine .inr ?_
          split
          · decide
          · decide
        · exact .inl ((h.exponent _ he).2 c hc)
  rw [text] at hc
  split at hc
  · rcases List.mem_cons.1 hc with rfl | hc
    · exact .inr (by decide)
    · exact hunsigned c hc
  · exact hunsigned c hc

end Literal

namespace Json

variable {ds : Text} {s : Rest}

theorem splitDigits_append (h : ∀ c ∈ ds, c.isDigit)
    (hs : ∀ c, s.head? = some (.char c) → c.isDigit = false) :
    splitDigits (chars ds ++ s) = (ds, s) := by
  induction ds with
  | nil =>
    cases s with
    | nil => rfl
    | cons p s =>
      cases p with
      | char c => simp [splitDigits, hs c rfl]
      | broken bs => rfl
  | cons c ds ih =>
    have hc := h c List.mem_cons_self
    have hds := ih fun d hd => h d (List.mem_cons_of_mem _ hd)
    simp only [chars_cons, List.cons_append, splitDigits, hc, ↓reduceIte, hds]

theorem readWhole_append (h : Literal.IsNumeral ds) (hz : ∀ es, ds = '0' :: es → es = [])
    (hs : ∀ c, s.head? = some (.char c) → c.isDigit = false) :
    readWhole (chars ds ++ s) = .ok (ds, s) := by
  rw [readWhole, splitDigits_append h.2 hs]
  match ds, h, hz with
  | [], h, _ => exact absurd rfl h.1
  | c :: es, _, hz =>
    split
    · rename_i heq
      cases heq
    · rename_i heq
      cases heq
      cases hz _ rfl
    · rename_i heq
      cases heq
      rfl

theorem readFraction_append {fraction : Option Text}
    (h : ∀ ds, fraction = some ds → Literal.IsNumeral ds)
    (hs : ∀ c, s.head? = some (.char c) → c.isDigit = false ∧ c ≠ '.') :
    readFraction (chars (Literal.fractionText fraction) ++ s) = .ok (fraction, s) := by
  cases fraction with
  | none =>
    change readFraction s = _
    unfold readFraction
    split
    · exact absurd rfl (hs _ rfl).2
    · rfl
  | some ds =>
    have hds := h ds rfl
    have hsplit := splitDigits_append hds.2 fun c hc => (hs c hc).1
    cases ds with
    | nil => exact absurd rfl hds.1
    | cons d ds =>
      simp only [Literal.fractionText, chars_cons, List.cons_append] at hsplit ⊢
      simp only [readFraction, hsplit]

theorem readSign_digits (h : Literal.IsNumeral ds) :
    readSign (chars ds ++ s) = (false, chars ds ++ s) := by
  cases ds with
  | nil => exact absurd rfl h.1
  | cons d ds =>
    have hd := h.2 d List.mem_cons_self
    have hplus : d ≠ '+' := ne_of_isDigit hd rfl
    have hminus : d ≠ '-' := ne_of_isDigit hd rfl
    rw [chars_cons, List.cons_append]
    unfold readSign
    split
    · rename_i heq
      cases heq
      exact absurd rfl hplus
    · rename_i heq
      cases heq
      exact absurd rfl hminus
    · rfl

theorem readExponent_of_readSign {c : Char} {r : Rest} {negative : Bool} (hc : c = 'e' ∨ c = 'E')
    (hsign : readSign r = (negative, chars ds ++ s)) (hds : Literal.IsNumeral ds)
    (hs : ∀ c, s.head? = some (.char c) → c.isDigit = false) :
    readExponent (.char c :: r) = .ok (some (negative, ds), s) := by
  simp only [readExponent, if_pos hc, hsign, splitDigits_append hds.2 hs]
  cases ds with
  | nil => exact absurd rfl hds.1
  | cons d ds => rfl

theorem readExponent_append {t : Text} {exponent : Option (Bool × Text)}
    (ht : Literal.ExponentText t exponent) (h : ∀ e, exponent = some e → Literal.IsNumeral e.2)
    (hs : Delimits s) : readExponent (chars t ++ s) = .ok (exponent, s) := by
  have hdigits := fun c hc => (hs c hc).1
  cases ht with
  | none =>
    rw [chars_nil, List.nil_append]
    unfold readExponent
    split
    · have hc := hs _ rfl
      rw [if_neg (by simp [hc.2.2.1, hc.2.2.2])]
    · rfl
  | unsigned he =>
    have hds := h _ rfl
    exact readExponent_of_readSign he (readSign_digits hds) hds hdigits
  | plus he => exact readExponent_of_readSign he rfl (h _ rfl) hdigits
  | minus he => exact readExponent_of_readSign he rfl (h _ rfl) hdigits

/-- The text of a literal is read as the literal, whatever follows that no number goes on with. -/
theorem readLiteral_append {t : Text} {l : Literal} (h : l.UnsignedText t) (hs : Delimits s) :
    readLiteral l.negative (chars t ++ s) = .ok (l, s) := by
  obtain ⟨h, he⟩ := h
  rename_i exponent
  have hexponent : ∀ c, (chars exponent ++ s).head? = some (.char c) →
      c.isDigit = false ∧ c ≠ '.' := by
    intro c hc
    have hletter : ∀ e : Char, e = 'e' ∨ e = 'E' → e.isDigit = false ∧ e ≠ '.' := by
      rintro e (rfl | rfl)
      · decide
      · decide
    generalize l.exponent = e at he
    cases he with
    | none => exact ⟨(hs c hc).1, (hs c hc).2.1⟩
    | unsigned he =>
      cases hc
      exact hletter _ he
    | plus he =>
      cases hc
      exact hletter _ he
    | minus he =>
      cases hc
      exact hletter _ he
  have hfraction : ∀ c, (chars (Literal.fractionText l.fraction) ++
      (chars exponent ++ s)).head? = some (.char c) → c.isDigit = false := by
    intro c hc
    cases hf : l.fraction with
    | none =>
      rw [hf] at hc
      exact (hexponent c hc).1
    | some ds =>
      rw [hf] at hc
      cases hc
      decide
  simp only [readLiteral, chars_append, List.append_assoc,
    readWhole_append h.whole h.noLeadingZero hfraction, bind, Except.bind,
    readFraction_append h.fraction hexponent, readExponent_append he h.exponent hs]

theorem readLiteral_unsigned {l : Literal} (h : l.WellFormed) (hs : Delimits s) :
    readLiteral l.negative (chars l.unsigned ++ s) = .ok (l, s) :=
  readLiteral_append h.unsignedText hs

variable {r : Rest}

theorem splitDigits_eq (h : splitDigits s = (ds, r)) :
    s = chars ds ++ r ∧ ∀ c ∈ ds, c.isDigit := by
  induction s generalizing ds with
  | nil =>
    cases h
    exact ⟨rfl, fun c hc => absurd hc List.not_mem_nil⟩
  | cons p s ih =>
    cases p with
    | broken bytes =>
      cases h
      exact ⟨rfl, fun c hc => absurd hc List.not_mem_nil⟩
    | char c =>
      rw [splitDigits] at h
      split at h
      · rename_i hc
        have hsplit : splitDigits s = ((splitDigits s).1, r) := by
          cases h
          rfl
        obtain ⟨hs, hds⟩ := ih hsplit
        cases h
        exact ⟨congrArg (Piece.char c :: ·) hs, List.forall_mem_cons.2 ⟨hc, hds⟩⟩
      · cases h
        exact ⟨rfl, fun c hc => absurd hc List.not_mem_nil⟩

theorem isNumeral_of_splitDigits {c : Char} (h : splitDigits s = (c :: ds, r)) :
    s = chars (c :: ds) ++ r ∧ Literal.IsNumeral (c :: ds) :=
  ⟨(splitDigits_eq h).1, List.cons_ne_nil c ds, (splitDigits_eq h).2⟩

theorem takes_readWhole : Takes readWhole fun t ds =>
    t = ds ∧ Literal.IsNumeral ds ∧ ∀ es, ds = '0' :: es → es = [] := by
  intro s ds r h
  rw [readWhole] at h
  split at h
  · cases h
  · cases h
  · rename_i ds' r' hnil hzero hsplit
    cases h
    cases ds with
    | nil => exact absurd rfl hnil
    | cons c ds =>
      obtain ⟨hs, hds⟩ := isNumeral_of_splitDigits hsplit
      refine ⟨_, hs, rfl, hds, ?_⟩
      intro es hes
      cases hes
      cases ds with
      | nil => rfl
      | cons d ds => exact absurd rfl (hzero d ds)

theorem takes_readFraction : Takes readFraction fun t fraction =>
    t = Literal.fractionText fraction ∧ ∀ ds, fraction = some ds → Literal.IsNumeral ds := by
  intro s fraction r h
  unfold readFraction at h
  split at h
  · split at h
    · cases h
    · rename_i s ds r' hnil hsplit
      cases h
      cases ds with
      | nil => exact absurd rfl hnil
      | cons c ds =>
        obtain ⟨rfl, hds⟩ := isNumeral_of_splitDigits hsplit
        refine ⟨_, rfl, rfl, ?_⟩
        intro es hes
        cases hes
        exact hds
  · cases h
    exact ⟨[], rfl, rfl, fun ds hds => by cases hds⟩

theorem readSign_eq {negative : Bool} (h : readSign s = (negative, r)) :
    s = r ∧ negative = false ∨ s = .char '+' :: r ∧ negative = false ∨
      s = .char '-' :: r ∧ negative = true := by
  unfold readSign at h
  split at h
  · cases h
    exact .inr (.inl ⟨rfl, rfl⟩)
  · cases h
    exact .inr (.inr ⟨rfl, rfl⟩)
  · cases h
    exact .inl ⟨rfl, rfl⟩

theorem takes_readExponent : Takes readExponent fun t exponent =>
    Literal.ExponentText t exponent ∧ ∀ e, exponent = some e → Literal.IsNumeral e.2 := by
  have hnone : ∀ e : Bool × Text, none = some e → Literal.IsNumeral e.2 := by
    intro e he
    cases he
  intro s exponent r h
  unfold readExponent at h
  split at h
  · rename_i c s
    split at h
    · rename_i hc
      generalize hsign : readSign s = p at h
      obtain ⟨negative, s⟩ := p
      dsimp only at h
      split at h
      · cases h
      · rename_i ds r' hnil hsplit
        cases h
        cases ds with
        | nil => exact absurd rfl hnil
        | cons d ds =>
          obtain ⟨rfl, hds⟩ := isNumeral_of_splitDigits hsplit
          have hsome : ∀ e, some (negative, d :: ds) = some e → Literal.IsNumeral e.2 := by
            intro e he
            cases he
            exact hds
          rcases readSign_eq hsign with ⟨rfl, rfl⟩ | ⟨rfl, rfl⟩ | ⟨rfl, rfl⟩
          · exact ⟨_, rfl, .unsigned hc, hsome⟩
          · exact ⟨_, rfl, .plus hc, hsome⟩
          · exact ⟨_, rfl, .minus hc, hsome⟩
    · cases h
      exact ⟨[], rfl, .none, hnone⟩
  · cases h
    exact ⟨[], rfl, .none, hnone⟩

theorem takes_readLiteral (negative : Bool) :
    Takes (readLiteral negative) fun t l => l.negative = negative ∧ l.UnsignedText t := by
  intro s l r h
  obtain ⟨⟨whole, s₁⟩, hwhole, h⟩ := exists_of_bind_eq_ok h
  obtain ⟨⟨fraction, s₂⟩, hfraction, h⟩ := exists_of_bind_eq_ok h
  obtain ⟨⟨exponent, s₃⟩, hexponent, h⟩ := exists_of_bind_eq_ok h
  cases h
  obtain ⟨t, rfl, rfl, hdigits, hzero⟩ := takes_readWhole _ _ _ hwhole
  obtain ⟨t, rfl, rfl, hplaces⟩ := takes_readFraction _ _ _ hfraction
  obtain ⟨t, rfl, ht, hpower⟩ := takes_readExponent _ _ _ hexponent
  refine ⟨_, ?_, rfl, .mk ⟨hdigits, hzero, hplaces, hpower⟩ ht⟩
  rw [chars_append, chars_append, List.append_assoc, List.append_assoc]

theorem readNumber_append (lookahead : Nat) {t : Text} {l : Literal} {n : Number}
    (h : l.UnsignedText t) (hn : l.number? = some n) (hs : Delimits s) :
    readNumber lookahead l.negative (chars t ++ s) = .ok (.number n, s) := by
  simp only [readNumber, readLiteral_append h hs, bind, Except.bind, hn]

theorem takes_readNumber (lookahead : Nat) (negative : Bool) :
    Takes (readNumber lookahead negative) fun t j => ∃ (l : Literal) (n : Number),
      l.negative = negative ∧ l.UnsignedText t ∧ l.number? = some n ∧ j = .number n := by
  intro s j r h
  obtain ⟨⟨l, s₁⟩, hliteral, h⟩ := exists_of_bind_eq_ok h
  dsimp only at h
  cases hn : l.number? with
  | some n =>
    rw [hn] at h
    cases h
    obtain ⟨t, hs, hsign, ht⟩ := takes_readLiteral negative _ _ _ hliteral
    exact ⟨t, hs, l, n, hsign, ht, hn, rfl⟩
  | none =>
    rw [hn] at h
    split at h
    · rename_i heq
      cases heq
    · cases h
    · cases h

end Json

end RecordSheet
