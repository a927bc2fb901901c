import RecordSheet.Proofs.Except
import RecordSheet.Toml.Quoted
import RecordSheet.Toml.Writer

namespace RecordSheet.Toml

open Writer

variable {c d : Char} {s t w : Text} {stop fuel run : Nat}

theorem isPlain_eq_true_iff : isPlain c = true ↔ c = '\t' ∨ 0x20 ≤ c.toNat ∧ c.toNat ≠ 0x7F := by
  simp [isPlain]

theorem isPlain_eq_not_isControl (c : Char) : isPlain c = !isControl c := by
  rw [Bool.eq_iff_iff, isPlain_eq_true_iff]
  by_cases htab : c = '\t'
  · subst htab
    decide
  · simp only [isControl, Bool.not_eq_true', Bool.or_eq_false_iff, beq_eq_false_iff_ne,
      Bool.and_eq_false_iff, decide_eq_false_iff_not, bne_eq_false_iff_eq, htab, false_or, or_false]
    omega

theorem hexValue?_upperHexDigit : ∀ n < 16, hexValue? (upperHexDigit n) = some n := by
  decide

/-- A part of a string that its token takes in as a whole, whatever follows. -/
def TakenBy (split : Text → Text × Text) (w : Text) : Prop :=
  ∀ s, split (w ++ s) = (w ++ (split s).1, (split s).2)

/-- A character that neither ends a string nor begins an escape. -/
def IsInert (c : Char) : Prop :=
  c ≠ '"' ∧ c ≠ '\\' ∧ c ≠ '\n'

instance (c : Char) : Decidable (IsInert c) :=
  inferInstanceAs (Decidable (_ ∧ _ ∧ _))

section

variable {split : Text → Text × Text} {v : Text}

theorem TakenBy.nil : TakenBy split [] :=
  fun _ => rfl

theorem TakenBy.append (hv : TakenBy split v) (hw : TakenBy split w) : TakenBy split (v ++ w) := by
  intro s
  rw [List.append_assoc, hv, hw, List.append_assoc]

theorem TakenBy.of_forall (h : ∀ c ∈ t, TakenBy split [c]) : TakenBy split t := by
  induction t with
  | nil => exact .nil
  | cons c t ih =>
    rw [List.forall_mem_cons] at h
    exact h.1.append (ih h.2)

structure TakesEscapes (split : Text → Text × Text) : Prop where
  pair : ∀ d, d = '\\' ∨ d = '"' → TakenBy split ['\\', d]
  inert : ∀ c, IsInert c → TakenBy split [c]
  slash : ∀ d s, IsInert d →
    split ('\\' :: d :: s) = ('\\' :: (split (d :: s)).1, (split (d :: s)).2)

end

theorem takesEscapes_splitBasic : TakesEscapes Token.splitBasic where
  pair := by
    rintro d (rfl | rfl)
    · exact fun _ => rfl
    · exact fun _ => rfl
  inert := by
    rintro c ⟨hquote, hslash, hline⟩ s
    rw [List.singleton_append, Token.splitBasic.eq_3 _ _ (fun _ hc => absurd hc hslash)
      (fun _ hc => absurd hc hslash), if_neg hquote, if_neg hline]
    rfl
  slash := by
    rintro d s ⟨hquote, hslash, -⟩
    rw [Token.splitBasic.eq_3 _ _ (fun _ _ hd => hslash (List.cons.inj hd).1)
      (fun _ _ hd => hquote (List.cons.inj hd).1), if_neg (by decide), if_neg (by decide)]

theorem takenBy_splitMultilineBasic (hquote : c ≠ '"') (hslash : c ≠ '\\') :
    TakenBy Token.splitMultilineBasic [c] := by
  intro s
  rw [List.singleton_append, Token.splitMultilineBasic.eq_4 _ _ (fun _ hc => absurd hc hslash)
    (fun _ hc => absurd hc hslash) (fun _ hc => absurd hc hquote)]
  rfl

theorem takesEscapes_splitMultilineBasic : TakesEscapes Token.splitMultilineBasic where
  pair := by
    rintro d (rfl | rfl)
    · exact fun _ => rfl
    · exact fun _ => rfl
  inert := fun _ h => takenBy_splitMultilineBasic h.1 h.2.1
  slash := by
    rintro d s ⟨hquote, hslash, -⟩
    rw [Token.splitMultilineBasic.eq_4 _ _ (fun _ _ hd => hslash (List.cons.inj hd).1)
      (fun _ _ hd => hquote (List.cons.inj hd).1) (fun _ hc => absurd hc (by decide))]

/-- An escape as the writer makes it, which is read as a character. -/
structure Escapes (c : Char) (w : Text) : Prop where
  shape : ∃ d u, w = '\\' :: d :: u ∧ Quoted.isLineEnd [d] = false ∧
    ((d = '\\' ∨ d = '"') ∧ u = [] ∨ ∀ e ∈ d :: u, IsInert e)
  reads : ∀ stop s, Quoted.readEscape stop (w.tail ++ s) = .ok (c, s)

theorem Escapes.takenBy {split : Text → Text × Text} (h : Escapes c w)
    (hsplit : TakesEscapes split) : TakenBy split w := by
  obtain ⟨d, u, rfl, -, ⟨hd, rfl⟩ | hinert⟩ := h.shape
  · exact hsplit.pair d hd
  · intro s
    have hrest : TakenBy split (d :: u) := .of_forall fun e he => hsplit.inert e (hinert e he)
    rw [List.cons_append, List.cons_append, hsplit.slash d _ (hinert d List.mem_cons_self),
      ← List.cons_append, hrest]
    rfl

theorem escapes_letter (hline : Quoted.isLineEnd [d] = false)
    (hd : (d = '\\' ∨ d = '"') ∨ IsInert d)
    (hreads : ∀ stop s, Quoted.readEscape stop (d :: s) = .ok (c, s)) : Escapes c ['\\', d] := by
  refine ⟨⟨d, [], rfl, hline, ?_⟩, hreads⟩
  rcases hd with hd | hd
  · exact .inl ⟨hd, rfl⟩
  · exact .inr fun e he => List.mem_singleton.1 he ▸ hd

theorem isInert_upperHexDigit : ∀ n < 16, IsInert (upperHexDigit n) := by
  decide

theorem readHex_upperHexDigit {n : Nat} (h : n < 256) :
    Quoted.readHex stop 4 ('0' :: '0' :: upperHexDigit (n / 16) :: upperHexDigit (n % 16) :: s) =
      .ok (Char.ofNat n, s) := by
  have hhigh := hexValue?_upperHexDigit (n / 16) (by omega)
  have hlow := hexValue?_upperHexDigit (n % 16) (by omega)
  have hzero : hexValue? '0' = some 0 := rfl
  have hsum : n / 16 * 16 + n % 16 = n := by omega
  have hsmall : n < 0xD800 := by omega
  simp [Quoted.readHex, hhigh, hlow, hzero, hsum, hsmall]

theorem escapes_number (h : c.toNat < 256) :
    Escapes c
      ['\\', 'u', '0', '0', upperHexDigit (c.toNat / 16), upperHexDigit (c.toNat % 16)] := by
  refine ⟨⟨'u', _, rfl, rfl, .inr ?_⟩, ?_⟩
  · have hhigh := isInert_upperHexDigit (c.toNat / 16) (by omega)
    have hlow := isInert_upperHexDigit (c.toNat % 16) (by omega)
    have hzero : IsInert '0' := by decide
    have hletter : IsInert 'u' := by decide
    simp only [List.forall_mem_cons, List.not_mem_nil, false_imp_iff, implies_true, and_true]
    exact ⟨hletter, hzero, hzero, hhigh, hlow⟩
  · intro stop s
    have hread := @readHex_upperHexDigit s stop _ h
    rw [Char.ofNat_toNat] at hread
    exact hread

theorem escapeChar_cases (c : Char) :
    (escapeChar c = [c] ∧ c ≠ '\\' ∧ isPlain c = true) ∨ Escapes c (escapeChar c) := by
  unfold escapeChar
  split
  · subst c
    exact .inr (escapes_letter rfl (.inl (.inl rfl)) fun _ _ => rfl)
  split
  · subst c
    exact .inr (escapes_letter rfl (.inr (by decide)) fun _ _ => rfl)
  split
  · subst c
    exact .inr (escapes_letter rfl (.inr (by decide)) fun _ _ => rfl)
  split
  · subst c
    exact .inr (escapes_letter rfl (.inr (by decide)) fun _ _ => rfl)
  split
  · subst c
    exact .inr (escapes_letter rfl (.inr (by decide)) fun _ _ => rfl)
  split
  · rename_i hcontrol
    refine .inr (escapes_number ?_)
    simp only [isControl, Bool.or_eq_true, beq_iff_eq, Bool.and_eq_true, decide_eq_true_eq]
      at hcontrol
    omega
  · rename_i hslash _ _ _ _ hcontrol
    refine .inl ⟨rfl, hslash, ?_⟩
    rw [isPlain_eq_not_isControl, Bool.not_eq_true']
    exact Bool.not_eq_true _ ▸ hcontrol

theorem escapes_quote : Escapes '"' ['\\', '"'] :=
  escapes_letter rfl (.inl (.inr rfl)) fun _ _ => rfl

theorem escape_cons (c : Char) (t : Text) : ∃ w, escape (c :: t) = w ++ escape t ∧
    ((w = [c] ∧ c ≠ '"' ∧ c ≠ '\\' ∧ isPlain c = true) ∨ Escapes c w) := by
  by_cases hquote : c = '"'
  · subst c
    exact ⟨['\\', '"'], rfl, .inr escapes_quote⟩
  · refine ⟨escapeChar c, ?_, ?_⟩
    · rw [escape, List.flatMap_cons, if_neg hquote, escape]
    · rcases escapeChar_cases c with ⟨hw, hslash, hplain⟩ | hw
      · exact .inl ⟨hw, hquote, hslash, hplain⟩
      · exact .inr hw

theorem ne_newline_of_isPlain (h : isPlain c = true) : c ≠ '\n' := by
  rintro rfl
  exact absurd h (by decide)

theorem takenBy_escape (t : Text) : TakenBy Token.splitBasic (escape t) := by
  induction t with
  | nil => exact .nil
  | cons c t ih =>
    obtain ⟨w, heq, ⟨rfl, hquote, hslash, hplain⟩ | hw⟩ := escape_cons c t
    · rw [heq]
      have hinert : IsInert c := ⟨hquote, hslash, ne_newline_of_isPlain hplain⟩
      exact (takesEscapes_splitBasic.inert c hinert).append ih
    · rw [heq]
      exact (hw.takenBy takesEscapes_splitBasic).append ih

/-- A string on one line is read as what it was. -/
theorem readBasic_escape (t : Text) (h : (escape t).length ≤ fuel) :
    Quoted.readBasic stop fuel (escape t) = .ok t := by
  induction t generalizing fuel with
  | nil =>
    cases fuel with
    | zero => rfl
    | succ fuel => rfl
  | cons c t ih =>
    obtain ⟨w, heq, ⟨rfl, hquote, hslash, hplain⟩ | hw⟩ := escape_cons c t
    · rw [heq, List.length_append, List.length_singleton] at h
      obtain ⟨fuel, rfl⟩ := Nat.exists_eq_add_of_le' (show 1 ≤ fuel by omega)
      rw [heq, List.singleton_append, Quoted.readBasic.eq_3, if_neg hslash,
        if_pos (by simp [hplain, hquote]), ih (by omega)]
      rfl
    · obtain ⟨d, u, rfl, -, -⟩ := hw.shape
      rw [heq, List.length_append, List.length_cons] at h
      obtain ⟨fuel, rfl⟩ := Nat.exists_eq_add_of_le' (show 1 ≤ fuel by omega)
      have hread := hw.reads stop (escape t)
      rw [List.tail_cons] at hread
      rw [heq, List.cons_append, Quoted.readBasic.eq_3, if_pos rfl, hread]
      simp only [bind, Except.bind]
      rw [ih (by omega)]

theorem escapeLines_cons_of_ne (hquote : c ≠ '"') (run : Nat) (t : Text) : ∃ w,
    escapeLines run (c :: t) = w ++ escapeLines 0 t ∧
    ((w = [c] ∧ c ≠ '\\' ∧ (isPlain c = true ∨ c = '\n')) ∨ Escapes c w) := by
  rw [escapeLines, if_neg hquote]
  split
  · subst c
    exact ⟨['\n'], rfl, .inl ⟨rfl, by decide, .inr rfl⟩⟩
  · refine ⟨escapeChar c, rfl, ?_⟩
    rcases escapeChar_cases c with ⟨hw, hslash, hplain⟩ | hw
    · exact .inl ⟨hw, hslash, .inl hplain⟩
    · exact .inr hw

theorem escapeLines_cons (run : Nat) (c : Char) (t : Text) : ∃ w run',
    escapeLines run (c :: t) = w ++ escapeLines run' t ∧
    ((w = [c] ∧ c ≠ '\\' ∧ (isPlain c = true ∨ c = '\n')) ∨ Escapes c w) := by
  by_cases hquote : c = '"'
  · subst c
    rw [escapeLines, if_pos rfl]
    split
    · exact ⟨['\\', '"'], 0, rfl, .inr escapes_quote⟩
    · exact ⟨['"'], run + 1, rfl, .inl ⟨rfl, by decide, .inl (by decide)⟩⟩
  · obtain ⟨w, heq, hw⟩ := escapeLines_cons_of_ne hquote run t
    exact ⟨w, 0, heq, hw⟩

/-- Less than three quotes that something else follows do not end a string over several lines. -/
theorem splitMultilineBasic_quotes (hrun : run ≤ 2) (hc : c ≠ '"') :
    Token.splitMultilineBasic (List.replicate run '"' ++ c :: s) =
      (List.replicate run '"' ++ (Token.splitMultilineBasic (c :: s)).1,
        (Token.splitMultilineBasic (c :: s)).2) := by
  have hquote : ∀ u : Text, (∀ v, u ≠ '"' :: '"' :: v) → Token.splitMultilineBasic ('"' :: u) =
      ('"' :: (Token.splitMultilineBasic u).1, (Token.splitMultilineBasic u).2) := by
    intro u hu
    rw [Token.splitMultilineBasic.eq_4 _ _ (fun _ h => absurd h (by decide))
      (fun _ h => absurd h (by decide)) (fun v _ h => hu v h)]
  have hone := hquote (c :: s) fun v h => hc (List.cons.inj h).1
  have htwo := hquote ('"' :: c :: s) fun v h => hc (List.cons.inj (List.cons.inj h).2).1
  match run, hrun with
  | 0, _ => rfl
  | 1, _ => exact hone
  | 2, _ =>
    rw [hone] at htwo
    exact htwo

theorem splitQuotes_replicate {quote : Char} (hrun : run ≤ 2) (hs : s.head? ≠ some quote) :
    Token.splitQuotes quote (List.replicate run quote ++ s) = (List.replicate run quote, s) := by
  have hhead : ∀ c u, s = c :: u → c ≠ quote := by
    rintro c u rfl rfl
    exact hs rfl
  match run, hrun with
  | 0, _ =>
    match s with
    | [] => rfl
    | [c] =>
      have hc := hhead c [] rfl
      simp [Token.splitQuotes, hc]
    | c :: d :: u =>
      have hc := hhead c (d :: u) rfl
      simp [Token.splitQuotes, hc]
  | 1, _ =>
    match s with
    | [] => simp [Token.splitQuotes]
    | c :: u =>
      have hc := hhead c u rfl
      simp [Token.splitQuotes, hc]
  | 2, _ => simp [Token.splitQuotes, List.replicate]

theorem splitMultilineBasic_closing (hrun : run ≤ 2) (hs : s.head? ≠ some '"') :
    Token.splitMultilineBasic (List.replicate run '"' ++ ("\"\"\"".toList ++ s)) =
      (List.replicate run '"' ++ "\"\"\"".toList, s) := by
  have hquotes : List.replicate run '"' ++ ("\"\"\"".toList ++ s) =
      '"' :: '"' :: '"' :: (List.replicate run '"' ++ s) := by
    match run, hrun with
    | 0, _ => rfl
    | 1, _ => rfl
    | 2, _ => rfl
  have hclosing : List.replicate run '"' ++ "\"\"\"".toList =
      '"' :: '"' :: '"' :: List.replicate run '"' := by
    match run, hrun with
    | 0, _ => rfl
    | 1, _ => rfl
    | 2, _ => rfl
  rw [hquotes, hclosing, Token.splitMultilineBasic.eq_3, splitQuotes_replicate hrun hs]

/-- A string over several lines is taken in up to its closing delimiter, after quotes in a row. -/
theorem splitMultilineBasic_escapeLines (t : Text) (hrun : run ≤ 2) (hs : s.head? ≠ some '"') :
    Token.splitMultilineBasic
      (List.replicate run '"' ++ (escapeLines run t ++ ("\"\"\"".toList ++ s))) =
      (List.replicate run '"' ++ (escapeLines run t ++ "\"\"\"".toList), s) := by
  induction t generalizing run with
  | nil => exact splitMultilineBasic_closing hrun hs
  | cons c t ih =>
    by_cases hquote : c = '"'
    · subst c
      rw [escapeLines, if_pos rfl]
      split
      · subst run
        have hrest := ih (Nat.zero_le 2)
        rw [List.replicate_zero, List.nil_append, List.nil_append] at hrest
        have hpair := takesEscapes_splitMultilineBasic.pair '"' (.inr rfl)
          (escapeLines 0 t ++ ("\"\"\"".toList ++ s))
        rw [hrest] at hpair
        rw [List.cons_append, splitMultilineBasic_quotes (Nat.le_refl 2) (by decide)]
        simp only [List.cons_append, List.nil_append] at hpair ⊢
        rw [hpair]
      · have hrest := ih (show run + 1 ≤ 2 by omega)
        rw [List.replicate_succ', List.append_assoc, List.append_assoc] at hrest
        exact hrest
    · obtain ⟨w, heq, hw⟩ := escapeLines_cons_of_ne hquote run t
      have hrest := ih (Nat.zero_le 2)
      rw [List.replicate_zero, List.nil_append, List.nil_append] at hrest
      have htaken : TakenBy Token.splitMultilineBasic w := by
        rcases hw with ⟨rfl, hslash, -⟩ | hw
        · exact takenBy_splitMultilineBasic hquote hslash
        · exact hw.takenBy takesEscapes_splitMultilineBasic
      have hhead : ∃ d u, w = d :: u ∧ d ≠ '"' := by
        rcases hw with ⟨rfl, -, -⟩ | hw
        · exact ⟨c, [], rfl, hquote⟩
        · obtain ⟨d, u, rfl, -⟩ := hw.shape
          exact ⟨'\\', _, rfl, by decide⟩
      obtain ⟨d, u, rfl, hd⟩ := hhead
      have hw := htaken (escapeLines 0 t ++ ("\"\"\"".toList ++ s))
      rw [hrest] at hw
      rw [heq, List.append_assoc, List.cons_append, splitMultilineBasic_quotes hrun hd,
        ← List.cons_append, hw, List.append_assoc]

theorem readMultilineBasic_plain (hslash : c ≠ '\\') (hc : isPlain c = true ∨ c = '\n') :
    Quoted.readMultilineBasic stop (fuel + 1) (c :: t) =
      (Quoted.readMultilineBasic stop fuel t).map (c :: ·) := by
  have hreturn : c ≠ '\r' := by
    rintro rfl
    rcases hc with hc | hc
    · exact absurd hc (by decide)
    · exact absurd hc (by decide)
  have hline : (isPlain c || c == '\n') = true := by
    rcases hc with hc | hc
    · rw [hc, Bool.true_or]
    · rw [hc]
      rfl
  rw [Quoted.readMultilineBasic.eq_def]
  dsimp only
  rw [if_neg hslash, if_neg hreturn, if_pos hline]
  cases Quoted.readMultilineBasic stop fuel t with
  | error fault => rfl
  | ok u => rfl

theorem Escapes.readMultilineBasic (h : Escapes c w) :
    Quoted.readMultilineBasic stop (fuel + 1) (w ++ t) =
      (Quoted.readMultilineBasic stop fuel t).map (c :: ·) := by
  obtain ⟨d, u, rfl, hline, -⟩ := h.shape
  have hread := h.reads stop t
  rw [List.tail_cons, List.cons_append] at hread
  have hline' : Quoted.isLineEnd (d :: (u ++ t)) = false := hline
  rw [List.cons_append, List.cons_append, Quoted.readMultilineBasic.eq_def]
  dsimp only
  rw [if_pos rfl, hline', if_neg (by decide), hread]
  simp only [bind, Except.bind]
  cases Quoted.readMultilineBasic stop fuel t with
  | error fault => rfl
  | ok u => rfl

theorem readMultilineBasic_escapeLines (t : Text) (h : (escapeLines run t).length ≤ fuel) :
    Quoted.readMultilineBasic stop fuel (escapeLines run t) = .ok t := by
  induction t generalizing run fuel with
  | nil =>
    cases fuel with
    | zero => rfl
    | succ fuel => rfl
  | cons c t ih =>
    obtain ⟨w, run', heq, ⟨rfl, hslash, hplain⟩ | hw⟩ := escapeLines_cons run c t
    · rw [heq, List.length_append, List.length_singleton] at h
      obtain ⟨fuel, rfl⟩ := Nat.exists_eq_add_of_le' (show 1 ≤ fuel by omega)
      rw [heq, List.singleton_append, readMultilineBasic_plain hslash hplain, ih (by omega)]
      rfl
    · have hpos : 0 < w.length := by
        obtain ⟨d, u, rfl, -⟩ := hw.shape
        exact Nat.succ_pos _
      rw [heq, List.length_append] at h
      obtain ⟨fuel, rfl⟩ := Nat.exists_eq_add_of_le' (show 1 ≤ fuel by omega)
      rw [heq, hw.readMultilineBasic, ih (by omega)]
      rfl

end RecordSheet.Toml
