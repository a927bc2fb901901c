import RecordSheet.Proofs.Toml.EscapedText

namespace RecordSheet.Toml

open Writer

variable {c : Char} {s t w v : Text} {kind : Kind} {quoting : Quoting} {run : Nat}

theorem stripEnd?_append (t ending : Text) : stripEnd? ending (t ++ ending) = some t := by
  rw [stripEnd?, if_pos (List.isSuffixOf_iff_suffix.2 (List.suffix_append t ending)),
    List.length_append, Nat.add_sub_cancel, List.take_left]

theorem stripNewline_of_notMem (h : '\n' ∉ t) : stripNewline t = t := by
  unfold stripNewline
  split
  · exact absurd (List.mem_cons_of_mem _ List.mem_cons_self) h
  · exact absurd List.mem_cons_self h
  · rfl

theorem splitLiteral_append (h : fitsLiteral t) :
    Token.splitLiteral (t ++ '\'' :: s) = (t ++ ['\''], s) := by
  induction t with
  | nil => rfl
  | cons c t ih =>
    rw [fitsLiteral, List.all_cons, Bool.and_eq_true, Bool.and_eq_true, bne_iff_ne,
      ← isPlain_eq_not_isControl] at h
    obtain ⟨⟨hquote, hplain⟩, ht⟩ := h
    rw [List.cons_append, Token.splitLiteral, if_neg hquote, if_neg (ne_newline_of_isPlain hplain),
      ih ht]
    rfl

theorem checkLiteral_of_fitsLiteral (stop : Stop) (h : fitsLiteral t) :
    Quoted.checkLiteral stop t = .ok () := by
  induction t with
  | nil => rfl
  | cons c t ih =>
    rw [fitsLiteral, List.all_cons, Bool.and_eq_true, ← isPlain_eq_not_isControl,
      Bool.and_comm] at h
    rw [Quoted.checkLiteral, if_pos h.1, ih h.2]

theorem splitMultilineLiteral_cons (h : ∀ u, c = '\'' → t ≠ '\'' :: '\'' :: u) :
    Token.splitMultilineLiteral (c :: t) =
      (c :: (Token.splitMultilineLiteral t).1, (Token.splitMultilineLiteral t).2) :=
  Token.splitMultilineLiteral.eq_2 _ _ h

theorem splitMultilineLiteral_append (h : hasTriple '\'' t = false) (hs : s.head? ≠ some '\'') :
    Token.splitMultilineLiteral (t ++ ("'''".toList ++ s)) = (t ++ "'''".toList, s) := by
  induction t with
  | nil =>
    have hquotes := splitQuotes_replicate (Nat.zero_le 2) hs
    exact congrArg (fun p => ('\'' :: '\'' :: '\'' :: p.1, p.2)) hquotes
  | cons c t ih =>
    rw [hasTriple, Bool.or_eq_false_iff] at h
    obtain ⟨hhead, ht⟩ := h
    have hgo : (∀ u, c = '\'' → t ++ ("'''".toList ++ s) ≠ '\'' :: '\'' :: u) →
        Token.splitMultilineLiteral (c :: t ++ ("'''".toList ++ s)) =
          (c :: t ++ "'''".toList, s) := by
      intro hne
      rw [List.cons_append, splitMultilineLiteral_cons hne, ih ht]
      rfl
    by_cases hquote : c = '\''
    · subst c
      -- the quotes at the end of the text are taken in with the closing delimiter
      match t with
      | [] =>
        have hquotes := splitQuotes_replicate (show 1 ≤ 2 by decide) hs
        exact congrArg (fun p => ('\'' :: '\'' :: '\'' :: p.1, p.2)) hquotes
      | [d] =>
        by_cases hd : d = '\''
        · subst d
          have hquotes := splitQuotes_replicate (Nat.le_refl 2) hs
          exact congrArg (fun p => ('\'' :: '\'' :: '\'' :: p.1, p.2)) hquotes
        · exact hgo fun u _ heq => hd (List.cons.inj heq).1
      | d :: e :: t =>
        refine hgo fun u _ heq => ?_
        obtain ⟨hd, heq⟩ := List.cons.inj heq
        rw [hd, (List.cons.inj heq).1] at hhead
        exact absurd hhead (by simp)
    · exact hgo fun _ hc => absurd hc hquote

theorem checkMultilineLiteral_of_fits (stop : Stop) (h : fitsMultilineLiteral t) :
    Quoted.checkMultilineLiteral stop t = .ok () := by
  rw [fitsMultilineLiteral, Bool.and_eq_true] at h
  replace h := h.1
  induction t with
  | nil => rfl
  | cons c t ih =>
    rw [List.all_cons, Bool.and_eq_true, ← isPlain_eq_not_isControl, Bool.or_comm] at h
    obtain ⟨hc, ht⟩ := h
    have hreturn : c ≠ '\r' := by
      rintro rfl
      exact absurd hc (by decide)
    rw [Quoted.checkMultilineLiteral.eq_3 _ _ _ (fun _ h => absurd h hreturn), if_neg hreturn,
      if_pos hc, ih ht]

def Token.Leads (kind : Kind) (w s : Text) : Prop :=
  ∃ c t, w = c :: t ∧ Token.split c (t ++ s) = (kind, w, s)

/-- A text that stands for a string, whatever follows but a quote. -/
structure Spells (quoting : Quoting) (w t : Text) : Prop where
  leads : ∀ s : Text, s.head? ≠ some '"' → s.head? ≠ some '\'' → Token.Leads (.quoted quoting) w s
  reads : ∀ start, Quoted.read quoting ⟨.quoted quoting, start, w⟩ = .ok t

theorem head_escape (t : Text) : (escape t).head? ≠ some '"' := by
  cases t with
  | nil => exact nofun
  | cons c t =>
    obtain ⟨w, heq, ⟨rfl, hquote, -⟩ | hw⟩ := escape_cons c t
    · rw [heq]
      exact fun h => hquote (Option.some.inj h)
    · obtain ⟨d, u, rfl, -⟩ := hw.shape
      rw [heq]
      exact nofun

theorem spells_basic (t : Text) : Spells .basic (basic t) t := by
  constructor
  · intro s hs _
    have hbody : ∀ u, escape t ++ '"' :: s ≠ '"' :: '"' :: u := by
      intro u heq
      cases hescape : escape t with
      | nil =>
        rw [hescape] at heq
        exact hs (by rw [(List.cons.inj heq).2, List.head?_cons])
      | cons c v =>
        rw [hescape] at heq
        exact head_escape t (by rw [hescape, (List.cons.inj heq).1, List.head?_cons])
    have hclose : Token.splitBasic ('"' :: s) = (['"'], s) := rfl
    refine ⟨'"', escape t ++ ['"'], rfl, ?_⟩
    rw [List.append_assoc, List.singleton_append, Token.split.eq_15 _ hbody, takenBy_escape, hclose]
    rfl
  · intro start
    have hstrip : stripEnd? ['"'] ((basic t).drop 1) = some (escape t) := stripEnd?_append _ _
    rw [Quoted.read]
    dsimp only
    rw [hstrip]
    exact readBasic_escape t (Nat.le_refl _)

theorem spells_literal (h : fitsLiteral t) : Spells .literal (literal t) t := by
  constructor
  · intro s _ hs
    have hbody : ∀ u, t ++ '\'' :: s ≠ '\'' :: '\'' :: u := by
      intro u heq
      cases t with
      | nil => exact hs (by rw [(List.cons.inj heq).2, List.head?_cons])
      | cons c t =>
        rw [(List.cons.inj heq).1] at h
        exact absurd h (by simp [fitsLiteral])
    refine ⟨'\'', t ++ ['\''], rfl, ?_⟩
    rw [List.append_assoc, List.singleton_append, Token.split.eq_13 _ hbody, splitLiteral_append h]
    rfl
  · intro start
    have hstrip : stripEnd? ['\''] ((literal t).drop 1) = some t := stripEnd?_append _ _
    rw [Quoted.read]
    dsimp only
    rw [hstrip]
    dsimp only
    rw [checkLiteral_of_fitsLiteral _ h]
    rfl

theorem Escapes.notMem_newline (h : Escapes c w) : '\n' ∉ w := by
  obtain ⟨d, u, rfl, -, ⟨rfl | rfl, rfl⟩ | hinert⟩ := h.shape
  · decide
  · decide
  · intro hmem
    rcases List.mem_cons.1 hmem with hmem | hmem
    · exact absurd hmem (by decide)
    · exact (hinert _ hmem).2.2 rfl

theorem notMem_escapeLines (h : '\n' ∉ t) : '\n' ∉ escapeLines run t := by
  induction t generalizing run with
  | nil => exact List.not_mem_nil
  | cons c t ih =>
    rw [List.mem_cons, not_or] at h
    obtain ⟨w, run', heq, hw⟩ := escapeLines_cons run c t
    rw [heq, List.mem_append, not_or]
    refine ⟨?_, ih h.2⟩
    rcases hw with ⟨rfl, -⟩ | hw
    · rw [List.mem_singleton]
      exact h.1
    · exact hw.notMem_newline

def leadingBreak (t : Text) : Text :=
  if t.contains '\n' then ['\n'] else []

theorem opening_eq (delimiter t : Text) : opening delimiter t = delimiter ++ leadingBreak t := by
  rw [opening, leadingBreak]
  split
  · rfl
  · rw [List.append_nil]

theorem takenBy_leadingBreak {split : Text → Text × Text} (h : TakenBy split ['\n']) (t : Text) :
    TakenBy split (leadingBreak t) := by
  rw [leadingBreak]
  split
  · exact h
  · exact .nil

theorem stripNewline_leadingBreak (h : '\n' ∉ t → '\n' ∉ w) :
    stripNewline (leadingBreak t ++ w) = w := by
  rw [leadingBreak]
  split
  · rfl
  · rename_i hline
    exact stripNewline_of_notMem (h fun hmem => hline (List.contains_iff_mem.2 hmem))

theorem spells_multilineBasic (t : Text) : Spells .multilineBasic (multilineBasic t) t := by
  have hwritten : multilineBasic t =
      '"' :: '"' :: '"' :: (leadingBreak t ++ (escapeLines 0 t ++ "\"\"\"".toList)) := by
    rw [multilineBasic, opening_eq, List.append_assoc, List.append_assoc]
    rfl
  constructor
  · intro s hs _
    have hbody := splitMultilineBasic_escapeLines t (Nat.zero_le 2) hs
    rw [List.replicate_zero, List.nil_append, List.nil_append] at hbody
    have hline := takenBy_splitMultilineBasic (c := '\n') (by decide) (by decide)
    refine ⟨'"', _, hwritten, ?_⟩
    rw [hwritten, List.cons_append, List.cons_append, List.append_assoc, List.append_assoc,
      Token.split.eq_14, takenBy_leadingBreak hline, hbody]
  · intro start
    have hbreak := stripNewline_leadingBreak (t := t)
      (w := escapeLines 0 t ++ "\"\"\"".toList) fun h => by
        rw [List.mem_append, not_or]
        exact ⟨notMem_escapeLines h, by decide⟩
    have hstrip : stripEnd? "\"\"\"".toList (stripNewline ((multilineBasic t).drop 3)) =
        some (escapeLines 0 t) := by
      rw [hwritten]
      exact (congrArg _ hbreak).trans (stripEnd?_append _ _)
    rw [Quoted.read]
    dsimp only
    rw [hstrip]
    exact readMultilineBasic_escapeLines t (Nat.le_refl _)

theorem spells_multilineLiteral (h : fitsMultilineLiteral t) :
    Spells .multilineLiteral (multilineLiteral t) t := by
  have hwritten : multilineLiteral t =
      '\'' :: '\'' :: '\'' :: (leadingBreak t ++ (t ++ "'''".toList)) := by
    rw [multilineLiteral, opening_eq, List.append_assoc, List.append_assoc]
    rfl
  constructor
  · intro s _ hs
    have htriple := h
    rw [fitsMultilineLiteral, Bool.and_eq_true, Bool.not_eq_true'] at htriple
    have hline : TakenBy Token.splitMultilineLiteral ['\n'] := fun s =>
      splitMultilineLiteral_cons fun _ hc => absurd hc (by decide)
    refine ⟨'\'', _, hwritten, ?_⟩
    rw [hwritten, List.cons_append, List.cons_append, List.append_assoc, List.append_assoc,
      Token.split.eq_12, takenBy_leadingBreak hline, splitMultilineLiteral_append htriple.2 hs]
  · intro start
    have hbreak := stripNewline_leadingBreak (t := t) (w := t ++ "'''".toList) fun h => by
      rw [List.mem_append, not_or]
      exact ⟨h, by decide⟩
    have hstrip : stripEnd? "'''".toList (stripNewline ((multilineLiteral t).drop 3)) =
        some t := by
      rw [hwritten]
      exact (congrArg _ hbreak).trans (stripEnd?_append _ _)
    rw [Quoted.read]
    dsimp only
    rw [hstrip]
    dsimp only
    rw [checkMultilineLiteral_of_fits _ h]
    rfl

/-- Whatever form the writer chooses for a text, it stands for the text. -/
theorem exists_spells_string (t : Text) : ∃ quoting, Spells quoting (string t) t := by
  unfold Writer.string
  split
  · exact ⟨_, spells_basic t⟩
  split
  · exact ⟨_, spells_literal ‹_›⟩
  split
  · exact ⟨_, spells_multilineBasic t⟩
  split
  · exact ⟨_, spells_multilineLiteral ‹_›⟩
  split
  · exact ⟨_, spells_multilineBasic t⟩
  · exact ⟨_, spells_basic t⟩

end RecordSheet.Toml
