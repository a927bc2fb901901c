import RecordSheet.Proofs.Toml.StringForms
import RecordSheet.Toml.Document
import Mathlib.Data.Bool.AllAny
import Mathlib.Data.List.Forall2

namespace RecordSheet.Toml

open Writer

variable {c d : Char} {key s t value w : Text} {kind : Kind} {start fuel last : Nat}
  {tokens ts : List Token}

def IsBareKey (key : Text) : Prop :=
  key ≠ [] ∧ ∀ c ∈ key, Key.isBare c = true

theorem ne_of_isBare (hc : Key.isBare c = true) (hd : Key.isBare d = false) : c ≠ d := by
  rintro rfl
  rw [hc] at hd
  cases hd

theorem isBareEnd_of_isBare (h : Key.isBare c = true) : Token.isBareEnd c = false := by
  have hends : ∀ d ∈ ".=,[]\x7b\x7d \t#\r\n".toList, Key.isBare d = false :=
    List.all_iff_forall_prop.1 (by decide)
  rw [Token.isBareEnd, List.contains_eq_mem, decide_eq_false_iff_not]
  intro hmem
  exact ne_of_isBare h (hends c hmem) rfl

theorem IsBareKey.leads (h : IsBareKey key) : Token.Leads .bare key (' ' :: s) := by
  obtain ⟨hne, hbare⟩ := h
  cases key with
  | nil => exact absurd rfl hne
  | cons c key =>
    rw [List.forall_mem_cons] at hbare
    obtain ⟨hc, hkey⟩ := hbare
    have hends : ∀ d ∈ key, (!Token.isBareEnd d) = true := by
      intro d hd
      rw [isBareEnd_of_isBare (hkey d hd), Bool.not_false]
    refine ⟨c, key, rfl, ?_⟩
    rw [Token.split.eq_16 c _ (ne_of_isBare hc rfl) (ne_of_isBare hc rfl) (ne_of_isBare hc rfl)
      (ne_of_isBare hc rfl) (ne_of_isBare hc rfl) (ne_of_isBare hc rfl) (ne_of_isBare hc rfl)
      (ne_of_isBare hc rfl) (ne_of_isBare hc rfl) (ne_of_isBare hc rfl) (ne_of_isBare hc rfl)
      (ne_of_isBare hc rfl), if_neg, List.takeWhile_append_of_pos hends,
      List.dropWhile_append_of_pos hends]
    · rw [List.takeWhile_cons_of_neg (by decide), List.dropWhile_cons_of_neg (by decide),
        List.append_nil]
    · rintro (hspace | htab)
      · exact ne_of_isBare hc rfl hspace
      · exact ne_of_isBare hc rfl htab

theorem split_blank (h : c = ' ' ∨ c = '\t') :
    Token.split c t = (.space, c :: t.takeWhile fun d => d == ' ' || d == '\t',
      t.dropWhile fun d => d == ' ' || d == '\t') := by
  rcases h with rfl | rfl
  · rfl
  · rfl

theorem leads_space (h : ¬(c = ' ' ∨ c = '\t')) : Token.Leads .space [' '] (c :: s) := by
  refine ⟨' ', [], rfl, ?_⟩
  rw [List.nil_append, split_blank (.inl rfl), List.takeWhile_cons_of_neg (by simpa using h),
    List.dropWhile_cons_of_neg (by simpa using h)]

theorem Spells.exists_cons {quoting : Quoting} (h : Spells quoting w t) :
    ∃ c u, w = c :: u ∧ ¬(c = ' ' ∨ c = '\t') := by
  obtain ⟨c, u, hw, hsplit⟩ := h.leads [] nofun nofun
  refine ⟨c, u, hw, fun hc => ?_⟩
  rw [split_blank hc] at hsplit
  cases hsplit

/-- A text that tokens of some kinds take in one after the other, in front of a rest. -/
inductive Tokenized (s : Text) : Text → List (Kind × Text) → Prop
  | nil : Tokenized s [] []
  | cons {kind : Kind} {w v : Text} {ps : List (Kind × Text)} :
      Token.Leads kind w (v ++ s) → Tokenized s v ps → Tokenized s (w ++ v) ((kind, w) :: ps)

namespace Tokenized

variable {v : Text} {ps qs : List (Kind × Text)}

theorem append (hv : Tokenized (w ++ s) v ps) (hw : Tokenized s w qs) :
    Tokenized s (v ++ w) (ps ++ qs) := by
  induction hv with
  | nil => exact hw
  | cons hleads _ ih =>
    rw [List.append_assoc]
    refine .cons ?_ ih
    rw [List.append_assoc]
    exact hleads

theorem length_le (h : Tokenized s v ps) : ps.length ≤ v.length := by
  induction h with
  | nil => exact Nat.le_refl _
  | cons hleads _ ih =>
    obtain ⟨c, t, rfl, -⟩ := hleads
    rw [List.length_cons, List.length_append, List.length_cons]
    omega

theorem listFrom (h : Tokenized s v ps) (start fuel : Nat) : ∃ tokens stop,
    (tokens.map fun t => (t.kind, t.text)) = ps ∧
      Token.listFrom start (fuel + ps.length) (v ++ s) = tokens ++ Token.listFrom stop fuel s := by
  induction h generalizing start with
  | nil => exact ⟨[], start, rfl, rfl⟩
  | @cons kind w v ps hleads _ ih =>
    obtain ⟨c, t, rfl, hsplit⟩ := hleads
    obtain ⟨tokens, stop, htokens, hlist⟩ := ih (start + Utf8.size (c :: t))
    refine ⟨⟨kind, start, c :: t⟩ :: tokens, stop, by rw [List.map_cons, htokens], ?_⟩
    rw [List.length_cons, ← Nat.add_assoc, List.append_assoc, List.cons_append, Token.listFrom,
      hsplit, List.cons_append, ← hlist]

theorem list (h : Tokenized [] v ps) (hmark : v.head? ≠ some '\uFEFF') : ∃ tokens stop,
    (tokens.map fun t => (t.kind, t.text)) = ps ∧
      Token.list v = tokens ++ [⟨.ending, stop, []⟩] := by
  obtain ⟨fuel, hfuel⟩ := Nat.exists_eq_add_of_le' h.length_le
  obtain ⟨tokens, stop, htokens, hlist⟩ := h.listFrom 0 fuel
  have hstart : Token.list v = Token.listFrom 0 v.length v := by
    unfold Token.list
    split
    · exact absurd rfl hmark
    · rfl
  rw [List.append_nil] at hlist
  refine ⟨tokens, stop, htokens, ?_⟩
  rw [hstart, hfuel, hlist]
  cases fuel with
  | zero => rfl
  | succ fuel => rfl

end Tokenized

inductive LinePieces (key value : Text) : List (Kind × Text) → Prop
  | intro {quoting : Quoting} {w : Text} : Spells quoting w value →
      LinePieces key value [(.bare, key), (.space, [' ']), (.equals, ['=']), (.space, [' ']),
        (.quoted quoting, w), (.newline, ['\n'])]

theorem tokenized_line (hkey : IsBareKey key) (value s : Text) :
    ∃ ps, LinePieces key value ps ∧ Tokenized s (line key value) ps := by
  obtain ⟨quoting, hspells⟩ := exists_spells_string value
  obtain ⟨c, u, hw, hc⟩ := hspells.exists_cons
  have hline : line key value =
      key ++ ([' '] ++ (['='] ++ ([' '] ++ (Writer.string value ++ (['\n'] ++ []))))) := by
    rw [line, List.append_assoc, List.append_assoc]
    rfl
  refine ⟨_, .intro hspells, ?_⟩
  rw [hline]
  refine .cons hkey.leads (.cons (leads_space (by decide)) (.cons ⟨'=', [], rfl, rfl⟩
    (.cons ?_ (.cons (hspells.leads _ nofun nofun) (.cons ⟨'\n', [], rfl, rfl⟩ .nil)))))
  rw [hw]
  exact leads_space hc

def assignments (pairs : List (Text × Text)) : Text :=
  pairs.flatMap fun p => line p.1 p.2

variable {pairs : List (Text × Text)}

theorem tokenized_assignments (hkeys : ∀ p ∈ pairs, IsBareKey p.1) : ∃ pss,
    List.Forall₂ (fun p ps => LinePieces p.1 p.2 ps) pairs pss ∧
      Tokenized [] (assignments pairs) pss.flatten := by
  induction pairs with
  | nil => exact ⟨[], .nil, .nil⟩
  | cons p pairs ih =>
    rw [List.forall_mem_cons] at hkeys
    obtain ⟨pss, hpss, htokens⟩ := ih hkeys.2
    obtain ⟨ps, hps, hline⟩ := tokenized_line hkeys.1 p.2 (assignments pairs ++ [])
    exact ⟨ps :: pss, .cons hps hpss, hline.append htokens⟩

inductive Assigns (key value : Text) : Statement → Prop
  | intro (start : Nat) {token : Token} : Scalar.read token = .ok (.string value) →
      Assigns key value (.pair [⟨.bare, start, key⟩] (.scalar token))

theorem readAll_line {ps : List (Kind × Text)} (h : LinePieces key value ps)
    (htokens : (tokens.map fun t => (t.kind, t.text)) = ps) :
    ∃ statement, Assigns key value statement ∧ ∀ last found fuel ts,
      Statement.readAll last found (fuel + 1) (tokens ++ ts) =
        Statement.readAll last (statement :: found) fuel ts := by
  obtain @⟨quoting, _, hspells⟩ := h
  simp only [List.map_eq_cons_iff, List.map_eq_nil_iff, Prod.mk.injEq] at htokens
  obtain ⟨⟨_, a, _⟩, _, rfl, ⟨rfl, rfl⟩, ⟨_, b, _⟩, _, rfl, ⟨rfl, rfl⟩, ⟨_, c, _⟩, _, rfl,
    ⟨rfl, rfl⟩, ⟨_, d, _⟩, _, rfl, ⟨rfl, rfl⟩, ⟨_, e, w⟩, _, rfl, ⟨rfl, rfl⟩, ⟨_, f, _⟩, _, rfl,
    ⟨rfl, rfl⟩, rfl⟩ := htokens
  have hread : Scalar.read ⟨.quoted quoting, e, w⟩ = .ok (.string value) :=
    congrArg (Except.map Scalar.string) (hspells.reads e)
  refine ⟨_, .intro a hread, ?_⟩
  intro last found fuel ts
  rfl

theorem readAll_lines {pss : List (List (Kind × Text))}
    (h : List.Forall₂ (fun p ps => LinePieces p.1 p.2 ps) pairs pss)
    (htokens : (tokens.map fun t => (t.kind, t.text)) = pss.flatten)
    (hfuel : pairs.length < fuel) (found : List Statement) (stop : Nat) : ∃ statements,
      List.Forall₂ (fun p s => Assigns p.1 p.2 s) pairs statements ∧
      Statement.readAll last found fuel (tokens ++ [⟨.ending, stop, []⟩]) =
        .ok (found.reverse ++ statements) := by
  induction h generalizing tokens fuel found with
  | nil =>
    rw [List.flatten_nil, List.map_eq_nil_iff] at htokens
    subst htokens
    obtain ⟨fuel, rfl⟩ := Nat.exists_eq_add_of_lt hfuel
    exact ⟨[], .nil, by rw [List.append_nil]; rfl⟩
  | cons hline _ ih =>
    rw [List.flatten_cons, List.map_eq_append_iff] at htokens
    obtain ⟨lineTokens, rest, rfl, hlineTokens, hrest⟩ := htokens
    obtain ⟨statement, hstatement, hread⟩ := readAll_line hline hlineTokens
    rw [List.length_cons] at hfuel
    obtain ⟨fuel, rfl⟩ := Nat.exists_eq_add_of_le' (show 1 ≤ fuel by omega)
    obtain ⟨statements, hstatements, hall⟩ :=
      ih hrest (Nat.lt_of_succ_lt_succ hfuel) (statement :: found)
    refine ⟨statement :: statements, .cons hstatement hstatements, ?_⟩
    rw [List.append_assoc, hread, hall, List.reverse_cons, List.append_assoc]
    rfl

theorem length_le_length_flatten {pss : List (List (Kind × Text))}
    (h : List.Forall₂ (fun p ps => LinePieces p.1 p.2 ps) pairs pss) :
    pairs.length ≤ pss.flatten.length := by
  induction h with
  | nil => exact Nat.le_refl _
  | cons hline _ ih =>
    cases hline
    rw [List.flatten_cons, List.length_append, List.length_cons]
    simp only [List.length_cons]
    omega

theorem head_assignments (hkeys : ∀ p ∈ pairs, IsBareKey p.1) :
    (assignments pairs).head? ≠ some '\uFEFF' := by
  cases pairs with
  | nil => exact nofun
  | cons p pairs =>
    obtain ⟨⟨hne, hbare⟩, -⟩ := List.forall_mem_cons.1 hkeys
    obtain ⟨key, value⟩ := p
    cases key with
    | nil => exact absurd rfl hne
    | cons c key =>
      intro hc
      exact ne_of_isBare (hbare c List.mem_cons_self) rfl (Option.some.inj hc)

theorem list_assignments (hkeys : ∀ p ∈ pairs, IsBareKey p.1) : ∃ statements,
    List.Forall₂ (fun p s => Assigns p.1 p.2 s) pairs statements ∧
      Statement.list (assignments pairs) = .ok statements := by
  obtain ⟨pss, hpss, htokenized⟩ := tokenized_assignments hkeys
  obtain ⟨tokens, stop, htokens, hlist⟩ := htokenized.list (head_assignments hkeys)
  have hlength := length_le_length_flatten hpss
  rw [← htokens, List.length_map] at hlength
  rw [Statement.list, hlist]
  refine readAll_lines hpss htokens ?_ [] stop
  rw [List.length_append, List.length_singleton]
  omega

/-- What a document has under a key that it gives a string. -/
def Gives (p : Text × Text) (e : Text × Span × Value) : Prop :=
  e.1 = p.1 ∧ e.2.2 = .scalar (.string p.2)

theorem checkBare_of_isBare (stop : Stop) (h : ∀ c ∈ t, Key.isBare c = true) :
    Key.checkBare stop t = .ok () := by
  induction t with
  | nil => rfl
  | cons c t ih =>
    rw [List.forall_mem_cons] at h
    rw [Key.checkBare, if_pos h.1, ih h.2]

theorem readParts_bare (hkey : IsBareKey key) (start : Nat) : ∃ span,
    Key.readParts [⟨.bare, start, key⟩] = .ok ([], ⟨key, span⟩) := by
  have hread : Key.read ⟨.bare, start, key⟩ = .ok key := by
    change (if key.isEmpty then _ else Key.checkBare _ key >>= fun _ => .ok key) = _
    rw [if_neg (by simpa using hkey.1), checkBare_of_isBare _ hkey.2]
    rfl
  refine ⟨⟨start, Token.stop ⟨.bare, start, key⟩⟩, ?_⟩
  rw [Key.readParts, List.mapM_cons, hread]
  rfl

theorem step_assigns {statement : Statement} {b : Builder} (h : Assigns key value statement)
    (hkey : IsBareKey key) (hdotted : b.current.origin.dotted = false)
    (hnew : key ∉ b.current.entries.map Prod.fst) : ∃ e, Gives (key, value) e ∧
      b.step statement =
        .ok { b with current := { b.current with entries := b.current.entries ++ [e] } } := by
  obtain @⟨start, token, hread⟩ := h
  obtain ⟨span, hparts⟩ := readParts_bare hkey start
  have hfind : b.current.find? key = none := by
    rw [Table.find?, List.lookup_eq_none_iff]
    intro e he
    rw [bne_iff_ne]
    rintro rfl
    exact hnew (List.mem_map_of_mem he)
  refine ⟨(key, ⟨token.start, token.stop⟩, .scalar (.string value)), ⟨rfl, rfl⟩, ?_⟩
  rw [Builder.step, hparts]
  simp only [readExpr, hread, bind, Except.bind, Table.insert, Table.changeAt, hdotted, hfind]
  rfl

theorem foldlM_step {statements : List Statement} {b : Builder}
    (h : List.Forall₂ (fun p s => Assigns p.1 p.2 s) pairs statements)
    (hkeys : ∀ p ∈ pairs, IsBareKey p.1) (hdotted : b.current.origin.dotted = false)
    (hnew : (b.current.entries.map Prod.fst ++ pairs.map Prod.fst).Nodup) : ∃ entries,
      List.Forall₂ Gives pairs entries ∧ statements.foldlM Builder.step b =
        .ok { b with current := { b.current with entries := b.current.entries ++ entries } } := by
  induction h generalizing b with
  | nil => exact ⟨[], .nil, by rw [List.append_nil]; rfl⟩
  | @cons p statement pairs statements hstatement _ ih =>
    rw [List.forall_mem_cons] at hkeys
    rw [List.map_cons] at hnew
    have hkey : p.1 ∉ b.current.entries.map Prod.fst := fun hmem =>
      (List.nodup_append.1 hnew).2.2 p.1 hmem p.1 List.mem_cons_self rfl
    obtain ⟨e, he, hstep⟩ := step_assigns hstatement hkeys.1 hdotted hkey
    have hkeys' : ((b.current.entries ++ [e]).map Prod.fst ++ pairs.map Prod.fst).Nodup := by
      rw [List.map_append, List.append_assoc, List.map_cons, he.1]
      exact hnew
    let b' : Builder :=
      { b with current := { b.current with entries := b.current.entries ++ [e] } }
    obtain ⟨entries, hentries, hfold⟩ := ih (b := b') hkeys.2 hdotted hkeys'
    refine ⟨e :: entries, .cons he hentries, ?_⟩
    rw [List.foldlM_cons, hstep]
    simp only [bind, Except.bind]
    rw [hfold, List.append_assoc, List.singleton_append]

/-- A document of lines with different keys has the entries that its lines say. -/
theorem read_assignments (hkeys : ∀ p ∈ pairs, IsBareKey p.1)
    (hnodup : (pairs.map Prod.fst).Nodup) : ∃ entries,
      List.Forall₂ Gives pairs entries ∧ Document.read (assignments pairs) = .ok entries := by
  obtain ⟨statements, hstatements, hlist⟩ := list_assignments hkeys
  obtain ⟨entries, hentries, hfold⟩ :=
    foldlM_step (b := ⟨.empty, .empty, none⟩) hstatements hkeys rfl hnodup
  refine ⟨entries, hentries, ?_⟩
  rw [Document.read, hlist]
  simp only [bind, Except.bind]
  rw [hfold]
  rfl

end RecordSheet.Toml
