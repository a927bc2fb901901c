import RecordSheet.Proofs.Sheet.Decoding

namespace RecordSheet

namespace Strict

inductive Place where
  | start
  | plain
  | quoted
  | closing
  | ending
  deriving DecidableEq, Repr

/-- What is left of a field, the fields behind it in its record, and the records behind that. -/
structure Remainder where
  field : Text
  fields : List Text
  records : List (List Text)
  deriving DecidableEq, Repr

namespace Remainder

def nothing : Remainder :=
  ⟨[], [], []⟩

def prepend (t : Text) (r : Remainder) : Remainder :=
  { r with field := t ++ r.field }

def endField (r : Remainder) : Remainder :=
  ⟨[], r.field :: r.fields, r.records⟩

def endRecord (r : Remainder) : Remainder :=
  ⟨[], [], (r.field :: r.fields) :: r.records⟩

end Remainder

/--
What the reader makes of a text from some place on. Behind a quote within quotes it stands at
`closing`, as the quote may be doubled, and behind a carriage return outside of quotes at `ending`.
A line break at the very end begins no record.
-/
def readFrom : Place → Text → Option Remainder
  | .quoted, [] => none
  | .ending, [] => none
  | _, [] => some .nothing
  | .quoted, c :: t =>
    if c = '"' then readFrom .closing t else (readFrom .quoted t).map (.prepend [c])
  | .ending, c :: t =>
    if c ≠ '\n' then none
    else if t.isEmpty then some .nothing
    else (readFrom .start t).map .endRecord
  | place, c :: t =>
    if c = ',' then (readFrom .start t).map .endField
    else if c = '\r' then readFrom .ending t
    else if c = '"' then
      match place with
      | .start => readFrom .quoted t
      | .closing => (readFrom .quoted t).map (.prepend ['"'])
      | _ => none
    else if c = '\n' ∨ place = .closing then none
    else (readFrom .plain t).map (.prepend [c])

def read (t : Text) : Option (List (List Text)) :=
  if t.isEmpty then some [] else (readFrom .start t).map fun r => (r.field :: r.fields) :: r.records

variable {t u v w : Text} {place : Place} {r : Remainder}

@[simp] theorem prepend_nil (r : Remainder) : r.prepend [] = r :=
  rfl

theorem prepend_cons (c : Char) (t : Text) :
    Remainder.prepend [c] ∘ .prepend t = .prepend (c :: t) :=
  rfl

theorem readFrom_quoted_append (v w : Text) :
    readFrom .quoted (doubleQuotes v ++ '"' :: w) = (readFrom .closing w).map (.prepend v) := by
  induction v with
  | nil =>
    cases hw : readFrom .closing w with
    | none => simp [readFrom, hw]
    | some r => simp [readFrom, hw]
  | cons c v ih =>
    by_cases hc : c = '"'
    · subst c
      rw [doubleQuotes_quote, List.cons_append, List.cons_append]
      simp only [readFrom, ↓reduceIte, Char.reduceEq, ih, Option.map_map, prepend_cons]
    · rw [doubleQuotes_cons hc, List.cons_append]
      simp only [readFrom, hc, ↓reduceIte, ih, Option.map_map, prepend_cons]

theorem field_of_readFrom_closing (h : readFrom .closing t = some r) (ht : t.head? ≠ some '"') :
    r.field = [] := by
  cases t with
  | nil =>
    cases h
    rfl
  | cons c t =>
    have hc : c ≠ '"' := fun hc => ht (congrArg some hc)
    simp only [readFrom, hc, ↓reduceIte, or_true] at h
    split at h
    · obtain ⟨q, -, rfl⟩ := Option.map_eq_some_iff.1 h
      rfl
    · split at h
      · cases t with
        | nil => cases h
        | cons d t =>
          simp only [readFrom] at h
          split at h
          · cases h
          · split at h
            · cases h
              rfl
            · obtain ⟨q, -, rfl⟩ := Option.map_eq_some_iff.1 h
              rfl
      · cases h

/-- A field in quotes is its text with doubled quotes, up to a quote that is not doubled. -/
theorem exists_of_readFrom_quoted (h : readFrom .quoted t = some r) :
    ∃ w, t = doubleQuotes r.field ++ '"' :: w := by
  induction t using List.twoStepInduction generalizing r with
  | nil => cases h
  | singleton c =>
    by_cases hc : c = '"'
    · subst c
      cases h
      exact ⟨[], rfl⟩
    · simp [readFrom, hc] at h
  | cons_cons c d t ih ih' =>
    by_cases hc : c = '"'
    · subst c
      by_cases hd : d = '"'
      · subst d
        simp only [readFrom, ↓reduceIte, Char.reduceEq] at h
        obtain ⟨q, hq, rfl⟩ := Option.map_eq_some_iff.1 h
        obtain ⟨w, rfl⟩ := ih hq
        refine ⟨w, ?_⟩
        rw [Remainder.prepend, List.singleton_append, doubleQuotes_quote, List.cons_append,
          List.cons_append]
      · rw [readFrom, if_pos rfl] at h
        have hfield := field_of_readFrom_closing h fun h => hd (Option.some.inj h)
        exact ⟨d :: t, by rw [hfield]; rfl⟩
    · rw [readFrom, if_neg hc] at h
      obtain ⟨q, hq, rfl⟩ := Option.map_eq_some_iff.1 h
      obtain ⟨w, hw⟩ := ih' d hq
      refine ⟨w, ?_⟩
      rw [Remainder.prepend, List.singleton_append, doubleQuotes_cons hc, List.cons_append, ← hw]

def isPlain (c : Char) : Bool :=
  !([',', '\r', '"', '\n'].contains c)

theorem readFrom_of_isPlain {c : Char} (hplace : place = .start ∨ place = .plain) (hc : isPlain c)
    (t : Text) : readFrom place (c :: t) = (readFrom .plain t).map (.prepend [c]) := by
  simp only [isPlain, List.contains_eq_mem, List.mem_cons, List.not_mem_nil, or_false,
    Bool.not_eq_true', decide_eq_false_iff_not, not_or] at hc
  obtain ⟨hcomma, hreturn, hquote, hfeed⟩ := hc
  rcases hplace with rfl | rfl
  · simp [readFrom, hcomma, hreturn, hquote, hfeed]
  · simp [readFrom, hcomma, hreturn, hquote, hfeed]

theorem readFrom_plain_append (h : t.all isPlain) :
    readFrom .plain (t ++ u) = (readFrom .plain u).map (.prepend t) := by
  induction t with
  | nil =>
    cases hu : readFrom .plain u with
    | none => simp [hu]
    | some r => simp [hu]
  | cons c t ih =>
    rw [List.all_cons, Bool.and_eq_true] at h
    rw [List.cons_append, readFrom_of_isPlain (.inr rfl) h.1, ih h.2, Option.map_map, prepend_cons]

theorem readFrom_header (t : Text) : readFrom .start (Sheet.header ++ t) =
    (readFrom .plain t).map fun r => ⟨"esco_uri".toList, ("data".toList ++ r.field) :: r.fields,
      r.records⟩ := by
  have hheader : Sheet.header ++ t =
      'e' :: ("sco_uri".toList ++ (',' :: 'd' :: ("ata".toList ++ t))) :=
    rfl
  have hcomma : ∀ u, readFrom .plain (',' :: u) = (readFrom .start u).map .endField := fun u => by
    simp [readFrom]
  rw [hheader, readFrom_of_isPlain (.inl rfl) rfl, readFrom_plain_append rfl, hcomma,
    readFrom_of_isPlain (.inl rfl) rfl, readFrom_plain_append rfl]
  cases readFrom .plain t with
  | none => rfl
  | some r => rfl

def quotedRecord (fields : List Text) : Text :=
  joinWith [','] (fields.map fun field => '"' :: doubleQuotes field ++ ['"'])

def Remainder.prependFields : List Text → Remainder → Remainder
  | [], r => r
  | [field], r => r.prepend field
  | field :: fields, r => (r.prependFields fields).endField.prepend field

theorem prependFields_cons (field : Text) (fields : List Text) (records : List (List Text)) :
    Remainder.prependFields (field :: fields) ⟨[], [], records⟩ = ⟨field, fields, records⟩ := by
  induction fields generalizing field with
  | nil => rw [Remainder.prependFields, Remainder.prepend, List.append_nil]
  | cons field' fields ih =>
    rw [Remainder.prependFields, ih, Remainder.endField, Remainder.prepend, List.append_nil]
    exact List.cons_ne_nil _ _

theorem readFrom_quotedRecord {fields : List Text} (h : fields ≠ []) (t : Text) :
    readFrom .start (quotedRecord fields ++ t) =
      (readFrom .closing t).map (.prependFields fields) := by
  have hquote : ∀ u, readFrom .start ('"' :: u) = readFrom .quoted u := fun u => by
    simp [readFrom]
  have hcomma : ∀ u, readFrom .closing (',' :: u) = (readFrom .start u).map .endField := fun u => by
    simp [readFrom]
  induction fields with
  | nil => exact absurd rfl h
  | cons field fields ih =>
    cases fields with
    | nil =>
      rw [quotedRecord, List.map_singleton, joinWith, List.append_assoc, List.cons_append, hquote,
        List.singleton_append, readFrom_quoted_append]
      rfl
    | cons field' fields =>
      have htext : quotedRecord (field :: field' :: fields) ++ t =
          '"' ::
            (doubleQuotes field ++ '"' :: (',' :: (quotedRecord (field' :: fields) ++ t))) := by
        simp [quotedRecord, joinWith]
      rw [htext, hquote, readFrom_quoted_append, hcomma, ih (List.cons_ne_nil _ _), Option.map_map,
        Option.map_map]
      rfl

theorem readFrom_lineBreak (hplace : place = .plain ∨ place = .closing) (ht : t ≠ []) :
    readFrom place (Sheet.lineBreak ++ t) = (readFrom .start t).map .endRecord := by
  have hempty : t.isEmpty = false := List.isEmpty_eq_false_iff.2 ht
  rcases hplace with rfl | rfl
  · simp [Sheet.lineBreak, readFrom, hempty]
  · simp [Sheet.lineBreak, readFrom, hempty]

theorem quotedRecord_append_ne_nil {fields : List Text} (h : fields ≠ []) (t : Text) :
    quotedRecord fields ++ t ≠ [] := by
  obtain ⟨field, fields, rfl⟩ := List.exists_cons_of_ne_nil h
  rw [quotedRecord, List.map_cons, joinWith_cons]
  exact List.cons_ne_nil _ _

theorem readFrom_quotedRecords {records : List (List Text)}
    (h : ∀ fields ∈ records, fields ≠ []) :
    readFrom .closing ((records.map quotedRecord).flatMap (Sheet.lineBreak ++ ·)) =
      some ⟨[], [], records⟩ := by
  induction records with
  | nil => rfl
  | cons fields records ih =>
    have hfields := h fields List.mem_cons_self
    rw [List.map_cons, List.flatMap_cons, List.append_assoc,
      readFrom_lineBreak (.inr rfl) (quotedRecord_append_ne_nil hfields _),
      readFrom_quotedRecord hfields, ih fun f hf => h f (List.mem_cons_of_mem _ hf)]
    obtain ⟨field, fields, rfl⟩ := List.exists_cons_of_ne_nil hfields
    rw [Option.map_some, Option.map_some, prependFields_cons, Remainder.endRecord]

/-- The specification of the reader: it reads back all records whose fields are put in quotes. -/
theorem read_quotedRecords {records : List (List Text)} (h : ∀ fields ∈ records, fields ≠ []) :
    read (joinWith Sheet.lineBreak (records.map quotedRecord)) = some records := by
  cases records with
  | nil => rfl
  | cons fields records =>
    have hfields := h fields List.mem_cons_self
    have hrest := readFrom_quotedRecords fun f hf => h f (List.mem_cons_of_mem _ hf)
    rw [List.map_cons, joinWith_cons, read,
      if_neg (mt List.isEmpty_iff.1 (quotedRecord_append_ne_nil hfields _)),
      readFrom_quotedRecord hfields, hrest]
    obtain ⟨field, fields, rfl⟩ := List.exists_cons_of_ne_nil hfields
    rw [Option.map_some, Option.map_some, prependFields_cons]

theorem readFrom_line {row : Row} {data : Text} (hdata : row.data = doubleQuotes data)
    (h : '"' ∉ row.uri) : readFrom .start (row.line ++ t) =
      (readFrom .closing t).map (.prependFields [row.uri, data]) := by
  have hline : row.line = quotedRecord [row.uri, data] := by
    simp [Row.line, quotedRecord, joinWith, doubleQuotes_of_notMem h, hdata]
  rw [hline, readFrom_quotedRecord (List.cons_ne_nil _ _)]

theorem notMem_of_readFrom_line {row : Row} (h : readFrom .start (row.line ++ t) = some r)
    (huri : r.field = row.uri) : '"' ∉ row.uri := by
  have hline : row.line ++ t =
      '"' :: (row.uri ++ '"' :: ',' :: ('"' :: (row.data ++ '"' :: t))) := by
    simp [Row.line]
  rw [hline] at h
  have hquoted : readFrom .quoted (row.uri ++ '"' :: ',' :: ('"' :: (row.data ++ '"' :: t))) =
      some r := by
    rw [← h]
    simp [readFrom]
  obtain ⟨w, hw⟩ := exists_of_readFrom_quoted hquoted
  rw [huri] at hw
  exact notMem_of_doubleQuotes_append hw.symm

def fields (r : Record) : List Text :=
  [r.uri?.getD [], r.raw.render]

theorem readFrom_lines_iff {records : List Record} (hplace : place = .plain ∨ place = .closing) :
    readFrom place (records.flatMap fun r => Sheet.lineBreak ++ (Row.ofRecord r).line) =
        some ⟨[], [], records.map fields⟩ ↔
      ∀ r ∈ records, '"' ∉ (Row.ofRecord r).uri := by
  induction records generalizing place with
  | nil =>
    rcases hplace with rfl | rfl
    · exact iff_of_true rfl (by simp)
    · exact iff_of_true rfl (by simp)
  | cons r records ih =>
    rw [List.flatMap_cons, List.append_assoc, List.forall_mem_cons, ← ih (.inr rfl)]
    generalize (records.flatMap fun r => Sheet.lineBreak ++ (Row.ofRecord r).line) = t
    have hline : (Row.ofRecord r).line ++ t ≠ [] := List.cons_ne_nil _ _
    rw [readFrom_lineBreak hplace hline, Option.map_eq_some_iff]
    constructor
    · rintro ⟨⟨field, rest, others⟩, hread, hfields⟩
      simp only [Remainder.endRecord, fields, List.map_cons, Remainder.mk.injEq, List.cons.injEq,
        true_and] at hfields
      obtain ⟨⟨rfl, rfl⟩, rfl⟩ := hfields
      have hquote := notMem_of_readFrom_line hread rfl
      rw [readFrom_line rfl hquote, Option.map_eq_some_iff] at hread
      obtain ⟨⟨field, rest, others⟩, hclosing, hrest⟩ := hread
      simp only [Remainder.prependFields, Remainder.endField, Remainder.prepend, Remainder.mk.injEq,
        List.cons.injEq, List.append_right_eq_self] at hrest
      obtain ⟨-, ⟨rfl, rfl⟩, rfl⟩ := hrest
      exact ⟨hquote, hclosing⟩
    · rintro ⟨hquote, hread⟩
      refine ⟨⟨(Row.ofRecord r).uri, [r.raw.render], records.map fields⟩, ?_, rfl⟩
      rw [readFrom_line rfl hquote, hread, Option.map_some, prependFields_cons]

end Strict

/-- The reader gives back the columns and the fields of each row exactly if no URI has a quote. -/
theorem read_convert_iff {records : List Record} (h : records ≠ []) :
    Strict.read (convert records).1 = some (Sheet.columns ::
        (records.filter Record.hasUri).map fun r => [r.uri?.getD [], r.raw.render]) ↔
      ∀ r ∈ records, r.hasUri → ∀ uri, r.uri? = some uri → '"' ∉ uri := by
  have hkept : (∀ r ∈ records.filter Record.hasUri, '"' ∉ (Row.ofRecord r).uri) ↔
      ∀ r ∈ records, r.hasUri → ∀ uri, r.uri? = some uri → '"' ∉ uri := by
    constructor
    · intro hquote r hr hhas uri huri
      have hrow := hquote r (List.mem_filter.2 ⟨hr, hhas⟩)
      rwa [Row.ofRecord, huri] at hrow
    · intro hquote r hr
      obtain ⟨hmem, hhas⟩ := List.mem_filter.1 hr
      obtain ⟨uri, huri, -⟩ := r.hasUri_eq_true_iff.1 hhas
      rw [Row.ofRecord, huri]
      exact hquote r hmem hhas uri huri
  rw [← hkept, ← Strict.readFrom_lines_iff (.inl rfl), convert_fst_of_ne_nil h, Strict.read,
    if_neg (mt List.isEmpty_iff.1 (Sheet.render_ne_nil _)), Sheet.render_eq, Strict.readFrom_header,
    Sheet.ofRecords, List.flatMap_map, Option.map_map]
  generalize Strict.readFrom .plain _ = remainder
  cases remainder with
  | none => exact iff_of_false (Option.some_ne_none _).symm (Option.some_ne_none _).symm
  | some r =>
    obtain ⟨field, rest, others⟩ := r
    have hfields : Strict.fields = fun r : Record => [r.uri?.getD [], r.raw.render] := rfl
    simp [Sheet.columns, hfields, and_assoc]

theorem read_convert_line_break :
    Strict.read (convert [⟨.object [(uriKey, .string "a,\r\nb".toList)]⟩]).1 =
      some [["esco_uri".toList, "data".toList],
        ["a,\r\nb".toList, "\x7b\"uri\":\"a,\\r\\nb\"\x7d".toList]] :=
  (read_convert_iff (List.cons_ne_nil _ _)).2 (by
    intro r hr _ uri huri
    cases List.mem_singleton.1 hr
    cases huri
    decide)

end RecordSheet
