import RecordSheet.Proofs.Json.Printable
import RecordSheet.Proofs.Sheet.Decoding

namespace RecordSheet

/-- The pieces of a text between its line breaks. -/
def splitLines : Text → List Text
  | [] => [[]]
  | '\r' :: '\n' :: t => [] :: splitLines t
  | c :: t => (splitLines t).modifyHead (c :: ·)

variable {t u : Text} {ls : List Text} {c : Char} {records : List Record}

theorem splitLines_cons (h : c = '\r' → t.head? ≠ some '\n') :
    splitLines (c :: t) = (splitLines t).modifyHead (c :: ·) := by
  rw [splitLines]
  rintro u rfl rfl
  exact h rfl rfl

theorem splitLines_induction {p : Text → Prop} (nil : p [])
    (lineBreak : ∀ t, p t → p ('\r' :: '\n' :: t))
    (cons : ∀ c t, (c = '\r' → t.head? ≠ some '\n') → p t → p (c :: t)) (t : Text) : p t := by
  induction t using splitLines.induct with
  | case1 => exact nil
  | case2 t ih => exact lineBreak t ih
  | case3 c t h ih =>
    refine cons c t (fun hc ht => ?_) ih
    obtain ⟨u, hu⟩ := List.head?_eq_some_iff.1 ht
    exact h u hc hu

theorem splitLines_ne_nil (t : Text) : splitLines t ≠ [] := by
  induction t using splitLines_induction with
  | nil => exact List.cons_ne_nil _ _
  | lineBreak t ih => exact List.cons_ne_nil _ _
  | cons c t h ih => rwa [splitLines_cons h, Ne, List.modifyHead_eq_nil_iff]

theorem joinWith_splitLines (t : Text) : joinWith Sheet.lineBreak (splitLines t) = t := by
  induction t using splitLines_induction with
  | nil => rfl
  | lineBreak t ih =>
    obtain ⟨l, ls, hl⟩ := List.exists_cons_of_ne_nil (splitLines_ne_nil t)
    rw [hl] at ih
    rw [splitLines, hl, joinWith, ih]
    · rfl
    · exact List.cons_ne_nil l ls
  | cons c t h ih =>
    obtain ⟨l, ls, hl⟩ := List.exists_cons_of_ne_nil (splitLines_ne_nil t)
    rw [hl, joinWith_cons] at ih
    rw [splitLines_cons h, hl, List.modifyHead_cons, joinWith_cons, List.cons_append, ih]

theorem splitLines_append_lineBreak (t u : Text) :
    splitLines (t ++ (Sheet.lineBreak ++ u)) = splitLines t ++ splitLines u := by
  induction t using splitLines_induction with
  | nil => rfl
  | lineBreak t ih =>
    rw [List.cons_append, List.cons_append, splitLines, ih, splitLines, List.cons_append]
  | cons c t h ih =>
    -- a carriage return at the very end of the text does not go with the line feed behind it
    have hnext : c = '\r' → (t ++ (Sheet.lineBreak ++ u)).head? ≠ some '\n' := by
      intro hc
      cases t with
      | nil => exact fun hhead => absurd (Option.some.inj hhead) (by decide)
      | cons d t => exact h hc
    obtain ⟨l, ls, hl⟩ := List.exists_cons_of_ne_nil (splitLines_ne_nil t)
    rw [List.cons_append, splitLines_cons hnext, ih, splitLines_cons h, hl, List.cons_append,
      List.modifyHead_cons, List.modifyHead_cons, List.cons_append]

theorem splitLines_joinWith (h : ls ≠ []) :
    splitLines (joinWith Sheet.lineBreak ls) = ls.flatMap splitLines := by
  obtain ⟨l, ls, rfl⟩ := List.exists_cons_of_ne_nil h
  clear h
  rw [joinWith_cons, List.flatMap_cons]
  induction ls generalizing l with
  | nil => rw [List.flatMap_nil, List.flatMap_nil, List.append_nil, List.append_nil]
  | cons m ls ih =>
    rw [List.flatMap_cons, List.append_assoc, splitLines_append_lineBreak, ih, List.flatMap_cons]

theorem length_splitLines_eq_one_iff :
    (splitLines t).length = 1 ↔ ¬Sheet.lineBreak <:+: t := by
  constructor
  · rintro h ⟨a, b, rfl⟩
    have ha := List.length_pos_iff.2 (splitLines_ne_nil a)
    have hb := List.length_pos_iff.2 (splitLines_ne_nil b)
    rw [List.append_assoc, splitLines_append_lineBreak, List.length_append] at h
    omega
  · intro h
    induction t using splitLines_induction with
    | nil => rfl
    | lineBreak t ih => exact absurd ⟨[], t, rfl⟩ h
    | cons c t hc ih =>
      rw [splitLines_cons hc, List.length_modifyHead]
      exact ih fun ht => h (List.infix_cons ht)

theorem splitLines_of_length_eq_one (h : (splitLines t).length = 1) : splitLines t = [t] := by
  obtain ⟨l, hl⟩ := List.length_eq_one_iff.1 h
  have ht := joinWith_splitLines t
  rw [hl, joinWith] at ht
  rw [hl, ht]

/-- What holds no carriage return breaks no line behind a text unless it begins with a line feed. -/
theorem length_splitLines_append (hreturn : '\r' ∉ u) (hfeed : u.head? ≠ some '\n') :
    (splitLines (t ++ u)).length = (splitLines t).length := by
  induction t using splitLines_induction with
  | nil =>
    rw [List.nil_append, length_splitLines_eq_one_iff.2]
    · rfl
    · exact fun h => hreturn (h.subset List.mem_cons_self)
  | lineBreak t ih =>
    rw [List.cons_append, List.cons_append, splitLines, splitLines, List.length_cons,
      List.length_cons, ih]
  | cons c t h ih =>
    have hnext : c = '\r' → (t ++ u).head? ≠ some '\n' := by
      cases t with
      | nil => exact fun _ => hfeed
      | cons d t => exact h
    rw [List.cons_append, splitLines_cons hnext, splitLines_cons h, List.length_modifyHead,
      List.length_modifyHead, ih]

namespace Row

theorem not_control_data (r : Record) : ∀ c ∈ (ofRecord r).data, 0x20 ≤ c.toNat := by
  intro c hc
  rw [ofRecord, doubleQuotes, List.mem_flatMap] at hc
  obtain ⟨d, hd, hc⟩ := hc
  split at hc
  · have hquote : c = '"' := by simpa using hc
    rw [hquote]
    decide
  · rw [List.mem_singleton.1 hc]
    exact Json.not_control_render r.raw d hd

/-- The line of a row breaks where its URI does, and nowhere else. -/
theorem length_splitLines_line (r : Record) :
    (splitLines (ofRecord r).line).length = (splitLines (ofRecord r).uri).length := by
  have hline : (ofRecord r).line =
      '"' :: ((ofRecord r).uri ++ '"' :: ',' :: '"' :: ((ofRecord r).data ++ ['"'])) := by
    simp [line]
  have hreturn : '\r' ∉ '"' :: ',' :: '"' :: ((ofRecord r).data ++ ['"']) := by
    intro h
    have hdata : '\r' ∈ (ofRecord r).data := by simpa using h
    exact absurd (not_control_data r _ hdata) (by decide)
  rw [hline, splitLines_cons (fun h => absurd h (by decide)), List.length_modifyHead,
    length_splitLines_append hreturn]
  exact fun h => absurd (Option.some.inj h) (by decide)

end Row

theorem length_le_length_flatMap {α β : Type} {f : α → List β} {xs : List α}
    (h : ∀ x ∈ xs, f x ≠ []) : xs.length ≤ (xs.flatMap f).length := by
  induction xs with
  | nil => exact Nat.le_refl _
  | cons x xs ih =>
    obtain ⟨hx, hxs⟩ := List.forall_mem_cons.1 h
    have hpos := List.length_pos_iff.2 hx
    have hle := ih hxs
    rw [List.flatMap_cons, List.length_append, List.length_cons]
    omega

theorem length_flatMap_eq_iff {α β : Type} {f : α → List β} {xs : List α}
    (h : ∀ x ∈ xs, f x ≠ []) : (xs.flatMap f).length = xs.length ↔ ∀ x ∈ xs, (f x).length = 1 := by
  induction xs with
  | nil => simp
  | cons x xs ih =>
    obtain ⟨hx, hxs⟩ := List.forall_mem_cons.1 h
    have hpos := List.length_pos_iff.2 hx
    have hle := length_le_length_flatMap hxs
    rw [List.flatMap_cons, List.length_append, List.length_cons, List.forall_mem_cons, ← ih hxs]
    omega

namespace Sheet

def Unbroken (records : List Record) : Prop :=
  ∀ r ∈ records, r.hasUri → ∀ uri, r.uri? = some uri → ¬lineBreak <:+: uri

theorem unbroken_iff : Unbroken records ↔
    ∀ r ∈ records.filter Record.hasUri, (splitLines (Row.ofRecord r).line).length = 1 := by
  constructor
  · intro h r hr
    obtain ⟨hmem, hhas⟩ := List.mem_filter.1 hr
    obtain ⟨uri, huri, -⟩ := r.hasUri_eq_true_iff.1 hhas
    rw [Row.length_splitLines_line, Row.ofRecord, huri, Option.getD_some,
      length_splitLines_eq_one_iff]
    exact h r hmem hhas uri huri
  · intro h r hmem hhas uri huri
    have hline := h r (List.mem_filter.2 ⟨hmem, hhas⟩)
    rwa [Row.length_splitLines_line, Row.ofRecord, huri, Option.getD_some,
      length_splitLines_eq_one_iff] at hline

theorem splitLines_render (records : List Record) :
    splitLines (ofRecords records).render =
      header ::
        (records.filter Record.hasUri).flatMap fun r => splitLines (Row.ofRecord r).line := by
  have hheader : splitLines header = [header] := splitLines_of_length_eq_one (by decide)
  rw [render, splitLines_joinWith (List.cons_ne_nil _ _), List.flatMap_cons, hheader, ofRecords,
    List.map_map, List.flatMap_map, List.singleton_append]
  rfl

end Sheet

/--
The pieces of a sheet are its header and, in the order of the rows, the pieces of their lines. They
are one for each row, and then they are the lines, exactly if no URI of a row holds a line break.
-/
theorem splitLines_convert (h : records ≠ []) :
    splitLines (convert records).1 = Sheet.header ::
        (records.filter Record.hasUri).flatMap (fun r => splitLines (Row.ofRecord r).line) ∧
      ((splitLines (convert records).1).length = 1 + (records.filter Record.hasUri).length ↔
        Sheet.Unbroken records) ∧
      (splitLines (convert records).1 = Sheet.header ::
          (records.filter Record.hasUri).map (fun r => (Row.ofRecord r).line) ↔
        Sheet.Unbroken records) := by
  have hpieces : splitLines (convert records).1 = Sheet.header ::
      (records.filter Record.hasUri).flatMap fun r => splitLines (Row.ofRecord r).line := by
    rw [convert_fst_of_ne_nil h, Sheet.splitLines_render]
  have hcount : (splitLines (convert records).1).length =
      1 + (records.filter Record.hasUri).length ↔ Sheet.Unbroken records := by
    rw [hpieces, List.length_cons, Nat.add_comm, Nat.add_left_cancel_iff, Sheet.unbroken_iff]
    exact length_flatMap_eq_iff fun r _ => splitLines_ne_nil _
  refine ⟨hpieces, hcount, fun hlines => ?_, fun hunbroken => ?_⟩
  · rw [← hcount, hlines, List.length_cons, List.length_map, Nat.add_comm]
  · rw [hpieces, ← List.flatMap_singleton' (List.map _ _), List.flatMap_map]
    congr 1
    apply List.flatMap_congr
    intro r hr
    exact splitLines_of_length_eq_one (Sheet.unbroken_iff.1 hunbroken r hr)

def uriSample (uri : Text) : Record :=
  ⟨.object [(uriKey, .string uri)]⟩

/-- Carriage returns and line feeds that do not stand together break no line. -/
theorem splitLines_convert_lone_breaks :
    [uriSample "a\n\rb\r".toList, uriSample [' '], uriSample ['\n', 'c']] ≠ [] ∧
      Sheet.Unbroken [uriSample "a\n\rb\r".toList, uriSample [' '], uriSample ['\n', 'c']] ∧
      splitLines (convert
          [uriSample "a\n\rb\r".toList, uriSample [' '], uriSample ['\n', 'c']]).1 =
        [Sheet.header, (Row.ofRecord (uriSample "a\n\rb\r".toList)).line,
          (Row.ofRecord (uriSample ['\n', 'c'])).line] := by
  have hunbroken :
      Sheet.Unbroken [uriSample "a\n\rb\r".toList, uriSample [' '], uriSample ['\n', 'c']] := by
    rw [Sheet.unbroken_iff]
    decide
  refine ⟨List.cons_ne_nil _ _, hunbroken, ?_⟩
  exact (splitLines_convert (List.cons_ne_nil _ _)).2.2.2 hunbroken

theorem splitLines_convert_broken_uri :
    [uriSample "a\r\nb".toList] ≠ [] ∧
      splitLines (convert [uriSample "a\r\nb".toList]).1 =
        [Sheet.header, "\"a".toList,
          "b\",\"\x7b\"\"uri\"\":\"\"a\\r\\nb\"\"\x7d\"".toList] ∧
      (splitLines (convert [uriSample "a\r\nb".toList]).1).length ≠
        1 + ([uriSample "a\r\nb".toList].filter Record.hasUri).length ∧
      splitLines (convert [uriSample "a\r\nb".toList]).1 ≠ Sheet.header ::
        ([uriSample "a\r\nb".toList].filter Record.hasUri).map
          (fun r => (Row.ofRecord r).line) := by
  decide

/--
Doubling quotes is undone by halving them, and it leads to those texts in which every run of quotes is
of even length. The data field of a row is such a text, and no control character is in it.
-/
theorem doubleQuotes_onto_evenRuns (s t : Text) (r : Record) :
    (EvenRuns (doubleQuotes s) ∧ undoubleQuotes (doubleQuotes s) = s) ∧
    (EvenRuns t ↔ doubleQuotes (undoubleQuotes t) = t) ∧
    EvenRuns (Row.ofRecord r).data ∧ (∀ c ∈ (Row.ofRecord r).data, 0x20 ≤ c.toNat) ∧
    '\r' ∉ (Row.ofRecord r).data ∧ '\n' ∉ (Row.ofRecord r).data := by
  have hcontrol := Row.not_control_data r
  refine ⟨⟨evenRuns_doubleQuotes s, undoubleQuotes_doubleQuotes s⟩, evenRuns_iff,
    evenRuns_doubleQuotes _, hcontrol, ?_, ?_⟩
  · exact fun h => absurd (hcontrol _ h) (by decide)
  · exact fun h => absurd (hcontrol _ h) (by decide)

end RecordSheet
