import RecordSheet.Proofs.Sheet.Decoding

namespace RecordSheet

/-- What is not kept: no object, one without a string for its URI, or one with only white space there. -/
inductive Record.Unusable : Record → Prop
  | notObject {j : Json} (h : ∀ members, j ≠ .object members) : Unusable ⟨j⟩
  | noString {members : List (Text × Json)}
    (h : ∀ uri, members.lookup uriKey ≠ some (.string uri)) : Unusable ⟨.object members⟩
  | blank {members : List (Text × Json)} {uri : Text}
    (h : members.lookup uriKey = some (.string uri)) (hblank : ∀ c ∈ uri, isBlank c = true) :
    Unusable ⟨.object members⟩

theorem Record.hasUri_eq_false_iff {r : Record} : r.hasUri = false ↔ r.Unusable := by
  rw [← Bool.not_eq_true, hasUri_eq_true_iff]
  constructor
  · intro h
    obtain ⟨j⟩ := r
    cases j with
    | object members =>
      by_cases hstring : ∃ uri, members.lookup uriKey = some (.string uri)
      · obtain ⟨uri, hlookup⟩ := hstring
        apply Unusable.blank hlookup
        intro c hc
        by_contra hblank
        have huri := uri?_eq_some_iff.2 ⟨members, rfl, hlookup⟩
        exact h ⟨uri, huri, c, hc, Bool.eq_false_of_not_eq_true hblank⟩
      · apply Unusable.noString
        intro uri hlookup
        exact hstring ⟨uri, hlookup⟩
    | _ => exact .notObject nofun
  · rintro h ⟨uri, huri, c, hc, hblank⟩
    obtain ⟨members, hraw, hlookup⟩ := uri?_eq_some_iff.1 huri
    cases h with
    | notObject h => exact h members hraw
    | noString h =>
      cases hraw
      exact h uri hlookup
    | blank h hall =>
      cases hraw
      rw [h] at hlookup
      cases hlookup
      rw [hall c hc] at hblank
      cases hblank

namespace Sheet

variable (records others : List Record) {r : Record}

def lines : List Text :=
  (records.filter Record.hasUri).map fun r => (Row.ofRecord r).line

def body : Text :=
  (lines records).flatMap (lineBreak ++ ·)

theorem lines_append : lines (records ++ others) = lines records ++ lines others := by
  rw [lines, List.filter_append, List.map_append, lines, lines]

theorem body_append : body (records ++ others) = body records ++ body others := by
  rw [body, lines_append, List.flatMap_append, body, body]

theorem lines_cons_of_unusable (h : r.Unusable) : lines (r :: records) = lines records := by
  rw [lines, List.filter_cons_of_neg, lines]
  rw [Record.hasUri_eq_false_iff.2 h]
  exact Bool.false_ne_true

theorem lines_cons_of_usable (h : ¬r.Unusable) :
    lines (r :: records) = (Row.ofRecord r).line :: lines records := by
  rw [← Record.hasUri_eq_false_iff, Bool.not_eq_false] at h
  rw [lines, List.filter_cons_of_pos h, List.map_cons, lines]

theorem body_cons_of_unusable (h : r.Unusable) : body (r :: records) = body records := by
  rw [body, lines_cons_of_unusable records h, body]

theorem body_cons_of_usable (h : ¬r.Unusable) :
    body (r :: records) = lineBreak ++ (Row.ofRecord r).line ++ body records := by
  rw [body, lines_cons_of_usable records h, List.flatMap_cons, body]

theorem convert_fst_eq {records : List Record} (h : records ≠ []) :
    (convert records).1 = header ++ body records := by
  rw [convert_fst_of_ne_nil h, render_eq, ofRecords, List.flatMap_map, body, lines,
    List.flatMap_map]

theorem convert_snd_eq : (convert records).2 = ⟨records.length, (lines records).length⟩ := by
  cases records with
  | nil => rfl
  | cons r records =>
    rw [lines, List.length_map]
    exact congrArg (Counts.mk _) (List.length_map _)

end Sheet

/--
The counts of two lists of records together are the sums of their counts, and their sheet is that of
the first list, followed by that of the second one without its header. A record that is unusable
changes nothing but the count of the records, wherever it is put in. Any other record adds a line
break and its line behind the lines of the records before it, and one to either count.
-/
theorem convert_append (records others : List Record) :
    let before := convert records
    let after := convert others
    let whole := convert (records ++ others)
    whole.2 = ⟨before.2.records + after.2.records, before.2.rows + after.2.rows⟩ ∧
    (records ≠ [] → others ≠ [] → ∃ rest, after.1 = "esco_uri,data".toList ++ rest ∧
      whole.1 = before.1 ++ rest) ∧
    (records ++ others ≠ [] → ∀ r : Record,
      let inserted := convert (records ++ r :: others)
      (r.Unusable → inserted = (whole.1, ⟨whole.2.records + 1, whole.2.rows⟩)) ∧
      (¬r.Unusable →
        let front := joinWith Sheet.lineBreak ("esco_uri,data".toList :: Sheet.lines records)
        ∃ back, whole.1 = front ++ back ∧
          inserted = (front ++ Sheet.lineBreak ++ (Row.ofRecord r).line ++ back,
            ⟨whole.2.records + 1, whole.2.rows + 1⟩))) := by
  have hheader : Sheet.header = "esco_uri,data".toList := by decide
  dsimp only
  rw [← hheader]
  refine ⟨?_, ?_, ?_⟩
  · simp only [Sheet.convert_snd_eq, Sheet.lines_append, List.length_append]
  · intro hrecords hothers
    have happend : records ++ others ≠ [] := List.append_ne_nil_of_left_ne_nil hrecords others
    refine ⟨Sheet.body others, Sheet.convert_fst_eq hothers, ?_⟩
    rw [Sheet.convert_fst_eq happend, Sheet.convert_fst_eq hrecords, Sheet.body_append,
      List.append_assoc]
  · intro hne r
    have hinserted : records ++ r :: others ≠ [] :=
      List.append_ne_nil_of_right_ne_nil records (List.cons_ne_nil r others)
    constructor
    · intro hr
      apply Prod.ext
      · rw [Sheet.convert_fst_eq hinserted, Sheet.convert_fst_eq hne, Sheet.body_append,
          Sheet.body_append, Sheet.body_cons_of_unusable others hr]
      · simp only [Sheet.convert_snd_eq, Sheet.lines_append, Sheet.lines_cons_of_unusable others hr,
          List.length_append, List.length_cons, Nat.add_assoc]
    · intro hr
      have hfront : joinWith Sheet.lineBreak (Sheet.header :: Sheet.lines records) =
          Sheet.header ++ Sheet.body records := joinWith_cons _ _ _
      rw [hfront]
      refine ⟨Sheet.body others, ?_, ?_⟩
      · rw [Sheet.convert_fst_eq hne, Sheet.body_append, List.append_assoc]
      · apply Prod.ext
        · rw [Sheet.convert_fst_eq hinserted, Sheet.body_append,
            Sheet.body_cons_of_usable others hr]
          simp only [List.append_assoc]
        · simp only [Sheet.convert_snd_eq, Sheet.lines_append, Sheet.lines_cons_of_usable others hr,
            List.length_append, List.length_cons, Nat.add_assoc]

end RecordSheet
