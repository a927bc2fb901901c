import RecordSheet.Sheet.Basic
import RecordSheet.Proofs.Json.Injective
import RecordSheet.Proofs.Sheet.Quotes
import Mathlib.Data.List.Induction

namespace RecordSheet

namespace Row

theorem append_line (p : Text) (r : Row) :
    p ++ r.line = p ++ '"' :: r.uri ++ (separator ++ r.data) ++ ['"'] := by
  simp [line, separator]

theorem ofRecord_inj {r s : Record} (h : (ofRecord r).data = (ofRecord s).data) : r = s := by
  obtain ⟨raw⟩ := r
  obtain ⟨raw'⟩ := s
  exact congrArg Record.mk (Json.render_inj (doubleQuotes_injective h))

end Row

namespace Record

theorem exists_object_of_hasUri {r : Record} (h : r.hasUri) :
    ∃ members, r.raw = .object members := by
  obtain ⟨raw⟩ := r
  cases raw with
  | object members => exact ⟨members, rfl⟩
  | _ => cases h

end Record

theorem data_head {r : Record} (h : r.hasUri) : (Row.ofRecord r).data.head? = some '\x7b' := by
  obtain ⟨members, hr⟩ := r.exists_object_of_hasUri h
  rw [Row.ofRecord, hr, Json.render_object, List.cons_append, doubleQuotes_cons (by decide),
    List.head?_cons]

namespace Sheet

variable {records others : List Record} {r s : Record}

theorem render_eq (s : Sheet) :
    s.render = header ++ s.rows.flatMap fun row => lineBreak ++ row.line := by
  rw [render, joinWith_cons, List.flatMap_map]

/-- The last line of a sheet is that of one record only, and so is all that stands before it. -/
theorem append_line_inj {p q : Text} (hr : r.hasUri) (hs : s.hasUri)
    (h : p ++ (Row.ofRecord r).line = q ++ (Row.ofRecord s).line) : p = q ∧ r = s := by
  rw [Row.append_line, Row.append_line] at h
  obtain ⟨hfront, hdata⟩ := append_separator_inj (evenRuns_doubleQuotes _) (evenRuns_doubleQuotes _)
    (data_head hr) (data_head hs) (List.append_cancel_right h)
  cases Row.ofRecord_inj hdata
  exact ⟨List.append_cancel_right hfront, rfl⟩

theorem lines_inj (hrecords : ∀ r ∈ records, r.hasUri) (hothers : ∀ r ∈ others, r.hasUri)
    (h : (records.flatMap fun r => lineBreak ++ (Row.ofRecord r).line) =
      others.flatMap fun r => lineBreak ++ (Row.ofRecord r).line) : records = others := by
  induction records using List.reverseRecOn generalizing others with
  | nil =>
    cases others with
    | nil => rfl
    | cons s others => cases h
  | append_singleton records r ih =>
    rcases List.eq_nil_or_concat' others with rfl | ⟨others, s, rfl⟩
    · rw [List.flatMap_append, List.flatMap_singleton] at h
      exact absurd (List.append_eq_nil_iff.1 h).2 (List.cons_ne_nil _ _)
    · simp only [List.flatMap_append, List.flatMap_singleton, ← List.append_assoc] at h
      obtain ⟨hfront, rfl⟩ := append_line_inj (hrecords r (by simp)) (hothers s (by simp)) h
      rw [ih (fun r hr => hrecords r (List.mem_append_left _ hr))
        (fun r hr => hothers r (List.mem_append_left _ hr)) (List.append_cancel_right hfront)]

theorem filter_eq_of_render_eq (h : (ofRecords records).render = (ofRecords others).render) :
    records.filter Record.hasUri = others.filter Record.hasUri := by
  rw [render_eq, render_eq, ofRecords, ofRecords, List.flatMap_map, List.flatMap_map] at h
  apply lines_inj (fun r hr => (List.mem_filter.1 hr).2) (fun r hr => (List.mem_filter.1 hr).2)
  exact List.append_cancel_left h

theorem render_ne_nil (s : Sheet) : s.render ≠ [] := by
  rw [render_eq]
  exact List.append_ne_nil_of_left_ne_nil (by decide) _

end Sheet

theorem convert_fst_of_ne_nil {records : List Record} (h : records ≠ []) :
    (convert records).1 = (Sheet.ofRecords records).render := by
  rw [convert, if_neg (by simpa using h)]

theorem convert_fst_eq_nil_iff {records : List Record} :
    (convert records).1 = [] ↔ records = [] := by
  constructor
  · intro h
    by_contra hne
    rw [convert_fst_of_ne_nil hne] at h
    exact Sheet.render_ne_nil _ h
  · rintro rfl
    rfl

/-- Two lists of records give the same text if their rows are the same and both or none is empty. -/
theorem convert_fst_eq_iff (records others : List Record) :
    (convert records).1 = (convert others).1 ↔
      (Sheet.ofRecords records).rows = (Sheet.ofRecords others).rows ∧
        (records = [] ↔ others = []) := by
  constructor
  · intro h
    have hnil : records = [] ↔ others = [] := by
      rw [← convert_fst_eq_nil_iff, h, convert_fst_eq_nil_iff]
    refine ⟨?_, hnil⟩
    by_cases hrecords : records = []
    · rw [hrecords, hnil.1 hrecords]
    · rw [convert_fst_of_ne_nil hrecords, convert_fst_of_ne_nil (mt hnil.2 hrecords)] at h
      rw [Sheet.ofRecords, Sheet.ofRecords, Sheet.filter_eq_of_render_eq h]
  · rintro ⟨hrows, hnil⟩
    by_cases hrecords : records = []
    · rw [hrecords, hnil.1 hrecords]
    · rw [convert_fst_of_ne_nil hrecords, convert_fst_of_ne_nil (mt hnil.2 hrecords), Sheet.render,
        Sheet.render, hrows]

end RecordSheet
