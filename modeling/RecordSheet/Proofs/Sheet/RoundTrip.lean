import RecordSheet.Proofs.Json.RoundTrip
import RecordSheet.Proofs.Sheet.Decoding
import Mathlib.Data.List.Forall2

namespace RecordSheet

namespace Row

/-- The data field of a line with a given URI. -/
def dataField? (uri line : Text) : Option Text :=
  (line.dropPrefix? ('"' :: uri ++ separator)).bind fun rest => rest.dropSuffix? ['"']

/-- What the data field of a row's line is read as. -/
def record? (row : Row) : Option Json :=
  (dataField? row.uri row.line).bind fun data => (Json.parse (undoubleQuotes data)).toOption

theorem dataField?_line (row : Row) : dataField? row.uri row.line = some row.data := by
  have hprefix : row.line.dropPrefix? ('"' :: row.uri ++ separator) = some (row.data ++ ['"']) := by
    rw [List.dropPrefix?_eq_some_iff]
    refine ⟨_, ?_, beq_self_eq_true _⟩
    simp [line, separator]
  rw [dataField?, hprefix, Option.bind_some, List.dropSuffix?_eq_some_iff]
  exact ⟨_, rfl, beq_self_eq_true _⟩

theorem record?_ofRecord (r : Record) :
    (ofRecord r).record? = Json.reread Json.depthLimit r.raw := by
  rw [record?, dataField?_line, Option.bind_some, ofRecord, undoubleQuotes_doubleQuotes,
    Json.toOption_parse_render]

end Row

theorem Record.field?_of_hasUri {r : Record} (h : r.hasUri) :
    r.raw.field? uriKey = some (.string (Row.ofRecord r).uri) := by
  obtain ⟨uri, huri, -⟩ := r.hasUri_eq_true_iff.1 h
  rw [Row.ofRecord, huri, Option.getD_some]
  rw [Record.uri?, Option.bind_eq_some_iff] at huri
  obtain ⟨j, hj, ht⟩ := huri
  cases j with
  | string t =>
    cases ht
    exact hj
  | _ => cases ht

/--
Each row of a sheet is that of one record, and its line is read back as that record. That no key
stands twice in an object holds of the records of any document (`Record.distinctKeys_of_ofText`).
-/
theorem rows_read_back {records : List Record}
    (h : ∀ r ∈ records, r.hasUri → r.raw.DistinctKeys ∧ r.raw.depth ≤ Json.depthLimit ∧
      ∀ x, ¬Json.Occurs (.number (.float x)) r.raw) :
    List.Forall₂ (fun row r => row = Row.ofRecord r ∧ row.record? = some r.raw ∧
        r.raw.field? uriKey = some (.string row.uri))
      (Sheet.ofRecords records).rows (records.filter Record.hasUri) := by
  rw [Sheet.ofRecords, List.forall₂_map_left_iff, List.forall₂_same]
  intro r hr
  obtain ⟨hmem, hkept⟩ := List.mem_filter.1 hr
  obtain ⟨hkeys, hdepth, hfloats⟩ := h r hmem hkept
  refine ⟨rfl, ?_, r.field?_of_hasUri hkept⟩
  rw [Row.record?_ofRecord, Json.reread_eq_self_iff hkeys]
  exact ⟨hdepth, fun x hx => absurd hx (hfloats x)⟩

def quotedSample : Record :=
  ⟨.object [(uriKey, .string "a\"b\\".toList),
    (['n'], .array [.number (.integer ⟨0xFFFFFFFFFFFFFFFF, by decide⟩), .null])]⟩

theorem rows_read_back_quoted :
    List.Forall₂ (fun row r => row = Row.ofRecord r ∧ row.record? = some r.raw ∧
        r.raw.field? uriKey = some (.string row.uri))
      (Sheet.ofRecords [quotedSample]).rows ([quotedSample].filter Record.hasUri) :=
  rows_read_back (by
    intro r hr _
    cases List.mem_singleton.1 hr
    have harray : Json.DistinctKeys
        (.array [.number (.integer ⟨0xFFFFFFFFFFFFFFFF, by decide⟩), .null]) :=
      .array (List.forall_mem_cons.2 ⟨.of_depth_eq_zero rfl,
        List.forall_mem_singleton.2 (.of_depth_eq_zero rfl)⟩)
    refine ⟨.object (by decide) (List.forall_mem_cons.2 ⟨.of_depth_eq_zero rfl,
      List.forall_mem_singleton.2 harray⟩), by decide, ?_⟩
    intro x hx
    cases hx with
    | member hm hx =>
      rcases List.mem_cons.1 hm with rfl | hm
      · cases hx
      · cases List.mem_singleton.1 hm
        cases hx with
        | item hj hx =>
          rcases List.mem_cons.1 hj with rfl | hj
          · cases hx
          · cases List.mem_singleton.1 hj
            cases hx)

theorem line_read_back_iff {r : Record} (hkept : r.hasUri) (hkeys : r.raw.DistinctKeys) {j : Json}
    (hread : (Row.ofRecord r).record? = some j) :
    (Row.ofRecord ⟨j⟩).line = (Row.ofRecord r).line ↔ j = r.raw := by
  constructor
  · intro hline
    rw [Row.record?_ofRecord] at hread
    have hfield := Json.field?_of_reread hkeys hread (r.field?_of_hasUri hkept)
    have huri : (Row.ofRecord ⟨j⟩).uri = (Row.ofRecord r).uri := by
      simp only [Row.ofRecord, Record.uri?, hfield, Option.bind_some, Json.text?, Option.getD_some]
    have hdata := Row.dataField?_line (Row.ofRecord ⟨j⟩)
    rw [hline, huri, Row.dataField?_line] at hdata
    exact Json.render_inj (doubleQuotes_injective (Option.some.inj hdata).symm)
  · rintro rfl
    rfl

/-- A record is read back as itself, and written again as the same line, exactly if it is stable. -/
theorem record_stable_iff {r : Record} (hkept : r.hasUri) (hkeys : r.raw.DistinctKeys)
    (hdepth : r.raw.depth ≤ Json.depthLimit) :
    ((Row.ofRecord r).record? = some r.raw ↔ r.raw.FloatsStable) ∧
      ((∃ j, (Row.ofRecord r).record? = some j ∧
        (Row.ofRecord ⟨j⟩).line = (Row.ofRecord r).line) ↔ r.raw.FloatsStable) := by
  have hself : (Row.ofRecord r).record? = some r.raw ↔ r.raw.FloatsStable := by
    rw [Row.record?_ofRecord, Json.reread_eq_self_iff hkeys]
    exact and_iff_right hdepth
  refine ⟨hself, ?_⟩
  rw [← hself]
  constructor
  · rintro ⟨j, hj, hline⟩
    rwa [(line_read_back_iff hkept hkeys hj).1 hline] at hj
  · intro hr
    exact ⟨r.raw, hr, rfl⟩

def floatSample (x : Binary64) : Record :=
  ⟨.object [(uriKey, .string ['u']), (['v'], .number (.float x))]⟩

theorem hasUri_floatSample (x : Binary64) : (floatSample x).hasUri :=
  rfl

theorem distinctKeys_floatSample (x : Binary64) : (floatSample x).raw.DistinctKeys :=
  .object (by simp [uriKey]) (List.forall_mem_cons.2 ⟨.of_depth_eq_zero rfl,
    List.forall_mem_singleton.2 (.of_depth_eq_zero rfl)⟩)

theorem floatsStable_floatSample {x : Binary64} :
    (floatSample x).raw.FloatsStable ↔ x.Stable := by
  constructor
  · intro h
    exact h x (.member (List.mem_cons_of_mem _ List.mem_cons_self) .self)
  · intro h y hy
    cases hy with
    | member hm hy =>
      rcases List.mem_cons.1 hm with rfl | hm
      · cases hy
      · cases List.mem_singleton.1 hm
        cases hy
        exact h

theorem record?_floatSample {x y : Binary64}
    (h : (Number.literal (.float x)).number? = some (.float y)) :
    (Row.ofRecord (floatSample x)).record? = some (floatSample y).raw := by
  rw [Row.record?_ofRecord, floatSample, Json.depthLimit,
    Json.reread_object (distinctKeys_floatSample x).keys]
  simp only [Json.rereadMembers, Json.reread, h, Option.bind_some, Option.map_some, floatSample]

theorem record_read_back_quarter :
    (Row.ofRecord (floatSample ⟨false, 0x3FD0000000000000, by decide⟩)).record? =
      some (floatSample ⟨false, 0x3FD0000000000000, by decide⟩).raw :=
  (record_stable_iff (hasUri_floatSample _) (distinctKeys_floatSample _) (by decide)).1.2
    (floatsStable_floatSample.2
      (Binary64.stable_of_exact (by decide +kernel) (by decide +kernel) (by decide +kernel)))

/--
An eighth more than a thousand million millions is printed with a tenth instead, and read back as a
thousand million millions, which is written as another line.
-/
theorem record_read_back_drifts :
    (floatSample ⟨false, 0x430C6BF526340001, by decide⟩).hasUri ∧
      (floatSample ⟨false, 0x430C6BF526340001, by decide⟩).raw.DistinctKeys ∧
      (floatSample ⟨false, 0x430C6BF526340001, by decide⟩).raw.depth ≤ Json.depthLimit ∧
      (Row.ofRecord (floatSample ⟨false, 0x430C6BF526340001, by decide⟩)).record? =
        some (floatSample ⟨false, 0x430C6BF526340000, by decide⟩).raw ∧
      (Row.ofRecord (floatSample ⟨false, 0x430C6BF526340000, by decide⟩)).line ≠
        (Row.ofRecord (floatSample ⟨false, 0x430C6BF526340001, by decide⟩)).line := by
  have hread : (Row.ofRecord (floatSample ⟨false, 0x430C6BF526340001, by decide⟩)).record? =
      some (floatSample ⟨false, 0x430C6BF526340000, by decide⟩).raw :=
    record?_floatSample (by decide +kernel)
  have hkeys := distinctKeys_floatSample ⟨false, 0x430C6BF526340001, by decide⟩
  refine ⟨hasUri_floatSample _, hkeys, by decide, hread, fun hline => ?_⟩
  cases (line_read_back_iff (hasUri_floatSample _) hkeys hread).1 hline

end RecordSheet
