import RecordSheet.Proofs.Json.Completeness
import RecordSheet.Proofs.Json.Soundness
import RecordSheet.Records.Document

namespace RecordSheet

namespace Json

variable {la : Nat} {s : Rest} {t : Text} {j : Json}

theorem ofPieces_eq_ok_iff :
    ofPieces la s = .ok j ↔ ∃ t f, s = chars t ∧ JsonText t f ∧ f.Denotes depthLimit j := by
  constructor
  · exact exists_jsonText_of_ofPieces
  · rintro ⟨t, f, rfl, ht, hj⟩
    exact ofPieces_of_jsonText la ht hj

theorem parse_eq_ok_iff : parse t = .ok j ↔ ∃ f, JsonText t f ∧ f.Denotes depthLimit j := by
  constructor
  · intro h
    obtain ⟨u, f, hu, ht, hj⟩ := ofPieces_eq_ok_iff.1 (eq_ok_of_mapError_eq_ok h)
    obtain rfl := chars_injective hu
    exact ⟨f, ht, hj⟩
  · rintro ⟨f, ht, hj⟩
    have h := ofPieces_of_jsonText 0 ht hj
    rw [chars] at h
    rw [parse, h]
    rfl

end Json

namespace Record

open Json

/--
A text is a document with some records: a JSON text of an object in which at most 127 arrays and
objects are nested. The last `data` member is an array, and the records are its items.
-/
def Document (t : Text) (records : List Record) : Prop :=
  ∃ members pairs items, JsonText t (.object members) ∧ Form.depth (.object members) ≤ 127 ∧
    Form.pairs? members = some pairs ∧ pairs.reverse.lookup "data".toList = some (.array items) ∧
    records = items.map Record.mk

variable {j : Json} {records : List Record}

theorem ofJson_eq_ok_iff : ofJson j = .ok records ↔ ∃ members items,
    j = .object members ∧ members.lookup dataKey = some (.array items) ∧
      records = items.map Record.mk := by
  constructor
  · intro h
    cases j with
    | object members =>
      rw [ofJson] at h
      split at h
      · rename_i items hdata
        cases h
        exact ⟨members, items, rfl, hdata, rfl⟩
      · cases h
      · cases h
    | _ => cases h
  · rintro ⟨members, items, rfl, hdata, rfl⟩
    rw [ofJson, hdata]

theorem document_iff {t : Text} :
    Document t records ↔ ∃ f j, JsonText t f ∧ f.Denotes depthLimit j ∧ ofJson j = .ok records := by
  constructor
  · rintro ⟨members, pairs, items, ht, hdepth, hpairs, hdata, hrecords⟩
    refine ⟨.object members, .object (latest pairs), ht, ⟨hdepth, ?_⟩, ?_⟩
    · rw [Form.value?, hpairs, Option.map_some]
    · rw [ofJson_eq_ok_iff]
      exact ⟨latest pairs, items, rfl, (lookup_latest pairs _).trans hdata, hrecords⟩
  · rintro ⟨f, j, ht, hj, hrecords⟩
    obtain ⟨members, items, rfl, hdata, hitems⟩ := ofJson_eq_ok_iff.1 hrecords
    cases f with
    | object forms =>
      obtain ⟨pairs, hpairs, hmembers⟩ := Option.map_eq_some_iff.1 hj.2
      cases hmembers
      rw [lookup_latest] at hdata
      exact ⟨forms, pairs, items, ht, hj.1, hpairs, hdata, hitems⟩
    | number l =>
      obtain ⟨_, _, h⟩ := Option.map_eq_some_iff.1 hj.2
      cases h
    | string us =>
      obtain ⟨_, _, h⟩ := Option.map_eq_some_iff.1 hj.2
      cases h
    | array items =>
      obtain ⟨_, _, h⟩ := Option.map_eq_some_iff.1 hj.2
      cases h
    | null => cases hj.2
    | boolean value => cases hj.2

theorem ofText_eq_ok_iff {t : Text} :
    ofText t = .ok records ↔ ∃ j, parse t = .ok j ∧ ofJson j = .ok records := by
  rw [ofText]
  cases parse t with
  | ok j => simp
  | error reason => simp

/-- Exactly the documents are accepted, with their records. Any other text is invalid input. -/
theorem ofText_document (t : Text) :
    (∀ records, ofText t = .ok records ↔ Document t records) ∧
    ((¬∃ records, Document t records) → ∃ reason,
      (ofText t).mapError Failure.ofDocument = .error (.invalidInput reason) ∧
        (Failure.invalidInput reason).status.code = 3) := by
  have hiff : ∀ records, ofText t = .ok records ↔ Document t records := by
    intro records
    simp only [ofText_eq_ok_iff, parse_eq_ok_iff, document_iff]
    constructor
    · rintro ⟨j, ⟨f, ht, hj⟩, hrecords⟩
      exact ⟨f, j, ht, hj, hrecords⟩
    · rintro ⟨f, j, ht, hj, hrecords⟩
      exact ⟨j, ⟨f, ht, hj⟩, hrecords⟩
  refine ⟨hiff, ?_⟩
  intro hnone
  cases h : ofText t with
  | ok records => exact absurd ⟨records, (hiff records).1 h⟩ hnone
  | error e => exact ⟨e.message, rfl, rfl⟩

end Record

end RecordSheet
