import RecordSheet.Json.Basic
import RecordSheet.Text.Blank

namespace RecordSheet

def uriKey : Text :=
  "uri".toList

def dataKey : Text :=
  "data".toList

structure Record where
  raw : Json
  deriving Repr

namespace Record

/-- The URI of a record, if it is a string; white space is kept. -/
def uri? (r : Record) : Option Text :=
  (r.raw.field? uriKey).bind Json.text?

def hasUri (r : Record) : Bool :=
  r.uri?.any fun uri => !(trim uri).isEmpty

theorem uri?_eq_some_iff {r : Record} {uri : Text} : r.uri? = some uri ↔
    ∃ members, r.raw = .object members ∧ members.lookup uriKey = some (.string uri) := by
  rw [uri?, Option.bind_eq_some_iff]
  constructor
  · rintro ⟨value, hfield, hvalue⟩
    cases hraw : r.raw with
    | object members =>
      rw [hraw] at hfield
      cases value with
      | string t =>
        cases hvalue
        exact ⟨members, rfl, hfield⟩
      | _ => cases hvalue
    | _ =>
      rw [hraw] at hfield
      cases hfield
  · rintro ⟨members, hraw, hlookup⟩
    rw [hraw]
    exact ⟨.string uri, hlookup, rfl⟩

theorem hasUri_eq_true_iff (r : Record) :
    r.hasUri = true ↔ ∃ uri, r.uri? = some uri ∧ ∃ c ∈ uri, isBlank c = false := by
  simp only [hasUri, Option.any_eq_true, Bool.not_eq_true', List.isEmpty_eq_false_iff, ne_eq,
    trim_eq_nil_iff, Classical.not_forall, Bool.not_eq_true, exists_prop]

end Record

end RecordSheet
