import RecordSheet.Proofs.Json.Lookahead
import RecordSheet.Proofs.Records.Language
import RecordSheet.Proofs.Text.Utf8

namespace RecordSheet

open Utf8

namespace Json

/-- Two reasons are the same, but for the place of a number out of range. -/
def SameReason (reason reason' : Text) : Prop :=
  reason = reason' ∨ ∃ p p' : Position, reason = "number out of range at ".toList ++ p.render ∧
    reason' = "number out of range at ".toList ++ p'.render

theorem Fault.Alike.sameReason {fault fault' : Fault} (h : fault.Alike fault') (bytes : Bytes) :
    SameReason (fault.render bytes) (fault'.render bytes) := by
  cases h with
  | same => exact .inl rfl
  | outOfRange m n => exact .inr ⟨_, _, rfl, rfl⟩

theorem parseBytes_encode (t : Text) :
    (∃ j, parse t = .ok j ∧ parseBytes (encode t) = .ok j) ∨
    ∃ reason reason', parse t = .error reason ∧ parseBytes (encode t) = .error reason' ∧
      SameReason reason reason' := by
  have h := alike_ofPieces 0 1 (t.map .char)
  rw [parse, parseBytes, pieces_encode]
  generalize ofPieces 0 (t.map .char) = x, ofPieces 1 (t.map .char) = y at h ⊢
  cases h with
  | ok j => exact .inl ⟨j, rfl, rfl⟩
  | error h => exact .inr ⟨_, _, rfl, rfl, h.sameReason (encode t)⟩

theorem exists_text_of_parseBytes {bytes : Bytes} {j : Json} (h : parseBytes bytes = .ok j) :
    ∃ t, encode t = bytes := by
  obtain ⟨t, _, ht, _⟩ := ofPieces_eq_ok_iff.1 (eq_ok_of_mapError_eq_ok h)
  exact ⟨t, pieces_eq_iff.1 ht⟩

end Json

namespace Record

open Json

theorem exists_text_of_ofBytes {bytes : Bytes} {records : List Record}
    (h : ofBytes bytes = .ok records) : ∃ t, encode t = bytes := by
  rw [ofBytes] at h
  split at h
  · rename_i hj
    exact exists_text_of_parseBytes hj
  · cases h

theorem message_outOfRange (place : Text) :
    (InvalidDocument.notJson ("number out of range at ".toList ++ place)).message =
      "not valid JSON: number out of range at ".toList ++ place := by
  have hprefix : "not valid JSON: ".toList ++ "number out of range at ".toList =
      "not valid JSON: number out of range at ".toList := by
    decide
  have hassoc := List.append_assoc "not valid JSON: ".toList "number out of range at ".toList place
  exact hassoc.symm.trans (congrArg (· ++ place) hprefix)

theorem ofBytes_encode (t : Text) :
    ofBytes (encode t) = ofText t ∨
    ∃ reason reason', ofText t = .error (.notJson reason) ∧
      ofBytes (encode t) = .error (.notJson reason') ∧ SameReason reason reason' := by
  rcases parseBytes_encode t with ⟨j, ht, hb⟩ | ⟨reason, reason', ht, hb, hreason⟩
  · rw [ofBytes, ofText, ht, hb]
    exact .inl rfl
  · rw [ofBytes, ofText, ht, hb]
    exact .inr ⟨reason, reason', rfl, rfl, hreason⟩

theorem ofBytes_eq_ok_iff {bytes : Bytes} {records : List Record} :
    ofBytes bytes = .ok records ↔ ∃ t, encode t = bytes ∧ ofText t = .ok records := by
  have hencode : ∀ t, ofBytes (encode t) = .ok records ↔ ofText t = .ok records := by
    intro t
    rcases ofBytes_encode t with h | ⟨_, _, ht, hb, _⟩
    · rw [h]
    · rw [ht, hb]
      exact ⟨nofun, nofun⟩
  constructor
  · intro h
    obtain ⟨t, rfl⟩ := exists_text_of_ofBytes h
    exact ⟨t, rfl, (hencode t).1 h⟩
  · rintro ⟨t, rfl, h⟩
    exact (hencode t).2 h

/--
Bytes are accepted exactly if they are the UTF-8 of a text that is accepted, with the same records.
Others are invalid input. If bytes and text are both refused, both are invalid input with the same
message, where only the place of a number out of range may be another.
-/
theorem ofBytes_agrees (bytes : Bytes) :
    (∀ records, ofBytes bytes = .ok records ↔
      ∃ t : Text, t.utf8Encode = bytes.toByteArray ∧ ofText t = .ok records) ∧
    (¬bytes.toByteArray.IsValidUTF8 → ∃ reason,
      (ofBytes bytes).mapError Failure.ofDocument = .error (.invalidInput reason)) ∧
    (∀ (t : Text) (e e' : InvalidDocument), t.utf8Encode = bytes.toByteArray →
      ofText t = .error e → ofBytes bytes = .error e' →
      ∃ reason reason', Failure.ofDocument e = .invalidInput reason ∧
        Failure.ofDocument e' = .invalidInput reason' ∧
        (reason = reason' ∨ ∃ p p' : Position,
          reason = "not valid JSON: number out of range at ".toList ++ p.render ∧
          reason' = "not valid JSON: number out of range at ".toList ++ p'.render)) := by
  refine ⟨?_, ?_, ?_⟩
  · intro records
    simp only [utf8Encode_eq_iff]
    exact ofBytes_eq_ok_iff
  · intro hbytes
    cases h : ofBytes bytes with
    | ok records => exact absurd (isValidUTF8_iff.2 (exists_text_of_ofBytes h)) hbytes
    | error e => exact ⟨e.message, rfl⟩
  · intro t e e' ht he he'
    obtain rfl := utf8Encode_eq_iff.1 ht
    refine ⟨e.message, e'.message, rfl, rfl, ?_⟩
    rcases ofBytes_encode t with h | ⟨reason, reason', h, h', hreason⟩
    · rw [h, he] at he'
      cases he'
      exact .inl rfl
    · rw [h] at he
      rw [h'] at he'
      cases he
      cases he'
      rcases hreason with rfl | ⟨p, p', rfl, rfl⟩
      · exact .inl rfl
      · exact .inr ⟨p, p', message_outOfRange _, message_outOfRange _⟩

end Record

end RecordSheet
