import RecordSheet.Proofs.Records.Bytes

namespace RecordSheet

open Utf8

namespace Json

variable {la : Nat} {s r : Rest} {members : List (Text × Json)} {j : Json} {t : Text} {bytes : Bytes}

theorem skipSpace_eq_nil_iff : skipSpace r = [] ↔ ∃ w, Space w ∧ r = chars w := by
  constructor
  · intro h
    obtain ⟨w, hw, hr⟩ := exists_space r
    rw [h, List.append_nil] at hr
    exact ⟨w, hw, hr⟩
  · rintro ⟨w, hw, rfl⟩
    rw [← List.append_nil (chars w), skipSpace_append hw]
    rfl

theorem skipSpace_chars_eq_nil_iff : skipSpace (chars t) = [] ↔ Space t := by
  rw [skipSpace_eq_nil_iff]
  constructor
  · rintro ⟨w, hw, h⟩
    rwa [chars_injective h]
  · intro h
    exact ⟨t, h, rfl⟩

def SpaceBytes (bytes : Bytes) : Prop :=
  ∀ b ∈ bytes, b ∈ [0x20, 0x09, 0x0A, 0x0D]

theorem exists_encode_space_iff : (∃ w, Space w ∧ encode w = bytes) ↔ SpaceBytes bytes := by
  have htable : [' ', '\t', '\n', '\r'].map encodeChar =
      [(0x20 : UInt8), 0x09, 0x0A, 0x0D].map fun b => [b] := by
    decide
  constructor
  · rintro ⟨w, hw, rfl⟩ b hb
    obtain ⟨c, hc, hb⟩ := List.mem_flatMap.1 hb
    have hmem : encodeChar c ∈ [' ', '\t', '\n', '\r'].map encodeChar :=
      List.mem_map_of_mem (hw c hc)
    rw [htable] at hmem
    obtain ⟨b', hb', heq⟩ := List.mem_map.1 hmem
    rw [← heq, List.mem_singleton] at hb
    rwa [hb]
  · intro h
    induction bytes with
    | nil => exact ⟨[], space_nil, rfl⟩
    | cons b bytes ih =>
      obtain ⟨hb, hbytes⟩ := List.forall_mem_cons.1 h
      have hmem : [b] ∈ [(0x20 : UInt8), 0x09, 0x0A, 0x0D].map fun b => [b] :=
        List.mem_map_of_mem hb
      rw [← htable] at hmem
      obtain ⟨c, hc, heq⟩ := List.mem_map.1 hmem
      obtain ⟨w, hw, rfl⟩ := ih hbytes
      refine ⟨c :: w, List.forall_mem_cons.2 ⟨hc, hw⟩, ?_⟩
      rw [encode, List.flatMap_cons, heq]
      rfl

theorem skipSpace_pieces_eq_nil_iff : skipSpace (pieces bytes) = [] ↔ SpaceBytes bytes := by
  simp only [skipSpace_eq_nil_iff, ← exists_encode_space_iff, chars, pieces_eq_iff]

/-- Behind an object that is read as a whole there may be space, and nothing else. -/
theorem ofPieces_append_eq_ok_iff (h : ofPieces la s = .ok (.object members)) :
    ofPieces la (s ++ r) = .ok j ↔ skipSpace r = [] ∧ j = .object members := by
  obtain ⟨t, f, rfl, ht, hj⟩ := exists_jsonText_of_ofPieces h
  obtain ⟨hv, hu, hw⟩ := ht
  rename_i v u w
  have hobject : ∀ l, f ≠ .number l := by
    rintro l rfl
    obtain ⟨n, -, hn⟩ := Option.map_eq_some_iff.1 hj.2
    cases hn
  have hread : ∀ fuel, u.length ≤ fuel →
      readValue la fuel depthLimit (chars u ++ (chars w ++ r)) =
        .ok (.object members, chars w ++ r) := by
    intro fuel hfuel
    apply readValue_append hu hj hfuel
    intro l hl
    exact absurd hl (hobject l)
  have hlength : u.length ≤ (chars (v ++ u ++ w) ++ r).length + 1 := by
    simp only [chars, List.length_append, List.length_map]
    omega
  have hsplit : chars (v ++ u ++ w) ++ r = chars v ++ (chars u ++ (chars w ++ r)) := by
    simp only [chars_append, List.append_assoc]
  rw [ofPieces, hsplit, readValue_space_append hv, ← hsplit, hread _ hlength]
  dsimp only [bind, Except.bind]
  rw [skipSpace_append hw]
  cases skipSpace r with
  | nil => simp only [Except.ok.injEq, true_and, eq_comm]
  | cons p r =>
    apply iff_of_false
    · intro h
      cases h
    · intro h
      cases h.1

end Json

namespace Record

open Json

variable {la : Nat} {s r : Rest} {records others : List Record} {t more : Text} {bytes : Bytes}

def Accepts (la : Nat) (s : Rest) (records : List Record) : Prop :=
  ∃ j, ofPieces la s = .ok j ∧ ofJson j = .ok records

theorem Accepts.append_iff (h : Accepts la s records) :
    Accepts la (s ++ r) others ↔ skipSpace r = [] ∧ others = records := by
  obtain ⟨j, hj, hrecords⟩ := h
  obtain ⟨members, items, rfl, -, -⟩ := ofJson_eq_ok_iff.1 hrecords
  simp only [Accepts, ofPieces_append_eq_ok_iff hj]
  constructor
  · rintro ⟨j, ⟨hr, rfl⟩, hothers⟩
    rw [hrecords] at hothers
    cases hothers
    exact ⟨hr, rfl⟩
  · rintro ⟨hr, rfl⟩
    exact ⟨_, ⟨hr, rfl⟩, hrecords⟩

theorem ofText_eq_ok_iff_accepts : ofText t = .ok records ↔ Accepts 0 (chars t) records := by
  simp only [ofText_eq_ok_iff, Json.parse, mapError_eq_ok_iff, Accepts, chars]

theorem ofBytes_eq_ok_iff_accepts :
    ofBytes bytes = .ok records ↔ Accepts 1 (pieces bytes) records := by
  rw [ofBytes, Accepts]
  cases h : parseBytes bytes with
  | ok j =>
    have hj := eq_ok_of_mapError_eq_ok h
    simp only [hj, Except.ok.injEq, ↓existsAndEq, true_and]
  | error reason =>
    obtain ⟨fault, hfault, -⟩ := mapError_eq_error_iff.1 h
    simp only [hfault, reduceCtorEq, false_and, exists_false]

theorem ofText_append_eq_ok_iff (h : ofText t = .ok records) :
    ofText (t ++ more) = .ok others ↔ Space more ∧ others = records := by
  rw [ofText_eq_ok_iff_accepts] at h ⊢
  rw [chars_append, h.append_iff, skipSpace_chars_eq_nil_iff]

theorem ofBytes_append_eq_ok_iff (h : ofText t = .ok records) :
    ofBytes (encode t ++ bytes) = .ok others ↔ SpaceBytes bytes ∧ others = records := by
  have hbytes := ofBytes_eq_ok_iff.2 ⟨t, rfl, h⟩
  rw [ofBytes_eq_ok_iff_accepts] at hbytes ⊢
  rw [pieces_encode] at hbytes
  rw [pieces_encode_append, hbytes.append_iff, skipSpace_pieces_eq_nil_iff]

/-- A list that is another one cut short, or with something behind it; what is gone or new is no space. -/
def CutOrContinued {α : Type} (space : List α → Prop) (whole other : List α) : Prop :=
  (∃ rest, whole = other ++ rest ∧ ¬space rest) ∨ ∃ more, other = whole ++ more ∧ ¬space more

theorem ofText_ne_ok_of_cutOrContinued (h : ofText t = .ok records)
    (hmore : CutOrContinued Space t more) : ofText more ≠ .ok others := by
  intro hothers
  rcases hmore with ⟨rest, rfl, hrest⟩ | ⟨rest, rfl, hrest⟩
  · exact hrest ((ofText_append_eq_ok_iff hothers).1 h).1
  · exact hrest ((ofText_append_eq_ok_iff h).1 hothers).1

theorem ofBytes_ne_ok_of_cutOrContinued (h : ofText t = .ok records)
    (hbytes : CutOrContinued SpaceBytes (encode t) bytes) : ofBytes bytes ≠ .ok others := by
  intro hothers
  rcases hbytes with ⟨rest, hrest, hspace⟩ | ⟨rest, rfl, hspace⟩
  · obtain ⟨cut, rfl, hcut⟩ := ofBytes_eq_ok_iff.1 hothers
    have hwhole := ofBytes_eq_ok_iff.2 ⟨t, hrest, h⟩
    exact hspace ((ofBytes_append_eq_ok_iff hcut).1 hwhole).1
  · exact hspace ((ofBytes_append_eq_ok_iff h).1 hothers).1

end Record

end RecordSheet
