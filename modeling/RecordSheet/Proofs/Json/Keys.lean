import RecordSheet.Proofs.Json.Soundness
import RecordSheet.Records.Document

namespace RecordSheet

namespace Json

namespace Form

variable {items : List Form} {members : List (List StringUnit × Form)} {j : Json}

theorem exists_item_of_mem {js : List Json} (h : values? items = some js) (hj : j ∈ js) :
    ∃ f ∈ items, value? f = some j := by
  induction items generalizing js with
  | nil =>
    cases h
    cases hj
  | cons f items ih =>
    rw [values?, Option.bind_eq_some_iff] at h
    obtain ⟨k, hk, h⟩ := h
    obtain ⟨ks, hks, rfl⟩ := Option.map_eq_some_iff.1 h
    rcases List.mem_cons.1 hj with rfl | hj
    · exact ⟨f, List.mem_cons_self, hk⟩
    · obtain ⟨g, hg, hgj⟩ := ih hks hj
      exact ⟨g, List.mem_cons_of_mem _ hg, hgj⟩

theorem exists_member_of_mem {pairs : List (Text × Json)} {pair : Text × Json}
    (h : pairs? members = some pairs) (hpair : pair ∈ pairs) :
    ∃ m ∈ members, value? m.2 = some pair.2 := by
  induction members generalizing pairs with
  | nil =>
    cases h
    cases hpair
  | cons m members ih =>
    rw [pairs?, Option.bind_eq_some_iff] at h
    obtain ⟨key, -, h⟩ := h
    obtain ⟨k, hk, h⟩ := Option.bind_eq_some_iff.1 h
    obtain ⟨rest, hrest, rfl⟩ := Option.map_eq_some_iff.1 h
    rcases List.mem_cons.1 hpair with rfl | hpair
    · exact ⟨m, List.mem_cons_self, hk⟩
    · obtain ⟨n, hn, hnj⟩ := ih hrest hpair
      exact ⟨n, List.mem_cons_of_mem _ hn, hnj⟩

theorem distinctKeys_of_value {f : Form} (h : f.value? = some j) : DistinctKeys j := by
  induction f generalizing j with
  | null =>
    cases h
    exact .of_depth_eq_zero rfl
  | boolean value =>
    cases h
    exact .of_depth_eq_zero rfl
  | number l =>
    obtain ⟨n, -, rfl⟩ := Option.map_eq_some_iff.1 h
    exact .of_depth_eq_zero rfl
  | string us =>
    obtain ⟨t, -, rfl⟩ := Option.map_eq_some_iff.1 h
    exact .of_depth_eq_zero rfl
  | array items ih =>
    obtain ⟨js, hjs, rfl⟩ := Option.map_eq_some_iff.1 h
    apply DistinctKeys.array
    intro j hj
    obtain ⟨f, hf, hfj⟩ := exists_item_of_mem hjs hj
    exact ih f hf hfj
  | object members ih =>
    obtain ⟨pairs, hpairs, rfl⟩ := Option.map_eq_some_iff.1 h
    rw [← ofPairs_eq_latest]
    apply DistinctKeys.ofPairs
    intro pair hpair
    obtain ⟨m, hm, hmj⟩ := exists_member_of_mem hpairs hpair
    exact ih m hm hmj

end Form

theorem distinctKeys_of_ofPieces {la : Nat} {s : Rest} {j : Json} (h : ofPieces la s = .ok j) :
    DistinctKeys j := by
  obtain ⟨t, f, -, -, hj⟩ := exists_jsonText_of_ofPieces h
  exact Form.distinctKeys_of_value hj.2

theorem distinctKeys_of_parse {t : Text} {j : Json} (h : parse t = .ok j) : DistinctKeys j :=
  distinctKeys_of_ofPieces (eq_ok_of_mapError_eq_ok h)

theorem distinctKeys_of_parseBytes {bytes : Bytes} {j : Json} (h : parseBytes bytes = .ok j) :
    DistinctKeys j :=
  distinctKeys_of_ofPieces (eq_ok_of_mapError_eq_ok h)

end Json

namespace Record

variable {records : List Record} {j : Json}

theorem distinctKeys_of_ofJson (hj : j.DistinctKeys) (h : ofJson j = .ok records) :
    ∀ r ∈ records, r.raw.DistinctKeys := by
  cases j with
  | object members =>
    rw [ofJson] at h
    split at h
    · rename_i items hdata
      cases h
      intro r hr
      obtain ⟨item, hitem, rfl⟩ := List.mem_map.1 hr
      obtain ⟨before, after, rfl, -⟩ := List.lookup_eq_some_iff.1 hdata
      have harray : Json.DistinctKeys (.array items) :=
        hj.member (List.mem_append_right _ List.mem_cons_self)
      exact harray.item hitem
    · cases h
    · cases h
  | _ => cases h

/-- No object in a record of a document has a key twice. -/
theorem distinctKeys_of_ofText {t : Text} (h : ofText t = .ok records) :
    ∀ r ∈ records, r.raw.DistinctKeys := by
  rw [ofText] at h
  split at h
  · rename_i hparse
    exact distinctKeys_of_ofJson (Json.distinctKeys_of_parse hparse) h
  · cases h

theorem distinctKeys_of_ofBytes {bytes : Bytes} (h : ofBytes bytes = .ok records) :
    ∀ r ∈ records, r.raw.DistinctKeys := by
  rw [ofBytes] at h
  split at h
  · rename_i hparse
    exact distinctKeys_of_ofJson (Json.distinctKeys_of_parseBytes hparse) h
  · cases h

end Record

end RecordSheet
