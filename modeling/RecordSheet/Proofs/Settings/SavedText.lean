import RecordSheet.Proofs.Text.Utf8
import RecordSheet.Proofs.Toml.Lines
import RecordSheet.Settings.Store

namespace RecordSheet.Settings

open Toml Utf8

def pairs (output : Text) (input : Option Text) : List (Text × Text) :=
  ("output".toList, output) :: (input.map fun t => ("input".toList, t)).toList

theorem isBareKey_of_mem_pairs {output : Text} {input : Option Text} :
    ∀ p ∈ pairs output input, IsBareKey p.1 := by
  have houtput : IsBareKey "output".toList := ⟨by decide, List.all_eq_true.1 (by decide)⟩
  have hinput : IsBareKey "input".toList := ⟨by decide, List.all_eq_true.1 (by decide)⟩
  cases input with
  | none => exact List.forall_mem_singleton.2 houtput
  | some t => exact List.forall_mem_cons.2 ⟨houtput, List.forall_mem_singleton.2 hinput⟩

theorem nodup_keys_pairs (output : Text) (input : Option Text) :
    ((pairs output input).map Prod.fst).Nodup := by
  cases input with
  | none =>
    change ["output".toList].Nodup
    decide
  | some t =>
    change ["output".toList, "input".toList].Nodup
    decide

theorem render?_encode (output : Text) (input : Option Text) :
    render? ⟨encode output, input.map encode⟩ = some (assignments (pairs output input)) := by
  rw [render?, decode?_encode]
  cases input with
  | none => exact congrArg some (List.append_nil _).symm
  | some t =>
    simp only [Option.map_some, bind, Option.bind, decode?_encode, assignments, pairs,
      Option.toList_some, List.flatMap_cons, List.flatMap_nil, List.append_nil]

theorem ofText_assignments (output : Text) (input : Option Text) :
    ofText (assignments (pairs output input)) = .ok ⟨encode output, input.map encode⟩ := by
  obtain ⟨entries, hentries, hread⟩ :=
    read_assignments isBareKey_of_mem_pairs (nodup_keys_pairs output input)
  rw [ofText, hread]
  cases input with
  | none =>
    obtain ⟨⟨key, span, value⟩, _, ⟨hkey, hvalue⟩, hnone, rfl⟩ :=
      List.forall₂_cons_left_iff.1 hentries
    cases hkey
    cases hvalue
    cases hnone
    rfl
  | some t =>
    obtain ⟨⟨key, span, value⟩, _, ⟨hkey, hvalue⟩, hrest, rfl⟩ :=
      List.forall₂_cons_left_iff.1 hentries
    obtain ⟨⟨key', span', value'⟩, _, ⟨hkey', hvalue'⟩, hnone, rfl⟩ :=
      List.forall₂_cons_left_iff.1 hrest
    cases hkey
    cases hvalue
    cases hkey'
    cases hvalue'
    cases hnone
    -- entries are looked at in the order of their keys, so the input comes first
    rfl

end RecordSheet.Settings
