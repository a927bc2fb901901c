import RecordSheet.Proofs.Json.Structure
import Mathlib.Data.List.Induction

namespace RecordSheet.Json

/-- Of some pairs, the last value of each key, in the order in which the keys come first. -/
def latest (pairs : List (Text × Json)) : List (Text × Json) :=
  (pairs.map Prod.fst).eraseDups.filterMap fun key => (pairs.reverse.lookup key).map (key, ·)

variable {keys : List Text} {pairs : List (Text × Json)} {key : Text} {value : Json}

theorem eraseDups_concat (keys : List Text) (key : Text) :
    (keys ++ [key]).eraseDups =
      if key ∈ keys then keys.eraseDups else keys.eraseDups ++ [key] := by
  rw [List.eraseDups_append]
  by_cases h : key ∈ keys
  · rw [if_pos h, List.removeAll, List.filter_cons_of_neg (by simp [h]), List.filter_nil,
      List.eraseDups_nil, List.append_nil]
  · rw [if_neg h, List.removeAll, List.filter_cons_of_pos (by simp [h]), List.filter_nil,
      List.eraseDups_cons, List.filter_nil, List.eraseDups_nil]

theorem nodup_eraseDups (keys : List Text) : keys.eraseDups.Nodup := by
  induction keys using List.reverseRecOn with
  | nil => exact List.nodup_nil
  | append_singleton keys key ih =>
    rw [eraseDups_concat]
    split
    · exact ih
    · rename_i h
      rw [← List.concat_eq_append]
      exact ih.concat fun hmem => h (List.mem_eraseDups.1 hmem)

theorem lookup_cons_eq_ite (m : Text × Json) (members : List (Text × Json)) (key : Text) :
    (m :: members).lookup key = if key = m.1 then some m.2 else members.lookup key := by
  obtain ⟨k, v⟩ := m
  rw [List.lookup_cons]
  by_cases h : key = k
  · rw [beq_iff_eq.2 h, if_pos h]
  · rw [beq_eq_false_iff_ne.2 h, if_neg h]

theorem lookup_reverse_concat (pairs : List (Text × Json)) (pair : Text × Json) (key : Text) :
    (pairs ++ [pair]).reverse.lookup key =
      if key = pair.1 then some pair.2 else pairs.reverse.lookup key := by
  rw [List.reverse_append, List.reverse_singleton, List.singleton_append, lookup_cons_eq_ite]

theorem put_filterMap {g : Text → Option Json} (hkeys : keys.Nodup)
    (hg : ∀ k ∈ keys, (g k).isSome) (key : Text) (value : Json) :
    put (keys.filterMap fun k => (g k).map (k, ·)) key value =
      (if key ∈ keys then keys else keys ++ [key]).filterMap fun k =>
        (if k = key then some value else g k).map (k, ·) := by
  induction keys with
  | nil => simp [put]
  | cons k keys ih =>
    obtain ⟨v, hv⟩ := Option.isSome_iff_exists.1 (hg k List.mem_cons_self)
    obtain ⟨hk, hkeys⟩ := List.nodup_cons.1 hkeys
    have hrest := ih hkeys fun k hk => hg k (List.mem_cons_of_mem _ hk)
    rw [List.filterMap_cons, hv, Option.map_some, put]
    by_cases heq : k = key
    · subst heq
      rw [if_pos rfl, if_pos List.mem_cons_self, List.filterMap_cons, if_pos rfl, Option.map_some]
      congr 1
      apply List.filterMap_congr
      intro k' hk'
      rw [if_neg fun h : k' = k => hk (h ▸ hk')]
    · have hmem : key ∈ k :: keys ↔ key ∈ keys := by
        rw [List.mem_cons, or_iff_right fun h => heq h.symm]
      have hcons : (if key ∈ k :: keys then k :: keys else k :: keys ++ [key]) =
          k :: if key ∈ keys then keys else keys ++ [key] := by
        simp only [hmem]
        split
        · rfl
        · rfl
      rw [if_neg heq, hrest, hcons, List.filterMap_cons, if_neg heq, hv, Option.map_some]

theorem latest_concat (pairs : List (Text × Json)) (pair : Text × Json) :
    latest (pairs ++ [pair]) = put (latest pairs) pair.1 pair.2 := by
  have hsome : ∀ k ∈ (pairs.map Prod.fst).eraseDups, (pairs.reverse.lookup k).isSome := by
    intro k hk
    obtain ⟨p, hp, rfl⟩ := List.mem_map.1 (List.mem_eraseDups.1 hk)
    exact List.lookup_isSome_iff.2 ⟨p, List.mem_reverse.2 hp, beq_self_eq_true _⟩
  rw [latest, latest, put_filterMap (nodup_eraseDups _) hsome, List.map_append, List.map_singleton,
    eraseDups_concat]
  simp only [lookup_reverse_concat, List.mem_eraseDups]

/-- The object of some pairs holds the last value of each key, where the key comes first. -/
theorem ofPairs_eq_latest (pairs : List (Text × Json)) :
    ofPairs pairs = .object (latest pairs) := by
  rw [ofPairs, Json.object.injEq]
  induction pairs using List.reverseRecOn with
  | nil => rfl
  | append_singleton pairs pair ih => rw [List.foldl_append, ih, latest_concat, List.foldl_cons,
      List.foldl_nil]

theorem lookup_put (members : List (Text × Json)) (key k : Text) (value : Json) :
    (put members key value).lookup k = if k = key then some value else members.lookup k := by
  induction members with
  | nil => rw [put, lookup_cons_eq_ite]
  | cons m members ih =>
    obtain ⟨k', v⟩ := m
    rw [put]
    by_cases h : k' = key
    · rw [if_pos h, lookup_cons_eq_ite, lookup_cons_eq_ite, h]
      split
      · rfl
      · rfl
    · rw [if_neg h, lookup_cons_eq_ite, lookup_cons_eq_ite, ih]
      by_cases hk : k = k'
      · rw [if_pos hk, if_pos hk, if_neg fun heq => h (hk ▸ heq)]
      · rw [if_neg hk, if_neg hk]

theorem lookup_latest (pairs : List (Text × Json)) (key : Text) :
    (latest pairs).lookup key = pairs.reverse.lookup key := by
  induction pairs using List.reverseRecOn with
  | nil => rfl
  | append_singleton pairs pair ih =>
    rw [latest_concat, lookup_put, ih, lookup_reverse_concat]

theorem lookup_reverse_append_cons (pairs : List (Text × Json)) {others : List (Text × Json)}
    {key : Text} (h : ∀ p ∈ others, p.1 ≠ key) (value : Json) (k : Text) :
    (pairs ++ (key, value) :: others).reverse.lookup k =
      if k = key then some value else (others.reverse.lookup k).or (pairs.reverse.lookup k) := by
  rw [List.reverse_append, List.reverse_cons, List.append_assoc, List.singleton_append,
    List.lookup_append, lookup_cons_eq_ite]
  split
  · rename_i hk
    rw [hk, List.lookup_eq_none_iff.2, Option.none_or]
    intro p hp
    exact bne_iff_ne.2 (h p (List.mem_reverse.1 hp)).symm
  · rfl

theorem exists_latest_eq (pairs : List (Text × Json)) {others : List (Text × Json)} {key : Text}
    (h : ∀ p ∈ others, p.1 ≠ key) : ∃ before behind, ∀ value,
      latest (pairs ++ (key, value) :: others) = before ++ (key, value) :: behind := by
  have hkey : key ∈ (pairs.map Prod.fst ++ key :: others.map Prod.fst).eraseDups := by simp
  have hnodup := nodup_eraseDups (pairs.map Prod.fst ++ key :: others.map Prod.fst)
  obtain ⟨keys, keys', hkeys⟩ := List.append_of_mem hkey
  rw [hkeys, List.nodup_append', List.nodup_cons, List.disjoint_cons_right] at hnodup
  obtain ⟨-, ⟨hbehind, -⟩, hbefore, -⟩ := hnodup
  -- what is made of the other keys does not depend on the value
  obtain ⟨rest, hrest⟩ : ∃ rest : List Text → List (Text × Json), ∀ ks, key ∉ ks → ∀ value,
      (ks.filterMap fun k => ((pairs ++ (key, value) :: others).reverse.lookup k).map (k, ·)) =
        rest ks := by
    refine ⟨fun ks => ks.filterMap fun k =>
      ((others.reverse.lookup k).or (pairs.reverse.lookup k)).map (k, ·), fun ks hks value => ?_⟩
    apply List.filterMap_congr
    intro k hk
    rw [lookup_reverse_append_cons pairs h, if_neg (ne_of_mem_of_not_mem hk hks)]
  refine ⟨rest keys, rest keys', fun value => ?_⟩
  rw [latest, List.map_append, List.map_cons, hkeys, List.filterMap_append, hrest _ hbefore,
    List.filterMap_cons, lookup_reverse_append_cons pairs h, if_pos rfl, Option.map_some,
    hrest _ hbehind]

end RecordSheet.Json
