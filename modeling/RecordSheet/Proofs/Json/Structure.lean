import RecordSheet.Json.Printer
import Mathlib.Data.List.Nodup

namespace RecordSheet.Json

@[elab_as_elim, induction_eliminator]
theorem induction {motive : Json → Prop} (null : motive .null)
    (boolean : ∀ value, motive (.boolean value)) (number : ∀ value, motive (.number value))
    (string : ∀ value, motive (.string value))
    (array : ∀ items, (∀ j ∈ items, motive j) → motive (.array items))
    (object : ∀ members, (∀ m ∈ members, motive m.2) → motive (.object members)) (j : Json) :
    motive j :=
  @Json.rec motive (fun items => ∀ j ∈ items, motive j) (fun members => ∀ m ∈ members, motive m.2)
    (fun m => motive m.2) null boolean number string array object
    (fun _ h => absurd h List.not_mem_nil) (fun _ _ hj hjs => List.forall_mem_cons.2 ⟨hj, hjs⟩)
    (fun _ h => absurd h List.not_mem_nil) (fun _ _ hm hms => List.forall_mem_cons.2 ⟨hm, hms⟩)
    (fun _ _ hv => hv) j

def memberText (m : Text × Json) : Text :=
  quoted m.1 ++ ':' :: render m.2

theorem renderItems_eq_map (items : List Json) : renderItems items = items.map render := by
  induction items with
  | nil => rfl
  | cons j items ih => rw [renderItems, ih, List.map_cons]

theorem renderMembers_eq_map (members : List (Text × Json)) :
    renderMembers members = members.map memberText := by
  induction members with
  | nil => rfl
  | cons m members ih =>
    obtain ⟨key, value⟩ := m
    rw [renderMembers, ih, List.map_cons, memberText]

theorem render_array (items : List Json) :
    render (.array items) = '[' :: joinWith [','] (items.map render) ++ [']'] := by
  rw [render, renderItems_eq_map]

theorem render_object (members : List (Text × Json)) :
    render (.object members) = '\x7b' :: joinWith [','] (members.map memberText) ++ ['\x7d'] := by
  rw [render, renderMembers_eq_map]

inductive Occurs (v : Json) : Json → Prop
  | self : Occurs v v
  | item {j : Json} {items : List Json} : j ∈ items → Occurs v j → Occurs v (.array items)
  | member {m : Text × Json} {members : List (Text × Json)} :
      m ∈ members → Occurs v m.2 → Occurs v (.object members)

/-- No object that occurs in a value has a key twice. -/
def DistinctKeys (j : Json) : Prop :=
  ∀ members, Occurs (.object members) j → (members.map Prod.fst).Nodup

mutual

def depth : Json → Nat
  | .array items => depthItems items + 1
  | .object members => depthMembers members + 1
  | _ => 0

def depthItems : List Json → Nat
  | [] => 0
  | item :: items => max (depth item) (depthItems items)

def depthMembers : List (Text × Json) → Nat
  | [] => 0
  | (_, value) :: members => max (depth value) (depthMembers members)

end

theorem depthItems_le {room : Nat} {items : List Json} :
    depthItems items ≤ room ↔ ∀ j ∈ items, depth j ≤ room := by
  induction items with
  | nil => simp [depthItems]
  | cons j items ih => rw [depthItems, Nat.max_le, ih, List.forall_mem_cons]

theorem depthMembers_le {room : Nat} {members : List (Text × Json)} :
    depthMembers members ≤ room ↔ ∀ m ∈ members, depth m.2 ≤ room := by
  induction members with
  | nil => simp [depthMembers]
  | cons m members ih =>
    obtain ⟨key, value⟩ := m
    rw [depthMembers, Nat.max_le, ih, List.forall_mem_cons]

namespace DistinctKeys

variable {items : List Json} {members : List (Text × Json)}

theorem item (h : DistinctKeys (.array items)) {j : Json} (hj : j ∈ items) : DistinctKeys j :=
  fun members hm => h members (.item hj hm)

theorem member (h : DistinctKeys (.object members)) {m : Text × Json} (hm : m ∈ members) :
    DistinctKeys m.2 :=
  fun members hj => h members (.member hm hj)

theorem keys (h : DistinctKeys (.object members)) : (members.map Prod.fst).Nodup :=
  h members .self

theorem array (h : ∀ j ∈ items, DistinctKeys j) : DistinctKeys (.array items) := by
  intro members hm
  cases hm with
  | item hj hm => exact h _ hj members hm

theorem object (hkeys : (members.map Prod.fst).Nodup) (h : ∀ m ∈ members, DistinctKeys m.2) :
    DistinctKeys (.object members) := by
  intro members' hm
  cases hm with
  | self => exact hkeys
  | member hj hm => exact h _ hj members' hm

theorem of_depth_eq_zero {j : Json} (h : depth j = 0) : DistinctKeys j := by
  intro members hm
  cases hm with
  | self => exact absurd h (by rw [depth]; exact Nat.succ_ne_zero _)
  | item => exact absurd h (by rw [depth]; exact Nat.succ_ne_zero _)
  | member => exact absurd h (by rw [depth]; exact Nat.succ_ne_zero _)

end DistinctKeys

variable {members : List (Text × Json)} {key : Text} {value : Json}

theorem keys_put (members : List (Text × Json)) (key : Text) (value : Json) :
    (put members key value).map Prod.fst =
      if key ∈ members.map Prod.fst then members.map Prod.fst
      else members.map Prod.fst ++ [key] := by
  induction members with
  | nil => rfl
  | cons m members ih =>
    obtain ⟨k, v⟩ := m
    by_cases hk : k = key
    · simp [put, hk]
    · have hk' : key ≠ k := fun h => hk h.symm
      simp only [put, if_neg hk, List.map_cons, ih, List.mem_cons, hk', false_or]
      split
      · rfl
      · rfl

theorem put_of_notMem (h : key ∉ members.map Prod.fst) :
    put members key value = members ++ [(key, value)] := by
  induction members with
  | nil => rfl
  | cons m members ih =>
    obtain ⟨k, v⟩ := m
    rw [List.map_cons, List.mem_cons, not_or] at h
    rw [put, if_neg fun hk => h.1 hk.symm, ih h.2, List.cons_append]

theorem nodup_keys_put (h : (members.map Prod.fst).Nodup) (key : Text) (value : Json) :
    ((put members key value).map Prod.fst).Nodup := by
  rw [keys_put]
  split
  · exact h
  · rename_i hkey
    rw [← List.concat_eq_append]
    exact h.concat hkey

theorem mem_put {m : Text × Json} (h : m ∈ put members key value) :
    m ∈ members ∨ m = (key, value) := by
  induction members with
  | nil => exact .inr (List.mem_singleton.1 h)
  | cons n members ih =>
    obtain ⟨k, v⟩ := n
    rw [put] at h
    split at h
    · rename_i hk
      rcases List.mem_cons.1 h with rfl | h
      · exact .inr (by rw [hk])
      · exact .inl (List.mem_cons_of_mem _ h)
    · rcases List.mem_cons.1 h with rfl | h
      · exact .inl List.mem_cons_self
      · exact (ih h).imp_left (List.mem_cons_of_mem _)

theorem foldl_put_of_nodup {found pairs : List (Text × Json)}
    (h : ((found ++ pairs).map Prod.fst).Nodup) :
    pairs.foldl (fun members pair => put members pair.1 pair.2) found = found ++ pairs := by
  induction pairs generalizing found with
  | nil => rw [List.foldl_nil, List.append_nil]
  | cons pair pairs ih =>
    have hpair : pair.1 ∉ found.map Prod.fst := by
      intro hmem
      rw [List.map_append, List.nodup_append'] at h
      exact h.2.2 hmem (List.mem_map_of_mem List.mem_cons_self)
    rw [List.foldl_cons, put_of_notMem hpair, ih (by simpa using h), List.append_assoc,
      List.singleton_append]

theorem ofPairs_of_nodup (h : (members.map Prod.fst).Nodup) :
    ofPairs members = .object members := by
  rw [ofPairs, foldl_put_of_nodup (by simpa using h), List.nil_append]

theorem DistinctKeys.ofPairs {pairs : List (Text × Json)} (h : ∀ m ∈ pairs, DistinctKeys m.2) :
    DistinctKeys (ofPairs pairs) := by
  have hfold : ∀ found : List (Text × Json), (found.map Prod.fst).Nodup →
      (∀ m ∈ found, DistinctKeys m.2) →
      DistinctKeys
        (.object (pairs.foldl (fun members pair => put members pair.1 pair.2) found)) := by
    induction pairs with
    | nil =>
      intro found hkeys hfound
      exact .object hkeys hfound
    | cons pair pairs ih =>
      intro found hkeys hfound
      apply ih (fun m hm => h m (List.mem_cons_of_mem _ hm)) _ (nodup_keys_put hkeys _ _)
      intro m hm
      rcases mem_put hm with hm | rfl
      · exact hfound m hm
      · exact h pair List.mem_cons_self
  exact hfold [] List.nodup_nil fun m hm => absurd hm List.not_mem_nil

end RecordSheet.Json
