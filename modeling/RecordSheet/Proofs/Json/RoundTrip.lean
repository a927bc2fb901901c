import RecordSheet.Proofs.Json.Reading

namespace RecordSheet

theorem length_le_length_joinWith (between : Text) {t : Text} {ts : List Text} (h : t ∈ ts) :
    t.length ≤ (joinWith between ts).length := by
  cases ts with
  | nil => cases h
  | cons u ts =>
    rw [joinWith_cons, List.length_append]
    rcases List.mem_cons.1 h with rfl | h
    · exact Nat.le_add_right _ _
    · obtain ⟨a, b, rfl⟩ := List.append_of_mem h
      simp only [List.flatMap_append, List.flatMap_cons, List.length_append]
      omega

theorem length_le_length_joinWith_comma {ts : List Text} (h : ∀ t ∈ ts, t ≠ []) :
    ts.length ≤ (joinWith [','] ts).length := by
  cases ts with
  | nil => exact Nat.le_refl _
  | cons t ts =>
    have hrest : ts.length ≤ (ts.flatMap ([','] ++ ·)).length := by
      clear h
      induction ts with
      | nil => exact Nat.le_refl _
      | cons u ts ih =>
        rw [List.flatMap_cons, List.length_append, List.length_append, List.length_singleton,
          List.length_cons]
        omega
    have ht := List.length_pos_iff.2 (h t List.mem_cons_self)
    rw [joinWith_cons, List.length_append, List.length_cons]
    omega

namespace Json

open Utf8

variable {la fuel room : Nat}

variable {value : Reader Json} {items : List Json} {members : List (Text × Json)}

theorem length_render_item {j : Json} (h : j ∈ items) :
    (render j).length ≤ (render (.array items)).length := by
  have hle := length_le_length_joinWith [','] (List.mem_map_of_mem (f := render) h)
  rw [render_array, List.length_append, List.length_cons]
  omega

theorem length_render_member {m : Text × Json} (h : m ∈ members) :
    m.1.length + (render m.2).length < (render (.object members)).length := by
  have hle := length_le_length_joinWith [','] (List.mem_map_of_mem (f := memberText) h)
  have hkey := length_le_length_escape m.1
  simp only [memberText, quoted, List.length_append, List.length_cons] at hle
  rw [render_object, List.length_append, List.length_cons]
  omega

theorem readsAs_array (h : ∀ j ∈ items, ReadsAs value (render j) (reread room j))
    (hfuel : (render (.array items)).length ≤ fuel) :
    ReadsAs (readValueWith la fuel (some value)) (render (.array items))
      (reread (room + 1) (.array items)) := by
  intro s _
  have hcount := length_le_length_joinWith_comma
    fun t ht => (forall_mem_map_render items t ht).2
  rw [render_array, List.length_append, List.length_cons] at hfuel
  rw [List.length_map] at hcount
  rw [render_array, List.cons_append, chars_cons, List.cons_append]
  change Except.toOption (readItems fuel value _ >>= fun p => .ok (Json.array p.1, p.2)) = _
  rw [toOption_bind, readItems_render h (by omega), reread]
  cases rereadItems room items with
  | none => rfl
  | some js => rfl

theorem readsAs_object (h : ∀ m ∈ members, ReadsAs value (render m.2) (reread room m.2))
    (hfuel : (render (.object members)).length ≤ fuel) :
    ReadsAs (readValueWith la fuel (some value)) (render (.object members))
      (reread (room + 1) (.object members)) := by
  intro s _
  have hmembers : ∀ m ∈ members, ReadsAs (readMember fuel value) (memberText m).tail
      ((reread room m.2).map fun j => (m.1, j)) := by
    intro m hm
    have hle := length_render_member hm
    exact readsAs_member (by omega) (h m hm)
  have hcount := length_le_length_joinWith_comma
    fun t ht => (forall_mem_map_memberText members t ht).2
  rw [render_object, List.length_append, List.length_cons] at hfuel
  rw [List.length_map] at hcount
  rw [render_object, List.cons_append, chars_cons, List.cons_append]
  change Except.toOption (readMembers fuel (readMember fuel value) _ >>= fun p =>
    .ok (ofPairs p.1, p.2)) = _
  rw [toOption_bind, readMembers_render hmembers (by omega), reread]
  cases rereadMembers room members with
  | none => rfl
  | some ms => rfl

/-- Reading gives of the text of a value what the value is reread as. -/
theorem readsAs_render (la room : Nat) (j : Json) (hfuel : (render j).length ≤ fuel) :
    ReadsAs (readValue la fuel room) (render j) (reread room j) := by
  induction j generalizing room with
  | null =>
    obtain ⟨inner, hinner⟩ := exists_inner la fuel room
    intro s _
    rw [hinner]
    change Except.toOption (readWord .null "ull".toList (chars "ull".toList ++ s)) = _
    rw [readWord_append, reread]
    rfl
  | boolean value =>
    obtain ⟨inner, hinner⟩ := exists_inner la fuel room
    intro s _
    rw [hinner]
    cases value
    · change Except.toOption
        (readWord (.boolean false) "alse".toList (chars "alse".toList ++ s)) = _
      rw [readWord_append, reread]
      rfl
    · change Except.toOption (readWord (.boolean true) "rue".toList (chars "rue".toList ++ s)) = _
      rw [readWord_append, reread]
      rfl
  | number value =>
    obtain ⟨inner, hinner⟩ := exists_inner la fuel room
    rw [hinner, reread]
    exact readsAs_number value
  | string value =>
    obtain ⟨inner, hinner⟩ := exists_inner la fuel room
    have hle := length_le_length_escape value
    rw [render, quoted, List.length_append, List.length_cons] at hfuel
    rw [hinner, reread]
    exact readsAs_string (by omega)
  | array items ih =>
    cases room with
    | zero =>
      intro s _
      rw [render_array, List.cons_append, chars_cons, List.cons_append, reread]
      rfl
    | succ room =>
      apply readsAs_array _ hfuel
      intro j hj
      exact ih j hj room (Nat.le_trans (length_render_item hj) hfuel)
  | object members ih =>
    cases room with
    | zero =>
      intro s _
      rw [render_object, List.cons_append, chars_cons, List.cons_append, reread]
      rfl
    | succ room =>
      apply readsAs_object _ hfuel
      intro m hm
      have hle := length_render_member hm
      exact ih m hm room (by omega)

theorem toOption_parse_render (j : Json) : (parse (render j)).toOption = reread depthLimit j := by
  have hfuel : (render j).length ≤ (chars (render j)).length + 1 := by
    rw [chars, List.length_map]
    exact Nat.le_succ _
  have hread := readsAs_render 0 depthLimit j hfuel [] delimits_nil
  rw [List.append_nil] at hread
  rw [parse, toOption_mapError]
  change Except.toOption (ofPieces 0 (chars (render j))) = _
  rw [ofPieces, toOption_bind, hread]
  cases reread depthLimit j with
  | none => rfl
  | some k => rfl

def FloatsStable (j : Json) : Prop :=
  ∀ x, Occurs (.number (.float x)) j → x.Stable

variable {found : List (Text × Json)} {j k : Json} {key t : Text}

theorem floatsStable_array : FloatsStable (.array items) ↔ ∀ j ∈ items, FloatsStable j := by
  constructor
  · intro h j hj x hx
    exact h x (.item hj hx)
  · intro h x hx
    cases hx with
    | item hj hx => exact h _ hj x hx

theorem floatsStable_object : FloatsStable (.object members) ↔ ∀ m ∈ members, FloatsStable m.2 := by
  constructor
  · intro h m hm x hx
    exact h x (.member hm hx)
  · intro h x hx
    cases hx with
    | member hm hx => exact h _ hm x hx

theorem rereadItems_eq_self_iff :
    rereadItems room items = some items ↔ ∀ j ∈ items, reread room j = some j := by
  induction items with
  | nil => simp [rereadItems]
  | cons j items ih =>
    rw [rereadItems, List.forall_mem_cons, ← ih]
    cases reread room j with
    | none => simp
    | some k => simp [and_comm]

theorem rereadMembers_eq_self_iff :
    rereadMembers room members = some members ↔ ∀ m ∈ members, reread room m.2 = some m.2 := by
  induction members with
  | nil => simp [rereadMembers]
  | cons m members ih =>
    obtain ⟨key, value⟩ := m
    rw [rereadMembers, List.forall_mem_cons, ← ih]
    cases reread room value with
    | none => simp
    | some k => simp [and_comm]

theorem keys_rereadMembers (h : rereadMembers room members = some found) :
    found.map Prod.fst = members.map Prod.fst := by
  induction members generalizing found with
  | nil =>
    cases h
    rfl
  | cons m members ih =>
    obtain ⟨key, value⟩ := m
    rw [rereadMembers, Option.bind_eq_some_iff] at h
    obtain ⟨k, -, h⟩ := h
    obtain ⟨rest, hrest, rfl⟩ := Option.map_eq_some_iff.1 h
    rw [List.map_cons, List.map_cons, ih hrest]

theorem lookup_rereadMembers (h : rereadMembers room members = some found) :
    found.lookup key = (members.lookup key).bind (reread room) := by
  induction members generalizing found with
  | nil =>
    cases h
    rfl
  | cons m members ih =>
    obtain ⟨k, value⟩ := m
    rw [rereadMembers, Option.bind_eq_some_iff] at h
    obtain ⟨v, hv, h⟩ := h
    obtain ⟨rest, hrest, rfl⟩ := Option.map_eq_some_iff.1 h
    rw [List.lookup_cons, List.lookup_cons]
    split
    · rw [Option.bind_some, hv]
    · exact ih hrest

theorem reread_object (h : (members.map Prod.fst).Nodup) :
    reread (room + 1) (.object members) = (rereadMembers room members).map .object := by
  rw [reread]
  cases hfound : rereadMembers room members with
  | none => rfl
  | some found =>
    rw [Option.map_some, Option.map_some, ofPairs_of_nodup (by rwa [keys_rereadMembers hfound])]

theorem reread_object_self (hkeys : (members.map Prod.fst).Nodup)
    (h : ∀ m ∈ members, reread room m.2 = some m.2) :
    reread (room + 1) (.object members) = some (.object members) := by
  rw [reread_object hkeys, rereadMembers_eq_self_iff.2 h, Option.map_some]

/-- Exactly the values of small depth with stable floating numbers are reread as themselves. -/
theorem reread_eq_self_iff (hkeys : DistinctKeys j) :
    reread room j = some j ↔ depth j ≤ room ∧ FloatsStable j := by
  induction j generalizing room with
  | null =>
    refine iff_of_true (by rw [reread]) ⟨Nat.zero_le _, fun x hx => ?_⟩
    cases hx
  | boolean value =>
    refine iff_of_true (by rw [reread]) ⟨Nat.zero_le _, fun x hx => ?_⟩
    cases hx
  | number value =>
    cases value with
    | integer n =>
      refine iff_of_true ?_ ⟨Nat.zero_le _, fun x hx => ?_⟩
      · rw [reread, Number.number?_integer, Option.map_some]
      · cases hx
    | float y =>
      have hnumber : reread room (.number (.float y)) = some (.number (.float y)) ↔ y.Stable := by
        rw [← Number.number?_float_eq_some_iff, reread, Option.map_eq_some_iff]
        simp
      rw [hnumber]
      constructor
      · intro hy
        refine ⟨Nat.zero_le _, fun x hx => ?_⟩
        cases hx
        exact hy
      · intro h
        exact h.2 y .self
  | string value =>
    refine iff_of_true (by rw [reread]) ⟨Nat.zero_le _, fun x hx => ?_⟩
    cases hx
  | array items ih =>
    cases room with
    | zero => simp [reread, depth]
    | succ room =>
      have hitems : rereadItems room items = some items ↔
          ∀ j ∈ items, depth j ≤ room ∧ FloatsStable j := by
        rw [rereadItems_eq_self_iff]
        exact forall₂_congr fun j hj => ih j hj (hkeys.item hj)
      rw [reread, Option.map_eq_some_iff, floatsStable_array, depth, Nat.add_le_add_iff_right,
        depthItems_le, ← forall₂_and, ← hitems]
      simp
  | object members ih =>
    cases room with
    | zero => simp [reread, depth]
    | succ room =>
      have hmembers : rereadMembers room members = some members ↔
          ∀ m ∈ members, depth m.2 ≤ room ∧ FloatsStable m.2 := by
        rw [rereadMembers_eq_self_iff]
        exact forall₂_congr fun m hm => ih m hm (hkeys.member hm)
      rw [reread_object hkeys.keys, Option.map_eq_some_iff, floatsStable_object, depth,
        Nat.add_le_add_iff_right, depthMembers_le, ← forall₂_and, ← hmembers]
      simp

theorem field?_of_reread (hkeys : DistinctKeys j) (h : reread room j = some k)
    (hfield : j.field? key = some (.string t)) : k.field? key = some (.string t) := by
  cases j with
  | object members =>
    cases room with
    | zero =>
      rw [reread] at h
      cases h
    | succ room =>
      rw [reread_object hkeys.keys] at h
      obtain ⟨found, hfound, rfl⟩ := Option.map_eq_some_iff.1 h
      rw [field?] at hfield ⊢
      rw [lookup_rereadMembers hfound, hfield, Option.bind_some, reread]
  | _ => cases hfield

end Json

end RecordSheet
