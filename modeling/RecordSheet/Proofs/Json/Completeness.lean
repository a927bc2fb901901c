import RecordSheet.Proofs.Json.Sequence
import RecordSheet.Proofs.Json.StringText

namespace RecordSheet.Json

open Utf8

variable {la fuel room n : Nat} {t ts v w : Text} {s : Rest} {f : Form} {j : Json}

theorem readValueWith_skipSpace (inner : Option (Reader Json)) (s : Rest) :
    readValueWith la fuel inner (skipSpace s) = readValueWith la fuel inner s := by
  rw [readValueWith, readValueWith, skipSpace_skipSpace]

theorem readValue_skipSpace (s : Rest) :
    readValue la fuel room (skipSpace s) = readValue la fuel room s := by
  cases room with
  | zero => exact readValueWith_skipSpace none s
  | succ room => exact readValueWith_skipSpace _ s

theorem readValue_space_append (hv : Space v) :
    readValue la fuel room (chars v ++ s) = readValue la fuel room s := by
  rw [← readValue_skipSpace, skipSpace_append hv, readValue_skipSpace]

/-- A part is read up to the space behind it, if what follows then ends a number. -/
def ReadsPart {α : Type} (reader : Reader α) (t : Text) (a : α) : Prop :=
  ∃ w, Space w ∧ ∀ s, Delimits s → reader (chars t ++ s) = .ok (a, chars w ++ s)

theorem valueText_head (h : ValueText t f) :
    ∃ c u, t = c :: u ∧ isSpace (.char c) = false ∧ c ≠ ']' := by
  cases h with
  | null => exact ⟨'n', _, rfl, rfl, by decide⟩
  | true => exact ⟨'t', _, rfl, rfl, by decide⟩
  | false => exact ⟨'f', _, rfl, rfl, by decide⟩
  | number h =>
    cases h with
    | positive _ h =>
      obtain ⟨c, u, hc, hd⟩ := h.head
      exact ⟨c, u, hc, isSpace_of_isDigit hd, ne_of_isDigit hd rfl⟩
    | negative _ h => exact ⟨'-', _, rfl, rfl, by decide⟩
  | string h =>
    obtain ⟨h⟩ := h
    exact ⟨'"', _, rfl, rfl, by decide⟩
  | array h =>
    cases h with
    | empty => exact ⟨'[', _, rfl, rfl, by decide⟩
    | parts => exact ⟨'[', _, rfl, rfl, by decide⟩
  | object h =>
    cases h with
    | empty => exact ⟨'\x7b', _, rfl, rfl, by decide⟩
    | parts => exact ⟨'\x7b', _, rfl, rfl, by decide⟩

theorem PaddedText.head (h : PaddedText ValueText t f) (s : Rest) :
    ∃ c r, skipSpace (chars t ++ s) = .char c :: r ∧ c ≠ ']' := by
  obtain ⟨hv, ht, hw⟩ := h
  rename_i v t w
  obtain ⟨c, u, rfl, hc, hne⟩ := valueText_head ht
  refine ⟨c, chars u ++ (chars w ++ s), ?_, hne⟩
  rw [chars_append, chars_append, List.append_assoc, List.append_assoc, skipSpace_append hv,
    chars_cons, List.cons_append, skipSpace_cons hc]

theorem PaddedText.length_pos (h : PaddedText ValueText t f) : 0 < t.length := by
  obtain ⟨hv, ht, hw⟩ := h
  obtain ⟨c, u, rfl, -, -⟩ := valueText_head ht
  rw [List.length_append, List.length_append, List.length_cons]
  omega

section

variable {item : Reader Json}

theorem readItemsAfter_space_append (hw : Space w) (found : List Json) (s : Rest) :
    readItemsAfter item found (n + 1) (chars w ++ s) = readItemsAfter item found (n + 1) s := by
  rw [readItemsAfter, readItemsAfter, skipSpace_append hw]

variable (hitem : ∀ s, item (skipSpace s) = item s)
include hitem

theorem readItemsAfter_padded (ht : PaddedText ValueText t f) (found : List Json) (s : Rest) :
    readItemsAfter item found (n + 1) (.char ',' :: (chars t ++ s)) =
      item (chars t ++ s) >>= fun p => readItemsAfter item (p.1 :: found) n p.2 := by
  obtain ⟨c, r, hr, hc⟩ := ht.head s
  rw [readItemsAfter_comma (skipSpace_cons rfl) hr hc, ← hr, hitem]

theorem readItems_padded (ht : PaddedText ValueText t f) (s : Rest) :
    readItems fuel item (chars t ++ s) =
      readItemsAfter item [] (fuel + 1) (.char ',' :: (chars t ++ s)) := by
  obtain ⟨c, r, hr, hc⟩ := ht.head s
  rw [readItemsAfter_padded hitem ht, readItems_first hr hc, ← hr, hitem]

theorem readItems_sequence {items : List Form} (h : SequenceText (PaddedText ValueText) ts items)
    (s : Rest) : readItems fuel item (chars ts ++ s) =
      readItemsAfter item [] (fuel + 1) (.char ',' :: (chars ts ++ s)) := by
  cases h with
  | one ht => exact readItems_padded hitem ht s
  | more ht _ =>
    rw [chars_append, List.append_assoc]
    exact readItems_padded hitem ht _

theorem readItemsAfter_sequence {items : List Form} {js : List Json}
    (h : SequenceText (PaddedText ValueText) ts items)
    (hjs : List.Forall₂ (Form.Denotes room) items js)
    (hread : ∀ f ∈ items, ∀ t j, PaddedText ValueText t f → t.length ≤ fuel → f.Denotes room j →
      ReadsPart item t j)
    (hfuel : ts.length ≤ fuel) (hn : ts.length < n) (found : List Json) :
    readItemsAfter item found n (.char ',' :: (chars ts ++ .char ']' :: s)) =
      .ok (found.reverse ++ js, s) := by
  induction h generalizing js n found with
  | @one t f ht =>
    obtain ⟨n, rfl⟩ := Nat.exists_eq_add_of_le' (Nat.succ_le_of_lt
      (Nat.lt_of_le_of_lt ht.length_pos hn))
    cases hjs with
    | @cons _ j _ _ hj hjs =>
      cases hjs
      obtain ⟨w, hw, hitem'⟩ := hread f List.mem_cons_self t j ht hfuel hj
      rw [readItemsAfter_padded hitem ht, hitem' _ (delimits_of_mem (by decide))]
      change readItemsAfter item (j :: found) (n + 1) (chars w ++ .char ']' :: s) = _
      rw [readItemsAfter_close (skipSpace_append_cons hw rfl s), List.reverse_cons]
  | @more t ts f items ht _ ih =>
    rw [List.length_append, List.length_cons] at hfuel hn
    obtain ⟨n, rfl⟩ := Nat.exists_eq_add_of_le' (show 2 ≤ n by have := ht.length_pos; omega)
    cases hjs with
    | @cons _ j _ js hj hjs =>
      obtain ⟨w, hw, hitem'⟩ := hread f List.mem_cons_self t j ht (by omega) hj
      rw [chars_append, List.append_assoc, readItemsAfter_padded hitem ht, chars_cons,
        List.cons_append, hitem' _ (delimits_of_mem (by decide))]
      change readItemsAfter item (j :: found) (n + 1) (chars w ++ .char ',' :: _) = _
      rw [readItemsAfter_space_append hw,
        ih hjs (fun f hf => hread f (List.mem_cons_of_mem _ hf)) (by omega) (by omega),
        List.reverse_cons, List.append_assoc, List.singleton_append]

theorem readItems_bracketed {items : List Form} {js : List Json}
    (h : BracketedText '[' ']' (PaddedText ValueText) t items)
    (hjs : List.Forall₂ (Form.Denotes room) items js)
    (hread : ∀ f ∈ items, ∀ t j, PaddedText ValueText t f → t.length ≤ fuel → f.Denotes room j →
      ReadsPart item t j)
    (hfuel : t.length ≤ fuel) :
    ∃ u, t = '[' :: u ∧ readItems fuel item (chars u ++ s) = .ok (js, s) := by
  cases h with
  | @empty w hw =>
    cases hjs
    refine ⟨w ++ [']'], rfl, ?_⟩
    rw [chars_append, List.append_assoc]
    exact readItems_close (skipSpace_append_cons hw rfl s)
  | @parts ts _ hts =>
    rw [List.length_append, List.length_cons, List.length_singleton] at hfuel
    have hseq := readItemsAfter_sequence (s := s) hitem hts hjs hread (by omega)
      (show ts.length < fuel + 1 by omega) []
    refine ⟨ts ++ [']'], rfl, ?_⟩
    rw [chars_append, List.append_assoc, readItems_sequence hitem hts]
    exact hseq

end

section

variable {member : Reader (Text × Json)} {u : Text} {m : List StringUnit × Form}
  {pair : Text × Json}

theorem readMembersAfter_space_append (hw : Space w) (found : List (Text × Json)) (s : Rest) :
    readMembersAfter member found (n + 1) (chars w ++ s) =
      readMembersAfter member found (n + 1) s := by
  rw [readMembersAfter, readMembersAfter, skipSpace_append hw]

theorem skipSpace_quote (hv : Space v) (s : Rest) :
    skipSpace (chars (v ++ '"' :: u) ++ s) = .char '"' :: (chars u ++ s) := by
  rw [chars_append, List.append_assoc]
  exact skipSpace_append_cons hv rfl _

theorem readMembersAfter_quote (hv : Space v) (found : List (Text × Json)) (s : Rest) :
    readMembersAfter member found (n + 1) (.char ',' :: (chars (v ++ '"' :: u) ++ s)) =
      member (chars u ++ s) >>= fun p => readMembersAfter member (p.1 :: found) n p.2 :=
  readMembersAfter_comma (skipSpace_cons rfl) (skipSpace_quote hv s) found

theorem MemberText.exists_quote (h : MemberText ValueText t m) :
    ∃ v u, Space v ∧ t = v ++ '"' :: u := by
  obtain ⟨hkey, -⟩ := h
  rename_i x us f
  obtain ⟨hv, hkey, -⟩ := hkey
  rename_i v key w
  obtain ⟨-⟩ := hkey
  rename_i u
  refine ⟨v, u ++ ['"'] ++ w ++ ':' :: x, hv, ?_⟩
  simp only [List.append_assoc, List.cons_append]

theorem readMembers_member (h : MemberText ValueText t m) (s : Rest) :
    readMembers fuel member (chars t ++ s) =
      readMembersAfter member [] (fuel + 1) (.char ',' :: (chars t ++ s)) := by
  obtain ⟨v, u, hv, rfl⟩ := h.exists_quote
  rw [readMembersAfter_quote hv, readMembers_first (skipSpace_quote hv s)]

theorem readMembers_sequence {members : List (List StringUnit × Form)}
    (h : SequenceText (MemberText ValueText) ts members) (s : Rest) :
    readMembers fuel member (chars ts ++ s) =
      readMembersAfter member [] (fuel + 1) (.char ',' :: (chars ts ++ s)) := by
  cases h with
  | one ht => exact readMembers_member ht s
  | more ht _ =>
    rw [chars_append, List.append_assoc]
    exact readMembers_member ht _

def ReadsMember (member : Reader (Text × Json)) (t : Text) (pair : Text × Json) : Prop :=
  ∃ v u, Space v ∧ t = v ++ '"' :: u ∧ ReadsPart member u pair

theorem readsMember_of_memberText {value : Reader Json} (h : MemberText ValueText t m)
    (hm : Form.DenotesMember room m pair) (hfuel : t.length ≤ fuel)
    (hvalue : ∀ t, PaddedText ValueText t m.2 → t.length ≤ fuel → ReadsPart value t pair.2) :
    ReadsMember (readMember fuel value) t pair := by
  obtain ⟨hkey, hx⟩ := h
  rename_i key x us f
  obtain ⟨hv, hkey, hw⟩ := hkey
  rename_i v key w
  obtain ⟨hunits⟩ := hkey
  rename_i u
  obtain ⟨k, j⟩ := pair
  simp only [List.length_append, List.length_cons, List.length_nil] at hfuel
  obtain ⟨w', hw', hread⟩ := hvalue x hx (by omega)
  have hrest : StringRest (u ++ ['"']) k := .mk hunits hm.1
  refine ⟨v, u ++ ['"'] ++ w ++ ':' :: x, hv, ?_, w', hw', ?_⟩
  · simp only [List.append_assoc, List.cons_append]
  · intro s hs
    rw [chars_append, chars_append, List.append_assoc, List.append_assoc, readMember,
      hrest.readString (by rw [List.length_append, List.length_singleton]; omega)]
    simp only [bind, Except.bind, skipSpace_append hw, chars_cons, List.cons_append,
      skipSpace_cons (p := .char ':') rfl, hread s hs]

theorem readMembersAfter_sequence {members : List (List StringUnit × Form)}
    {pairs : List (Text × Json)} (h : SequenceText (MemberText ValueText) ts members)
    (hpairs : List.Forall₂ (Form.DenotesMember room) members pairs)
    (hread : ∀ m ∈ members, ∀ t pair, MemberText ValueText t m → t.length ≤ fuel →
      Form.DenotesMember room m pair → ReadsMember member t pair)
    (hfuel : ts.length ≤ fuel) (hn : ts.length < n) (found : List (Text × Json)) :
    readMembersAfter member found n (.char ',' :: (chars ts ++ .char '\x7d' :: s)) =
      .ok (found.reverse ++ pairs, s) := by
  induction h generalizing pairs n found with
  | @one t m ht =>
    cases hpairs with
    | @cons _ pair _ _ hm hpairs =>
      cases hpairs
      obtain ⟨v, u, hv, rfl, w, hw, hmember⟩ := hread m List.mem_cons_self t pair ht hfuel hm
      rw [List.length_append, List.length_cons] at hn
      obtain ⟨n, rfl⟩ := Nat.exists_eq_add_of_le' (show 2 ≤ n by omega)
      rw [readMembersAfter_quote hv,
        hmember _ (delimits_of_mem (by decide))]
      change readMembersAfter member (pair :: found) (n + 1) (chars w ++ .char '\x7d' :: s) = _
      rw [readMembersAfter_close (skipSpace_append_cons hw rfl s), List.reverse_cons]
  | @more t ts m members ht _ ih =>
    rw [List.length_append, List.length_cons] at hfuel hn
    cases hpairs with
    | @cons _ pair _ pairs hm hpairs =>
      obtain ⟨v, u, hv, rfl, w, hw, hmember⟩ :=
        hread m List.mem_cons_self t pair ht (by omega) hm
      rw [List.length_append, List.length_cons] at hn
      obtain ⟨n, rfl⟩ := Nat.exists_eq_add_of_le' (show 2 ≤ n by omega)
      rw [chars_append, List.append_assoc, readMembersAfter_quote hv, chars_cons,
        List.cons_append, hmember _ (delimits_of_mem (by decide))]
      change readMembersAfter member (pair :: found) (n + 1) (chars w ++ .char ',' :: _) = _
      rw [readMembersAfter_space_append hw,
        ih hpairs (fun m hm => hread m (List.mem_cons_of_mem _ hm)) (by omega) (by omega),
        List.reverse_cons, List.append_assoc, List.singleton_append]

theorem readMembers_bracketed {members : List (List StringUnit × Form)}
    {pairs : List (Text × Json)}
    (h : BracketedText '\x7b' '\x7d' (MemberText ValueText) t members)
    (hpairs : List.Forall₂ (Form.DenotesMember room) members pairs)
    (hread : ∀ m ∈ members, ∀ t pair, MemberText ValueText t m → t.length ≤ fuel →
      Form.DenotesMember room m pair → ReadsMember member t pair)
    (hfuel : t.length ≤ fuel) :
    ∃ u, t = '\x7b' :: u ∧ readMembers fuel member (chars u ++ s) = .ok (pairs, s) := by
  cases h with
  | @empty w hw =>
    cases hpairs
    refine ⟨w ++ ['\x7d'], rfl, ?_⟩
    rw [chars_append, List.append_assoc]
    exact readMembers_close (skipSpace_append_cons hw rfl s)
  | @parts ts _ hts =>
    rw [List.length_append, List.length_cons, List.length_singleton] at hfuel
    have hseq := readMembersAfter_sequence (s := s) hts hpairs hread (by omega)
      (show ts.length < fuel + 1 by omega) []
    refine ⟨ts ++ ['\x7d'], rfl, ?_⟩
    rw [chars_append, List.append_assoc, readMembers_sequence hts]
    exact hseq

end

theorem readsPart_of_paddedText (h : PaddedText ValueText t f) (hfuel : t.length ≤ fuel)
    (hread : ∀ u s, ValueText u f → u.length ≤ fuel → (∀ l, f = .number l → Delimits s) →
      readValue la fuel room (chars u ++ s) = .ok (j, s)) :
    ReadsPart (readValue la fuel room) t j := by
  obtain ⟨hv, hu, hw⟩ := h
  rename_i v u w
  rw [List.length_append, List.length_append] at hfuel
  refine ⟨w, hw, ?_⟩
  intro s hs
  rw [chars_append, chars_append, List.append_assoc, List.append_assoc, readValue_space_append hv]
  exact hread u _ hu (by omega) fun _ _ => delimits_space_append hw hs

theorem readValueWith_number {inner : Option (Reader Json)} {l : Literal} {number : Number}
    (h : l.NumberText t) (hn : l.number? = some number) (hs : Delimits s) :
    readValueWith la fuel inner (chars t ++ s) = .ok (.number number, s) := by
  cases h with
  | positive hsign h =>
    obtain ⟨c, u, hc, hd⟩ := h.head
    have hread := readNumber_append la h hn hs
    rw [hsign] at hread
    rw [hc, chars_cons, List.cons_append] at hread ⊢
    rw [readValueWith_digit hd, hread]
  | negative hsign h =>
    have hread := readNumber_append la h hn hs
    rw [hsign] at hread
    exact hread

theorem readValueWith_string {inner : Option (Reader Json)} {us : List StringUnit} {cs : Text}
    (h : StringText t us) (hcs : decode? us = some cs) (hfuel : t.length ≤ fuel) :
    readValueWith la fuel inner (chars t ++ s) = .ok (.string cs, s) := by
  obtain ⟨hunits⟩ := h
  rename_i u
  rw [List.cons_append, List.length_cons] at hfuel
  have hread := (StringRest.mk hunits hcs).readString (s := s) (Nat.le_of_succ_le hfuel)
  rw [List.cons_append, chars_cons, List.cons_append]
  change (readString fuel (chars (u ++ ['"']) ++ s)).bind _ = _
  rw [hread]
  rfl

theorem readValueWith_array {value : Reader Json} {items : List Form} {js : List Json}
    (h : BracketedText '[' ']' (PaddedText ValueText) t items)
    (hjs : List.Forall₂ (Form.Denotes room) items js)
    (hvalue : ∀ s, value (skipSpace s) = value s)
    (hread : ∀ f ∈ items, ∀ t j, PaddedText ValueText t f → t.length ≤ fuel → f.Denotes room j →
      ReadsPart value t j)
    (hfuel : t.length ≤ fuel) :
    readValueWith la fuel (some value) (chars t ++ s) = .ok (.array js, s) := by
  obtain ⟨u, rfl, hitems⟩ := readItems_bracketed (s := s) hvalue h hjs hread hfuel
  rw [chars_cons, List.cons_append]
  change (readItems fuel value (chars u ++ s)).bind _ = _
  rw [hitems]
  rfl

theorem readValueWith_object {value : Reader Json} {members : List (List StringUnit × Form)}
    {pairs : List (Text × Json)}
    (h : BracketedText '\x7b' '\x7d' (MemberText ValueText) t members)
    (hpairs : List.Forall₂ (Form.DenotesMember room) members pairs)
    (hread : ∀ m ∈ members, ∀ t j, PaddedText ValueText t m.2 → t.length ≤ fuel →
      m.2.Denotes room j → ReadsPart value t j)
    (hfuel : t.length ≤ fuel) :
    readValueWith la fuel (some value) (chars t ++ s) = .ok (.object (latest pairs), s) := by
  have hmembers : ∀ m ∈ members, ∀ t pair, MemberText ValueText t m → t.length ≤ fuel →
      Form.DenotesMember room m pair → ReadsMember (readMember fuel value) t pair := by
    intro m hm t pair ht hfuel hpair
    apply readsMember_of_memberText ht hpair hfuel
    intro t ht hfuel
    exact hread m hm t pair.2 ht hfuel hpair.2
  obtain ⟨u, rfl, hpairs'⟩ := readMembers_bracketed (s := s) h hpairs hmembers hfuel
  rw [chars_cons, List.cons_append]
  change (readMembers fuel (readMember fuel value) (chars u ++ s)).bind _ = _
  rw [hpairs', ← ofPairs_eq_latest]
  rfl

/-- The text of a form that stands for a value is read as the value. -/
theorem readValue_append (h : ValueText t f) (hj : f.Denotes room j) (hfuel : t.length ≤ fuel)
    (hs : ∀ l, f = .number l → Delimits s) :
    readValue la fuel room (chars t ++ s) = .ok (j, s) := by
  induction f generalizing t j room s with
  | null =>
    obtain ⟨inner, hinner⟩ := exists_inner la fuel room
    cases h
    cases hj.2
    rw [hinner]
    exact readWord_append .null "ull".toList
  | boolean value =>
    obtain ⟨inner, hinner⟩ := exists_inner la fuel room
    cases h with
    | true =>
      cases hj.2
      rw [hinner]
      exact readWord_append (.boolean Bool.true) "rue".toList
    | false =>
      cases hj.2
      rw [hinner]
      exact readWord_append (.boolean Bool.false) "alse".toList
  | number l =>
    obtain ⟨inner, hinner⟩ := exists_inner la fuel room
    cases h with
    | number h =>
      obtain ⟨n, hn, rfl⟩ := Option.map_eq_some_iff.1 hj.2
      rw [l.value?_eq_number?] at hn
      rw [hinner]
      exact readValueWith_number h hn (hs l rfl)
  | string us =>
    obtain ⟨inner, hinner⟩ := exists_inner la fuel room
    cases h with
    | string h =>
      obtain ⟨cs, hcs, rfl⟩ := Option.map_eq_some_iff.1 hj.2
      rw [hinner]
      exact readValueWith_string h hcs hfuel
  | array items ih =>
    cases room with
    | zero => exact absurd hj.1 (Nat.not_succ_le_zero _)
    | succ room =>
      obtain ⟨js, hjs, rfl⟩ := Form.denotes_array_iff.1 hj
      cases h with
      | array h =>
        apply readValueWith_array h hjs readValue_skipSpace _ hfuel
        intro f hf t j ht hfuel hj
        apply readsPart_of_paddedText ht hfuel
        intro u s hu hfuel hs
        exact ih f hf hu hj hfuel hs
  | object members ih =>
    cases room with
    | zero => exact absurd hj.1 (Nat.not_succ_le_zero _)
    | succ room =>
      obtain ⟨pairs, hpairs, rfl⟩ := Form.denotes_object_iff.1 hj
      cases h with
      | object h =>
        apply readValueWith_object h hpairs _ hfuel
        intro m hm t j ht hfuel hj
        apply readsPart_of_paddedText ht hfuel
        intro u s hu hfuel hs
        exact ih m hm hu hj hfuel hs

/-- A text that is spelled from a form is read as the value that the form stands for. -/
theorem ofPieces_of_jsonText (la : Nat) (h : JsonText t f) (hj : f.Denotes depthLimit j) :
    ofPieces la (chars t) = .ok j := by
  obtain ⟨hv, hu, hw⟩ := h
  rename_i v u w
  have hlength : u.length ≤ (chars (v ++ u ++ w)).length + 1 := by
    rw [chars, List.length_map, List.length_append, List.length_append]
    omega
  have hread : readValue la ((chars (v ++ u ++ w)).length + 1) depthLimit
      (chars u ++ (chars w ++ [])) = .ok (j, chars w ++ []) :=
    readValue_append hu hj hlength fun _ _ => delimits_space_append hw delimits_nil
  have hskip : skipSpace (chars w) = [] := by
    rw [← List.append_nil (chars w), skipSpace_append hw]
    rfl
  rw [List.append_nil] at hread
  rw [ofPieces]
  generalize (chars (v ++ u ++ w)).length + 1 = fuel at hread
  simp only [chars_append, List.append_assoc, readValue_space_append hv, hread, bind, Except.bind,
    hskip]

end RecordSheet.Json
