import RecordSheet.Proofs.Except
import RecordSheet.Proofs.Json.Injective
import RecordSheet.Proofs.Json.Sequence

namespace RecordSheet.Json

open Utf8

mutual

/-- What is read of the text of a value, where so many arrays and objects may be nested. -/
def reread : (room : Nat) → Json → Option Json
  | _, .null => some .null
  | _, .boolean value => some (.boolean value)
  | _, .number n => n.literal.number?.map .number
  | _, .string t => some (.string t)
  | 0, .array _ => none
  | room + 1, .array items => (rereadItems room items).map .array
  | 0, .object _ => none
  | room + 1, .object members => (rereadMembers room members).map ofPairs

def rereadItems : (room : Nat) → List Json → Option (List Json)
  | _, [] => some []
  | room, item :: items =>
    (reread room item).bind fun j => (rereadItems room items).map (j :: ·)

def rereadMembers : (room : Nat) → List (Text × Json) → Option (List (Text × Json))
  | _, [] => some []
  | room, (key, value) :: members =>
    (reread room value).bind fun j => (rereadMembers room members).map ((key, j) :: ·)

end

variable {la fuel room : Nat} {s : Rest}

theorem toOption_readNumber (la : Nat) {l : Literal} (h : l.WellFormed) (hs : Delimits s) :
    (readNumber la l.negative (chars l.unsigned ++ s)).toOption =
      l.number?.map fun n => (.number n, s) := by
  rw [readNumber, readLiteral_unsigned h hs]
  simp only [bind, Except.bind]
  cases l.number? with
  | some n => rfl
  | none =>
    cases l.unreadDigits? with
    | some unread => rfl
    | none => rfl

theorem lead_ne {c d : Char} {v : Shape} (h : leadShape? c = some v) (hd : leadShape? d = none) :
    c ≠ d := by
  rintro rfl
  rw [hd] at h
  cases h

theorem isSpace_of_lead {c : Char} {v : Shape} (h : leadShape? c = some v) :
    isSpace (.char c) = false := by
  simp [isSpace, lead_ne h (d := ' ') rfl, lead_ne h (d := '\n') rfl, lead_ne h (d := '\t') rfl,
    lead_ne h (d := '\r') rfl]

/-- A reader reads a text as something or refuses it, whatever stands behind it. -/
def ReadsAs {α : Type} (reader : Reader α) (t : Text) (a : Option α) : Prop :=
  ∀ s, Delimits s → (reader (chars t ++ s)).toOption = a.map (·, s)

variable {inner : Option (Reader Json)}

theorem readsAs_number (n : Number) :
    ReadsAs (readValueWith la fuel inner) n.render (n.literal.number?.map .number) := by
  intro s hs
  have hliteral := toOption_readNumber la n.wellFormed_literal hs
  obtain ⟨c, t, hc, hd⟩ := Literal.head_unsigned n.wellFormed_literal
  rw [← n.text_literal, Literal.text, Option.map_map]
  split
  · rename_i hn
    rw [hn] at hliteral
    exact hliteral
  · rename_i hn
    rw [Bool.eq_false_of_not_eq_true hn, hc, chars_cons, List.cons_append] at hliteral
    rw [hc, chars_cons, List.cons_append, readValueWith_digit hd]
    exact hliteral

theorem readsAs_string {t : Text} (h : t.length < fuel) :
    ReadsAs (readValueWith la fuel inner) (quoted t) (some (.string t)) := by
  intro s _
  have hvalue : readValueWith la fuel inner (chars (quoted t) ++ s) =
      (readString fuel (chars (t.flatMap escapeChar ++ ['"']) ++ s)).bind fun p =>
        .ok (.string p.1, p.2) :=
    rfl
  rw [hvalue, readString_quoted h]
  rfl

theorem delimits_sequence {close : Char} (h : close = ']' ∨ close = '\x7d') (ts : List Text)
    (s : Rest) : Delimits (chars (ts.flatMap ([','] ++ ·)) ++ .char close :: s) := by
  cases ts with
  | nil =>
    rcases h with rfl | rfl
    · exact delimits_of_mem (by decide)
    · exact delimits_of_mem (by decide)
  | cons t ts => exact delimits_of_mem (by decide)

variable {value : Reader Json} {items : List Json} {members : List (Text × Json)}

theorem readItemsAfter_render (h : ∀ j ∈ items, ReadsAs value (render j) (reread room j))
    (hfuel : items.length < fuel) (found : List Json) :
    (readItemsAfter value found fuel
      (chars ((items.map render).flatMap ([','] ++ ·)) ++ .char ']' :: s)).toOption =
      (rereadItems room items).map fun js => (found.reverse ++ js, s) := by
  induction items generalizing fuel found with
  | nil =>
    obtain ⟨fuel, rfl⟩ := Nat.exists_eq_succ_of_ne_zero (Nat.ne_of_gt hfuel)
    simp [readItemsAfter, rereadItems, skipSpace_cons (p := .char ']') rfl, Except.toOption]
  | cons j items ih =>
    obtain ⟨fuel, rfl⟩ := Nat.exists_eq_succ_of_ne_zero (Nat.ne_of_gt (Nat.zero_lt_of_lt hfuel))
    obtain ⟨c, t, hc, hlead⟩ := render_head j
    have hj := h j List.mem_cons_self _
      (delimits_sequence (.inl rfl) (items.map render) s)
    rw [hc, chars_cons, List.cons_append] at hj
    rw [List.map_cons, List.flatMap_cons, hc, List.append_assoc, List.singleton_append,
      List.cons_append, chars_cons, chars_cons, chars_append, List.cons_append, List.cons_append,
      List.append_assoc, readItemsAfter_comma (skipSpace_cons rfl)
        (skipSpace_cons (isSpace_of_lead hlead)) (lead_ne hlead rfl), toOption_bind, hj,
      rereadItems]
    cases reread room j with
    | none => rfl
    | some k =>
      have hrest := ih (fun i hi => h i (List.mem_cons_of_mem _ hi))
        (Nat.lt_of_succ_lt_succ hfuel) (k :: found)
      simp only [Option.map_some, Option.bind_some, hrest, Option.map_map]
      congr 1
      funext js
      simp

theorem readItems_render (h : ∀ j ∈ items, ReadsAs value (render j) (reread room j))
    (hfuel : items.length ≤ fuel) :
    (readItems fuel value (chars (joinWith [','] (items.map render) ++ [']']) ++ s)).toOption =
      (rereadItems room items).map (·, s) := by
  cases items with
  | nil =>
    simp [readItems, rereadItems, joinWith, skipSpace_cons (p := .char ']') rfl, Except.toOption]
  | cons j items =>
    obtain ⟨c, t, hc, hlead⟩ := render_head j
    have hj := h j List.mem_cons_self _
      (delimits_sequence (.inl rfl) (items.map render) s)
    rw [hc, chars_cons, List.cons_append] at hj
    rw [List.map_cons, joinWith_cons, hc, chars_append, chars_append, List.append_assoc,
      List.append_assoc, chars_cons, List.cons_append,
      readItems_first (skipSpace_cons (isSpace_of_lead hlead)) (lead_ne hlead rfl), chars_cons,
      chars_nil, List.singleton_append, toOption_bind, hj, rereadItems]
    cases reread room j with
    | none => rfl
    | some k =>
      have hrest := readItemsAfter_render (s := s)
        (fun i hi => h i (List.mem_cons_of_mem _ hi)) hfuel [k]
      simp only [Option.map_some, Option.bind_some, hrest, Option.map_map]
      rfl

theorem readsAs_member {m : Text × Json} (hkey : m.1.length < fuel)
    (h : ReadsAs value (render m.2) (reread room m.2)) :
    ReadsAs (readMember fuel value) (memberText m).tail
      ((reread room m.2).map fun j => (m.1, j)) := by
  intro s hs
  have htext : chars (memberText m).tail ++ s =
      chars (m.1.flatMap escapeChar ++ ['"']) ++ (.char ':' :: (chars (render m.2) ++ s)) := by
    simp [memberText, quoted]
  rw [htext, readMember, readString_quoted hkey]
  change Except.toOption (value (chars (render m.2) ++ s) >>= fun p => .ok ((m.1, p.1), p.2)) = _
  rw [toOption_bind, h s hs]
  cases reread room m.2 with
  | none => rfl
  | some k => rfl

theorem memberText_eq (m : Text × Json) : memberText m = '"' :: (memberText m).tail :=
  rfl

theorem readMembersAfter_render {member : Reader (Text × Json)}
    (h : ∀ m ∈ members, ReadsAs member (memberText m).tail
      ((reread room m.2).map fun j => (m.1, j)))
    (hfuel : members.length < fuel) (found : List (Text × Json)) :
    (readMembersAfter member found fuel
      (chars ((members.map memberText).flatMap ([','] ++ ·)) ++ .char '\x7d' :: s)).toOption =
      (rereadMembers room members).map fun ms => (found.reverse ++ ms, s) := by
  induction members generalizing fuel found with
  | nil =>
    obtain ⟨fuel, rfl⟩ := Nat.exists_eq_succ_of_ne_zero (Nat.ne_of_gt hfuel)
    simp [readMembersAfter, rereadMembers, skipSpace_cons (p := .char '\x7d') rfl, Except.toOption]
  | cons m members ih =>
    obtain ⟨fuel, rfl⟩ := Nat.exists_eq_succ_of_ne_zero (Nat.ne_of_gt (Nat.zero_lt_of_lt hfuel))
    have hm := h m List.mem_cons_self _
      (delimits_sequence (.inr rfl) (members.map memberText) s)
    rw [List.map_cons, List.flatMap_cons, memberText_eq, List.append_assoc, List.singleton_append,
      List.cons_append, chars_cons, chars_cons, chars_append, List.cons_append, List.cons_append,
      List.append_assoc, readMembersAfter_comma (skipSpace_cons rfl) (skipSpace_cons rfl),
      toOption_bind, hm]
    obtain ⟨key, v⟩ := m
    rw [rereadMembers]
    cases reread room v with
    | none => rfl
    | some k =>
      have hrest := ih (fun m hm => h m (List.mem_cons_of_mem _ hm))
        (Nat.lt_of_succ_lt_succ hfuel) ((key, k) :: found)
      simp only [Option.map_some, Option.bind_some, hrest, Option.map_map]
      congr 1
      funext ms
      simp

theorem readMembers_render {member : Reader (Text × Json)}
    (h : ∀ m ∈ members, ReadsAs member (memberText m).tail
      ((reread room m.2).map fun j => (m.1, j)))
    (hfuel : members.length ≤ fuel) :
    (readMembers fuel member
      (chars (joinWith [','] (members.map memberText) ++ ['\x7d']) ++ s)).toOption =
      (rereadMembers room members).map (·, s) := by
  cases members with
  | nil =>
    simp [readMembers, rereadMembers, joinWith, skipSpace_cons (p := .char '\x7d') rfl,
      Except.toOption]
  | cons m members =>
    have hm := h m List.mem_cons_self _
      (delimits_sequence (.inr rfl) (members.map memberText) s)
    rw [List.map_cons, joinWith_cons, memberText_eq, chars_append, chars_append, List.append_assoc,
      List.append_assoc, chars_cons, List.cons_append, readMembers_first (skipSpace_cons rfl),
      chars_cons, chars_nil, List.singleton_append, toOption_bind, hm]
    obtain ⟨key, v⟩ := m
    rw [rereadMembers]
    cases reread room v with
    | none => rfl
    | some k =>
      have hrest := readMembersAfter_render (s := s)
        (fun m hm => h m (List.mem_cons_of_mem _ hm)) hfuel [(key, k)]
      simp only [Option.map_some, Option.bind_some, hrest, Option.map_map]
      rfl

end RecordSheet.Json
