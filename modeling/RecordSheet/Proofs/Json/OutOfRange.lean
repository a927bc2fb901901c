import RecordSheet.Proofs.Json.Context

namespace RecordSheet.Json

open Utf8

variable {la fuel room n : Nat} {t ts : Text} {s : Rest} {f : Form}

/-- A reader refuses a text for a number in it. -/
def RefusesNumber {α : Type} (reader : Reader α) (t : Text) : Prop :=
  ∀ s, Delimits s → ∃ behind, reader (chars t ++ s) = .error ⟨.outOfRange, behind⟩

theorem readNumber_outOfRange (la : Nat) {l : Literal} (h : l.UnsignedText t)
    (hl : l.number? = none) (hs : Delimits s) :
    ∃ behind, readNumber la l.negative (chars t ++ s) = .error ⟨.outOfRange, behind⟩ := by
  simp only [readNumber, readLiteral_append h hs, bind, Except.bind, hl]
  cases l.unreadDigits? with
  | some unread => exact ⟨_, rfl⟩
  | none => exact ⟨_, rfl⟩

theorem refusesNumber_number {inner : Option (Reader Json)} {l : Literal} (h : l.NumberText t)
    (hl : l.number? = none) : RefusesNumber (readValueWith la fuel inner) t := by
  intro s hs
  cases h with
  | positive hsign h =>
    obtain ⟨c, u, hc, hd⟩ := h.head
    have hrefuse := readNumber_outOfRange la h hl hs
    rw [hsign] at hrefuse
    rw [hc, chars_cons, List.cons_append] at hrefuse ⊢
    rwa [readValueWith_digit hd]
  | negative hsign h =>
    have hrefuse := readNumber_outOfRange la h hl hs
    rw [hsign] at hrefuse
    exact hrefuse

theorem refusesNumber_of_paddedText (h : PaddedText ValueText t f) (hfuel : t.length ≤ fuel)
    (hrefuse : ∀ u, ValueText u f → u.length ≤ fuel → RefusesNumber (readValue la fuel room) u) :
    RefusesNumber (readValue la fuel room) t := by
  obtain ⟨hv, hu, hw⟩ := h
  rename_i v u w
  rw [List.length_append, List.length_append] at hfuel
  intro s hs
  rw [chars_append, chars_append, List.append_assoc, List.append_assoc, readValue_space_append hv]
  exact hrefuse u hu (by omega) _ (delimits_space_append hw hs)

theorem SequenceText.exists_first {α : Type} {part : Text → α → Prop} {a : α} {as : List α}
    (h : SequenceText part ts (a :: as)) (hs : Delimits s) :
    ∃ t r, part t a ∧ t.length ≤ ts.length ∧ chars ts ++ s = chars t ++ r ∧ Delimits r := by
  cases h with
  | one ht => exact ⟨ts, s, ht, Nat.le_refl _, rfl, hs⟩
  | @more t ts _ _ ht _ =>
    refine ⟨t, .char ',' :: (chars ts ++ s), ht, ?_, ?_, delimits_of_mem (by decide)⟩
    · rw [List.length_append]
      exact Nat.le_add_right _ _
    · rw [chars_append, chars_cons, List.append_assoc, List.cons_append]

section

variable {item : Reader Json} {before behind : List Form} {js : List Json}

theorem readItemsAfter_refuses (hitem : ∀ s, item (skipSpace s) = item s)
    (h : SequenceText (PaddedText ValueText) ts (before ++ f :: behind))
    (hjs : List.Forall₂ (Form.Denotes room) before js)
    (hread : ∀ g ∈ before, ∀ t j, PaddedText ValueText t g → t.length ≤ fuel → g.Denotes room j →
      ReadsPart item t j)
    (hrefuse : ∀ t, PaddedText ValueText t f → t.length ≤ fuel → RefusesNumber item t)
    (hfuel : ts.length ≤ fuel) (hn : ts.length < n) (hs : Delimits s) (found : List Json) :
    ∃ k, readItemsAfter item found n (.char ',' :: (chars ts ++ s)) = .error ⟨.outOfRange, k⟩ := by
  induction before generalizing ts n js found with
  | nil =>
    obtain ⟨n, rfl⟩ := Nat.exists_eq_succ_of_ne_zero (Nat.ne_of_gt (Nat.zero_lt_of_lt hn))
    obtain ⟨t, r, ht, hlength, hsplit, hr⟩ := h.exists_first hs
    obtain ⟨k, hk⟩ := hrefuse t ht (by omega) r hr
    exact ⟨k, by rw [hsplit, readItemsAfter_padded hitem ht, hk]; rfl⟩
  | cons g before ih =>
    rw [List.cons_append] at h
    generalize hrest : before ++ f :: behind = rest at h
    cases h with
    | one => exact absurd hrest (List.append_ne_nil_of_right_ne_nil _ (List.cons_ne_nil _ _))
    | @more t ts _ _ ht hts =>
      rw [List.length_append, List.length_cons] at hfuel hn
      obtain ⟨n, rfl⟩ := Nat.exists_eq_add_of_le' (show 2 ≤ n by have := ht.length_pos; omega)
      cases hjs with
      | @cons _ j _ js hj hjs =>
        obtain ⟨w, hw, hitem'⟩ := hread g List.mem_cons_self t j ht (by omega) hj
        subst hrest
        obtain ⟨k, hk⟩ := ih hts hjs (fun g hg => hread g (List.mem_cons_of_mem _ hg)) (by omega)
          (show ts.length < n + 1 by omega) (j :: found)
        refine ⟨k, ?_⟩
        rw [chars_append, List.append_assoc, readItemsAfter_padded hitem ht, chars_cons,
          List.cons_append, hitem' _ (delimits_of_mem (by decide))]
        change readItemsAfter item (j :: found) (n + 1) (chars w ++ .char ',' :: _) = _
        rw [readItemsAfter_space_append hw, hk]

end

section

variable {value : Reader Json} {member : Reader (Text × Json)} {key : List StringUnit} {k : Text}
  {before behind : List (List StringUnit × Form)} {pairs : List (Text × Json)}

def RefusesMember (member : Reader (Text × Json)) (t : Text) : Prop :=
  ∃ v u, Space v ∧ t = v ++ '"' :: u ∧ RefusesNumber member u

theorem refusesMember_of_memberText (h : MemberText ValueText t (key, f)) (hkey : decode? key = some k)
    (hfuel : t.length ≤ fuel)
    (hrefuse : ∀ t, PaddedText ValueText t f → t.length ≤ fuel → RefusesNumber value t) :
    RefusesMember (readMember fuel value) t := by
  obtain ⟨hname, hx⟩ := h
  rename_i name x
  obtain ⟨hv, hname, hw⟩ := hname
  rename_i v name w
  obtain ⟨hunits⟩ := hname
  rename_i u
  simp only [List.length_append, List.length_cons, List.length_nil] at hfuel
  have hrest : StringRest (u ++ ['"']) k := .mk hunits hkey
  refine ⟨v, u ++ ['"'] ++ w ++ ':' :: x, hv, ?_, ?_⟩
  · simp only [List.append_assoc, List.cons_append]
  · intro s hs
    obtain ⟨n, hn⟩ := hrefuse x hx (by omega) s hs
    refine ⟨n, ?_⟩
    rw [chars_append, chars_append, List.append_assoc, List.append_assoc, readMember,
      hrest.readString (by rw [List.length_append, List.length_singleton]; omega)]
    simp only [bind, Except.bind, skipSpace_append hw, chars_cons, List.cons_append,
      skipSpace_cons (p := .char ':') rfl, hn]

theorem readMembersAfter_refuses
    (h : SequenceText (MemberText ValueText) ts (before ++ (key, f) :: behind))
    (hpairs : List.Forall₂ (Form.DenotesMember room) before pairs)
    (hread : ∀ m ∈ before, ∀ t pair, MemberText ValueText t m → t.length ≤ fuel →
      Form.DenotesMember room m pair → ReadsMember member t pair)
    (hrefuse : ∀ t, MemberText ValueText t (key, f) → t.length ≤ fuel → RefusesMember member t)
    (hfuel : ts.length ≤ fuel) (hn : ts.length < n) (hs : Delimits s) (found : List (Text × Json)) :
    ∃ k, readMembersAfter member found n (.char ',' :: (chars ts ++ s)) =
      .error ⟨.outOfRange, k⟩ := by
  induction before generalizing ts n pairs found with
  | nil =>
    obtain ⟨n, rfl⟩ := Nat.exists_eq_succ_of_ne_zero (Nat.ne_of_gt (Nat.zero_lt_of_lt hn))
    obtain ⟨t, r, ht, hlength, hsplit, hr⟩ := h.exists_first hs
    obtain ⟨v, u, hv, rfl, hmember⟩ := hrefuse t ht (by omega)
    obtain ⟨k, hk⟩ := hmember r hr
    exact ⟨k, by rw [hsplit, readMembersAfter_quote hv, hk]; rfl⟩
  | cons m before ih =>
    rw [List.cons_append] at h
    generalize hrest : before ++ (key, f) :: behind = rest at h
    cases h with
    | one => exact absurd hrest (List.append_ne_nil_of_right_ne_nil _ (List.cons_ne_nil _ _))
    | @more t ts _ _ ht hts =>
      rw [List.length_append, List.length_cons] at hfuel hn
      cases hpairs with
      | @cons _ pair _ pairs hm hpairs =>
        obtain ⟨v, u, hv, rfl, w, hw, hmember⟩ :=
          hread m List.mem_cons_self t pair ht (by omega) hm
        rw [List.length_append, List.length_cons] at hn
        obtain ⟨n, rfl⟩ := Nat.exists_eq_add_of_le' (show 2 ≤ n by omega)
        subst hrest
        obtain ⟨k, hk⟩ := ih hts hpairs (fun m hm => hread m (List.mem_cons_of_mem _ hm)) (by omega)
          (show ts.length < n + 1 by omega) (pair :: found)
        refine ⟨k, ?_⟩
        rw [chars_append, List.append_assoc, readMembersAfter_quote hv, chars_cons,
          List.cons_append, hmember _ (delimits_of_mem (by decide))]
        change readMembersAfter member (pair :: found) (n + 1) (chars w ++ .char ',' :: _) = _
        rw [readMembersAfter_space_append hw, hk]

end

theorem BracketedText.exists_sequence {α : Type} {left right : Char} {part : Text → α → Prop} {a : α}
    {before behind : List α} (h : BracketedText left right part t (before ++ a :: behind)) :
    ∃ ts, t = left :: (ts ++ [right]) ∧ SequenceText part ts (before ++ a :: behind) := by
  generalize hparts : before ++ a :: behind = parts at h
  cases h with
  | empty => exact absurd hparts (List.append_ne_nil_of_right_ne_nil _ (List.cons_ne_nil _ _))
  | parts hts => exact ⟨_, rfl, hts⟩

namespace Context

/-- All in front of the open value stands for something, where so much may be nested. -/
inductive Reached : (room : Nat) → Context → Prop
  | here {room : Nat} : Reached room here
  | item {room : Nat} {before behind : List Form} {inner : Context} {js : List Json} :
      List.Forall₂ (Form.Denotes room) before js → Reached room inner →
      Reached (room + 1) (item before inner behind)
  | member {room : Nat} {before behind : List (List StringUnit × Form)} {key : List StringUnit}
      {inner : Context} {k : Text} {pairs : List (Text × Json)} :
      List.Forall₂ (Form.DenotesMember room) before pairs → decode? key = some k →
      Reached room inner → Reached (room + 1) (member before key inner behind)

theorem Denotes.reached {C : Context} {g : Json → Json} (h : C.Denotes room g) :
    C.Reached room := by
  induction h with
  | here => exact .here
  | item hbefore _ _ ih => exact .item hbefore ih
  | member hbefore hkey _ _ ih => exact .member hbefore hkey ih

end Context

variable {C : Context} {l : Literal}

/-- A value is refused for a number out of range, if all in front of the number can be read. -/
theorem refusesNumber_fill (hC : C.Reached room) (hl : l.number? = none)
    (h : ValueText t (C.fill (.number l))) (hfuel : t.length ≤ fuel) :
    RefusesNumber (readValue la fuel room) t := by
  induction hC generalizing t with
  | @here room =>
    obtain ⟨inner, hinner⟩ := exists_inner la fuel room
    cases h with
    | number h =>
      rw [hinner]
      exact refusesNumber_number h hl
  | @item room before behind inner js hbefore _ ih =>
    cases h with
    | array h =>
      obtain ⟨ts, rfl, hts⟩ := h.exists_sequence
      rw [List.length_cons, List.length_append, List.length_singleton] at hfuel
      intro s _
      obtain ⟨k, hk⟩ := readItemsAfter_refuses (s := .char ']' :: s) readValue_skipSpace hts hbefore
        (fun f _ t j ht hfuel hj => readsPart_of_paddedText ht hfuel fun u s hu hfuel hs =>
          readValue_append hu hj hfuel hs)
        (fun t ht hfuel => refusesNumber_of_paddedText ht hfuel fun u hu hfuel => ih hu hfuel)
        (show ts.length ≤ fuel by omega) (show ts.length < fuel + 1 by omega)
        (delimits_of_mem (by decide)) []
      refine ⟨k, ?_⟩
      rw [chars_cons, chars_append, List.cons_append, List.append_assoc]
      change (readItems fuel (readValue la fuel room) (chars ts ++ .char ']' :: s)).bind _ = _
      rw [readItems_sequence readValue_skipSpace hts, hk]
      rfl
  | @member room before behind key inner k pairs hbefore hkey _ ih =>
    cases h with
    | object h =>
      obtain ⟨ts, rfl, hts⟩ := h.exists_sequence
      rw [List.length_cons, List.length_append, List.length_singleton] at hfuel
      intro s _
      obtain ⟨n, hn⟩ := readMembersAfter_refuses (s := .char '\x7d' :: s)
        hts hbefore
        (fun m _ t pair ht hfuel hpair => readsMember_of_memberText ht hpair hfuel
          fun t ht hfuel => readsPart_of_paddedText ht hfuel fun u s hu hfuel hs =>
            readValue_append hu hpair.2 hfuel hs)
        (fun t ht hfuel => refusesMember_of_memberText ht hkey hfuel
          fun t ht hfuel => refusesNumber_of_paddedText ht hfuel fun u hu hfuel => ih hu hfuel)
        (show ts.length ≤ fuel by omega) (show ts.length < fuel + 1 by omega)
        (delimits_of_mem (by decide)) []
      refine ⟨n, ?_⟩
      rw [chars_cons, chars_append, List.cons_append, List.append_assoc]
      change (readMembers fuel (readMember fuel (readValue la fuel room))
        (chars ts ++ .char '\x7d' :: s)).bind _ = _
      rw [readMembers_sequence hts, hn]
      rfl

theorem ofPieces_outOfRange (la : Nat) (hC : C.Reached depthLimit) (hl : l.number? = none)
    (h : JsonText t (C.fill (.number l))) :
    ∃ behind, ofPieces la (chars t) = .error ⟨.outOfRange, behind⟩ := by
  have hrefuse : RefusesNumber (readValue la ((chars t).length + 1) depthLimit) t :=
    refusesNumber_of_paddedText h (by rw [chars, List.length_map]; omega)
      fun u hu hfuel => refusesNumber_fill hC hl hu hfuel
  obtain ⟨behind, hbehind⟩ := hrefuse [] delimits_nil
  rw [List.append_nil] at hbehind
  refine ⟨behind, ?_⟩
  rw [ofPieces, hbehind]
  rfl

/-- Either all of a list is related to something, or there is a first that is not. -/
theorem exists_forall₂_or_first {α β : Type} {R : α → β → Prop} {P : α → Prop} {as : List α}
    (h : ∀ a ∈ as, (∃ b, R a b) ∨ P a) : (∃ bs, List.Forall₂ R as bs) ∨
      ∃ before a behind bs, as = before ++ a :: behind ∧ List.Forall₂ R before bs ∧ P a := by
  induction as with
  | nil => exact .inl ⟨[], .nil⟩
  | cons a as ih =>
    obtain ⟨hfirst, hrest⟩ := List.forall_mem_cons.1 h
    rcases hfirst with ⟨b, hb⟩ | ha
    · rcases ih hrest with ⟨bs, hbs⟩ | ⟨before, c, behind, bs, rfl, hbs, hc⟩
      · exact .inl ⟨b :: bs, .cons hb hbs⟩
      · exact .inr ⟨a :: before, c, behind, b :: bs, rfl, .cons hb hbs, hc⟩
    · exact .inr ⟨[], a, as, [], rfl, .nil, ha⟩

theorem exists_of_mem_forall₂ {α β : Type} {R : α → β → Prop} {as : List α} {bs : List β} {a : α}
    (h : List.Forall₂ R as bs) (ha : a ∈ as) : ∃ b, R a b := by
  induction h with
  | nil => cases ha
  | @cons c b _ _ hb _ ih =>
    rcases List.mem_cons.1 ha with rfl | ha
    · exact ⟨b, hb⟩
    · exact ih ha

namespace Form

/-- A form stands for a value but for its numbers, and not too many arrays and objects are nested. -/
inductive Sound : (room : Nat) → Form → Prop
  | null {room : Nat} : Sound room null
  | boolean {room : Nat} {value : Bool} : Sound room (boolean value)
  | number {room : Nat} {l : Literal} : Sound room (number l)
  | string {room : Nat} {us : List StringUnit} {t : Text} : decode? us = some t →
      Sound room (string us)
  | array {room : Nat} {items : List Form} : (∀ f ∈ items, Sound room f) →
      Sound (room + 1) (array items)
  | object {room : Nat} {members : List (List StringUnit × Form)} :
      (∀ m ∈ members, ∃ k, decode? m.1 = some k) → (∀ m ∈ members, Sound room m.2) →
      Sound (room + 1) (object members)

theorem Denotes.sound {j : Json} (h : f.Denotes room j) : f.Sound room := by
  induction f generalizing room j with
  | null => exact .null
  | boolean value => exact .boolean
  | number l => exact .number
  | string us =>
    obtain ⟨t, ht, -⟩ := Option.map_eq_some_iff.1 h.2
    exact .string ht
  | array items ih =>
    cases room with
    | zero => exact absurd h.1 (Nat.not_succ_le_zero _)
    | succ room =>
      obtain ⟨js, hjs, -⟩ := denotes_array_iff.1 h
      refine .array fun f hf => ?_
      obtain ⟨j, hj⟩ := exists_of_mem_forall₂ hjs hf
      exact ih f hf hj
  | object members ih =>
    cases room with
    | zero => exact absurd h.1 (Nat.not_succ_le_zero _)
    | succ room =>
      obtain ⟨pairs, hpairs, -⟩ := denotes_object_iff.1 h
      refine .object (fun m hm => ?_) fun m hm => ?_
      · obtain ⟨pair, hkey, -⟩ := exists_of_mem_forall₂ hpairs hm
        exact ⟨pair.1, hkey⟩
      · obtain ⟨pair, -, hvalue⟩ := exists_of_mem_forall₂ hpairs hm
        exact ih m hm hvalue

/-- A number out of range keeps a form from standing for a value, and it is the first to do so. -/
def IsRefused (room : Nat) (f : Form) : Prop :=
  ∃ (C : Context) (l : Literal), f = C.fill (.number l) ∧ C.Reached room ∧ l.number? = none

theorem Sound.denotes_or_isRefused (h : f.Sound room) :
    (∃ j, f.Denotes room j) ∨ f.IsRefused room := by
  induction h with
  | null => exact .inl ⟨.null, Nat.zero_le _, rfl⟩
  | @boolean _ value => exact .inl ⟨.boolean value, Nat.zero_le _, rfl⟩
  | @number _ l =>
    cases hl : l.number? with
    | none => exact .inr ⟨.here, l, rfl, .here, hl⟩
    | some n =>
      refine .inl ⟨.number n, Nat.zero_le _, ?_⟩
      rw [value?, l.value?_eq_number?, hl]
      rfl
  | @string _ _ t ht => exact .inl ⟨.string t, Nat.zero_le _, congrArg (Option.map _) ht⟩
  | array _ ih =>
    rcases exists_forall₂_or_first ih with
      ⟨js, hjs⟩ | ⟨before, _, behind, js, rfl, hjs, C, l, rfl, hC, hl⟩
    · exact .inl ⟨.array js, denotes_array_iff.2 ⟨js, hjs, rfl⟩⟩
    · exact .inr ⟨.item before C behind, l, rfl, .item hjs hC, hl⟩
  | @object room members hkeys _ ih =>
    have hmembers : ∀ m ∈ members, (∃ pair, DenotesMember room m pair) ∨
        ((∃ k, decode? m.1 = some k) ∧ m.2.IsRefused room) := by
      intro m hm
      obtain ⟨k, hk⟩ := hkeys m hm
      rcases ih m hm with ⟨j, hj⟩ | hrefused
      · exact .inl ⟨(k, j), hk, hj⟩
      · exact .inr ⟨⟨k, hk⟩, hrefused⟩
    rcases exists_forall₂_or_first hmembers with
      ⟨pairs, hpairs⟩ | ⟨before, ⟨key, _⟩, behind, pairs, rfl, hpairs, ⟨k, hk⟩, C, l, rfl, hC, hl⟩
    · exact .inl ⟨.object (latest pairs), denotes_object_iff.2 ⟨pairs, hpairs, rfl⟩⟩
    · exact .inr ⟨.member before key C behind, l, rfl, .member hpairs hk hC, hl⟩

end Form

theorem Context.sound_fill {C : Context} (h : (C.fill f).Sound room) (l : Literal) :
    (C.fill (.number l)).Sound room := by
  induction C generalizing room with
  | here => exact .number
  | item before inner behind ih =>
    cases h with
    | array hitems =>
      rw [List.forall_mem_append, List.forall_mem_cons] at hitems
      obtain ⟨hbefore, hinner, hbehind⟩ := hitems
      exact .array (List.forall_mem_append.2
        ⟨hbefore, List.forall_mem_cons.2 ⟨ih hinner, hbehind⟩⟩)
  | member before key inner behind ih =>
    cases h with
    | object hkeys hmembers =>
      rw [List.forall_mem_append, List.forall_mem_cons] at hkeys hmembers
      obtain ⟨hbefore, hinner, hbehind⟩ := hmembers
      exact .object (List.forall_mem_append.2
        ⟨hkeys.1, List.forall_mem_cons.2 ⟨hkeys.2.1, hkeys.2.2⟩⟩) (List.forall_mem_append.2
        ⟨hbefore, List.forall_mem_cons.2 ⟨ih hinner, hbehind⟩⟩)

end RecordSheet.Json
