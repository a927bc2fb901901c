import RecordSheet.Proofs.Json.StringText

namespace RecordSheet.Json

open Utf8

section

variable {α β : Type} {part : Text → α → Prop} {means : α → β → Prop} {close : Char}
  {t u v w : Text} {a : α} {as : List α} {b : β} {bs : List β}

/-- A text is a part up to the space behind it, and the part stands for something. -/
def Leads (part : Text → α → Prop) (means : α → β → Prop) (t : Text) (b : β) : Prop :=
  ∃ a, (∀ w, Space w → part (t ++ w) a) ∧ means a b

/-- With any part in front, a text gives a sequence and what closes it. -/
def Continues (close : Char) (part : Text → α → Prop) (t : Text) (as : List α) : Prop :=
  ∀ u a, (∀ w, Space w → part (u ++ w) a) →
    ∃ ts, u ++ t = ts ++ [close] ∧ SequenceText part ts (a :: as)

theorem continues_close (hw : Space w) : Continues close part (w ++ [close]) [] := by
  intro u a hu
  exact ⟨u ++ w, (List.append_assoc _ _ _).symm, .one (hu w hw)⟩

theorem Continues.comma (h : Continues close part t as) (hw : Space w)
    (ha : ∀ w, Space w → part (u ++ w) a) :
    Continues close part (w ++ ',' :: (u ++ t)) (a :: as) := by
  intro v b hv
  obtain ⟨ts, hts, hseq⟩ := h u a ha
  refine ⟨v ++ w ++ ',' :: ts, ?_, .more (hv w hw) hseq⟩
  rw [hts, List.append_assoc, List.append_assoc, List.cons_append]

def TailMeans (close : Char) (part : Text → α → Prop) (means : α → β → Prop) (t : Text)
    (bs : List β) : Prop :=
  ∃ as, Continues close part t as ∧ List.Forall₂ means as bs

def BodyMeans (left close : Char) (part : Text → α → Prop) (means : α → β → Prop) (t : Text)
    (bs : List β) : Prop :=
  ∃ as, BracketedText left close part (left :: t) as ∧ List.Forall₂ means as bs

theorem tailMeans_close (hw : Space w) : TailMeans close part means (w ++ [close]) [] :=
  ⟨[], continues_close hw, .nil⟩

theorem TailMeans.comma (h : TailMeans close part means t bs) (hw : Space w)
    (hu : Leads part means u b) : TailMeans close part means (w ++ ',' :: (u ++ t)) (b :: bs) := by
  obtain ⟨as, ht, has⟩ := h
  obtain ⟨a, ha, hab⟩ := hu
  exact ⟨a :: as, ht.comma hw ha, .cons hab has⟩

theorem bodyMeans_empty {left : Char} (hw : Space w) :
    BodyMeans left close part means (w ++ [close]) [] :=
  ⟨[], .empty hw, .nil⟩

theorem TailMeans.body {left : Char} (h : TailMeans close part means t bs)
    (hu : Leads part means u b) : BodyMeans left close part means (u ++ t) (b :: bs) := by
  obtain ⟨as, ht, has⟩ := h
  obtain ⟨a, ha, hab⟩ := hu
  obtain ⟨ts, hts, hseq⟩ := ht u a ha
  refine ⟨a :: as, ?_, .cons hab has⟩
  rw [hts]
  exact .parts hseq

theorem PaddedText.space_append (h : PaddedText part t a) (hv : Space v) :
    PaddedText part (v ++ t) a := by
  obtain ⟨hv', ht, hw⟩ := h
  rw [← List.append_assoc, ← List.append_assoc]
  exact .mk (hv.append hv') ht hw

end

def LeadsValue (room : Nat) : Text → Json → Prop :=
  Leads (PaddedText ValueText) (Form.Denotes room)

def LeadsMember (room : Nat) : Text → Text × Json → Prop :=
  Leads (MemberText ValueText) (Form.DenotesMember room)

variable {room la fuel : Nat} {t v : Text} {f : Form} {j : Json}

theorem leadsValue (hv : Space v) (ht : ValueText t f) (hj : f.Denotes room j) :
    LeadsValue room (v ++ t) j :=
  ⟨f, fun _ hw => .mk hv ht hw, hj⟩

theorem LeadsValue.space_append (h : LeadsValue room t j) (hv : Space v) :
    LeadsValue room (v ++ t) j := by
  obtain ⟨f, ht, hj⟩ := h
  refine ⟨f, ?_, hj⟩
  intro w hw
  rw [List.append_assoc]
  exact (ht w hw).space_append hv

theorem takes_readWord (value : Json) (word : Text) :
    Takes (readWord value word) fun t j => t = word ∧ j = value := by
  intro s j r h
  induction word generalizing s with
  | nil =>
    cases h
    exact ⟨[], rfl, rfl, rfl⟩
  | cons c word ih =>
    cases s with
    | nil => cases h
    | cons p s =>
      rw [readWord] at h
      split at h
      · rename_i hp
        obtain ⟨t, rfl, rfl, rfl⟩ := ih s h
        exact ⟨c :: t, congrArg (· :: (chars t ++ r)) hp, rfl, rfl⟩
      · cases h

theorem takes_readItemsAfter {item : Reader Json} (h : Takes item (LeadsValue room))
    (found : List Json) (fuel : Nat) : Takes (readItemsAfter item found fuel) fun t js =>
      ∃ ks, TailMeans ']' (PaddedText ValueText) (Form.Denotes room) t ks ∧
        js = found.reverse ++ ks := by
  induction fuel generalizing found with
  | zero => exact fun s js r h => by cases h
  | succ fuel ih =>
    intro s js r hread
    obtain ⟨w, hw, hs⟩ := exists_space s
    rw [readItemsAfter] at hread
    split at hread
    · rename_i hskip
      cases hread
      rw [hskip] at hs
      refine ⟨w ++ [']'], ?_, [], tailMeans_close hw, (List.append_nil _).symm⟩
      rw [hs, chars_append, List.append_assoc]
      rfl
    · rename_i r₁ hskip
      rw [hskip] at hs
      obtain ⟨v, hv, hr₁⟩ := exists_space r₁
      split at hread
      · cases hread
      · cases hread
      · split at hread
        · cases hread
        · rename_i j r₂ hitem
          obtain ⟨u, hu, hlead⟩ := h _ _ _ hitem
          obtain ⟨t, hr₂, ks, ht, rfl⟩ := ih (j :: found) _ _ _ hread
          refine ⟨w ++ ',' :: ((v ++ u) ++ t), ?_, j :: ks,
            ht.comma hw (hlead.space_append hv), ?_⟩
          · rw [hs, hr₁, hu, hr₂]
            simp only [chars_append, chars_cons, List.append_assoc, List.cons_append]
          · rw [List.reverse_cons, List.append_assoc, List.singleton_append]
    · exact absurd hread refuseOrEnd_ne_ok

theorem takes_readItems {item : Reader Json} (h : Takes item (LeadsValue room)) (fuel : Nat) :
    Takes (readItems fuel item)
      (BodyMeans '[' ']' (PaddedText ValueText) (Form.Denotes room)) := by
  intro s js r hread
  obtain ⟨w, hw, hs⟩ := exists_space s
  rw [readItems] at hread
  split at hread
  · cases hread
  · rename_i hskip
    cases hread
    rw [hskip] at hs
    refine ⟨w ++ [']'], ?_, bodyMeans_empty hw⟩
    rw [hs, chars_append, List.append_assoc]
    rfl
  · obtain ⟨⟨j, r₁⟩, hitem, hread⟩ := exists_of_bind_eq_ok hread
    obtain ⟨u, hu, hlead⟩ := h _ _ _ hitem
    obtain ⟨t, hr₁, ks, ht, rfl⟩ := takes_readItemsAfter h [j] fuel _ _ _ hread
    refine ⟨(w ++ u) ++ t, ?_, ht.body (hlead.space_append hw)⟩
    rw [hs, hu, hr₁]
    simp only [chars_append, List.append_assoc]

def LeadsAfterQuote (room : Nat) (t : Text) (pair : Text × Json) : Prop :=
  ∀ v, Space v → LeadsMember room (v ++ '"' :: t) pair

theorem takes_readMember {value : Reader Json} (h : Takes value (LeadsValue room)) (fuel : Nat) :
    Takes (readMember fuel value) (LeadsAfterQuote room) := by
  intro s pair r hread
  obtain ⟨⟨key, r₁⟩, hkey, hread⟩ := exists_of_bind_eq_ok hread
  obtain ⟨k, hs, hk⟩ := takes_readString fuel _ _ _ hkey
  obtain ⟨w, hw, hr₁⟩ := exists_space r₁
  dsimp only at hread
  split at hread
  · rename_i r₂ hskip
    obtain ⟨⟨j, r₃⟩, hvalue, hread⟩ := exists_of_bind_eq_ok hread
    cases hread
    obtain ⟨t, hr₂, f, ht, hj⟩ := h _ _ _ hvalue
    rw [hskip, hr₂] at hr₁
    obtain ⟨hunits, hdecode⟩ := hk
    rename_i u us
    refine ⟨u ++ ['"'] ++ w ++ ':' :: t, ?_, ?_⟩
    · rw [hs, hr₁]
      simp only [chars_append, chars_cons, List.append_assoc, List.cons_append]
    · intro v hv
      refine ⟨(us, f), ?_, hdecode, hj⟩
      intro x hx
      have hmember : MemberText ValueText
          (v ++ ('"' :: u ++ ['"']) ++ w ++ ':' :: (t ++ x)) (us, f) :=
        .mk (.mk hv (.mk hunits) hw) (ht x hx)
      simpa only [List.append_assoc, List.cons_append] using hmember
  · exact absurd hread refuseOrEnd_ne_ok

theorem takes_readMembersAfter {member : Reader (Text × Json)}
    (h : Takes member (LeadsAfterQuote room)) (found : List (Text × Json)) (fuel : Nat) :
    Takes (readMembersAfter member found fuel) fun t pairs =>
      ∃ qs, TailMeans '\x7d' (MemberText ValueText) (Form.DenotesMember room) t qs ∧
        pairs = found.reverse ++ qs := by
  induction fuel generalizing found with
  | zero => exact fun s pairs r h => by cases h
  | succ fuel ih =>
    intro s pairs r hread
    obtain ⟨w, hw, hs⟩ := exists_space s
    rw [readMembersAfter] at hread
    split at hread
    · rename_i hskip
      cases hread
      rw [hskip] at hs
      refine ⟨w ++ ['\x7d'], ?_, [], tailMeans_close hw, (List.append_nil _).symm⟩
      rw [hs, chars_append, List.append_assoc]
      rfl
    · rename_i r₁ hskip
      rw [hskip] at hs
      obtain ⟨v, hv, hr₁⟩ := exists_space r₁
      split at hread
      · rename_i r₂ hquote
        rw [hquote] at hr₁
        split at hread
        · cases hread
        · rename_i pair r₃ hmember
          obtain ⟨u, hu, hlead⟩ := h _ _ _ hmember
          obtain ⟨t, hr₃, qs, ht, rfl⟩ := ih (pair :: found) _ _ _ hread
          refine ⟨w ++ ',' :: ((v ++ '"' :: u) ++ t), ?_, pair :: qs, ht.comma hw (hlead v hv), ?_⟩
          · rw [hs, hr₁, hu, hr₃]
            simp only [chars_append, chars_cons, List.append_assoc, List.cons_append]
          · rw [List.reverse_cons, List.append_assoc, List.singleton_append]
      · cases hread
      · exact absurd hread refuseOrEnd_ne_ok
    · exact absurd hread refuseOrEnd_ne_ok

theorem takes_readMembers {member : Reader (Text × Json)}
    (h : Takes member (LeadsAfterQuote room)) (fuel : Nat) :
    Takes (readMembers fuel member)
      (BodyMeans '\x7b' '\x7d' (MemberText ValueText) (Form.DenotesMember room)) := by
  intro s pairs r hread
  obtain ⟨w, hw, hs⟩ := exists_space s
  rw [readMembers] at hread
  split at hread
  · rename_i hskip
    cases hread
    rw [hskip] at hs
    refine ⟨w ++ ['\x7d'], ?_, bodyMeans_empty hw⟩
    rw [hs, chars_append, List.append_assoc]
    rfl
  · rename_i r₁ hquote
    rw [hquote] at hs
    obtain ⟨⟨pair, r₂⟩, hmember, hread⟩ := exists_of_bind_eq_ok hread
    obtain ⟨u, hu, hlead⟩ := h _ _ _ hmember
    obtain ⟨t, hr₂, qs, ht, rfl⟩ := takes_readMembersAfter h [pair] fuel _ _ _ hread
    refine ⟨(w ++ '"' :: u) ++ t, ?_, ht.body (hlead w hw)⟩
    rw [hs, hu, hr₂]
    simp only [chars_append, chars_cons, List.append_assoc, List.cons_append]
  · exact absurd hread refuseOrEnd_ne_ok

def Begins (room : Nat) (c : Char) (t : Text) (j : Json) : Prop :=
  ∃ f, ValueText (c :: t) f ∧ f.Denotes room j

theorem takes_readNumber_value {lookahead : Nat} {negative : Bool} {s r : Rest}
    (h : readNumber lookahead negative s = .ok (j, r)) : ∃ (l : Literal) (t : Text),
      s = chars t ++ r ∧ l.negative = negative ∧ l.UnsignedText t ∧
        (Form.number l).Denotes room j := by
  obtain ⟨t, hs, l, n, hsign, ht, hn, rfl⟩ := takes_readNumber lookahead negative _ _ _ h
  refine ⟨l, t, hs, hsign, ht, Nat.zero_le _, ?_⟩
  rw [Form.value?, l.value?_eq_number?, hn, Option.map_some]

theorem takes_readValueWith {inner : Option (Reader Json)}
    (h : ∀ value, inner = some value → ∃ n, room = n + 1 ∧ Takes value (LeadsValue n)) :
    Takes (readValueWith la fuel inner) (LeadsValue room) := by
  intro s j r hread
  obtain ⟨v, hv, hs⟩ := exists_space s
  rw [readValueWith] at hread
  split at hread
  · cases hread
  · rename_i c s' hskip
    rw [hskip] at hs
    have hbegins : ∀ {t : Text}, s' = chars t ++ r → Begins room c t j →
        ∃ t, s = chars t ++ r ∧ LeadsValue room t j := by
      rintro t rfl ⟨f, ht, hj⟩
      refine ⟨v ++ c :: t, ?_, leadsValue hv ht hj⟩
      rw [hs, chars_append, List.append_assoc]
      rfl
    split at hread
    · obtain ⟨t, ht, rfl, rfl⟩ := takes_readWord _ _ _ _ _ hread
      exact hbegins ht ⟨.null, .null, Nat.zero_le _, rfl⟩
    · obtain ⟨t, ht, rfl, rfl⟩ := takes_readWord _ _ _ _ _ hread
      exact hbegins ht ⟨.boolean true, .true, Nat.zero_le _, rfl⟩
    · obtain ⟨t, ht, rfl, rfl⟩ := takes_readWord _ _ _ _ _ hread
      exact hbegins ht ⟨.boolean false, .false, Nat.zero_le _, rfl⟩
    · obtain ⟨⟨t, r'⟩, hstring, hread⟩ := exists_of_bind_eq_ok hread
      cases hread
      obtain ⟨u, hu, hunits, hdecode⟩ := takes_readString fuel _ _ _ hstring
      refine hbegins hu ⟨.string _, .string (.mk hunits), Nat.zero_le _, ?_⟩
      rw [Form.value?, hdecode, Option.map_some]
    · split at hread
      · cases hread
      · rename_i value
        obtain ⟨⟨items, r'⟩, hitems, hread⟩ := exists_of_bind_eq_ok hread
        cases hread
        obtain ⟨n, rfl, hvalue⟩ := h value rfl
        obtain ⟨t, ht, fs, htext, hfs⟩ := takes_readItems hvalue fuel _ _ _ hitems
        exact hbegins ht ⟨.array fs, .array htext, Form.denotes_array_iff.2 ⟨items, hfs, rfl⟩⟩
    · split at hread
      · cases hread
      · rename_i value
        obtain ⟨⟨pairs, r'⟩, hpairs, hread⟩ := exists_of_bind_eq_ok hread
        cases hread
        obtain ⟨n, rfl, hvalue⟩ := h value rfl
        obtain ⟨t, ht, ms, htext, hms⟩ :=
          takes_readMembers (takes_readMember hvalue fuel) fuel _ _ _ hpairs
        exact hbegins ht ⟨.object ms, .object htext,
          Form.denotes_object_iff.2 ⟨pairs, hms, (ofPairs_eq_latest pairs).symm⟩⟩
    · obtain ⟨l, t, ht, hsign, htext, hj⟩ := takes_readNumber_value hread
      exact hbegins ht ⟨.number l, .number (.negative hsign htext), hj⟩
    · split at hread
      · obtain ⟨l, t, ht, hsign, htext, hj⟩ := takes_readNumber_value hread
        refine ⟨v ++ t, ?_, leadsValue hv (.number (.positive hsign htext)) hj⟩
        rw [hs, chars_append, List.append_assoc, ht]
      · cases hread
  · cases hread

/-- Whatever is read as a value is spelled from a form that stands for the value. -/
theorem takes_readValue (la fuel room : Nat) :
    Takes (readValue la fuel room) (LeadsValue room) := by
  induction room with
  | zero =>
    apply takes_readValueWith
    intro value h
    cases h
  | succ room ih =>
    apply takes_readValueWith
    intro value h
    cases h
    exact ⟨room, rfl, ih⟩

theorem exists_jsonText_of_ofPieces {s : Rest} (h : ofPieces la s = .ok j) :
    ∃ t f, s = chars t ∧ JsonText t f ∧ f.Denotes depthLimit j := by
  obtain ⟨⟨k, r⟩, hvalue, h⟩ := exists_of_bind_eq_ok h
  obtain ⟨t, hs, f, ht, hj⟩ := takes_readValue la _ depthLimit _ _ _ hvalue
  obtain ⟨w, hw, hr⟩ := exists_space r
  dsimp only at h
  split at h
  · rename_i hskip
    cases h
    rw [hskip, List.append_nil] at hr
    refine ⟨t ++ w, f, ?_, ht w hw, hj⟩
    rw [hs, hr, chars_append]
  · cases h

end RecordSheet.Json
