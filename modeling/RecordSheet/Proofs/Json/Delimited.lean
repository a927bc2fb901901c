import RecordSheet.Proofs.Json.NumberText
import RecordSheet.Proofs.Json.Quoted
import RecordSheet.Proofs.Json.Structure

namespace RecordSheet.Json

mutual

/-- What follows the values at the start of a text that stands within some open brackets. -/
def skim (depth : Nat) : Text → Text
  | [] => []
  | c :: t =>
    if c = '"' then skimString depth t
    else if c = '[' ∨ c = '\x7b' then skim (depth + 1) t
    else if depth = 0 ∧ (c = ',' ∨ c = ']' ∨ c = '\x7d') then c :: t
    else if c = ']' ∨ c = '\x7d' then skim (depth - 1) t
    else skim depth t

def skimString (depth : Nat) : Text → Text
  | [] => []
  | '\\' :: _ :: t => skimString depth t
  | '"' :: t => skim depth t
  | _ :: t => skimString depth t

end

def Skimmed (t : Text) : Prop :=
  ∀ depth s, skim depth (t ++ s) = skim depth s

variable {depth : Nat} {s t : Text}

theorem skimString_cons {c : Char} (hq : c ≠ '"') (hb : c ≠ '\\') :
    skimString depth (c :: t) = skimString depth t := by
  rw [skimString.eq_4]
  · intro _ _ h
    exact absurd h hb
  · intro h
    exact absurd h hq

theorem hexDigit_ne : ∀ n < 16, hexDigit n ≠ '"' ∧ hexDigit n ≠ '\\' := by
  decide

theorem skimString_escapeChar (c : Char) :
    skimString depth (escapeChar c ++ t) = skimString depth t := by
  unfold escapeChar
  split
  · simp only [List.cons_append, List.nil_append, skimString]
  split
  · simp only [List.cons_append, List.nil_append, skimString]
  split
  · exact skimString_cons ‹_› ‹_›
  split
  · simp only [List.cons_append, List.nil_append, skimString]
  split
  · simp only [List.cons_append, List.nil_append, skimString]
  split
  · simp only [List.cons_append, List.nil_append, skimString]
  split
  · simp only [List.cons_append, List.nil_append, skimString]
  split
  · simp only [List.cons_append, List.nil_append, skimString]
  · have hhigh := hexDigit_ne (c.toNat / 16) (by omega)
    have hlow := hexDigit_ne (c.toNat % 16) (Nat.mod_lt _ (by decide))
    simp only [List.cons_append, List.nil_append, skimString]
    rw [skimString_cons (by decide) (by decide), skimString_cons (by decide) (by decide),
      skimString_cons hhigh.1 hhigh.2, skimString_cons hlow.1 hlow.2]

theorem skimmed_quoted (u : Text) : Skimmed (quoted u) := by
  intro depth s
  have hstring : skimString depth (u.flatMap escapeChar ++ ('"' :: s)) = skim depth s := by
    induction u with
    | nil => rfl
    | cons c u ih => rw [List.flatMap_cons, List.append_assoc, skimString_escapeChar, ih]
  rw [quoted, List.cons_append, List.cons_append, skim, if_pos rfl, List.append_assoc,
    List.singleton_append, hstring]

def isPlain (c : Char) : Bool :=
  !(['"', '[', ']', '\x7b', '\x7d', ','].contains c)

theorem isPlain_of_isDigit {c : Char} (h : c.isDigit) : isPlain c := by
  have hne : c ∉ ['"', '[', ']', '\x7b', '\x7d', ','] := by
    simp only [List.mem_cons, List.not_mem_nil, or_false, not_or]
    exact ⟨ne_of_isDigit h rfl, ne_of_isDigit h rfl, ne_of_isDigit h rfl, ne_of_isDigit h rfl,
      ne_of_isDigit h rfl, ne_of_isDigit h rfl⟩
  rw [isPlain, List.contains_eq_mem, decide_eq_false hne, Bool.not_false]

theorem skimmed_of_plain (h : t.all isPlain) : Skimmed t := by
  intro depth s
  induction t with
  | nil => rfl
  | cons c t ih =>
    rw [List.all_cons, Bool.and_eq_true] at h
    obtain ⟨hc, ht⟩ := h
    simp only [isPlain, List.contains_eq_mem, List.mem_cons, List.not_mem_nil, or_false,
      Bool.not_eq_true', decide_eq_false_iff_not, not_or] at hc
    obtain ⟨hquote, hopen, hclose, hopen', hclose', hcomma⟩ := hc
    rw [List.cons_append, skim, if_neg hquote, if_neg (by simp [hopen, hopen']),
      if_neg (by simp [hcomma, hclose, hclose']), if_neg (by simp [hclose, hclose']), ih ht]

theorem Skimmed.append (hs : Skimmed s) (ht : Skimmed t) : Skimmed (s ++ t) := by
  intro depth u
  rw [List.append_assoc, hs, ht]

theorem skim_joinWith {ts : List Text} (h : ∀ t ∈ ts, Skimmed t) :
    skim (depth + 1) (joinWith [','] ts ++ s) = skim (depth + 1) s := by
  cases ts with
  | nil => rfl
  | cons t ts =>
    have hrest : skim (depth + 1) (ts.flatMap ([','] ++ ·) ++ s) = skim (depth + 1) s := by
      induction ts with
      | nil => rfl
      | cons u ts ih =>
        have hcomma : ∀ s, skim (depth + 1) (',' :: s) = skim (depth + 1) s := fun s => by
          simp [skim]
        rw [List.flatMap_cons, List.append_assoc, List.append_assoc, List.singleton_append, hcomma,
          h u (List.mem_cons_of_mem _ List.mem_cons_self)]
        apply ih
        intro v hv
        rcases List.mem_cons.1 hv with rfl | hv
        · exact h _ List.mem_cons_self
        · exact h v (List.mem_cons_of_mem _ (List.mem_cons_of_mem _ hv))
    rw [joinWith_cons, List.append_assoc, h t List.mem_cons_self, hrest]

theorem skimmed_number (n : Number) : Skimmed n.render := by
  apply skimmed_of_plain
  rw [List.all_eq_true, ← n.text_literal]
  intro c hc
  rcases Literal.mem_text n.wellFormed_literal hc with hd | hc
  · exact isPlain_of_isDigit hd
  · simp only [List.mem_cons, List.not_mem_nil, or_false] at hc
    rcases hc with rfl | rfl | rfl | rfl
    · rfl
    · rfl
    · rfl
    · rfl

theorem skimmed_memberText {m : Text × Json} (h : Skimmed (render m.2)) :
    Skimmed (memberText m) := by
  have hcolon : Skimmed [':'] := skimmed_of_plain rfl
  exact (skimmed_quoted m.1).append (hcolon.append h)

theorem skimmed_render (j : Json) : Skimmed (render j) := by
  induction j with
  | null => exact skimmed_of_plain rfl
  | boolean value =>
    cases value
    · exact skimmed_of_plain rfl
    · exact skimmed_of_plain rfl
  | number value => exact skimmed_number value
  | string value => exact skimmed_quoted value
  | array items ih =>
    intro depth s
    have hitems : ∀ t ∈ items.map render, Skimmed t := by
      intro t ht
      obtain ⟨j, hj, rfl⟩ := List.mem_map.1 ht
      exact ih j hj
    rw [render_array, List.cons_append, List.cons_append, skim, if_neg (by decide),
      if_pos (by decide), List.append_assoc, skim_joinWith hitems]
    simp [skim]
  | object members ih =>
    intro depth s
    have hmembers : ∀ t ∈ members.map memberText, Skimmed t := by
      intro t ht
      obtain ⟨m, hm, rfl⟩ := List.mem_map.1 ht
      exact skimmed_memberText (ih m hm)
    rw [render_object, List.cons_append, List.cons_append, skim, if_neg (by decide),
      if_pos (by decide), List.append_assoc, skim_joinWith hmembers]
    simp [skim]

def Stops (s : Text) : Prop :=
  skim 0 s = s

theorem stops_nil : Stops [] :=
  rfl

theorem stops_comma (s : Text) : Stops (',' :: s) := by
  simp [Stops, skim]

theorem Skimmed.append_inj {a b : Text} (ha : Skimmed a) (hb : Skimmed b) (hs : Stops s)
    (ht : Stops t) (h : a ++ s = b ++ t) : a = b ∧ s = t := by
  have hst : s = t := by
    rw [← hs, ← ha 0 s, h, hb, ht]
  subst hst
  exact ⟨List.append_cancel_right h, rfl⟩

theorem stops_flatMap (ts : List Text) : Stops (ts.flatMap ([','] ++ ·)) := by
  cases ts with
  | nil => exact stops_nil
  | cons t ts => exact stops_comma _

theorem flatMap_comma_inj {ts us : List Text} (hts : ∀ t ∈ ts, Skimmed t)
    (hus : ∀ u ∈ us, Skimmed u) (h : ts.flatMap ([','] ++ ·) = us.flatMap ([','] ++ ·)) :
    ts = us := by
  induction ts generalizing us with
  | nil =>
    cases us with
    | nil => rfl
    | cons u us => cases h
  | cons t ts ih =>
    cases us with
    | nil => cases h
    | cons u us =>
      rw [List.flatMap_cons, List.flatMap_cons, List.append_assoc, List.append_assoc] at h
      obtain ⟨rfl, hrest⟩ := Skimmed.append_inj (hts t List.mem_cons_self)
        (hus u List.mem_cons_self) (stops_flatMap ts) (stops_flatMap us) (List.append_cancel_left h)
      rw [ih (fun t ht => hts t (List.mem_cons_of_mem _ ht))
        (fun u hu => hus u (List.mem_cons_of_mem _ hu)) hrest]

/-- Texts that counting the brackets passes over can be told apart between commas. -/
theorem joinWith_comma_inj {ts us : List Text} (hts : ∀ t ∈ ts, Skimmed t ∧ t ≠ [])
    (hus : ∀ u ∈ us, Skimmed u ∧ u ≠ []) (h : joinWith [','] ts = joinWith [','] us) : ts = us := by
  cases ts with
  | nil =>
    cases us with
    | nil => rfl
    | cons u us =>
      rw [joinWith_cons] at h
      exact absurd (List.append_eq_nil_iff.1 h.symm).1 (hus u List.mem_cons_self).2
  | cons t ts =>
    cases us with
    | nil =>
      rw [joinWith_cons] at h
      exact absurd (List.append_eq_nil_iff.1 h).1 (hts t List.mem_cons_self).2
    | cons u us =>
      rw [joinWith_cons, joinWith_cons] at h
      obtain ⟨rfl, hrest⟩ := Skimmed.append_inj (hts t List.mem_cons_self).1
        (hus u List.mem_cons_self).1 (stops_flatMap ts) (stops_flatMap us) h
      rw [flatMap_comma_inj (fun t ht => (hts t (List.mem_cons_of_mem _ ht)).1)
        (fun u hu => (hus u (List.mem_cons_of_mem _ hu)).1) hrest]

end RecordSheet.Json
