import RecordSheet.Proofs.Except
import RecordSheet.Proofs.Json.Grammar

namespace RecordSheet

theorem eq_of_toNat_eq {c d : Char} (h : c.toNat = d.toNat) : c = d :=
  Char.toNat_inj.1 h

theorem le_iff_toNat_le {c d : Char} : c ≤ d ↔ c.toNat ≤ d.toNat := by
  rw [Char.le_def, UInt32.le_iff_toNat_le]
  rfl

namespace Json

open Utf8

theorem hexValue?_eq_some_iff {c : Char} {n : Nat} : hexValue? c = some n ↔ IsHexDigit c n := by
  have hdecimal : ∀ n < 10, (hexDigit n).toNat = 48 + n := by decide
  have hlower : ∀ n < 16, 10 ≤ n → (hexDigit n).toNat = 87 + n := by decide
  have hupper : ∀ n < 16, 10 ≤ n → (hexDigit n).toUpper.toNat = 55 + n := by decide
  constructor
  · intro h
    simp only [hexValue?, le_iff_toNat_le, Char.reduceToNat] at h
    split at h
    · cases h
      refine ⟨by omega, .inl (eq_of_toNat_eq ?_)⟩
      rw [hdecimal _ (by omega)]
      omega
    · split at h
      · cases h
        refine ⟨by omega, .inl (eq_of_toNat_eq ?_)⟩
        rw [hlower _ (by omega) (by omega)]
        omega
      · split at h
        · cases h
          refine ⟨by omega, .inr (eq_of_toNat_eq ?_)⟩
          rw [hupper _ (by omega) (by omega)]
          omega
        · cases h
  · rintro ⟨hn, rfl | rfl⟩
    · exact hexValue?_hexDigit n hn
    · have h : ∀ n < 16, hexValue? (hexDigit n).toUpper = some n := by decide
      exact h n hn

theorem fourHex?_eq_some_iff {a b c d : Char} {n : Nat} :
    fourHex? a b c d = some n ↔ UnitText ['\\', 'u', a, b, c, d] (.word n) := by
  constructor
  · intro h
    simp only [fourHex?, bind, Option.bind_eq_some_iff, Option.some.injEq,
      hexValue?_eq_some_iff] at h
    obtain ⟨i, hi, j, hj, k, hk, l, hl, rfl⟩ := h
    exact .long hi hj hk hl
  · intro h
    cases h with
    | long hi hj hk hl =>
      simp only [fourHex?, hexValue?_eq_some_iff.2 hi, hexValue?_eq_some_iff.2 hj,
        hexValue?_eq_some_iff.2 hk, hexValue?_eq_some_iff.2 hl, bind, Option.bind]

theorem escaped?_eq_some_iff {c e : Char} : escaped? c = some e ↔ (c, e) ∈ shortEscapes := by
  constructor
  · intro h
    unfold escaped? at h
    split at h
    · rename_i hc
      cases h
      rcases hc with rfl | rfl | rfl
      · decide
      · decide
      · decide
    · repeat'
        split at h
        · cases h
          subst c
          decide
      cases h
  · intro h
    have hall : ∀ p ∈ shortEscapes, escaped? p.1 = some p.2 := by decide
    exact hall _ h

/-- In front of any others, some units stand for one character. -/
def StandsFor (us : List StringUnit) (c : Char) : Prop :=
  ∀ vs, decode? (us ++ vs) = (decode? vs).map (c :: ·)

theorem standsFor_char (c : Char) : StandsFor [.char c] c :=
  fun _ => rfl

theorem standsFor_word {n : Nat} (hhigh : isHighSurrogate n = false)
    (hlow : isLowSurrogate n = false) : StandsFor [.word n] (Char.ofNat n) := by
  intro vs
  rw [List.singleton_append]
  conv_lhs => unfold decode?
  rw [hhigh, hlow]
  rfl

theorem standsFor_pair {n m : Nat} (hhigh : isHighSurrogate n = true)
    (hlow : isLowSurrogate m = true) : StandsFor [.word n, .word m] (surrogatePair n m) := by
  intro vs
  rw [List.cons_append, List.singleton_append, decode?, hhigh, hlow]
  rfl

theorem isHighSurrogate_eq_true_iff {n : Nat} :
    isHighSurrogate n = true ↔ 0xD800 ≤ n ∧ n < 0xDC00 := by
  rw [isHighSurrogate, Bool.and_eq_true, decide_eq_true_eq, decide_eq_true_eq]

theorem isLowSurrogate_eq_true_iff {n : Nat} :
    isLowSurrogate n = true ↔ 0xDC00 ≤ n ∧ n < 0xE000 := by
  rw [isLowSurrogate, Bool.and_eq_true, decide_eq_true_eq, decide_eq_true_eq]

theorem takes_readFourHex : Takes readFourHex fun t n => UnitText ('\\' :: 'u' :: t) (.word n) := by
  intro s n r h
  have hbad : (if size s < 4 then .error ⟨.endInString, 0⟩
      else .error ⟨.invalidEscape, size s - 4⟩ : Except Fault (Reading Nat)) ≠ .ok (n, r) := by
    split
    · exact nofun
    · exact nofun
  unfold readFourHex at h
  dsimp only at h
  generalize (if size s < 4 then .error ⟨.endInString, 0⟩
      else .error ⟨.invalidEscape, size s - 4⟩ : Except Fault (Reading Nat)) = bad at h hbad
  split at h
  · split at h
    · rename_i hfour
      cases h
      exact ⟨_, rfl, fourHex?_eq_some_iff.1 hfour⟩
    · exact absurd h hbad
  · exact absurd h hbad

theorem takes_readLowSurrogate : Takes readLowSurrogate fun t n =>
    isLowSurrogate n = true ∧ UnitText t (.word n) := by
  intro s n r h
  unfold readLowSurrogate at h
  split at h
  · obtain ⟨⟨m, s₁⟩, hfour, h⟩ := exists_of_bind_eq_ok h
    dsimp only at h
    split at h
    · rename_i hlow
      cases h
      obtain ⟨t, rfl, ht⟩ := takes_readFourHex _ _ _ hfour
      exact ⟨_, rfl, isLowSurrogate_eq_true_iff.2 hlow, ht⟩
    · cases h
  · cases h
  · cases h

theorem unitsText_singleton {t : Text} {u : StringUnit} (h : UnitText t u) : UnitsText t [u] := by
  have hcons := UnitsText.cons h .nil
  rwa [List.append_nil] at hcons

theorem UnitsText.append {t ts : Text} {us vs : List StringUnit} (h : UnitsText t us)
    (hs : UnitsText ts vs) : UnitsText (t ++ ts) (us ++ vs) := by
  induction h with
  | nil => exact hs
  | cons hu _ ih =>
    rw [List.append_assoc]
    exact .cons hu ih

theorem takes_readUnit : Takes readUnit fun t c =>
    ∃ us, UnitsText ('\\' :: 'u' :: t) us ∧ StandsFor us c := by
  intro s c r h
  obtain ⟨⟨n, s₁⟩, hfour, h⟩ := exists_of_bind_eq_ok h
  dsimp only at h
  obtain ⟨t, hs, ht⟩ := takes_readFourHex _ _ _ hfour
  split at h
  · cases h
  · rename_i hlow
    rw [← isLowSurrogate_eq_true_iff, Bool.not_eq_true] at hlow
    split at h
    · rename_i hhigh
      obtain ⟨⟨m, s₂⟩, hsecond, h⟩ := exists_of_bind_eq_ok h
      rw [Except.ok.injEq, Prod.mk.injEq] at h
      obtain ⟨rfl, rfl⟩ := h
      obtain ⟨t', hs', hm, ht'⟩ := takes_readLowSurrogate _ _ _ hsecond
      subst hs hs'
      refine ⟨t ++ t', ?_, [.word n, .word m], ?_, ?_⟩
      · rw [chars_append, List.append_assoc]
      · exact .cons ht (unitsText_singleton ht')
      · exact standsFor_pair (isHighSurrogate_eq_true_iff.2 hhigh) hm
    · rename_i hhigh
      rw [← isHighSurrogate_eq_true_iff, Bool.not_eq_true] at hhigh
      cases h
      exact ⟨t, hs, [.word n], unitsText_singleton ht, standsFor_word hhigh hlow⟩

theorem takes_readEscape : Takes readEscape fun t c =>
    ∃ us, UnitsText ('\\' :: t) us ∧ StandsFor us c := by
  intro s c r h
  unfold readEscape at h
  split at h
  · obtain ⟨t, rfl, us, hus, hc⟩ := takes_readUnit _ _ _ h
    exact ⟨'u' :: t, rfl, us, hus, hc⟩
  · split at h
    · rename_i hescaped
      cases h
      exact ⟨_, rfl, [.char c], unitsText_singleton (.short (escaped?_eq_some_iff.1 hescaped)),
        standsFor_char c⟩
    · cases h
  · cases h

inductive StringRest : Text → Text → Prop
  | mk {t cs : Text} {us : List StringUnit} : UnitsText t us → decode? us = some cs →
      StringRest (t ++ ['"']) cs

theorem StringRest.append {t ts cs : Text} {us : List StringUnit} {c : Char} (h : UnitsText t us)
    (hc : StandsFor us c) (hs : StringRest ts cs) : StringRest (t ++ ts) (c :: cs) := by
  obtain ⟨hts, hcs⟩ := hs
  rw [← List.append_assoc]
  refine .mk (h.append hts) ?_
  rw [hc, hcs, Option.map_some]

theorem readStringAfter_error_ne_ok {fault : Fault} (fuel : Nat) (s : Rest) (p : Reading Text) :
    readStringAfter (.error fault) fuel s ≠ .ok p := by
  induction fuel generalizing s with
  | zero => exact fun h => by cases h
  | succ fuel ih =>
    intro h
    unfold readStringAfter at h
    split at h
    · cases h
    · exact ih _ h
    · split at h
      · cases h
      · split at h
        · split at h
          · cases h
          · exact ih _ h
        · split at h
          · cases h
          · exact ih _ h

theorem takes_readStringAfter (found : Text) (fuel : Nat) :
    Takes (readStringAfter (.ok found) fuel) fun t a =>
      ∃ cs, StringRest t cs ∧ a = found.reverse ++ cs := by
  induction fuel generalizing found with
  | zero => exact fun s a r h => by cases h
  | succ fuel ih =>
    intro s a r h
    unfold readStringAfter at h
    split at h
    · cases h
    · exact absurd h (readStringAfter_error_ne_ok _ _ _)
    · rename_i c s
      have hmore : ∀ {t : Text} {us : List StringUnit} {e : Char} {s' : Rest}, UnitsText t us →
          StandsFor us e → .char c :: s = chars t ++ s' →
          readStringAfter (.ok (e :: found)) fuel s' = .ok (a, r) →
          ∃ t, .char c :: s = chars t ++ r ∧ ∃ cs, StringRest t cs ∧ a = found.reverse ++ cs := by
        intro t us e s' hus he hs h
        obtain ⟨ts, rfl, cs, hts, rfl⟩ := ih (e :: found) _ _ _ h
        refine ⟨t ++ ts, ?_, e :: cs, hts.append hus he, ?_⟩
        · rw [hs, chars_append, List.append_assoc]
        · rw [List.reverse_cons, List.append_assoc, List.singleton_append]
      split at h
      · rename_i hc
        cases h
        subst hc
        exact ⟨['"'], rfl, [], .mk .nil rfl, (List.append_nil _).symm⟩
      · rename_i hquote
        split at h
        · rename_i hc
          subst hc
          split at h
          · cases h
          · rename_i e s' hescape
            obtain ⟨t, hs, us, hus, he⟩ := takes_readEscape _ _ _ hescape
            exact hmore hus he (congrArg (Piece.char '\\' :: ·) hs) h
        · rename_i hslash
          split at h
          · cases h
          · rename_i hcontrol
            exact hmore (unitsText_singleton (.plain hquote hslash (Nat.le_of_not_lt hcontrol)))
              (standsFor_char c) rfl h

theorem takes_readString (fuel : Nat) : Takes (readString fuel) StringRest := by
  intro s t r h
  obtain ⟨u, hs, cs, hu, rfl⟩ := takes_readStringAfter [] fuel _ _ _ h
  exact ⟨u, hs, hu⟩

variable {t : Text} {s : Rest} {n m fuel : Nat} {c : Char} {us : List StringUnit}

theorem exists_of_unitText_word (h : UnitText t (.word n)) :
    ∃ u, t = '\\' :: 'u' :: u ∧ ∀ s, readFourHex (chars u ++ s) = .ok (n, s) := by
  have hlong := h
  cases h with
  | @long a b c d i j k l hi hj hk hl =>
    refine ⟨[a, b, c, d], rfl, ?_⟩
    intro s
    simp only [chars_cons, chars_nil, List.cons_append, List.nil_append, readFourHex,
      fourHex?_eq_some_iff.2 hlong]

theorem readEscape_word (h : UnitText t (.word n)) (hhigh : isHighSurrogate n = false)
    (hlow : isLowSurrogate n = false) :
    ∃ u, t = '\\' :: u ∧ ∀ s, readEscape (chars u ++ s) = .ok (Char.ofNat n, s) := by
  obtain ⟨u, rfl, hfour⟩ := exists_of_unitText_word h
  have hhigh' : ¬(0xD800 ≤ n ∧ n < 0xDC00) := by
    rw [← isHighSurrogate_eq_true_iff, hhigh]
    exact Bool.false_ne_true
  have hlow' : ¬(0xDC00 ≤ n ∧ n < 0xE000) := by
    rw [← isLowSurrogate_eq_true_iff, hlow]
    exact Bool.false_ne_true
  refine ⟨'u' :: u, rfl, ?_⟩
  intro s
  simp only [chars_cons, List.cons_append, readEscape, readUnit, hfour s, bind, Except.bind,
    if_neg hhigh', if_neg hlow']

theorem readEscape_pair {t' : Text} (h : UnitText t (.word n)) (h' : UnitText t' (.word m))
    (hhigh : isHighSurrogate n = true) (hlow : isLowSurrogate m = true) :
    ∃ u, t ++ t' = '\\' :: u ∧ ∀ s, readEscape (chars u ++ s) = .ok (surrogatePair n m, s) := by
  obtain ⟨u, rfl, hfour⟩ := exists_of_unitText_word h
  obtain ⟨u', rfl, hfour'⟩ := exists_of_unitText_word h'
  rw [isHighSurrogate_eq_true_iff] at hhigh
  rw [isLowSurrogate_eq_true_iff] at hlow
  have hsecond : ∀ s, readLowSurrogate (chars ('\\' :: 'u' :: u') ++ s) = .ok (m, s) := by
    intro s
    simp only [chars_cons, List.cons_append, readLowSurrogate, hfour' s, bind, Except.bind,
      if_pos hlow]
  refine ⟨'u' :: (u ++ '\\' :: 'u' :: u'), rfl, ?_⟩
  intro s
  rw [chars_cons, chars_append, List.cons_append, List.append_assoc, readEscape]
  simp only [readUnit, hfour, hsecond, bind, Except.bind, if_pos hhigh,
    if_neg (show ¬(0xDC00 ≤ n ∧ n < 0xE000) by omega), surrogatePair]

theorem readStringAfter_escape {u : Text} (found : Text)
    (h : ∀ s, readEscape (chars u ++ s) = .ok (c, s)) :
    readStringAfter (.ok found) (fuel + 1) (chars ('\\' :: u) ++ s) =
      readStringAfter (.ok (c :: found)) fuel s := by
  simp only [chars_cons, List.cons_append, readStringAfter, h s]
  rfl

theorem readStringAfter_char (found : Text) (h : UnitText t (.char c)) :
    readStringAfter (.ok found) (fuel + 1) (chars t ++ s) =
      readStringAfter (.ok (c :: found)) fuel s := by
  cases h with
  | plain hquote hslash hcontrol =>
    simp only [chars_cons, chars_nil, List.cons_append, List.nil_append, readStringAfter,
      if_neg hquote, if_neg hslash, if_neg (Nat.not_lt.2 hcontrol)]
    rfl
  | @short e c he =>
    apply readStringAfter_escape (u := [e])
    intro s
    have hescaped := escaped?_eq_some_iff.2 he
    have hu : e ≠ 'u' := by
      rintro rfl
      cases hescaped
    rw [chars_cons, List.cons_append]
    unfold readEscape
    split
    · rename_i heq
      cases heq
      exact absurd rfl hu
    · rename_i heq
      cases heq
      rw [hescaped]
      rfl
    · rename_i hchar
      exact absurd rfl (hchar e s)

theorem UnitText.length_pos {u : StringUnit} (h : UnitText t u) : 0 < t.length := by
  cases h with
  | plain => exact Nat.succ_pos _
  | short => exact Nat.succ_pos _
  | long => exact Nat.succ_pos _

theorem readStringAfter_append {cs : Text} (h : UnitsText t us) (hcs : decode? us = some cs)
    (hfuel : t.length < fuel) (found : Text) :
    readStringAfter (.ok found) fuel (chars t ++ .char '"' :: s) =
      .ok (found.reverse ++ cs, s) := by
  fun_induction decode? us generalizing t fuel found cs with
  | case1 =>
    obtain ⟨fuel, rfl⟩ := Nat.exists_eq_succ_of_ne_zero (Nat.ne_of_gt (Nat.zero_lt_of_lt hfuel))
    cases h
    cases hcs
    rw [List.append_nil]
    rfl
  | case2 c us ih =>
    obtain ⟨fuel, rfl⟩ := Nat.exists_eq_succ_of_ne_zero (Nat.ne_of_gt (Nat.zero_lt_of_lt hfuel))
    obtain ⟨cs, hcs', rfl⟩ := Option.map_eq_some_iff.1 hcs
    cases h with
    | cons hu hus =>
      have hpos := hu.length_pos
      rw [List.length_append] at hfuel
      rw [chars_append, List.append_assoc, readStringAfter_char _ hu, ih hus hcs' (by omega),
        List.reverse_cons, List.append_assoc, List.singleton_append]
  | case3 n hhigh m us hlow ih =>
    obtain ⟨fuel, rfl⟩ := Nat.exists_eq_succ_of_ne_zero (Nat.ne_of_gt (Nat.zero_lt_of_lt hfuel))
    obtain ⟨cs, hcs', rfl⟩ := Option.map_eq_some_iff.1 hcs
    cases h with
    | cons hn h =>
      cases h with
      | cons hm hus =>
        obtain ⟨u, hu, hescape⟩ := readEscape_pair hn hm hhigh hlow
        have hpos := hn.length_pos
        rw [List.length_append, List.length_append] at hfuel
        rw [← List.append_assoc, chars_append, List.append_assoc, hu,
          readStringAfter_escape _ hescape, ih hus hcs' (by omega), List.reverse_cons,
          List.append_assoc, List.singleton_append]
  | case4 => cases hcs
  | case5 => cases hcs
  | case6 => cases hcs
  | case7 n us hhigh hlow ih =>
    obtain ⟨fuel, rfl⟩ := Nat.exists_eq_succ_of_ne_zero (Nat.ne_of_gt (Nat.zero_lt_of_lt hfuel))
    obtain ⟨cs, hcs', rfl⟩ := Option.map_eq_some_iff.1 hcs
    cases h with
    | cons hn hus =>
      rw [Bool.not_eq_true] at hhigh hlow
      obtain ⟨u, rfl, hescape⟩ := readEscape_word hn hhigh hlow
      rw [List.length_append, List.length_cons] at hfuel
      rw [chars_append, List.append_assoc, readStringAfter_escape _ hescape,
        ih hus hcs' (by omega), List.reverse_cons, List.append_assoc, List.singleton_append]

theorem StringRest.readString {cs : Text} (h : StringRest t cs) (hfuel : t.length ≤ fuel) :
    Json.readString fuel (chars t ++ s) = .ok (cs, s) := by
  obtain ⟨hus, hcs⟩ := h
  rw [List.length_append, List.length_singleton] at hfuel
  rw [Json.readString, chars_append, List.append_assoc]
  exact readStringAfter_append hus hcs hfuel []

end Json

end RecordSheet
