import RecordSheet.Json.Printer
import RecordSheet.Proofs.Json.Numeral

namespace RecordSheet.Json

open Utf8

variable {c : Char} {s : Rest} {fuel : Nat}

theorem readFourHex_hexDigit {n : Nat} (h : n < 256) :
    readFourHex (chars ['0', '0', hexDigit (n / 16), hexDigit (n % 16)] ++ s) = .ok (n, s) := by
  have hfour : fourHex? '0' '0' (hexDigit (n / 16)) (hexDigit (n % 16)) = some n := by
    have hzero : hexValue? '0' = some 0 := rfl
    simp only [fourHex?, hzero, hexValue?_hexDigit _ (show n / 16 < 16 by omega),
      hexValue?_hexDigit _ (Nat.mod_lt n (show 0 < 16 by decide)), bind, Option.bind,
      Option.some.injEq]
    omega
  simp only [chars_cons, chars_nil, List.cons_append, List.nil_append, readFourHex, hfour]

theorem readUnit_hexDigit {n : Nat} (h : n < 256) :
    readUnit (chars ['0', '0', hexDigit (n / 16), hexDigit (n % 16)] ++ s) =
      .ok (Char.ofNat n, s) := by
  simp only [readUnit, readFourHex_hexDigit h, bind, Except.bind]
  rw [if_neg (by omega), if_neg (by omega)]

theorem escapeChar_cases (c : Char) :
    (c ≠ '"' ∧ c ≠ '\\' ∧ ¬c.toNat < 0x20 ∧ escapeChar c = [c]) ∨
      ∃ t, escapeChar c = '\\' :: t ∧ ∀ s, readEscape (chars t ++ s) = .ok (c, s) := by
  unfold escapeChar
  split
  · subst c
    exact .inr ⟨_, rfl, fun s => rfl⟩
  split
  · subst c
    exact .inr ⟨_, rfl, fun s => rfl⟩
  split
  · exact .inl ⟨‹_›, ‹_›, Nat.not_lt.2 ‹_›, rfl⟩
  split
  · subst c
    exact .inr ⟨_, rfl, fun s => rfl⟩
  split
  · subst c
    exact .inr ⟨_, rfl, fun s => rfl⟩
  split
  · subst c
    exact .inr ⟨_, rfl, fun s => rfl⟩
  split
  · subst c
    exact .inr ⟨_, rfl, fun s => rfl⟩
  split
  · subst c
    exact .inr ⟨_, rfl, fun s => rfl⟩
  · refine .inr ⟨_, rfl, fun s => ?_⟩
    have hunit := readUnit_hexDigit (n := c.toNat) (s := s) (by omega)
    rw [Char.ofNat_toNat] at hunit
    exact hunit

theorem readStringAfter_escapeChar (found : Text) :
    readStringAfter (.ok found) (fuel + 1) (chars (escapeChar c) ++ s) =
      readStringAfter (.ok (c :: found)) fuel s := by
  rcases escapeChar_cases c with ⟨hq, hb, hc, he⟩ | ⟨t, he, ht⟩
  · simp [he, readStringAfter, hq, hb, hc, Except.map]
  · simp [he, readStringAfter, ht, Except.map]

theorem readStringAfter_quoted {t : Text} (h : t.length < fuel) (found : Text) :
    readStringAfter (.ok found) fuel (chars (t.flatMap escapeChar) ++ .char '"' :: s) =
      .ok (found.reverse ++ t, s) := by
  induction t generalizing fuel found with
  | nil =>
    obtain ⟨fuel, rfl⟩ := Nat.exists_eq_succ_of_ne_zero (Nat.ne_of_gt h)
    simp [readStringAfter, Except.map]
  | cons c t ih =>
    obtain ⟨fuel, rfl⟩ := Nat.exists_eq_succ_of_ne_zero (Nat.ne_of_gt (Nat.zero_lt_of_lt h))
    rw [List.flatMap_cons, chars_append, List.append_assoc, readStringAfter_escapeChar,
      ih (Nat.lt_of_succ_lt_succ h), List.reverse_cons, List.append_assoc, List.singleton_append]

theorem readString_quoted {t : Text} (h : t.length < fuel) :
    readString fuel (chars (t.flatMap escapeChar ++ ['"']) ++ s) = .ok (t, s) := by
  rw [readString, chars_append, List.append_assoc]
  exact readStringAfter_quoted h []

theorem length_le_length_escape (t : Text) : t.length ≤ (t.flatMap escapeChar).length := by
  induction t with
  | nil => exact Nat.le_refl _
  | cons c t ih =>
    have hc : 0 < (escapeChar c).length := by
      rcases escapeChar_cases c with ⟨-, -, -, he⟩ | ⟨t, he, -⟩
      · rw [he]
        exact Nat.zero_lt_one
      · rw [he]
        exact Nat.succ_pos _
    rw [List.flatMap_cons, List.length_append, List.length_cons]
    omega

theorem quoted_append_inj {t u a b : Text} (h : quoted t ++ a = quoted u ++ b) :
    t = u ∧ a = b := by
  have hread : ∀ t a : Text, ∀ fuel, t.length < fuel →
      readString fuel (chars ((quoted t ++ a).drop 1)) = .ok (t, chars a) := by
    intro t a fuel hfuel
    rw [quoted, List.cons_append, List.cons_append, List.drop_one, List.tail_cons, chars_append]
    exact readString_quoted hfuel
  have ht := hread t a (t.length + u.length + 1) (by omega)
  rw [h, hread u b _ (by omega)] at ht
  injection ht with ht
  injection ht with ht hab
  exact ⟨ht.symm, chars_injective hab.symm⟩

end RecordSheet.Json
