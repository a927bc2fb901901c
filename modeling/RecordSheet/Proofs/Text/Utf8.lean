import RecordSheet.Text.Utf8
import Mathlib.Data.List.Basic

namespace RecordSheet.Utf8

section

variable {n : Nat} {a b d e : UInt8} {c : Char}

theorem isTail_iff : isTail b = true ↔ 0x80 ≤ b.toNat ∧ b.toNat < 0xC0 := by
  rw [isTail, Bool.and_eq_true, decide_eq_true_eq, decide_eq_true_eq]
  rfl

theorem isThreeByteHead_iff :
    isThreeByteHead n = true ↔ 0x20 ≤ n ∧ (n < 0x360 ∨ 0x380 ≤ n) := by
  rw [isThreeByteHead, Bool.and_eq_true, Bool.or_eq_true, decide_eq_true_eq, decide_eq_true_eq,
    decide_eq_true_eq]

theorem isFourByteHead_iff : isFourByteHead n = true ↔ 0x10 ≤ n ∧ n < 0x110 := by
  rw [isFourByteHead, Bool.and_eq_true, decide_eq_true_eq, decide_eq_true_eq]

theorem push_eq (n : Nat) (b : UInt8) : push n b = n * 64 + (b.toNat - 0x80) :=
  rfl

theorem one_complete_iff :
    progress [a] = .complete c ↔ a.toNat < 0x80 ∧ Char.ofNat a.toNat = c := by
  simp only [progress, ite_eq_iff, Progress.complete.injEq, reduceCtorEq, and_false, or_false]
  exact Iff.rfl

theorem one_partly_iff : progress [a] = .partly ↔ 0xC2 ≤ a.toNat ∧ a.toNat < 0xF5 := by
  simp only [progress, ite_eq_iff, reduceCtorEq, and_false, or_false, false_or, and_true,
    Bool.and_eq_true, decide_eq_true_eq]
  change ¬a.toNat < 0x80 ∧ 0xC2 ≤ a.toNat ∧ a.toNat < 0xF5 ↔ _
  omega

theorem two_complete_iff : progress [a, b] = .complete c ↔ isTail b = true ∧ a.toNat < 0xE0 ∧
    Char.ofNat (push (a.toNat - 0xC0) b) = c := by
  simp only [progress, ite_eq_iff, Progress.complete.injEq, reduceCtorEq, and_false, or_false,
    false_or, Bool.not_eq_true', Bool.not_eq_false]
  exact Iff.rfl

theorem two_partly_iff : progress [a, b] = .partly ↔ isTail b = true ∧ ¬a.toNat < 0xE0 ∧
    (a.toNat < 0xF0 ∧ isThreeByteHead (push (a.toNat - 0xE0) b) = true ∨
      ¬a.toNat < 0xF0 ∧ isFourByteHead (push (a.toNat - 0xF0) b) = true) := by
  simp only [progress, ite_eq_iff, reduceCtorEq, and_false, or_false, and_true,
    false_or, Bool.not_eq_true', Bool.not_eq_false]
  exact Iff.rfl

theorem three_complete_iff : progress [a, b, d] = .complete c ↔ isTail d = true ∧
    a.toNat < 0xF0 ∧ Char.ofNat (push (push (a.toNat - 0xE0) b) d) = c := by
  simp only [progress, ite_eq_iff, Progress.complete.injEq, reduceCtorEq, and_false, or_false,
    false_or, Bool.not_eq_true', Bool.not_eq_false]
  exact Iff.rfl

theorem three_partly_iff : progress [a, b, d] = .partly ↔ isTail d = true ∧ ¬a.toNat < 0xF0 := by
  simp only [progress, ite_eq_iff, reduceCtorEq, and_false, and_true, false_or, Bool.not_eq_true',
    Bool.not_eq_false]
  exact Iff.rfl

theorem four_complete_iff : progress [a, b, d, e] = .complete c ↔ isTail e = true ∧
    Char.ofNat (push (push (push (a.toNat - 0xF0) b) d) e) = c := by
  simp only [progress, ite_eq_iff, Progress.complete.injEq, reduceCtorEq, and_false,
    false_or, Bool.not_eq_true', Bool.not_eq_false]

theorem four_ne_partly : progress [a, b, d, e] ≠ .partly := by
  rw [progress]
  split
  · exact nofun
  · exact nofun

theorem encodeChar_one (h : c.toNat < 0x80) : encodeChar c = [.ofNat c.toNat] := by
  rw [encodeChar]
  exact if_pos h

theorem encodeChar_two (h : 0x80 ≤ c.toNat) (h' : c.toNat < 0x800) :
    encodeChar c = [.ofNat (0xC0 + c.toNat / 64), .ofNat (0x80 + c.toNat % 64)] := by
  rw [encodeChar, if_neg (Nat.not_lt.2 h), if_pos h']

theorem encodeChar_three (h : 0x800 ≤ c.toNat) (h' : c.toNat < 0x10000) :
    encodeChar c = [.ofNat (0xE0 + c.toNat / 4096), .ofNat (0x80 + c.toNat / 64 % 64),
      .ofNat (0x80 + c.toNat % 64)] := by
  rw [encodeChar, if_neg (by omega), if_neg (by omega), if_pos h']

theorem encodeChar_four (h : 0x10000 ≤ c.toNat) :
    encodeChar c = [.ofNat (0xF0 + c.toNat / 262144), .ofNat (0x80 + c.toNat / 4096 % 64),
      .ofNat (0x80 + c.toNat / 64 % 64), .ofNat (0x80 + c.toNat % 64)] := by
  rw [encodeChar, if_neg (by omega), if_neg (by omega), if_neg (by omega)]

theorem toNat_byte (h : n < 256) : (UInt8.ofNat n).toNat = n := by
  rw [UInt8.toNat_ofNat']
  exact Nat.mod_eq_of_lt h

theorem byte_eq (h : n = a.toNat) : UInt8.ofNat n = a := by
  rw [h, UInt8.ofNat_toNat]

theorem toNat_char (h : n < 0xD800 ∨ 0xDFFF < n ∧ n < 0x110000) : (Char.ofNat n).toNat = n := by
  rw [Char.ofNat, dif_pos h]
  rfl

theorem toNat_bounds (c : Char) : c.toNat < 0xD800 ∨ 0xDFFF < c.toNat ∧ c.toNat < 0x110000 :=
  c.valid

def Begun : Bytes → Prop
  | [] => True
  | [a] => progress [a] = .partly
  | [a, b] => progress [a] = .partly ∧ progress [a, b] = .partly
  | [a, b, d] => progress [a] = .partly ∧ progress [a, b] = .partly ∧ progress [a, b, d] = .partly
  | _ => False

theorem begun_nil : Begun [] :=
  trivial

theorem Begun.push {begun : Bytes} (h : Begun begun) (hb : progress (begun ++ [b]) = .partly) :
    Begun (begun ++ [b]) := by
  match begun, h with
  | [], _ => exact hb
  | [_], h => exact ⟨h, hb⟩
  | [_, _], h => exact ⟨h.1, h.2, hb⟩
  | [_, _, _], _ => exact absurd hb four_ne_partly

theorem encodeChar_of_two_complete (ha : progress [a] = .partly)
    (h : progress [a, b] = .complete c) : encodeChar c = [a, b] := by
  rw [one_partly_iff] at ha
  rw [two_complete_iff, isTail_iff, push_eq] at h
  obtain ⟨hb, ha', rfl⟩ := h
  have hn := toNat_char (n := (a.toNat - 0xC0) * 64 + (b.toNat - 0x80)) (by omega)
  rw [encodeChar_two (by omega) (by omega), hn, byte_eq (a := a) (by omega),
    byte_eq (a := b) (by omega)]

theorem encodeChar_of_three_complete (hb : progress [a, b] = .partly)
    (h : progress [a, b, d] = .complete c) : encodeChar c = [a, b, d] := by
  rw [two_partly_iff, isTail_iff, isThreeByteHead_iff, push_eq] at hb
  rw [three_complete_iff, isTail_iff, push_eq, push_eq] at h
  obtain ⟨hd, ha', rfl⟩ := h
  have hn := toNat_char
    (n := ((a.toNat - 0xE0) * 64 + (b.toNat - 0x80)) * 64 + (d.toNat - 0x80)) (by omega)
  rw [encodeChar_three (by omega) (by omega), hn, byte_eq (a := a) (by omega),
    byte_eq (a := b) (by omega), byte_eq (a := d) (by omega)]

theorem encodeChar_of_four_complete (hb : progress [a, b] = .partly)
    (hd : progress [a, b, d] = .partly) (h : progress [a, b, d, e] = .complete c) :
    encodeChar c = [a, b, d, e] := by
  rw [two_partly_iff, isTail_iff, isFourByteHead_iff, push_eq, push_eq] at hb
  rw [three_partly_iff, isTail_iff] at hd
  rw [four_complete_iff, isTail_iff, push_eq, push_eq, push_eq] at h
  obtain ⟨he, rfl⟩ := h
  have hn := toNat_char (n := (((a.toNat - 0xF0) * 64 + (b.toNat - 0x80)) * 64 +
    (d.toNat - 0x80)) * 64 + (e.toNat - 0x80)) (by omega)
  rw [encodeChar_four (by omega), hn, byte_eq (a := a) (by omega),
    byte_eq (a := b) (by omega), byte_eq (a := d) (by omega), byte_eq (a := e) (by omega)]

theorem encodeChar_of_complete {begun : Bytes} (h : Begun begun)
    (hb : progress (begun ++ [b]) = .complete c) : encodeChar c = begun ++ [b] := by
  match begun, h with
  | [], _ =>
    obtain ⟨hb, rfl⟩ := one_complete_iff.1 hb
    have hn := toNat_char (n := b.toNat) (.inl (by omega))
    rw [encodeChar_one (by omega), hn, UInt8.ofNat_toNat]
    rfl
  | [_], h => exact encodeChar_of_two_complete h hb
  | [_, _], h => exact encodeChar_of_three_complete h.2 hb
  | [_, _, _], h => exact encodeChar_of_four_complete h.2.1 h.2.2 hb

end

section

variable {found : List Piece} {begun bytes : Bytes} {a b d e : UInt8} {c : Char}

theorem piecesAfter_complete (h : progress (begun ++ [b]) = .complete c) :
    piecesAfter found begun (b :: bytes) = piecesAfter (.char c :: found) [] bytes := by
  rw [piecesAfter, h]

theorem piecesAfter_partly (h : progress (begun ++ [b]) = .partly) :
    piecesAfter found begun (b :: bytes) = piecesAfter found (begun ++ [b]) bytes := by
  rw [piecesAfter, h]

theorem char_eq {n : Nat} (h : n = c.toNat) : Char.ofNat n = c := by
  rw [h, Char.ofNat_toNat]

theorem piecesAfter_two (h : 0x80 ≤ c.toNat) (h' : c.toNat < 0x800)
    (ha : a.toNat = 0xC0 + c.toNat / 64) (hb : b.toNat = 0x80 + c.toNat % 64) :
    piecesAfter found [] (a :: b :: bytes) = piecesAfter (.char c :: found) [] bytes := by
  have hone : progress ([] ++ [a]) = .partly := one_partly_iff.2 (by omega)
  have htwo : progress ([] ++ [a] ++ [b]) = .complete c := by
    apply two_complete_iff.2
    refine ⟨isTail_iff.2 (by omega), by omega, char_eq ?_⟩
    rw [push_eq]
    omega
  rw [piecesAfter_partly hone, piecesAfter_complete htwo]

theorem piecesAfter_three (h : 0x800 ≤ c.toNat) (h' : c.toNat < 0x10000)
    (ha : a.toNat = 0xE0 + c.toNat / 4096) (hb : b.toNat = 0x80 + c.toNat / 64 % 64)
    (hd : d.toNat = 0x80 + c.toNat % 64) :
    piecesAfter found [] (a :: b :: d :: bytes) = piecesAfter (.char c :: found) [] bytes := by
  have hvalid := toNat_bounds c
  have hone : progress ([] ++ [a]) = .partly := one_partly_iff.2 (by omega)
  have htwo : progress ([] ++ [a] ++ [b]) = .partly := by
    apply two_partly_iff.2
    refine ⟨isTail_iff.2 (by omega), by omega, .inl ⟨by omega, ?_⟩⟩
    rw [isThreeByteHead_iff, push_eq]
    omega
  have hthree : progress ([] ++ [a] ++ [b] ++ [d]) = .complete c := by
    apply three_complete_iff.2
    refine ⟨isTail_iff.2 (by omega), by omega, char_eq ?_⟩
    rw [push_eq, push_eq]
    omega
  rw [piecesAfter_partly hone, piecesAfter_partly htwo, piecesAfter_complete hthree]

theorem piecesAfter_four (h : 0x10000 ≤ c.toNat) (ha : a.toNat = 0xF0 + c.toNat / 262144)
    (hb : b.toNat = 0x80 + c.toNat / 4096 % 64) (hd : d.toNat = 0x80 + c.toNat / 64 % 64)
    (he : e.toNat = 0x80 + c.toNat % 64) :
    piecesAfter found [] (a :: b :: d :: e :: bytes) = piecesAfter (.char c :: found) [] bytes := by
  have hvalid := toNat_bounds c
  have hone : progress ([] ++ [a]) = .partly := one_partly_iff.2 (by omega)
  have htwo : progress ([] ++ [a] ++ [b]) = .partly := by
    apply two_partly_iff.2
    refine ⟨isTail_iff.2 (by omega), by omega, .inr ⟨by omega, ?_⟩⟩
    rw [isFourByteHead_iff, push_eq]
    omega
  have hthree : progress ([] ++ [a] ++ [b] ++ [d]) = .partly :=
    three_partly_iff.2 ⟨isTail_iff.2 (by omega), by omega⟩
  have hfour : progress ([] ++ [a] ++ [b] ++ [d] ++ [e]) = .complete c := by
    apply four_complete_iff.2
    refine ⟨isTail_iff.2 (by omega), char_eq ?_⟩
    rw [push_eq, push_eq, push_eq]
    omega
  rw [piecesAfter_partly hone, piecesAfter_partly htwo, piecesAfter_partly hthree,
    piecesAfter_complete hfour]

theorem piecesAfter_encodeChar (found : List Piece) (c : Char) (bytes : Bytes) :
    piecesAfter found [] (encodeChar c ++ bytes) = piecesAfter (.char c :: found) [] bytes := by
  have hvalid := toNat_bounds c
  rcases Nat.lt_or_ge c.toNat 0x80 with h | h
  · rw [encodeChar_one h]
    apply piecesAfter_complete
    apply one_complete_iff.2
    rw [toNat_byte (by omega)]
    exact ⟨h, Char.ofNat_toNat c⟩
  rcases Nat.lt_or_ge c.toNat 0x800 with h' | h'
  · rw [encodeChar_two h h']
    exact piecesAfter_two h h' (toNat_byte (by omega)) (toNat_byte (by omega))
  rcases Nat.lt_or_ge c.toNat 0x10000 with h'' | h''
  · rw [encodeChar_three h' h'']
    exact piecesAfter_three h' h'' (toNat_byte (by omega)) (toNat_byte (by omega))
      (toNat_byte (by omega))
  · rw [encodeChar_four h'']
    exact piecesAfter_four h'' (toNat_byte (by omega)) (toNat_byte (by omega))
      (toNat_byte (by omega)) (toNat_byte (by omega))

theorem bytes_breakOff (found : List Piece) (begun : Bytes) :
    (breakOff found begun).reverse.flatMap Piece.bytes =
      found.reverse.flatMap Piece.bytes ++ begun := by
  rw [breakOff]
  cases begun with
  | nil => exact (List.append_nil _).symm
  | cons b begun =>
    simp [Piece.bytes]

/-- No byte is lost on the way to pieces. -/
theorem bytes_piecesAfter (found : List Piece) (h : Begun begun) (bytes : Bytes) :
    (piecesAfter found begun bytes).flatMap Piece.bytes =
      found.reverse.flatMap Piece.bytes ++ begun ++ bytes := by
  induction bytes generalizing found begun with
  | nil => rw [piecesAfter, bytes_breakOff, List.append_nil]
  | cons b bytes ih =>
    have hchar : ∀ {found : List Piece} {begun : Bytes} {c : Char}, Begun begun →
        progress (begun ++ [b]) = .complete c →
        (piecesAfter (.char c :: found) [] bytes).flatMap Piece.bytes =
          found.reverse.flatMap Piece.bytes ++ begun ++ b :: bytes := by
      intro found begun c h hb
      rw [ih _ begun_nil, List.reverse_cons, List.flatMap_append,
        List.flatMap_singleton, Piece.bytes, encodeChar_of_complete h hb]
      simp only [List.append_assoc, List.singleton_append]
    rw [piecesAfter]
    split
    · rename_i hb
      exact hchar h hb
    · rename_i hb
      rw [ih _ (h.push hb), List.append_assoc, List.append_assoc, List.append_assoc,
        List.singleton_append]
    · split
      · rename_i hb
        rw [hchar begun_nil hb, bytes_breakOff, List.append_nil]
      · rename_i hb
        rw [ih _ (show Begun [b] from hb), bytes_breakOff, List.append_assoc _ [b],
          List.singleton_append]
      · rw [ih _ begun_nil, List.reverse_cons, List.flatMap_append,
          List.flatMap_singleton, Piece.bytes, bytes_breakOff]
        simp only [List.append_assoc, List.singleton_append]

end

variable {bytes : Bytes} {t : Text}

theorem bytes_pieces (bytes : Bytes) : (pieces bytes).flatMap Piece.bytes = bytes := by
  rw [pieces, bytes_piecesAfter [] begun_nil]
  rfl

theorem breakOff_eq_append (found : List Piece) (begun : Bytes) :
    breakOff found begun = breakOff [] begun ++ found := by
  rw [breakOff, breakOff]
  split
  · rfl
  · rfl

/-- What has been found before has no influence on the pieces found after it. -/
theorem piecesAfter_eq_append (found : List Piece) (begun bytes : Bytes) :
    piecesAfter found begun bytes = found.reverse ++ piecesAfter [] begun bytes := by
  induction bytes generalizing found begun with
  | nil =>
    rw [piecesAfter, breakOff_eq_append, List.reverse_append]
    rfl
  | cons b bytes ih =>
    rw [piecesAfter, piecesAfter, breakOff_eq_append found]
    cases progress (begun ++ [b]) with
    | complete c =>
      dsimp only
      rw [ih (.char c :: found), ih [.char c], List.reverse_cons, List.append_assoc]
      rfl
    | partly => exact ih found (begun ++ [b])
    | none =>
      cases progress [b] with
      | complete c =>
        dsimp only
        rw [ih (.char c :: _), ih (.char c :: breakOff [] begun)]
        simp only [List.reverse_cons, List.reverse_append, List.append_assoc]
      | partly =>
        dsimp only
        rw [ih (_ ++ found), ih (breakOff [] begun), List.reverse_append, List.append_assoc]
      | none =>
        dsimp only
        rw [ih (.broken [b] :: _), ih (.broken [b] :: breakOff [] begun)]
        simp only [List.reverse_cons, List.reverse_append, List.append_assoc]

theorem pieces_encode_append (t : Text) (bytes : Bytes) :
    pieces (encode t ++ bytes) = t.map .char ++ pieces bytes := by
  induction t with
  | nil => rfl
  | cons c t ih =>
    rw [encode, List.flatMap_cons, List.append_assoc, pieces, piecesAfter_encodeChar,
      piecesAfter_eq_append]
    exact congrArg (Piece.char c :: ·) ih

theorem pieces_encode (t : Text) : pieces (encode t) = t.map .char := by
  rw [← List.append_nil (encode t), pieces_encode_append]
  exact List.append_nil _

theorem pieces_eq_iff : pieces bytes = t.map .char ↔ encode t = bytes := by
  constructor
  · intro h
    rw [← bytes_pieces bytes, h, List.flatMap_map]
    rfl
  · rintro rfl
    exact pieces_encode t

theorem characters?_eq_some_iff {ps : List Piece} : characters? ps = some t ↔ ps = t.map .char := by
  rw [characters?]
  constructor
  · intro h
    split at h
    · rename_i hall
      cases h
      induction ps with
      | nil => rfl
      | cons p ps ih =>
        rw [List.all_cons, Bool.and_eq_true] at hall
        cases p with
        | char c => exact congrArg (Piece.char c :: ·) (ih hall.2)
        | broken bytes => exact absurd hall.1 Bool.false_ne_true
    · cases h
  · rintro rfl
    simp [Piece.char?, List.filterMap_map, Function.comp_def]

theorem decode?_eq_some_iff : decode? bytes = some t ↔ encode t = bytes := by
  rw [decode?, characters?_eq_some_iff, pieces_eq_iff]

theorem decode?_encode (t : Text) : decode? (encode t) = some t :=
  decode?_eq_some_iff.2 rfl

theorem encodeChar_eq_utf8EncodeChar (c : Char) : encodeChar c = String.utf8EncodeChar c := by
  have hvalid := toNat_bounds c
  have hn : c.val.toNat = c.toNat := rfl
  simp only [String.utf8EncodeChar, hn]
  rcases Nat.lt_or_ge c.toNat 0x80 with h | h
  · rw [encodeChar_one h, if_pos (by omega)]
  rcases Nat.lt_or_ge c.toNat 0x800 with h' | h'
  · rw [encodeChar_two h h', if_neg (by omega), if_pos (by omega), Nat.add_comm 0xC0,
      Nat.add_comm 0x80, Nat.mod_eq_of_lt (by omega : c.toNat / 64 < 32)]
  rcases Nat.lt_or_ge c.toNat 0x10000 with h'' | h''
  · rw [encodeChar_three h' h'', if_neg (by omega), if_neg (by omega), if_pos (by omega),
      Nat.add_comm 0xE0, Nat.add_comm 0x80, Nat.add_comm 0x80,
      Nat.mod_eq_of_lt (by omega : c.toNat / 4096 < 16)]
  · rw [encodeChar_four h'', if_neg (by omega), if_neg (by omega), if_neg (by omega),
      Nat.add_comm 0xF0, Nat.add_comm 0x80, Nat.add_comm 0x80, Nat.add_comm 0x80,
      Nat.mod_eq_of_lt (by omega : c.toNat / 262144 < 8)]

theorem utf8Encode_eq_iff : t.utf8Encode = bytes.toByteArray ↔ encode t = bytes := by
  rw [List.utf8Encode, ← funext encodeChar_eq_utf8EncodeChar]
  constructor
  · intro h
    have hlist : (encode t).toByteArray.data.toList = bytes.toByteArray.data.toList :=
      congrArg (fun b : ByteArray => b.data.toList) h
    rwa [List.toList_data_toByteArray, List.toList_data_toByteArray] at hlist
  · rintro rfl
    rfl

theorem isValidUTF8_iff : bytes.toByteArray.IsValidUTF8 ↔ ∃ t, encode t = bytes := by
  constructor
  · rintro ⟨t, ht⟩
    exact ⟨t, utf8Encode_eq_iff.1 ht.symm⟩
  · rintro ⟨t, ht⟩
    exact ⟨t, (utf8Encode_eq_iff.2 ht).symm⟩

end RecordSheet.Utf8
