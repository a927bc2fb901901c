import RecordSheet.Proofs.Json.Rest

namespace RecordSheet.Json

variable {fuel n : Nat} {c : Char} {s r r' : Rest}

section

variable {item : Reader Json}

theorem readItemsAfter_close (h : skipSpace s = .char ']' :: r) (found : List Json) :
    readItemsAfter item found (n + 1) s = .ok (found.reverse, r) := by
  simp only [readItemsAfter, h]

theorem readItemsAfter_comma (h : skipSpace s = .char ',' :: r)
    (hr : skipSpace r = .char c :: r') (hc : c ≠ ']') (found : List Json) :
    readItemsAfter item found (n + 1) s =
      item (.char c :: r') >>= fun p => readItemsAfter item (p.1 :: found) n p.2 := by
  simp only [readItemsAfter, h, hr]
  split
  · rename_i heq
    cases heq
  · rename_i heq
    cases heq
    exact absurd rfl hc
  · cases item (.char c :: r') with
    | error fault => rfl
    | ok p => rfl

theorem readItems_close (h : skipSpace s = .char ']' :: r) :
    readItems fuel item s = .ok ([], r) := by
  simp only [readItems, h]

theorem readItems_first (h : skipSpace s = .char c :: r) (hc : c ≠ ']') :
    readItems fuel item s =
      item (.char c :: r) >>= fun p => readItemsAfter item [p.1] fuel p.2 := by
  rw [readItems, h]
  split
  · rename_i heq
    cases heq
  · rename_i heq
    cases heq
    exact absurd rfl hc
  · rfl

end

section

variable {member : Reader (Text × Json)}

theorem readMembersAfter_close (h : skipSpace s = .char '\x7d' :: r)
    (found : List (Text × Json)) :
    readMembersAfter member found (n + 1) s = .ok (found.reverse, r) := by
  simp only [readMembersAfter, h]

theorem readMembersAfter_comma (h : skipSpace s = .char ',' :: r)
    (hr : skipSpace r = .char '"' :: r') (found : List (Text × Json)) :
    readMembersAfter member found (n + 1) s =
      member r' >>= fun p => readMembersAfter member (p.1 :: found) n p.2 := by
  simp only [readMembersAfter, h, hr]
  cases member r' with
  | error fault => rfl
  | ok p => rfl

theorem readMembers_close (h : skipSpace s = .char '\x7d' :: r) :
    readMembers fuel member s = .ok ([], r) := by
  simp only [readMembers, h]

theorem readMembers_first (h : skipSpace s = .char '"' :: r) :
    readMembers fuel member s =
      member r >>= fun p => readMembersAfter member [p.1] fuel p.2 := by
  simp only [readMembers, h]

end

end RecordSheet.Json
