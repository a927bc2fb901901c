import RecordSheet.Json.Parser

namespace RecordSheet.Json

open Utf8

variable {α β : Type}

/-- Two faults are the same, or both are about a number out of range. -/
inductive Fault.Alike : Fault → Fault → Prop
  | same (fault : Fault) : Alike fault fault
  | outOfRange (m n : Nat) : Alike ⟨.outOfRange, m⟩ ⟨.outOfRange, n⟩

inductive Alike : Except Fault α → Except Fault α → Prop
  | ok (a : α) : Alike (.ok a) (.ok a)
  | error {fault fault' : Fault} (h : fault.Alike fault') : Alike (.error fault) (.error fault')

theorem Alike.same (x : Except Fault α) : Alike x x := by
  cases x with
  | ok a => exact .ok a
  | error fault => exact .error (.same fault)

theorem Alike.bind {x y : Except Fault α} {f g : α → Except Fault β} (h : Alike x y)
    (hfg : ∀ a, Alike (f a) (g a)) : Alike (x >>= f) (y >>= g) := by
  cases h with
  | ok a => exact hfg a
  | error h => exact .error h

def ReadsAlike (reader reader' : Reader α) : Prop :=
  ∀ s, Alike (reader s) (reader' s)

variable {la la' fuel : Nat}

theorem readsAlike_readNumber (la la' : Nat) (negative : Bool) :
    ReadsAlike (readNumber la negative) (readNumber la' negative) := by
  intro s
  apply (Alike.same (readLiteral negative s)).bind
  rintro ⟨l, s⟩
  dsimp only
  split
  · exact .same _
  · exact .same _
  · exact .error (.outOfRange _ _)

theorem readsAlike_readItemsAfter {item item' : Reader Json} (h : ReadsAlike item item')
    (found : List Json) (fuel : Nat) :
    ReadsAlike (readItemsAfter item found fuel) (readItemsAfter item' found fuel) := by
  induction fuel generalizing found with
  | zero => exact fun _ => .same _
  | succ fuel ih =>
    intro s
    rw [readItemsAfter, readItemsAfter]
    split
    · exact .same _
    · split
      · exact .same _
      · exact .same _
      · rename_i r _ _ _ _
        have hitem := h (skipSpace r)
        generalize item (skipSpace r) = x, item' (skipSpace r) = y at hitem ⊢
        cases hitem with
        | ok p => exact ih (p.1 :: found) p.2
        | error h => exact .error h
    · exact .same _

theorem readsAlike_readItems {item item' : Reader Json} (h : ReadsAlike item item') (fuel : Nat) :
    ReadsAlike (readItems fuel item) (readItems fuel item') := by
  intro s
  rw [readItems, readItems]
  split
  · exact .same _
  · exact .same _
  · exact (h _).bind fun p => readsAlike_readItemsAfter h [p.1] fuel p.2

theorem readsAlike_readMember {value value' : Reader Json} (h : ReadsAlike value value')
    (fuel : Nat) : ReadsAlike (readMember fuel value) (readMember fuel value') := by
  intro s
  apply (Alike.same (readString fuel s)).bind
  rintro ⟨key, s⟩
  dsimp only
  split
  · exact (h _).bind fun _ => .same _
  · exact .same _

theorem readsAlike_readMembersAfter {member member' : Reader (Text × Json)}
    (h : ReadsAlike member member') (found : List (Text × Json)) (fuel : Nat) :
    ReadsAlike (readMembersAfter member found fuel) (readMembersAfter member' found fuel) := by
  induction fuel generalizing found with
  | zero => exact fun _ => .same _
  | succ fuel ih =>
    intro s
    rw [readMembersAfter, readMembersAfter]
    split
    · exact .same _
    · split
      · rename_i r _
        have hmember := h r
        generalize member r = x, member' r = y at hmember ⊢
        cases hmember with
        | ok p => exact ih (p.1 :: found) p.2
        | error h => exact .error h
      · exact .same _
      · exact .same _
    · exact .same _

theorem readsAlike_readMembers {member member' : Reader (Text × Json)}
    (h : ReadsAlike member member') (fuel : Nat) :
    ReadsAlike (readMembers fuel member) (readMembers fuel member') := by
  intro s
  rw [readMembers, readMembers]
  split
  · exact .same _
  · exact (h _).bind fun p => readsAlike_readMembersAfter h [p.1] fuel p.2
  · exact .same _

theorem readsAlike_readValueWith {inner inner' : Option (Reader Json)}
    (h : Option.Rel ReadsAlike inner inner') :
    ReadsAlike (readValueWith la fuel inner) (readValueWith la' fuel inner') := by
  intro s
  rw [readValueWith, readValueWith]
  split
  · exact .same _
  · split
    · exact .same _
    · exact .same _
    · exact .same _
    · exact .same _
    · cases h with
      | none => exact .same _
      | some h => exact (readsAlike_readItems h fuel _).bind fun _ => .same _
    · cases h with
      | none => exact .same _
      | some h =>
        exact (readsAlike_readMembers (readsAlike_readMember h fuel) fuel _).bind fun _ => .same _
    · exact readsAlike_readNumber la la' true _
    · split
      · exact readsAlike_readNumber la la' false _
      · exact .same _
  · exact .same _

theorem readsAlike_readValue (room : Nat) :
    ReadsAlike (readValue la fuel room) (readValue la' fuel room) := by
  induction room with
  | zero => exact readsAlike_readValueWith .none
  | succ room ih => exact readsAlike_readValueWith (.some ih)

/-- What is read of a text depends on looking ahead only where a number is out of range. -/
theorem alike_ofPieces (la la' : Nat) (s : Rest) : Alike (ofPieces la s) (ofPieces la' s) :=
  (readsAlike_readValue depthLimit s).bind fun _ => .same _

example : ofPieces 0 ("1e309 ".toList.map .char) = .error ⟨.outOfRange, 1⟩ ∧
    ofPieces 1 ("1e309 ".toList.map .char) = .error ⟨.outOfRange, 0⟩ := by
  constructor
  · rfl
  · rfl

end RecordSheet.Json
