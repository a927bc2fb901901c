namespace RecordSheet

abbrev Text := List Char

abbrev Bytes := List UInt8

def decimal (n : Nat) : Text :=
  Nat.toDigits 10 n

def signedDecimal (z : Int) : Text :=
  if z < 0 then '-' :: decimal z.natAbs else decimal z.natAbs

def digitsValue (ds : Text) : Nat :=
  Nat.ofDigitChars 10 ds 0

def rightAligned (width : Nat) (t : Text) : Text :=
  List.replicate (width - t.length) ' ' ++ t

def hexDigit (n : Nat) : Char :=
  Nat.digitChar n

def hexValue? (c : Char) : Option Nat :=
  if '0' ≤ c ∧ c ≤ '9' then some (c.toNat - 48)
  else if 'a' ≤ c ∧ c ≤ 'f' then some (c.toNat - 87)
  else if 'A' ≤ c ∧ c ≤ 'F' then some (c.toNat - 55)
  else none

def joinWith (between : Text) : List Text → Text
  | [] => []
  | [t] => t
  | t :: ts => t ++ between ++ joinWith between ts

theorem digitsValue_decimal (n : Nat) : digitsValue (decimal n) = n :=
  Nat.ofDigitChars_ten_toDigits

theorem decimal_ne_nil (n : Nat) : decimal n ≠ [] :=
  Nat.toDigits_ne_nil

theorem isDigit_of_mem_decimal {n : Nat} {c : Char} (h : c ∈ decimal n) : c.isDigit :=
  Nat.isDigit_of_mem_toDigits (by decide) (by decide) h

theorem joinWith_cons (between t : Text) (ts : List Text) :
    joinWith between (t :: ts) = t ++ ts.flatMap (between ++ ·) := by
  induction ts generalizing t with
  | nil => simp [joinWith]
  | cons u ts ih => simp only [joinWith, ih, List.flatMap_cons, List.append_assoc]

/-- A line, counted from one, and the number of its bytes that lie behind. -/
structure Position where
  line : Nat
  column : Nat
  deriving DecidableEq, Repr

namespace Position

def advance (p : Position) (b : UInt8) : Position :=
  if b = 10 then ⟨p.line + 1, 0⟩ else ⟨p.line, p.column + 1⟩

def after (taken : Bytes) : Position :=
  taken.foldl advance ⟨1, 0⟩

def render (p : Position) : Text :=
  "line ".toList ++ decimal p.line ++ " column ".toList ++ decimal p.column

end Position

end RecordSheet
