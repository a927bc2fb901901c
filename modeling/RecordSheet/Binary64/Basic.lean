namespace RecordSheet

namespace Binary64

def infinity : Nat :=
  2047 * Nat.pow 2 52

def one : Nat :=
  Nat.pow 2 1074

/--
The value of a magnitude in units of 2 to the power -1074. A magnitude is its own bit pattern, so
patterns are in the order of their values. Arithmetic is exact in units and rounds once.
-/
def units (m : Nat) : Nat :=
  if m < Nat.pow 2 52 then m
  else (Nat.pow 2 52 + m % Nat.pow 2 52) * Nat.pow 2 (m / Nat.pow 2 52 - 1)

def roundHalfEven (num den : Nat) : Nat :=
  let q := num / den
  let twice := 2 * (num % den)
  if twice < den ∨ (twice = den ∧ q % 2 = 0) then q else q + 1

/-- The magnitude nearest to a quotient, a half to the even one. -/
def ofRatio (num den : Nat) : Nat :=
  let n := num * one
  let scale := (n / den).log2 - 52
  scale * Nat.pow 2 52 + roundHalfEven n (den * Nat.pow 2 scale)

def ofNat (n : Nat) : Nat :=
  ofRatio n 1

def tenTo (k : Nat) : Nat :=
  ofNat (Nat.pow 10 k)

def add (a b : Nat) : Nat :=
  ofRatio (units a + units b) one

def mul (a b : Nat) : Nat :=
  ofRatio (units a * units b) (one * one)

def div (a b : Nat) : Nat :=
  ofRatio (units a) (units b)

end Binary64

/-- A finite number with its sign; zero has one too. -/
structure Binary64 where
  negative : Bool
  magnitude : Nat
  isFinite : magnitude < Binary64.infinity
  deriving DecidableEq, Repr

def Binary64.ofMagnitude? (negative : Bool) (magnitude : Nat) : Option Binary64 :=
  if h : magnitude < Binary64.infinity then some ⟨negative, magnitude, h⟩ else none

end RecordSheet
