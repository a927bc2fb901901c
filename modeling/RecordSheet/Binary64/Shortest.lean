import RecordSheet.Binary64.Basic
import RecordSheet.Text.Basic

namespace RecordSheet

/-- A decimal number, as whole digits and the place of the last of them. -/
structure Decimal where
  digits : Nat
  exponent : Int
  deriving DecidableEq, Repr

namespace Decimal

def leading (d : Decimal) : Int :=
  d.exponent + (decimal d.digits).length - 1

/-- A decimal in positional notation, with at least one digit on both sides of the point. -/
def positional (d : Decimal) : Text :=
  let ds := decimal d.digits
  match d.exponent with
  | .ofNat k => ds ++ List.replicate k '0' ++ ['.', '0']
  | .negSucc k =>
    let padded := List.replicate (k + 2 - ds.length) '0' ++ ds
    padded.take (padded.length - (k + 1)) ++ '.' :: padded.drop (padded.length - (k + 1))

/-- A decimal with a point after its first digit and an exponent, which always has a sign. -/
def scientific (d : Decimal) : Text :=
  let ds := decimal d.digits
  let fraction := ds.drop 1
  let point := if fraction.isEmpty then [] else ['.']
  let sign := if d.leading < 0 then '-' else '+'
  ds.take 1 ++ point ++ fraction ++ 'e' :: sign :: decimal d.leading.natAbs

end Decimal

namespace Binary64

def placeNum (place : Int) : Nat :=
  Nat.pow 10 place.toNat * one

def placeDen (place : Int) : Nat :=
  Nat.pow 10 (-place).toNat

def leadingPlace (m : Nat) : Int :=
  (decimal (units m * placeDen (-324) / placeNum (-324))).length - 325

/-- Whether a quotient of units lies between the middles to the neighbours of a magnitude. -/
def readsBack (m num den : Nat) : Bool :=
  let low := (units (m - 1) + units m) * den
  let high := (units m + units (m + 1)) * den
  if m % 2 = 0 then low ≤ 2 * num && 2 * num ≤ high
  else low < 2 * num && 2 * num < high

/-- The hit of a magnitude on the grid of multiples of a power of ten, if there is one. -/
def hit? (m : Nat) (place : Int) : Option Decimal :=
  let num := placeNum place
  let den := placeDen place
  let below := units m * den / num
  let twice := 2 * (units m * den % num)
  let belowHits := readsBack m (below * num) den
  let aboveHits := readsBack m ((below + 1) * num) den
  let nearerBelow := twice < num || (twice == num && below % 2 == 0)
  if belowHits && (nearerBelow || !aboveHits) then some ⟨below, place⟩
  else if aboveHits then some ⟨below + 1, place⟩
  else none

/-- The hit on the first of some grids that has one; the first of them has the given place. -/
def firstHit (m : Nat) (place : Int) : Nat → Decimal
  | 0 => ⟨units m, 0⟩
  | grids + 1 => (hit? m place).getD (firstHit m (place - 1) grids)

/--
The shortest decimal that reads back as a magnitude; seventeen digits always suffice. On the grid of
the decimals with a given number of digits only the two neighbours of the value need a test. The first
grid with a hit wins, and on it the nearer hit, of two equally near ones the even one.
-/
def shortest (m : Nat) : Decimal :=
  if m = 0 then ⟨0, 0⟩
  else
    let d := firstHit m (leadingPlace m) 17
    if d.digits % 10 = 0 then ⟨d.digits / 10, d.exponent + 1⟩ else d

end Binary64

end RecordSheet
