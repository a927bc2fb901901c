import RecordSheet.Json.Basic

namespace RecordSheet

structure Literal where
  negative : Bool
  whole : Text
  fraction : Option Text
  exponent : Option (Bool × Text)
  deriving DecidableEq, Repr

namespace Literal

def fractionDigits (l : Literal) : Text :=
  l.fraction.getD []

def exponentValue (l : Literal) : Int :=
  match l.exponent with
  | none => 0
  | some (true, ds) => -digitsValue ds
  | some (false, ds) => digitsValue ds

def digitValue (c : Char) : Nat :=
  c.toNat - 48

/-- The largest word that more and more digits make, and how many digits no longer fit. -/
def gather (word : Nat) : Text → Nat × Nat
  | [] => (word, 0)
  | d :: ds =>
    if word * 10 + digitValue d < 0x10000000000000000 then gather (word * 10 + digitValue d) ds
    else (word, ds.length + 1)

/--
The word of a literal and the power of ten it is to be multiplied by. Digits of the whole part that
do not fit raise the power, digits of the fraction that do not fit are dropped.
-/
def scaled (l : Literal) : Nat × Int :=
  let (whole, raised) := gather 0 l.whole
  let (word, dropped) := gather whole l.fractionDigits
  (word, raised - (l.fractionDigits.length - dropped : Nat) + l.exponentValue)

/-- A magnitude divided by a power of ten, in two steps if the power itself is not finite. -/
def divTenTo (m k : Nat) : Nat :=
  if k ≤ 308 then Binary64.div m (Binary64.tenTo k)
  else if k ≤ 616 then
    Binary64.div (Binary64.div m (Binary64.tenTo 308)) (Binary64.tenTo (k - 308))
  else 0

def magnitude (word : Nat) (power : Int) : Nat :=
  if power < 0 then divTenTo (Binary64.ofNat word) power.natAbs
  else if word = 0 then 0
  else if power ≤ 308 then Binary64.mul (Binary64.ofNat word) (Binary64.tenTo power.natAbs)
  else Binary64.infinity

def integer? (l : Literal) : Option Integer64 :=
  let n := digitsValue l.whole
  if l.fraction.isSome || l.exponent.isSome then none
  else if l.negative then
    if h : 0 < n ∧ n ≤ 0x8000000000000000 then some ⟨-n, by omega⟩ else none
  else if h : n < 0x10000000000000000 then some ⟨n, by omega⟩ else none

/--
The number of a literal, unless it is out of range. Without fraction and exponent it is exact, if it
fits a word of 64 bits. Any other is floating: a word of its leading digits is multiplied or divided
once by a power of ten, each step rounded by itself.
-/
def number? (l : Literal) : Option Number :=
  match l.integer? with
  | some n => some (.integer n)
  | none =>
    let (word, power) := l.scaled
    (Binary64.ofMagnitude? l.negative (magnitude word power)).map .float

def digitsBeyond (limit value : Nat) : Text → Option Nat
  | [] => none
  | d :: ds =>
    let value := value * 10 + digitValue d
    if limit < value then some ds.length else digitsBeyond limit value ds

/--
How many digits of the exponent follow the one that makes it pass 32 bits, where that alone puts the
literal out of range.
-/
def unreadDigits? (l : Literal) : Option Nat :=
  match l.exponent with
  | some (false, ds) => if l.scaled.1 = 0 then none else digitsBeyond 0x7FFFFFFF 0 ds
  | _ => none

end Literal

end RecordSheet
