import RecordSheet.Binary64.Basic
import RecordSheet.Text.Basic

namespace RecordSheet

/-- A whole number that a signed or an unsigned word of 64 bits holds. -/
structure Integer64 where
  value : Int
  fits : -0x8000000000000000 ≤ value ∧ value < 0x10000000000000000
  deriving DecidableEq, Repr

inductive Number where
  | integer (value : Integer64)
  | float (value : Binary64)
  deriving DecidableEq, Repr

inductive Json where
  | null
  | boolean (value : Bool)
  | number (value : Number)
  | string (value : Text)
  | array (items : List Json)
  | object (members : List (Text × Json))
  deriving Repr

namespace Json

/-- The members of an object after one is set: in its place if the key is there, else at the end. -/
def put (members : List (Text × Json)) (key : Text) (value : Json) : List (Text × Json) :=
  match members with
  | [] => [(key, value)]
  | (k, v) :: rest => if k = key then (k, value) :: rest else (k, v) :: put rest key value

def ofPairs (pairs : List (Text × Json)) : Json :=
  .object (pairs.foldl (fun members pair => put members pair.1 pair.2) [])

def field? (key : Text) : Json → Option Json
  | .object members => members.lookup key
  | _ => none

def text? : Json → Option Text
  | .string t => some t
  | _ => none

def kind : Json → Text
  | .null => "null".toList
  | .boolean _ => "a boolean".toList
  | .number _ => "a number".toList
  | .string _ => "a string".toList
  | .array _ => "an array".toList
  | .object _ => "an object".toList

/-- A count as a value; one beyond 64 bits counts as the largest word. -/
def ofCount (n : Nat) : Json :=
  .number (.integer ⟨min n 0xFFFFFFFFFFFFFFFF, by omega⟩)

end Json

end RecordSheet
