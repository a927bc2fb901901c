import RecordSheet.Toml.Document

namespace RecordSheet

def defaultOutput : Bytes :=
  Utf8.encode "ammattiryhma.csv".toList

structure Settings where
  output : Bytes
  input : Option Bytes
  deriving DecidableEq, Repr

namespace Settings

open Toml

def default : Settings :=
  ⟨defaultOutput, none⟩

def wrongType (found : String) (span : Span) : Fault :=
  .plain ("invalid type: " ++ found ++ ", expected path string") span

def describeInteger (n : Int) : Option String :=
  let digits := "integer `" ++ String.ofList (signedDecimal n) ++ "`"
  if -0x8000000000000000 ≤ n ∧ n < 0x10000000000000000 then some digits
  else if -Nat.pow 2 127 ≤ n ∧ n < Nat.pow 2 127 then some (digits ++ " as i128")
  else if 0 ≤ n ∧ n < Nat.pow 2 128 then some (digits ++ " as u128")
  else none

def checkNumber (span : Span) : Scalar → Except Fault Unit
  | .integer n =>
    if (n.bind describeInteger).isSome then .ok ()
    else .error (.plain "integer number overflowed" span)
  | .float .overflow => .error (.plain "floating-point number overflowed" span)
  | _ => .ok ()

def readPath (span : Span) : Value → Except Fault Bytes
  | .scalar (.string t) => .ok (Utf8.encode t)
  | .scalar s => do
    checkNumber span s
    match s with
    | .string t => .ok (Utf8.encode t)
    | .integer n => .error (wrongType ((n.bind describeInteger).getD "") span)
    | .float x =>
      .error (wrongType ("floating point `" ++ String.ofList x.render ++ "`") span)
    | .boolean true => .error (wrongType "boolean `true`" span)
    | .boolean false => .error (wrongType "boolean `false`" span)
    | .dateTime => .error (wrongType "map" span)
  | .array _ _ => .error (wrongType "sequence" span)
  | .table _ _ => .error (wrongType "map" span)

def insertSorted {α : Type} (e : Text × α) : List (Text × α) → List (Text × α)
  | [] => [e]
  | f :: es => if e.1 < f.1 then e :: f :: es else f :: insertSorted e es

def sorted {α : Type} (es : List (Text × α)) : List (Text × α) :=
  es.foldl (fun done e => insertSorted e done) []

mutual

def numbers (span : Span) : Value → List (Span × Scalar)
  | .scalar s => [(span, s)]
  | .array _ items => numbersOfItems items
  | .table _ entries => ((sorted (numbersOfEntries entries)).map Prod.snd).flatten

def numbersOfItems : List (Span × Value) → List (Span × Scalar)
  | [] => []
  | (span, v) :: items => numbers span v ++ numbersOfItems items

def numbersOfEntries : List (Text × Span × Value) → List (Text × List (Span × Scalar))
  | [] => []
  | (key, span, v) :: entries => (key, numbers span v) :: numbersOfEntries entries

end

def takeEntry (s : Settings) (e : Text × Span × Value) : Except Fault Settings :=
  let (key, span, v) := e
  if key = "output".toList then do
    let output ← readPath span v
    .ok { s with output }
  else if key = "input".toList then do
    let input ← readPath span v
    .ok { s with input := some input }
  else do
    (numbers span v).forM fun n => checkNumber n.1 n.2
    .ok s

def ofText (source : Text) : Except Fault Settings := do
  let entries ← Document.read source
  (sorted entries).foldlM takeEntry default

end Settings

end RecordSheet
