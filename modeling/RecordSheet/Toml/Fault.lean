import RecordSheet.Text.Utf8

namespace RecordSheet.Toml

structure Span where
  start : Nat
  stop : Nat
  deriving DecidableEq, Repr

inductive Expected where
  | literal (text : String)
  | description (text : String)
  deriving DecidableEq, Repr

structure Fault where
  reason : String
  expected : Option (List Expected)
  span : Option Span
  deriving DecidableEq, Repr

def Expected.render : Expected → Text
  | .literal text => if text = "\n" then "newline".toList else '`' :: text.toList ++ ['`']
  | .description text => text.toList

namespace Fault

def point (reason : String) (expected : List Expected) (offset : Nat) : Fault :=
  ⟨reason, some expected, some ⟨offset, offset⟩⟩

def stretch (reason : String) (expected : List Expected) (span : Span) : Fault :=
  ⟨reason, some expected, some span⟩

def plain (reason : String) (span : Span) : Fault :=
  ⟨reason, none, some span⟩

def message (f : Fault) : Text :=
  match f.expected with
  | none => f.reason.toList
  | some [] => f.reason.toList ++ ", expected nothing".toList
  | some es => f.reason.toList ++ ", expected ".toList ++ joinWith ", ".toList (es.map (·.render))

end Fault

def lines : Text → List Text
  | [] => [[]]
  | c :: t =>
    match lines t with
    | [] => [[c]]
    | l :: ls => if c = '\n' then [] :: l :: ls else (c :: l) :: ls

def charsBefore (offset : Nat) : Text → Text
  | [] => []
  | c :: t => if offset = 0 then [] else c :: charsBefore (offset - (Utf8.encodeChar c).length) t

/--
The line and the column of a byte offset, both counted from zero. Columns count characters, but
bytes where the offset is at the first of several bytes of a character; the end of the document is
one column past its last byte.
-/
def place (source : Text) (offset : Nat) : Nat × Nat :=
  if source.isEmpty then (0, offset)
  else
    let safe := min offset (Utf8.size source - 1)
    let before := charsBefore safe source
    let lastLine := (lines before).getLastD []
    let next := source.drop before.length
    let severalBytes := Utf8.size before = safe && 1 < Utf8.size (next.take 1)
    let column := if severalBytes then Utf8.size lastLine else lastLine.length
    let column := if Utf8.size before = safe then column else column - 1
    ((lines before).length - 1, column + (offset - safe))

def Fault.render (source : Text) (f : Fault) : Text :=
  match f.span with
  | none => f.message ++ ['\n']
  | some span =>
    let (line, column) := place source span.start
    let number := decimal (line + 1)
    let gutter := List.replicate (number.length + 1) ' '
    let content := (lines source).getD line []
    let width := min (span.stop - span.start) (Utf8.size content - column)
    "TOML parse error at line ".toList ++ number ++ ", column ".toList ++ decimal (column + 1) ++
      '\n' :: gutter ++ "|\n".toList ++
      number ++ " | ".toList ++ content ++ '\n' ::
      gutter ++ '|' :: List.replicate (column + 1) ' ' ++ List.replicate (max 1 width) '^' ++
      '\n' :: f.message ++ ['\n']

end RecordSheet.Toml
