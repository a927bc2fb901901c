import RecordSheet.Toml.Fault
import RecordSheet.Toml.Token

namespace RecordSheet.Toml

/-- Where a stretch of text ends, to tell the offsets of what is left of it. -/
abbrev Stop := Nat

def offsetOf (stop : Stop) (rest : Text) : Nat :=
  stop - Utf8.size rest

def stripEnd? (ending t : Text) : Option Text :=
  if ending.isSuffixOf t then some (t.take (t.length - ending.length)) else none

def stripNewline : Text → Text
  | '\r' :: '\n' :: t => t
  | '\n' :: t => t
  | t => t

def isPlain (c : Char) : Bool :=
  c == '\t' || (0x20 ≤ c.toNat && c.toNat != 0x7F)

def loneReturn (offset : Nat) : Fault :=
  .point "carriage return must be followed by newline" [.literal "\n"] offset

namespace Quoted

def checkLiteral (stop : Stop) : Text → Except Fault Unit
  | [] => .ok ()
  | c :: t =>
    if isPlain c && c != '\'' then checkLiteral stop t
    else
      .error (.point "invalid literal string"
        [.description "non-single-quote visible characters"] (offsetOf stop (c :: t)))

def checkMultilineLiteral (stop : Stop) : Text → Except Fault Unit
  | [] => .ok ()
  | '\r' :: '\n' :: t => checkMultilineLiteral stop t
  | c :: t =>
    if c = '\r' then .error (loneReturn (offsetOf stop t))
    else if isPlain c || c == '\n' then checkMultilineLiteral stop t
    else
      .error (.point "invalid multi-line literal string"
        [.description "non-single-quote characters"] (offsetOf stop (c :: t)))

def escapeLetters : List Expected :=
  ["b", "e", "f", "n", "r", "\\", "\"", "x", "u", "U"].map .literal

def readHex (stop : Stop) (count : Nat) (t : Text) : Except Fault (Char × Text) :=
  let digits := (t.take count).takeWhile fun c => (hexValue? c).isSome
  let rest := t.drop digits.length
  let expected : List Expected := [.description "unicode hexadecimal value"]
  if digits.length < count then
    .error (.point "too few unicode value digits" expected (offsetOf stop rest))
  else
    let n := digits.foldl (fun n c => n * 16 + (hexValue? c).getD 0) 0
    if n < 0xD800 ∨ (0xE000 ≤ n ∧ n < 0x110000) then .ok (Char.ofNat n, rest)
    else .error (.point "invalid value" expected (offsetOf stop t))

def readEscape (stop : Stop) (t : Text) : Except Fault (Char × Text) :=
  match t with
  | [] => missing
  | c :: r =>
    match c with
    | 'b' => .ok ('\x08', r)
    | 'e' => .ok ('\x1b', r)
    | 'f' => .ok ('\x0c', r)
    | 'n' => .ok ('\n', r)
    | 'r' => .ok ('\r', r)
    | 't' => .ok ('\t', r)
    | '\\' => .ok ('\\', r)
    | '"' => .ok ('"', r)
    | 'x' => readHex stop 2 r
    | 'u' => readHex stop 4 r
    | 'U' => readHex stop 8 r
    | _ => missing
where
  missing : Except Fault (Char × Text) :=
    .error (.point "missing escaped value" escapeLetters (offsetOf stop t))

def badStretch (stop : Stop) (bad : Char → Bool) (t : Text) : Span :=
  ⟨offsetOf stop t, offsetOf stop (t.dropWhile bad)⟩

def readBasic (stop : Stop) : (fuel : Nat) → Text → Except Fault Text
  | 0, _ => .ok []
  | _, [] => .ok []
  | fuel + 1, c :: t =>
    if c = '\\' then do
      let (e, t) ← readEscape stop t
      let rest ← readBasic stop fuel t
      .ok (e :: rest)
    else if isPlain c && c != '"' then do
      let rest ← readBasic stop fuel t
      .ok (c :: rest)
    else
      .error (.stretch "invalid basic string"
        [.description "non-double-quote visible characters", .literal "\\"]
        (badStretch stop (fun c => c == '"' || !isPlain c) (c :: t)))

def skipBlank (stop : Stop) : Text → Except Fault Text
  | [] => .ok []
  | '\r' :: '\n' :: t => skipBlank stop t
  | c :: t =>
    if c = '\r' then .error (loneReturn (offsetOf stop t))
    else if c = ' ' ∨ c = '\t' ∨ c = '\n' then skipBlank stop t
    else .ok (c :: t)

def skipEscapedNewline (stop : Stop) (t : Text) : Except Fault Text :=
  match t.dropWhile fun c => c == ' ' || c == '\t' with
  | '\n' :: t => skipBlank stop t
  | '\r' :: '\n' :: t => skipBlank stop t
  | '\r' :: t => .error (loneReturn (offsetOf stop t))
  | t => .error (.point "invalid multi-line basic string" [.literal "\n"] (offsetOf stop t))

/-- Whether the rest after a backslash is the end of a line, or might be meant to be. -/
def isLineEnd (t : Text) : Bool :=
  t.head?.any fun c => c == ' ' || c == '\t' || c == '\r' || c == '\n'

def readMultilineBasic (stop : Stop) : (fuel : Nat) → Text → Except Fault Text
  | 0, _ => .ok []
  | _, [] => .ok []
  | fuel + 1, c :: t =>
    if c = '\\' then
      if isLineEnd t then do
        let t ← skipEscapedNewline stop t
        readMultilineBasic stop fuel t
      else do
        let (e, t) ← readEscape stop t
        let rest ← readMultilineBasic stop fuel t
        .ok (e :: rest)
    else if c = '\r' then
      match t with
      | '\n' :: t => do
        let rest ← readMultilineBasic stop fuel t
        .ok ('\r' :: '\n' :: rest)
      | t => .error (loneReturn (offsetOf stop t))
    else if isPlain c || c == '\n' then do
      let rest ← readMultilineBasic stop fuel t
      .ok (c :: rest)
    else
      .error (.stretch "invalid multi-line basic string" [.literal "\\", .description "characters"]
        (badStretch stop (fun c => c != '\r' && c != '\n' && !isPlain c) (c :: t)))

def read (quoting : Quoting) (token : Token) : Except Fault Text :=
  match quoting with
  | .literal =>
    match stripEnd? ['\''] (token.text.drop 1) with
    | none => .error (.point "invalid literal string" [.literal "'"] token.stop)
    | some t => do
      checkLiteral (token.stop - 1) t
      .ok t
  | .basic =>
    match stripEnd? ['"'] (token.text.drop 1) with
    | none => .error (.point "invalid basic string" [.literal "\""] token.stop)
    | some t => readBasic (token.stop - 1) t.length t
  | .multilineLiteral =>
    match stripEnd? "'''".toList (stripNewline (token.text.drop 3)) with
    | none => .error (.point "invalid multi-line literal string" [.literal "'"] token.stop)
    | some t => do
      checkMultilineLiteral (token.stop - 3) t
      .ok t
  | .multilineBasic =>
    match stripEnd? "\"\"\"".toList (stripNewline (token.text.drop 3)) with
    | none => .error (.point "invalid multi-line basic string" [.literal "\""] token.stop)
    | some t => readMultilineBasic (token.stop - 3) t.length t

end Quoted

namespace Key

def isBare (c : Char) : Bool :=
  c.isAlphanum || c == '-' || c == '_'

def bareExpected : List Expected :=
  [.description "letters", .description "numbers", .literal "-", .literal "_"]

def checkBare (stop : Stop) : Text → Except Fault Unit
  | [] => .ok ()
  | c :: t =>
    if isBare c then checkBare stop t
    else .error (.point "invalid unquoted key" bareExpected (offsetOf stop (c :: t)))

def multiline (reason : String) (token : Token) : Except Fault Text :=
  .error (.stretch reason [.description "basic string", .description "literal string"]
    ⟨token.start, token.stop⟩)

def read (token : Token) : Except Fault Text :=
  match token.kind with
  | .quoted .multilineLiteral => multiline "keys cannot be multi-line literal strings" token
  | .quoted .multilineBasic => multiline "keys cannot be multi-line basic strings" token
  | .quoted quoting => Quoted.read quoting token
  | _ =>
    if token.text.isEmpty then
      .error (.point "unquoted keys cannot be empty" bareExpected token.start)
    else do
      checkBare token.stop token.text
      .ok token.text

end Key

end RecordSheet.Toml
