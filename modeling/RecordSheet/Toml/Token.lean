import RecordSheet.Text.Utf8

namespace RecordSheet.Toml

inductive Quoting where
  | literal
  | basic
  | multilineLiteral
  | multilineBasic
  deriving DecidableEq, Repr

inductive Kind where
  | dot
  | equals
  | comma
  | openBracket
  | closeBracket
  | openBrace
  | closeBrace
  | space
  | comment
  | newline
  | quoted (quoting : Quoting)
  | bare
  | ending
  deriving DecidableEq, Repr

structure Token where
  kind : Kind
  start : Nat
  text : Text
  deriving DecidableEq, Repr

namespace Token

def stop (t : Token) : Nat :=
  t.start + Utf8.size t.text

def splitLiteral : Text → Text × Text
  | [] => ([], [])
  | c :: t =>
    if c = '\'' then ([c], t)
    else if c = '\n' then ([], c :: t)
    else
      let (taken, rest) := splitLiteral t
      (c :: taken, rest)

def splitBasic : Text → Text × Text
  | '\\' :: '\\' :: t =>
    let (taken, rest) := splitBasic t
    ('\\' :: '\\' :: taken, rest)
  | '\\' :: '"' :: t =>
    let (taken, rest) := splitBasic t
    ('\\' :: '"' :: taken, rest)
  | c :: t =>
    if c = '"' then ([c], t)
    else if c = '\n' then ([], c :: t)
    else
      let (taken, rest) := splitBasic t
      (c :: taken, rest)
  | [] => ([], [])

/-- Splits off up to two more quotes, which a closing delimiter may have before it. -/
def splitQuotes (quote : Char) : Text → Text × Text
  | c :: d :: t =>
    if c = quote ∧ d = quote then ([c, d], t)
    else if c = quote then ([c], d :: t)
    else ([], c :: d :: t)
  | [c] => if c = quote then ([c], []) else ([], [c])
  | [] => ([], [])

def splitMultilineLiteral : Text → Text × Text
  | '\'' :: '\'' :: '\'' :: t =>
    let (taken, rest) := splitQuotes '\'' t
    ('\'' :: '\'' :: '\'' :: taken, rest)
  | c :: t =>
    let (taken, rest) := splitMultilineLiteral t
    (c :: taken, rest)
  | [] => ([], [])

def splitMultilineBasic : Text → Text × Text
  | '\\' :: '\\' :: t =>
    let (taken, rest) := splitMultilineBasic t
    ('\\' :: '\\' :: taken, rest)
  | '\\' :: '"' :: t =>
    let (taken, rest) := splitMultilineBasic t
    ('\\' :: '"' :: taken, rest)
  | '"' :: '"' :: '"' :: t =>
    let (taken, rest) := splitQuotes '"' t
    ('"' :: '"' :: '"' :: taken, rest)
  | c :: t =>
    let (taken, rest) := splitMultilineBasic t
    (c :: taken, rest)
  | [] => ([], [])

def isBareEnd (c : Char) : Bool :=
  ".=,[]\x7b\x7d \t#\r\n".toList.contains c

def split (c : Char) (t : Text) : Kind × Text × Text :=
  match c with
  | '.' => (.dot, [c], t)
  | '=' => (.equals, [c], t)
  | ',' => (.comma, [c], t)
  | '[' => (.openBracket, [c], t)
  | ']' => (.closeBracket, [c], t)
  | '\x7b' => (.openBrace, [c], t)
  | '\x7d' => (.closeBrace, [c], t)
  | '\n' => (.newline, [c], t)
  | '\r' =>
    match t with
    | '\n' :: t => (.newline, ['\r', '\n'], t)
    | _ => (.newline, [c], t)
  | '#' =>
    (.comment, c :: t.takeWhile fun d => d != '\r' && d != '\n',
      t.dropWhile fun d => d != '\r' && d != '\n')
  | '\'' =>
    match t with
    | '\'' :: '\'' :: t =>
      let (taken, rest) := splitMultilineLiteral t
      (.quoted .multilineLiteral, '\'' :: '\'' :: '\'' :: taken, rest)
    | _ =>
      let (taken, rest) := splitLiteral t
      (.quoted .literal, c :: taken, rest)
  | '"' =>
    match t with
    | '"' :: '"' :: t =>
      let (taken, rest) := splitMultilineBasic t
      (.quoted .multilineBasic, '"' :: '"' :: '"' :: taken, rest)
    | _ =>
      let (taken, rest) := splitBasic t
      (.quoted .basic, c :: taken, rest)
  | _ =>
    if c = ' ' ∨ c = '\t' then
      (.space, c :: t.takeWhile fun d => d == ' ' || d == '\t',
        t.dropWhile fun d => d == ' ' || d == '\t')
    else (.bare, c :: t.takeWhile fun d => !isBareEnd d, t.dropWhile fun d => !isBareEnd d)

def listFrom (start : Nat) : (fuel : Nat) → Text → List Token
  | _, [] => [⟨.ending, start, []⟩]
  | 0, _ => [⟨.ending, start, []⟩]
  | fuel + 1, c :: t =>
    let (kind, taken, rest) := split c t
    ⟨kind, start, taken⟩ :: listFrom (start + Utf8.size taken) fuel rest

def list (source : Text) : List Token :=
  match source with
  | '\uFEFF' :: t => listFrom 3 t.length t
  | t => listFrom 0 t.length t

end Token

end RecordSheet.Toml
