import RecordSheet.Json.Literal
import RecordSheet.Text.Utf8

namespace RecordSheet

namespace Json

open Utf8

inductive Cause where
  | endInArray
  | endInObject
  | endInString
  | endInValue
  | colonExpected
  | arrayCommaExpected
  | objectCommaExpected
  | wordExpected
  | valueExpected
  | invalidEscape
  | invalidNumber
  | outOfRange
  | invalidCharacter
  | controlCharacter
  | keyExpected
  | loneSurrogate
  | trailingComma
  | trailingCharacters
  | brokenSurrogates
  | tooDeep
  deriving DecidableEq, Repr

def Cause.message : Cause → Text
  | .endInArray => "EOF while parsing a list".toList
  | .endInObject => "EOF while parsing an object".toList
  | .endInString => "EOF while parsing a string".toList
  | .endInValue => "EOF while parsing a value".toList
  | .colonExpected => "expected `:`".toList
  | .arrayCommaExpected => "expected `,` or `]`".toList
  | .objectCommaExpected => "expected `,` or `\x7d`".toList
  | .wordExpected => "expected ident".toList
  | .valueExpected => "expected value".toList
  | .invalidEscape => "invalid escape".toList
  | .invalidNumber => "invalid number".toList
  | .outOfRange => "number out of range".toList
  | .invalidCharacter => "invalid unicode code point".toList
  | .controlCharacter => "control character (\\u0000-\\u001F) found while parsing a string".toList
  | .keyExpected => "key must be a string".toList
  | .loneSurrogate => "lone leading surrogate in hex escape".toList
  | .trailingComma => "trailing comma".toList
  | .trailingCharacters => "trailing characters".toList
  | .brokenSurrogates => "unexpected end of hex escape".toList
  | .tooDeep => "recursion limit exceeded".toList

/--
A cause, and the number of bytes behind the point where it is reported. A fault that is noticed by
looking at the next byte counts this byte, one about what has been taken does not.
-/
structure Fault where
  cause : Cause
  behind : Nat
  deriving DecidableEq, Repr

abbrev Rest := List Piece

abbrev Reading (α : Type) := α × Rest

def size (s : Rest) : Nat :=
  (s.flatMap Piece.bytes).length

def refuse {α : Type} (cause : Cause) (s : Rest) : Except Fault α :=
  .error ⟨cause, size s - 1⟩

def refuseOrEnd {α : Type} (cause ending : Cause) (s : Rest) : Except Fault α :=
  refuse (if s.isEmpty then ending else cause) s

def isSpace (p : Piece) : Bool :=
  p == .char ' ' || p == .char '\n' || p == .char '\t' || p == .char '\r'

def skipSpace (s : Rest) : Rest :=
  s.dropWhile isSpace

def splitDigits : Rest → Text × Rest
  | .char c :: s =>
    if c.isDigit then
      let (ds, r) := splitDigits s
      (c :: ds, r)
    else ([], .char c :: s)
  | s => ([], s)

def readWord (value : Json) : Text → Rest → Except Fault (Reading Json)
  | [], s => .ok (value, s)
  | c :: word, s =>
    match s with
    | p :: r => if p = .char c then readWord value word r else refuse .wordExpected s
    | [] => refuse .endInValue s

def readWhole (s : Rest) : Except Fault (Reading Text) :=
  match splitDigits s with
  | ([], _) => refuseOrEnd .invalidNumber .endInValue s
  | ('0' :: _ :: _, _) => refuse .invalidNumber (s.drop 1)
  | (ds, r) => .ok (ds, r)

def readFraction (s : Rest) : Except Fault (Reading (Option Text)) :=
  match s with
  | .char '.' :: s =>
    match splitDigits s with
    | ([], _) => refuseOrEnd .invalidNumber .endInValue s
    | (ds, r) => .ok (some ds, r)
  | s => .ok (none, s)

def readSign : Rest → Bool × Rest
  | .char '+' :: s => (false, s)
  | .char '-' :: s => (true, s)
  | s => (false, s)

def readExponent (s : Rest) : Except Fault (Reading (Option (Bool × Text))) :=
  match s with
  | .char c :: r =>
    if c = 'e' ∨ c = 'E' then
      let (negative, r) := readSign r
      match splitDigits r with
      | ([], _) => refuseOrEnd .invalidNumber .endInValue r
      | (ds, r) => .ok (some (negative, ds), r)
    else .ok (none, s)
  | s => .ok (none, s)

def readLiteral (negative : Bool) (s : Rest) : Except Fault (Reading Literal) := do
  let (whole, s) ← readWhole s
  let (fraction, s) ← readFraction s
  let (exponent, s) ← readExponent s
  .ok (⟨negative, whole, fraction, exponent⟩, s)

/--
Reads a number after its sign. One out of range is reported behind it, and behind as many bytes more
as have been looked at.
-/
def readNumber (lookahead : Nat) (negative : Bool) (s : Rest) : Except Fault (Reading Json) := do
  let (literal, s) ← readLiteral negative s
  match literal.number?, literal.unreadDigits? with
  | some n, _ => .ok (.number n, s)
  | none, some unread => .error ⟨.outOfRange, unread + size s⟩
  | none, none => .error ⟨.outOfRange, size s - lookahead⟩

def fourHex? (a b c d : Char) : Option Nat := do
  let a ← hexValue? a
  let b ← hexValue? b
  let c ← hexValue? c
  let d ← hexValue? d
  some (((a * 16 + b) * 16 + c) * 16 + d)

def readFourHex (s : Rest) : Except Fault (Reading Nat) :=
  let bad : Except Fault (Reading Nat) :=
    if size s < 4 then .error ⟨.endInString, 0⟩ else .error ⟨.invalidEscape, size s - 4⟩
  match s with
  | .char a :: .char b :: .char c :: .char d :: r =>
    match fourHex? a b c d with
    | some n => .ok (n, r)
    | none => bad
  | _ => bad

def readLowSurrogate (s : Rest) : Except Fault (Reading Nat) := do
  match s with
  | .char '\\' :: .char 'u' :: s =>
    let (n, r) ← readFourHex s
    if 0xDC00 ≤ n ∧ n < 0xE000 then .ok (n, r) else .error ⟨.loneSurrogate, size r⟩
  | .char '\\' :: s => refuseOrEnd .brokenSurrogates .endInString s
  | s => refuseOrEnd .brokenSurrogates .endInString s

def readUnit (s : Rest) : Except Fault (Reading Char) := do
  let (n, r) ← readFourHex s
  if 0xDC00 ≤ n ∧ n < 0xE000 then .error ⟨.loneSurrogate, size r⟩
  else if 0xD800 ≤ n ∧ n < 0xDC00 then
    let (m, r) ← readLowSurrogate r
    .ok (Char.ofNat (0x10000 + (n - 0xD800) * 0x400 + (m - 0xDC00)), r)
  else .ok (Char.ofNat n, r)

def escaped? (c : Char) : Option Char :=
  if c = '"' ∨ c = '\\' ∨ c = '/' then some c
  else if c = 'b' then some '\x08'
  else if c = 'f' then some '\x0c'
  else if c = 'n' then some '\n'
  else if c = 'r' then some '\r'
  else if c = 't' then some '\t'
  else none

def readEscape (s : Rest) : Except Fault (Reading Char) :=
  match s with
  | .char 'u' :: s => readUnit s
  | .char c :: r =>
    match escaped? c with
    | some e => .ok (e, r)
    | none => refuse .invalidEscape s
  | s => refuseOrEnd .invalidEscape .endInString s

/--
Reads a string after its first quote and what has been found of it, last character first. Bytes that
are no character are refused when the string ends, at the first of them.
-/
def readStringAfter (found : Except Fault Text) :
    (fuel : Nat) → Rest → Except Fault (Reading Text)
  | 0, s => refuse .endInString s
  | fuel + 1, s =>
    match s with
    | [] => refuse .endInString s
    | .broken _ :: r => readStringAfter (found.bind fun _ => refuse .invalidCharacter s) fuel r
    | .char c :: r =>
      if c = '"' then found.map fun t => (t.reverse, r)
      else if c = '\\' then
        match readEscape r with
        | .error fault => .error fault
        | .ok (e, r) => readStringAfter (found.map (e :: ·)) fuel r
      else if c.toNat < 0x20 then refuse .controlCharacter s
      else readStringAfter (found.map (c :: ·)) fuel r

/-- Reads a string after its first quote; more fuel than pieces is always enough. -/
def readString (fuel : Nat) (s : Rest) : Except Fault (Reading Text) :=
  readStringAfter (.ok []) fuel s

abbrev Reader (α : Type) := Rest → Except Fault (Reading α)

def readItemsAfter (item : Reader Json) (found : List Json) :
    (fuel : Nat) → Rest → Except Fault (Reading (List Json))
  | 0, s => refuse .endInArray s
  | fuel + 1, s =>
    match skipSpace s with
    | .char ']' :: r => .ok (found.reverse, r)
    | .char ',' :: r =>
      match skipSpace r with
      | [] => refuse .endInValue []
      | .char ']' :: r => refuse .trailingComma (.char ']' :: r)
      | r =>
        match item r with
        | .error fault => .error fault
        | .ok (j, r) => readItemsAfter item (j :: found) fuel r
    | r => refuseOrEnd .arrayCommaExpected .endInArray r

def readItems (fuel : Nat) (item : Reader Json) (s : Rest) : Except Fault (Reading (List Json)) :=
  match skipSpace s with
  | [] => refuse .endInArray []
  | .char ']' :: r => .ok ([], r)
  | r => do
    let (j, r) ← item r
    readItemsAfter item [j] fuel r

def readMember (fuel : Nat) (value : Reader Json) (s : Rest) :
    Except Fault (Reading (Text × Json)) := do
  let (key, s) ← readString fuel s
  match skipSpace s with
  | .char ':' :: r =>
    let (j, r) ← value r
    .ok ((key, j), r)
  | r => refuseOrEnd .colonExpected .endInObject r

def readMembersAfter (member : Reader (Text × Json)) (found : List (Text × Json)) :
    (fuel : Nat) → Rest → Except Fault (Reading (List (Text × Json)))
  | 0, s => refuse .endInObject s
  | fuel + 1, s =>
    match skipSpace s with
    | .char '\x7d' :: r => .ok (found.reverse, r)
    | .char ',' :: r =>
      match skipSpace r with
      | .char '"' :: r =>
        match member r with
        | .error fault => .error fault
        | .ok (m, r) => readMembersAfter member (m :: found) fuel r
      | .char '\x7d' :: r => refuse .trailingComma (.char '\x7d' :: r)
      | r => refuseOrEnd .keyExpected .endInValue r
    | r => refuseOrEnd .objectCommaExpected .endInObject r

def readMembers (fuel : Nat) (member : Reader (Text × Json)) (s : Rest) :
    Except Fault (Reading (List (Text × Json))) :=
  match skipSpace s with
  | .char '\x7d' :: r => .ok ([], r)
  | .char '"' :: r => do
    let (m, r) ← member r
    readMembersAfter member [m] fuel r
  | r => refuseOrEnd .keyExpected .endInObject r

/-- Reads a value, where `inner` reads those within it, or nothing may be within it. -/
def readValueWith (lookahead fuel : Nat) (inner : Option (Reader Json)) (s : Rest) :
    Except Fault (Reading Json) :=
  match skipSpace s with
  | [] => refuse .endInValue []
  | .char c :: r =>
    match c with
    | 'n' => readWord .null "ull".toList r
    | 't' => readWord (.boolean true) "rue".toList r
    | 'f' => readWord (.boolean false) "alse".toList r
    | '"' => do
      let (t, r) ← readString fuel r
      .ok (.string t, r)
    | '[' =>
      match inner with
      | none => refuse .tooDeep (.char c :: r)
      | some value => do
        let (items, r) ← readItems fuel value r
        .ok (.array items, r)
    | '\x7b' =>
      match inner with
      | none => refuse .tooDeep (.char c :: r)
      | some value => do
        let (members, r) ← readMembers fuel (readMember fuel value) r
        .ok (ofPairs members, r)
    | '-' => readNumber lookahead true r
    | _ =>
      if c.isDigit then readNumber lookahead false (.char c :: r)
      else refuse .valueExpected (.char c :: r)
  | r => refuse .valueExpected r

def readValue (lookahead fuel : Nat) : (room : Nat) → Rest → Except Fault (Reading Json)
  | 0 => readValueWith lookahead fuel none
  | room + 1 => readValueWith lookahead fuel (some (readValue lookahead fuel room))

def depthLimit : Nat :=
  127

def ofPieces (lookahead : Nat) (s : Rest) : Except Fault Json := do
  let (j, r) ← readValue lookahead (s.length + 1) depthLimit s
  match skipSpace r with
  | [] => .ok j
  | r => refuse .trailingCharacters r

def Fault.render (bytes : Bytes) (fault : Fault) : Text :=
  fault.cause.message ++ " at ".toList ++
    (Position.after (bytes.take (bytes.length - fault.behind))).render

def parse (t : Text) : Except Text Json :=
  (ofPieces 0 (t.map .char)).mapError (Fault.render (encode t))

/-- The value of a byte string as it comes in, where the byte that ends a number has been seen. -/
def parseBytes (bytes : Bytes) : Except Text Json :=
  (ofPieces 1 (pieces bytes)).mapError (Fault.render bytes)

end Json

end RecordSheet
