import RecordSheet.Binary64.Shortest
import RecordSheet.Toml.DateTime
import RecordSheet.Toml.Quoted

namespace RecordSheet.Toml

inductive FloatValue where
  | finite (value : Binary64)
  | infinite (negative : Bool)
  | notANumber
  | overflow
  deriving DecidableEq, Repr

/-- A scalar. An integer is none if it is beyond all integer types. -/
inductive Scalar where
  | string (value : Text)
  | integer (value : Option Int)
  | float (value : FloatValue)
  | boolean (value : Bool)
  | dateTime
  deriving DecidableEq, Repr

inductive Radix where
  | hexadecimal
  | octal
  | binary
  deriving DecidableEq, Repr

namespace Radix

def base : Radix → Nat
  | .hexadecimal => 16
  | .octal => 8
  | .binary => 2

def letter : Radix → Char
  | .hexadecimal => 'x'
  | .octal => 'o'
  | .binary => 'b'

def invalid : Radix → String
  | .hexadecimal => "invalid hexadecimal number"
  | .octal => "invalid octal number"
  | .binary => "invalid binary number"

def ofLetter? (c : Char) : Option Radix :=
  [.hexadecimal, .octal, .binary].find? fun r => c.toLower == r.letter

def isDigit (r : Radix) (c : Char) : Bool :=
  (hexValue? c).any (· < r.base)

end Radix

namespace FloatValue

def magnitude (digits : Nat) (power : Int) : Nat :=
  let leading := (decimal digits).length + power
  if digits = 0 ∨ leading < -400 then 0
  else if 400 < leading then Binary64.infinity
  else Binary64.ofRatio (digits * Nat.pow 10 power.toNat) (Nat.pow 10 (-power).toNat)

def ofParts (negative : Bool) (whole fraction : Text) (exponent : Int) : FloatValue :=
  let m := magnitude (digitsValue (whole ++ fraction)) (exponent - fraction.length)
  match Binary64.ofMagnitude? negative m with
  | some x => .finite x
  | none => .overflow

def render : FloatValue → Text
  | .finite x =>
    let t := (Binary64.shortest x.magnitude).positional
    if x.negative then '-' :: t else t
  | .infinite false => "inf".toList
  | .infinite true => "-inf".toList
  | .notANumber => "NaN".toList
  | .overflow => []

end FloatValue

namespace Scalar

/-- A text that was probably meant to be a string. -/
def unquoted (token : Token) : Except Fault Scalar :=
  let t := token.text
  let opening (quote : String) : Except Fault Scalar :=
    .error (.point "missing opening quote" [.literal quote] token.start)
  if "'''".toList.isSuffixOf t then opening "'''"
  else if "\"\"\"".toList.isSuffixOf t then opening "\"\"\""
  else if "'".toList.isSuffixOf t then opening "'"
  else if "\"".toList.isSuffixOf t then opening "\""
  else
    .error (.stretch "string values must be quoted" [.description "literal string"]
      ⟨token.start, token.stop⟩)

def word (token : Token) (t symbol : Text) (reason : String) (value : Scalar) :
    Except Fault Scalar :=
  if t = symbol then .ok value
  else
    .error (.stretch reason [.literal (String.ofList symbol)] ⟨offsetOf token.stop t, token.stop⟩)

def wordOrUnquoted (token : Token) (symbol : Text) (reason : String) (value : Scalar) :
    Except Fault Scalar :=
  if token.text.contains ' ' && token.text != symbol then unquoted token
  else word token token.text symbol reason value

def checkUnderscores (stop : Stop) (isDigit : Char → Bool) (before : Option Char) :
    Text → Except Fault Unit
  | [] => .ok ()
  | c :: t =>
    if c = '_' && !(before.any isDigit && t.head?.any isDigit) then
      let start := offsetOf stop (c :: t)
      .error (.stretch "`_` may only go between digits" [] ⟨start, start + 1⟩)
    else checkUnderscores stop isDigit (some c) t

def withoutUnderscores (t : Text) : Text :=
  t.filter (· != '_')

def value? (isDigit : Char → Bool) (base : Nat) (t : Text) : Option Nat :=
  if t.isEmpty || !t.all isDigit then none
  else some (t.foldl (fun n c => n * base + (hexValue? c).getD 0) 0)

def checkLeadingZero (stop : Stop) (t : Text) : Except Fault Unit :=
  if t.head? = some '0' then
    let start := offsetOf stop t
    .error (.stretch "unexpected leading zero" [] ⟨start, start + 1⟩)
  else .ok ()

def readInteger (token : Token) (negative : Bool) (t : Text) : Except Fault Scalar := do
  checkUnderscores token.stop Char.isDigit none t
  let n := value? Char.isDigit 10 (withoutUnderscores t)
  .ok (.integer (n.map fun n => if negative then -n else n))

def takeDigits (stop : Stop) (reason : String) (zeroAllowed : Bool) (t : Text) :
    Except Fault (Text × Text) :=
  let taken := t.takeWhile fun c => c.isDigit || c == '_'
  let rest := t.dropWhile fun c => c.isDigit || c == '_'
  let digits := taken.filter Char.isDigit
  if digits.isEmpty then .error (.point reason [.description "digits"] (offsetOf stop t))
  else if 1 < digits.length && !zeroAllowed then do
    checkLeadingZero stop t
    .ok (digits, rest)
  else .ok (digits, rest)

def takeFraction (stop : Stop) : Text → Except Fault (Text × Text)
  | '.' :: t => takeDigits stop "invalid fraction" true t
  | t => .ok ([], t)

def takeExponent (stop : Stop) : Text → Except Fault (Int × Text)
  | c :: t =>
    if c = 'e' ∨ c = 'E' then
      match t with
      | '-' :: t => do
        let (ds, rest) ← takeDigits stop "invalid exponent" true t
        .ok (-digitsValue ds, rest)
      | '+' :: t => do
        let (ds, rest) ← takeDigits stop "invalid exponent" true t
        .ok (digitsValue ds, rest)
      | t => do
        let (ds, rest) ← takeDigits stop "invalid exponent" true t
        .ok (digitsValue ds, rest)
    else .ok (0, c :: t)
  | [] => .ok (0, [])

def readFloat (token : Token) (negative : Bool) (t : Text) : Except Fault Scalar := do
  let stop := token.stop
  let (whole, rest) ← takeDigits stop "invalid mantissa" false t
  let (fraction, rest) ← takeFraction stop rest
  let (exponent, rest) ← takeExponent stop rest
  if !rest.isEmpty then
    .error (.stretch "invalid float" [] ⟨offsetOf stop rest, stop⟩)
  else
    checkUnderscores stop Char.isDigit none t
    .ok (.float (FloatValue.ofParts negative whole fraction exponent))

def readNumberOrDate (token : Token) (negative : Bool) (t : Text) : Except Fault Scalar :=
  match t.dropWhile Char.isDigit with
  | [] => do
    if t != ['0'] then checkLeadingZero token.stop t
    readInteger token negative t
  | c :: rest =>
    if c = '-' ∨ c = ':' then
      match DateTime.check token.text with
      | .ok () => .ok .dateTime
      | .error problem => .error (.plain problem.message ⟨token.start, token.stop⟩)
    else if rest.contains ' ' || c = ' ' then unquoted token
    else if (c :: rest).any fun d => d == '.' || d == 'e' || d == 'E' then
      readFloat token negative t
    else if c = '_' then do
      checkLeadingZero token.stop t
      readInteger token negative t
    else unquoted token

def checkRadix (stop : Stop) (radix : Radix) : Text → Except Fault Unit
  | [] => .ok ()
  | c :: t =>
    if radix.isDigit c || c == '_' then checkRadix stop radix t
    else
      let start := offsetOf stop (c :: t)
      .error (.plain radix.invalid ⟨start, start⟩)

def checkUnsigned (token : Token) (signed : Bool) : Except Fault Unit :=
  if signed then
    .error (.stretch "integers with a radix cannot be signed" [] ⟨token.start, token.start + 1⟩)
  else .ok ()

def checkNoSign (stop : Stop) (t : Text) : Except Fault Unit :=
  match t with
  | c :: _ =>
    if c = '+' ∨ c = '-' then
      let start := offsetOf stop t
      .error (.stretch "unexpected sign" [] ⟨start, start + 1⟩)
    else .ok ()
  | [] => .ok ()

def readAfterZero (token : Token) (signed negative : Bool) (t : Text) : Except Fault Scalar :=
  let start := offsetOf token.stop t
  match t.drop 1 with
  | [] => readInteger token negative t
  | c :: digits =>
    match Radix.ofLetter? c with
    | some radix => do
      checkUnsigned token signed
      if c ≠ radix.letter then
        .error (.stretch "radix must be lowercase" [.literal (String.ofList ['0', radix.letter])]
          ⟨start, start + 2⟩)
      checkNoSign token.stop digits
      checkRadix token.stop radix digits
      checkUnderscores token.stop radix.isDigit none digits
      .ok (.integer ((value? radix.isDigit radix.base (withoutUnderscores digits)).map Int.ofNat))
    | none =>
      if c = 'd' ∨ c = 'D' then do
        checkUnsigned token signed
        .error (.stretch "redundant integer number prefix" [] ⟨start, start + 2⟩)
      else readNumberOrDate token negative t

def readAfterSign (token : Token) (negative : Bool) (t : Text) : Except Fault Scalar :=
  match t with
  | [] => unquoted token
  | c :: _ =>
    if c = '+' ∨ c = '-' then
      let start := offsetOf token.stop t
      .error (.stretch "redundant numeric sign" [] ⟨start, start + 1⟩)
    else if c = '0' then readAfterZero token true negative t
    else if c.isDigit ∨ c = '_' then readNumberOrDate token negative t
    else if c = '.' then readFloat token negative t
    else if c = 'i' ∨ c = 'I' then
      word token t "inf".toList "invalid float" (.float (.infinite negative))
    else if c = 'n' ∨ c = 'N' then
      word token t "nan".toList "invalid float" (.float .notANumber)
    else unquoted token

def readBare (token : Token) : Except Fault Scalar :=
  match token.text with
  | [] => unquoted token
  | c :: t =>
    if c = '+' then readAfterSign token false t
    else if c = '-' then readAfterSign token true t
    else if c = '0' then readAfterZero token false false (c :: t)
    else if c.isDigit ∨ c = '_' then readNumberOrDate token false (c :: t)
    else if c = '.' then readFloat token false (c :: t)
    else if c = 't' ∨ c = 'T' then
      wordOrUnquoted token "true".toList "invalid boolean" (.boolean true)
    else if c = 'f' ∨ c = 'F' then
      wordOrUnquoted token "false".toList "invalid boolean" (.boolean false)
    else if c = 'i' ∨ c = 'I' then
      wordOrUnquoted token "inf".toList "invalid float" (.float (.infinite false))
    else if c = 'n' ∨ c = 'N' then
      wordOrUnquoted token "nan".toList "invalid float" (.float .notANumber)
    else unquoted token

def read (token : Token) : Except Fault Scalar :=
  match token.kind with
  | .quoted quoting => (Quoted.read quoting token).map .string
  | _ => readBare token

end Scalar

end RecordSheet.Toml
