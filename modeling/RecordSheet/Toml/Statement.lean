import RecordSheet.Toml.Fault
import RecordSheet.Toml.Token

namespace RecordSheet.Toml

inductive Expr where
  | scalar (token : Token)
  | array (span : Span) (items : List Expr)
  | inlineTable (span : Span) (pairs : List (List Token × Expr))
  deriving Repr

/--
A line of a document: a key with a value, or the header of a table or of one more of several. Keys and
scalars are still as they are written; a missing one is an empty bare token, refused later on.
-/
inductive Statement where
  | pair (key : List Token) (value : Expr)
  | header (ofSeveral : Bool) (key : List Token) (span : Span)
  deriving Repr

namespace Statement

def missing (t : Token) : Token :=
  ⟨.bare, t.start, []⟩

def isKeyPart (t : Token) : Bool :=
  match t.kind with
  | .bare => true
  | .quoted _ => true
  | _ => false

def isScalarStart (t : Token) : Bool :=
  isKeyPart t || t.kind == .dot

def isBlank (t : Token) : Bool :=
  match t.kind with
  | .space => true
  | .comment => true
  | .newline => true
  | _ => false

def skipSpace : List Token → List Token
  | t :: ts => if t.kind = .space then ts else t :: ts
  | [] => []

def badInComment? (offset : Nat) : Text → Option Nat
  | [] => none
  | c :: t =>
    if c = '\t' ∨ (0x20 ≤ c.toNat ∧ c.toNat ≠ 0x7F) then
      badInComment? (offset + (Utf8.encodeChar c).length) t
    else some offset

def checkBlank (t : Token) : Except Fault Unit :=
  match t.kind with
  | .comment =>
    match badInComment? t.start t.text with
    | none => .ok ()
    | some offset =>
      .error (.point "invalid comment character" [.description "printable characters"] offset)
  | .newline =>
    if t.text = ['\r'] then
      .error (.point "carriage return must be followed by newline" [.literal "\n"] t.stop)
    else .ok ()
  | _ => .ok ()

def readLineEnd : List Token → Except Fault (List Token)
  | [] => .ok []
  | t :: ts => do
    checkBlank t
    match t.kind with
    | .space => readLineEnd ts
    | .comment => readLineEnd ts
    | .newline => .ok ts
    | .ending => .ok (t :: ts)
    | _ =>
      .error (.point "unexpected key or value" [.literal "\n", .literal "#"] t.start)

def skipLine : List Token → Except Fault (List Token)
  | [] => .ok []
  | t :: ts => do
    checkBlank t
    match t.kind with
    | .newline => .ok ts
    | .ending => .ok (t :: ts)
    | _ => skipLine ts

/--
Reads a key, part by part, after the parts found so far; `needed` tells whether a part has to
follow. Tells as well whether no part is missing at the end.
-/
def readKeyAfter (found : List Token) (needed : Bool) :
    List Token → List Token × Bool × List Token
  | [] => (found.reverse, true, [])
  | t :: ts =>
    if t.kind = .space then readKeyAfter found needed ts
    else if needed then
      if isKeyPart t then readKeyAfter (t :: found) false ts
      else if t.kind = .dot then readKeyAfter (missing t :: found) true ts
      else ((missing t :: found).reverse, false, t :: ts)
    else if t.kind = .dot then readKeyAfter found true ts
    else (found.reverse, true, t :: ts)

def readKey : List Token → List Token × Bool × List Token :=
  readKeyAfter [] true

def splitBare : List Token → Text × List Token
  | t :: u :: ts =>
    if t.kind = .bare ∨ t.kind = .dot then
      let (taken, rest) := splitBare (u :: ts)
      (t.text ++ taken, rest)
    else if t.kind = .space ∧ u.kind = .bare then
      let (taken, rest) := splitBare (u :: ts)
      (t.text ++ taken, rest)
    else ([], t :: u :: ts)
  | [t] => if t.kind = .bare ∨ t.kind = .dot then (t.text, []) else ([], [t])
  | [] => ([], [])

def readScalar (t : Token) (ts : List Token) : Expr × List Token :=
  match t.kind with
  | .quoted _ => (.scalar t, ts)
  | _ =>
    let (taken, rest) := splitBare (t :: ts)
    (.scalar ⟨.bare, t.start, taken⟩, rest)

abbrev Reader := List Token → Except Fault (Expr × List Token)

def lastStop (source : List Token) : Nat :=
  ((source.filter fun t => !isBlank t && t.kind != .ending).getLast?.map Token.stop).getD 0

def readItems (last : Nat) (value : Reader) (found : List Expr) (needed : Bool) :
    (fuel : Nat) → List Token → Except Fault (List Expr × Nat × List Token)
  | 0, _ => .error (.point "unclosed array" [.literal "]"] last)
  | _, [] => .error (.point "unclosed array" [.literal "]"] last)
  | fuel + 1, t :: ts => do
    checkBlank t
    match t.kind with
    | .space => readItems last value found needed fuel ts
    | .comment => readItems last value found needed fuel ts
    | .newline => readItems last value found needed fuel ts
    | .ending => .error (.point "unclosed array" [.literal "]"] last)
    | .closeBracket => .ok (found.reverse, t.stop, ts)
    | .comma =>
      if needed then .error (.point "extra comma in array" [.description "value"] t.start)
      else readItems last value found true fuel ts
    | .equals =>
      .error (.point "unexpected `=` in array" [.description "value", .literal "]"] t.start)
    | _ =>
      if needed then
        let (item, ts) ← value (t :: ts)
        readItems last value (item :: found) false fuel ts
      else .error (.point "missing comma between array elements" [.literal ","] t.start)

/-- What an inline table needs next; a key is kept until its value is there. -/
inductive Need where
  | key
  | equals (key : List Token)
  | value (key : List Token)
  | comma
  deriving Repr

def Need.expected : Need → Expected
  | .key => .description "key"
  | .equals _ => .literal "="
  | .value _ => .description "value"
  | .comma => .literal ","

def misplaced (need : Need) (t : Token) : Fault :=
  let reason :=
    match t.kind, need with
    | .comma, _ => "extra comma in inline table"
    | .equals, _ => "extra assignment between key-value pairs"
    | _, .equals _ => "missing assignment between key-value pairs"
    | .openBrace, _ => "missing key for inline table element"
    | .openBracket, _ => "missing key for inline table element"
    | .closeBracket, _ => "missing array opening"
    | _, _ => "missing comma between key-value pairs"
  let expected :=
    match t.kind, need with
    | .closeBracket, .equals _ => need.expected
    | .closeBracket, _ => .literal "["
    | _, _ => need.expected
  .point reason [expected] t.start

def readPairs (last : Nat) (value : Reader) (found : List (List Token × Expr)) (need : Need) :
    (fuel : Nat) → List Token → Except Fault (List (List Token × Expr) × Nat × List Token)
  | 0, _ => .error (.point "unclosed inline table" [.literal "\x7d"] last)
  | _, [] => .error (.point "unclosed inline table" [.literal "\x7d"] last)
  | fuel + 1, t :: ts => do
    checkBlank t
    if isBlank t then readPairs last value found need fuel ts
    else if t.kind = .ending then
      .error (.point "unclosed inline table" [.literal "\x7d"] last)
    else
      match need with
      | .key =>
        if t.kind = .closeBrace then .ok (found.reverse, t.stop, ts)
        else if isScalarStart t || t.kind = .equals then
          let (key, _, ts) := readKey (t :: ts)
          readPairs last value found (.equals key) fuel ts
        else .error (misplaced need t)
      | .equals key =>
        if t.kind = .equals then readPairs last value found (.value key) fuel ts
        else .error (misplaced need t)
      | .value key =>
        if t.kind = .closeBrace then
          .ok (((key, .scalar (missing t)) :: found).reverse, t.stop, ts)
        else if isScalarStart t || t.kind = .openBrace || t.kind = .openBracket then
          let (item, ts) ← value (t :: ts)
          readPairs last value ((key, item) :: found) .comma fuel ts
        else .error (misplaced need t)
      | .comma =>
        if t.kind = .closeBrace then .ok (found.reverse, t.stop, ts)
        else if t.kind = .comma then readPairs last value found .key fuel ts
        else .error (misplaced need t)

/-- Reads a value, where `inner` reads those within it, or nothing may be within it. -/
def readValueWith (last : Nat) (inner : Option Reader) : Reader
  | [] => .ok (.scalar ⟨.bare, last, []⟩, [])
  | t :: ts =>
    let tooDeep : Except Fault (Expr × List Token) :=
      .error (.plain "cannot recurse further; max recursion depth met" ⟨t.start, t.stop⟩)
    match t.kind with
    | .equals => .error (.point "extra `=`" [] t.start)
    | .openBracket =>
      match inner with
      | none => tooDeep
      | some value => do
        let (items, stop, ts) ← readItems last value [] true (ts.length + 1) ts
        .ok (.array ⟨t.start, stop⟩ items, ts)
    | .openBrace =>
      match inner with
      | none => tooDeep
      | some value => do
        let (pairs, stop, ts) ← readPairs last value [] .key (ts.length + 1) ts
        .ok (.inlineTable ⟨t.start, stop⟩ pairs, ts)
    | .closeBracket => .error (.point "missing array opening" [.literal "["] t.start)
    | .closeBrace => .error (.point "missing inline table opening" [.literal "\x7b"] t.start)
    | _ =>
      if isScalarStart t then .ok (readScalar t ts)
      else .ok (.scalar (missing t), t :: ts)

def readValue (last : Nat) : (room : Nat) → Reader
  | 0 => readValueWith last none
  | room + 1 => readValueWith last (some (readValue last room))

def depthLimit : Nat :=
  80

def readPair (last : Nat) (ts : List Token) : Except Fault (Statement × List Token) :=
  let (key, _, rest) := readKey ts
  match rest with
  | t :: ts => do
    if t.kind = .equals then
      let (value, ts) ← readValue last depthLimit (skipSpace ts)
      let ts ← readLineEnd ts
      .ok (.pair key value, ts)
    else .error (.point "key with no value" [.literal "="] t.start)
  | [] => .error (.point "key with no value" [.literal "="] last)

def takeBracket : List Token → Bool × List Token
  | t :: ts => if t.kind = .openBracket then (true, ts) else (false, t :: ts)
  | [] => (false, [])

def takeClosing (ofSeveral : Bool) (keyStop : Nat) :
    List Token → Except Fault (Nat × List Token)
  | t :: u :: ts =>
    if t.kind ≠ .closeBracket then unclosed keyStop
    else if !ofSeveral then .ok (t.stop, u :: ts)
    else if u.kind = .closeBracket then .ok (u.stop, ts)
    else .error (.point "unclosed array table" [.literal "]"] t.stop)
  | _ => unclosed keyStop
where
  unclosed (stop : Nat) : Except Fault (Nat × List Token) :=
    if ofSeveral then .error (.point "unclosed array table" [.literal "]]"] stop)
    else .error (.point "unclosed table" [.literal "]"] stop)

def readHeader (start : Nat) (ts : List Token) : Except Fault (Statement × List Token) := do
  let (ofSeveral, ts) := takeBracket ts
  let (key, whole, ts) := readKey ts
  let keyStop := (key.getLast?.map Token.stop).getD start
  match takeClosing ofSeveral keyStop ts with
  | .ok (stop, ts) =>
    let ts ← readLineEnd ts
    .ok (.header ofSeveral key ⟨start, stop⟩, ts)
  | .error fault =>
    if whole || (ts.head?.any fun t => t.kind == .closeBracket) then .error fault
    else
      let ts ← skipLine ts
      .ok (.header ofSeveral key ⟨start, keyStop⟩, ts)

def readAll (last : Nat) (found : List Statement) :
    (fuel : Nat) → List Token → Except Fault (List Statement)
  | 0, _ => .ok found.reverse
  | _, [] => .ok found.reverse
  | fuel + 1, t :: ts => do
    checkBlank t
    match t.kind with
    | .ending => .ok found.reverse
    | .openBracket =>
      let (statement, ts) ← readHeader t.start ts
      readAll last (statement :: found) fuel ts
    | .closeBracket => .error (.point "missing table open" [.literal "["] t.start)
    | .comma => .error (.point "invalid key-value pair" [.description "key"] t.start)
    | .openBrace => .error (.point "invalid key-value pair" [.description "key"] t.start)
    | .closeBrace => .error (.point "invalid key-value pair" [.description "key"] t.start)
    | .space => readAll last found fuel ts
    | .comment => readAll last found fuel ts
    | .newline => readAll last found fuel ts
    | _ =>
      let (statement, ts) ← readPair last (t :: ts)
      readAll last (statement :: found) fuel ts

def list (source : Text) : Except Fault (List Statement) :=
  let tokens := Token.list source
  readAll (lastStop tokens) [] tokens.length tokens

end Statement

end RecordSheet.Toml
