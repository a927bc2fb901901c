import RecordSheet.Text.Basic

namespace RecordSheet.Utf8

def encodeChar (c : Char) : Bytes :=
  let n := c.toNat
  if n < 0x80 then [.ofNat n]
  else if n < 0x800 then [.ofNat (0xC0 + n / 64), .ofNat (0x80 + n % 64)]
  else if n < 0x10000 then
    [.ofNat (0xE0 + n / 4096), .ofNat (0x80 + n / 64 % 64), .ofNat (0x80 + n % 64)]
  else
    [.ofNat (0xF0 + n / 262144), .ofNat (0x80 + n / 4096 % 64), .ofNat (0x80 + n / 64 % 64),
      .ofNat (0x80 + n % 64)]

def encode (t : Text) : Bytes :=
  t.flatMap encodeChar

def size (t : Text) : Nat :=
  (encode t).length

def isTail (b : UInt8) : Bool :=
  0x80 ≤ b && b < 0xC0

def push (n : Nat) (b : UInt8) : Nat :=
  n * 64 + (b.toNat - 0x80)

/-- Whether the first ten bits of a three-byte character are neither overlong nor a surrogate's. -/
def isThreeByteHead (n : Nat) : Bool :=
  0x20 ≤ n && (n < 0x360 || 0x380 ≤ n)

def isFourByteHead (n : Nat) : Bool :=
  0x10 ≤ n && n < 0x110

/-- A stretch of a byte string: a character, or bytes that are none. -/
inductive Piece where
  | char (c : Char)
  | broken (bytes : Bytes)
  deriving DecidableEq, Repr

def Piece.bytes : Piece → Bytes
  | .char c => encodeChar c
  | .broken bytes => bytes

def Piece.char? : Piece → Option Char
  | .char c => some c
  | .broken _ => none

def Piece.charLossy (p : Piece) : Char :=
  p.char?.getD '\uFFFD'

inductive Progress where
  | complete (c : Char)
  | partly
  | none
  deriving DecidableEq, Repr

def progress : Bytes → Progress
  | [a] =>
    if a < 0x80 then .complete (Char.ofNat a.toNat)
    else if 0xC2 ≤ a && a < 0xF5 then .partly
    else .none
  | [a, b] =>
    if !isTail b then .none
    else if a < 0xE0 then .complete (Char.ofNat (push (a.toNat - 0xC0) b))
    else if a < 0xF0 then
      if isThreeByteHead (push (a.toNat - 0xE0) b) then .partly else .none
    else if isFourByteHead (push (a.toNat - 0xF0) b) then .partly else .none
  | [a, b, c] =>
    if !isTail c then .none
    else if a < 0xF0 then .complete (Char.ofNat (push (push (a.toNat - 0xE0) b) c))
    else .partly
  | [a, b, c, d] =>
    if !isTail d then .none
    else .complete (Char.ofNat (push (push (push (a.toNat - 0xF0) b) c) d))
  | _ => .none

def breakOff (found : List Piece) (begun : Bytes) : List Piece :=
  if begun.isEmpty then found else .broken begun :: found

/--
The pieces of a byte string after the pieces found so far, of which the last comes first, and after
the beginning of a character. A beginning breaks off before the first byte that does not go on with
it, and a byte that begins nothing is a broken piece by itself.
-/
def piecesAfter (found : List Piece) (begun : Bytes) : Bytes → List Piece
  | [] => (breakOff found begun).reverse
  | b :: s =>
    match progress (begun ++ [b]) with
    | .complete c => piecesAfter (.char c :: found) [] s
    | .partly => piecesAfter found (begun ++ [b]) s
    | .none =>
      match progress [b] with
      | .complete c => piecesAfter (.char c :: breakOff found begun) [] s
      | .partly => piecesAfter (breakOff found begun) [b] s
      | .none => piecesAfter (.broken [b] :: breakOff found begun) [] s

def pieces (bytes : Bytes) : List Piece :=
  piecesAfter [] [] bytes

def characters? (ps : List Piece) : Option Text :=
  if ps.all fun p => p.char?.isSome then some (ps.filterMap Piece.char?) else none

def decode? (bytes : Bytes) : Option Text :=
  characters? (pieces bytes)

def decodeLossy (bytes : Bytes) : Text :=
  (pieces bytes).map Piece.charLossy

end RecordSheet.Utf8
