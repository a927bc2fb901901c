import RecordSheet.Binary64.Shortest
import RecordSheet.Json.Basic

namespace RecordSheet

/-- A magnitude in positional notation from 0.00001 up to 16 whole digits, else with an exponent. -/
def Binary64.renderMagnitude (m : Nat) : Text :=
  let d := shortest m
  if m = 0 || (-5 ≤ d.leading && d.leading ≤ 15) then d.positional else d.scientific

def Binary64.render (x : Binary64) : Text :=
  if x.negative then '-' :: renderMagnitude x.magnitude else renderMagnitude x.magnitude

def Number.render : Number → Text
  | .integer n => signedDecimal n.value
  | .float x => x.render

namespace Json

def escapeChar (c : Char) : Text :=
  if c = '"' then ['\\', '"']
  else if c = '\\' then ['\\', '\\']
  else if 0x20 ≤ c.toNat then [c]
  else if c = '\x08' then ['\\', 'b']
  else if c = '\t' then ['\\', 't']
  else if c = '\n' then ['\\', 'n']
  else if c = '\x0c' then ['\\', 'f']
  else if c = '\r' then ['\\', 'r']
  else ['\\', 'u', '0', '0', hexDigit (c.toNat / 16), hexDigit (c.toNat % 16)]

def quoted (t : Text) : Text :=
  '"' :: t.flatMap escapeChar ++ ['"']

mutual

def render : Json → Text
  | .null => "null".toList
  | .boolean true => "true".toList
  | .boolean false => "false".toList
  | .number n => n.render
  | .string t => quoted t
  | .array items => '[' :: joinWith [','] (renderItems items) ++ [']']
  | .object members => '\x7b' :: joinWith [','] (renderMembers members) ++ ['\x7d']

def renderItems : List Json → List Text
  | [] => []
  | item :: items => render item :: renderItems items

def renderMembers : List (Text × Json) → List Text
  | [] => []
  | (key, value) :: members => (quoted key ++ ':' :: render value) :: renderMembers members

end

end Json

end RecordSheet
