import RecordSheet.Text.Basic

namespace RecordSheet.Toml.Writer

def isControl (c : Char) : Bool :=
  c.toNat == 0x7F || (c.toNat < 0x20 && c != '\t')

def isSimple (t : Text) : Bool :=
  t.all fun c => c.isAlphanum || "-_./ :".toList.contains c

def hasTriple (c : Char) : Text → Bool
  | [] => false
  | d :: t => [c, c, c].isPrefixOf (d :: t) || hasTriple c t

def fitsBasic (t : Text) : Bool :=
  t.all fun c => c != '"' && c != '\\' && !isControl c

def fitsLiteral (t : Text) : Bool :=
  t.all fun c => c != '\'' && !isControl c

def fitsMultilineBasic (t : Text) : Bool :=
  (t.all fun c => c != '\\' && (c == '\n' || !isControl c)) && !hasTriple '"' t

def fitsMultilineLiteral (t : Text) : Bool :=
  (t.all fun c => c == '\n' || !isControl c) && !hasTriple '\'' t

def upperHexDigit (n : Nat) : Char :=
  (hexDigit n).toUpper

def escapeChar (c : Char) : Text :=
  if c = '\\' then ['\\', '\\']
  else if c = '\t' then ['\\', 't']
  else if c = '\x08' then ['\\', 'b']
  else if c = '\x0c' then ['\\', 'f']
  else if c = '\r' then ['\\', 'r']
  else if isControl c then
    ['\\', 'u', '0', '0', upperHexDigit (c.toNat / 16), upperHexDigit (c.toNat % 16)]
  else [c]

def escape (t : Text) : Text :=
  t.flatMap fun c => if c = '"' then ['\\', '"'] else escapeChar c

/--
The characters of a basic string over several lines, after some double quotes in a row: the third of
a run is escaped, and with it a new run begins.
-/
def escapeLines (run : Nat) : Text → Text
  | [] => []
  | c :: t =>
    if c = '"' then
      if run = 2 then '\\' :: '"' :: escapeLines 0 t else '"' :: escapeLines (run + 1) t
    else if c = '\n' then '\n' :: escapeLines 0 t
    else escapeChar c ++ escapeLines 0 t

def opening (delimiter t : Text) : Text :=
  if t.contains '\n' then delimiter ++ ['\n'] else delimiter

def basic (t : Text) : Text :=
  '"' :: escape t ++ ['"']

def literal (t : Text) : Text :=
  '\'' :: t ++ ['\'']

def multilineBasic (t : Text) : Text :=
  opening "\"\"\"".toList t ++ escapeLines 0 t ++ "\"\"\"".toList

def multilineLiteral (t : Text) : Text :=
  opening "'''".toList t ++ t ++ "'''".toList

/--
A simple text stands between double quotes. Any other takes the first form that needs no escape but
that of a tab; failing all, it is basic with escapes, over several lines if it has a line feed.
-/
def string (t : Text) : Text :=
  if isSimple t || fitsBasic t then basic t
  else if fitsLiteral t then literal t
  else if fitsMultilineBasic t then multilineBasic t
  else if fitsMultilineLiteral t then multilineLiteral t
  else if t.contains '\n' then multilineBasic t
  else basic t

def line (key value : Text) : Text :=
  key ++ " = ".toList ++ string value ++ ['\n']

end RecordSheet.Toml.Writer
