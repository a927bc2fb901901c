import RecordSheet.Text.Utf8

namespace RecordSheet.Path

def slash : UInt8 := 0x2F

def here : Bytes := [0x2E]

def above : Bytes := [0x2E, 0x2E]

def dash : Bytes := [0x2D]

def parts : Bytes → List Bytes
  | [] => [[]]
  | b :: bs =>
    match parts bs with
    | [] => [[b]]
    | p :: ps => if b = slash then [] :: p :: ps else (b :: p) :: ps

/-- The names on a path; slashes next to each other count as one. -/
def names (path : Bytes) : List Bytes :=
  (parts path).filter fun p => !p.isEmpty

def isAbsolute (path : Bytes) : Bool :=
  path.head? == some slash

/-- Whether a path ends in a slash, and so can only be that of a directory. -/
def endsInSlash (path : Bytes) : Bool :=
  path.getLast? == some slash

/-- The path of a name in a directory; no path at all is the directory where the program runs. -/
def join (directory name : Bytes) : Bytes :=
  if directory.isEmpty || endsInSlash directory then directory ++ name
  else directory ++ slash :: name

def display (path : Bytes) : Text :=
  Utf8.decodeLossy path

end RecordSheet.Path
