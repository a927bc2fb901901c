import RecordSheet.Files.Basic
import Std.Data.ExtTreeMap

namespace RecordSheet

inductive Entry where
  | file (content : Bytes)
  | directory
  deriving DecidableEq, Repr

/-- The names on the way from the root to a place. -/
abbrev Location := List Bytes

instance : Std.TransCmp (compare : Location → Location → Ordering) :=
  inferInstance

/--
A file system, by the locations of its entries, and the location where a program runs in it. This
location and those above it are directories without an entry. There are no links: a location has one
way to it but for the names `.` and `..`. Nor are there permissions or limits of space: what is there
can be read, and a file can be written wherever there is a directory for it.
-/
structure Tree where
  entries : Std.ExtTreeMap Location Entry
  working : Location

namespace Tree

def pathLimit : Nat :=
  4095

def nameLimit : Nat :=
  255

def entryAt? (t : Tree) (l : Location) : Option Entry :=
  if l <+: t.working then some .directory else t.entries[l]?

def isDirectory (t : Tree) (l : Location) : Bool :=
  t.entryAt? l == some .directory

/-- The location of a name in a directory, whether or not anything is there; the root is above itself. -/
def child (l : Location) (name : Bytes) : Location :=
  if name = Path.here then l
  else if name = Path.above then l.dropLast
  else l ++ [name]

def isDots (name : Bytes) : Bool :=
  name == Path.here || name == Path.above

def enter (t : Tree) (l : Location) (name : Bytes) : Except FileError Location :=
  if !t.isDirectory l then .error (.system SystemError.notDirectory)
  else if isDots name then .ok (child l name)
  else if nameLimit < name.length then .error (.system SystemError.nameTooLong)
  else if (t.entryAt? (child l name)).isSome then .ok (child l name)
  else .error (.system SystemError.notFound)

def origin (t : Tree) (path : Bytes) : Location :=
  if Path.isAbsolute path then [] else t.working

def checkPath (path : Bytes) : Except FileError Unit :=
  if path.contains 0 then .error .zeroInName
  else if path.isEmpty then .error (.system SystemError.notFound)
  else if pathLimit < path.length then .error (.system SystemError.nameTooLong)
  else .ok ()

def find (t : Tree) (path : Bytes) : Except FileError Location := do
  checkPath path
  let l ← (Path.names path).foldlM t.enter (t.origin path)
  if Path.endsInSlash path && !t.isDirectory l then
    .error (.system SystemError.notDirectory)
  else .ok l

def read (t : Tree) (path : Bytes) : Except FileError Bytes := do
  let l ← t.find path
  match t.entryAt? l with
  | some (.file content) => .ok content
  | _ => .error (.system SystemError.isDirectory)

def isFile (t : Tree) (path : Bytes) : Bool :=
  match t.read path with
  | .ok _ => true
  | .error _ => false

def target (t : Tree) (path : Bytes) : Except FileError Location := do
  checkPath path
  let names := Path.names path
  let l ← names.dropLast.foldlM t.enter (t.origin path)
  match names.getLast? with
  | none => .error (.system SystemError.isDirectory)
  | some name =>
    if !t.isDirectory l then .error (.system SystemError.notDirectory)
    else if isDots name || Path.endsInSlash path then .error (.system SystemError.isDirectory)
    else if nameLimit < name.length then .error (.system SystemError.nameTooLong)
    else if t.isDirectory (l ++ [name]) then .error (.system SystemError.isDirectory)
    else .ok (l ++ [name])

def insert (t : Tree) (l : Location) (e : Entry) : Tree :=
  { t with entries := t.entries.insert l e }

def write (t : Tree) (path content : Bytes) : Except FileError Tree := do
  let location ← t.target path
  .ok (t.insert location (.file content))

def empty (working : Location) : Tree :=
  ⟨∅, working⟩

/-- A tree with an entry put at a location, and with directories where nothing is on the way to it. -/
def put (t : Tree) (l : Location) (e : Entry) : Tree :=
  let ancestors := (List.range l.length).map l.take
  (ancestors.foldl (fun t l => if (t.entryAt? l).isSome then t else t.insert l .directory) t).insert
    l e

def remove (t : Tree) (l : Location) : Tree :=
  { t with entries := t.entries.erase l }

end Tree

instance : Files (StateM Tree) where
  readFile path := do return (← get).read path
  isFile path := do return (← get).isFile path
  writeFile path content := do
    match (← get).write path content with
    | .ok t =>
      set t
      return .ok ()
    | .error e => return .error e

end RecordSheet
