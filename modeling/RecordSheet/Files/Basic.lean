import RecordSheet.Files.Path
import RecordSheet.Files.SystemError

namespace RecordSheet

inductive FileError where
  | system (number : Nat)
  | zeroInName
  | notUtf8
  deriving DecidableEq, Repr

def FileError.message : FileError → Text
  | .system number => SystemError.message number
  | .zeroInName => "file name contained an unexpected NUL byte".toList
  | .notUtf8 => "stream did not contain valid UTF-8".toList

/-- A place where files are read and written; a write replaces all that was there. -/
class Files (m : Type → Type) where
  readFile : Bytes → m (Except FileError Bytes)
  isFile : Bytes → m Bool
  writeFile : Bytes → Bytes → m (Except FileError Unit)

namespace Files

def readText {m : Type → Type} [Monad m] [Files m] (path : Bytes) :
    m (Except FileError Text) := do
  match ← readFile path with
  | .error e => return .error e
  | .ok bytes =>
    match Utf8.decode? bytes with
    | some t => return .ok t
    | none => return .error .notUtf8

end Files

end RecordSheet
