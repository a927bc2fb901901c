import RecordSheet.Failure
import RecordSheet.Settings.Basic
import RecordSheet.Toml.Writer

namespace RecordSheet

namespace Settings

def fileName : Bytes :=
  Utf8.encode "jsontocsv.toml".toList

/-- Where settings come from: from nowhere, from a file that is named, or from one that is there. -/
inductive Source where
  | defaults
  | named (path : Bytes)
  | found (path : Bytes)
  deriving DecidableEq, Repr

def ofFileText (t : Text) : Except Failure Settings :=
  (ofText t).mapError fun fault => .invalidSettings (fault.render t)

section

variable {m : Type → Type} [Monad m] [Files m]

def load (path : Bytes) : m (Except Failure Settings) := do
  match ← Files.readText path with
  | .ok t => return ofFileText t
  | .error e => return .error (.reading path e)

/-- Where the settings come from: a file that is named counts, whether or not it is there. -/
def source (explicit : Option Bytes) (directory : Bytes) : m Source := do
  match explicit with
  | some path => return .named path
  | none =>
    let path := Path.join directory fileName
    if ← Files.isFile path then return .found path else return .defaults

def ofSource : Source → m (Except Failure Settings)
  | .defaults => return .ok default
  | .named path => load path
  | .found path => load path

def discover (explicit : Option Bytes) (directory : Bytes) : m (Except Failure Settings) := do
  ofSource (← source explicit directory)

end

def render? (s : Settings) : Option Text := do
  let output ← Utf8.decode? s.output
  let first := Toml.Writer.line "output".toList output
  match s.input with
  | none => some first
  | some path =>
    let input ← Utf8.decode? path
    some (first ++ Toml.Writer.line "input".toList input)

def save {m : Type → Type} [Monad m] [Files m] (s : Settings) (path : Bytes) :
    m (Except Failure Unit) := do
  match s.render? with
  | none =>
    return .error (.other
      "failed to serialize config: path contains invalid UTF-8 characters".toList)
  | some t =>
    match ← Files.writeFile path (Utf8.encode t) with
    | .ok () => return .ok ()
    | .error e => return .error (.writing path e)

end Settings

end RecordSheet
