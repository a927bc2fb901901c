import RecordSheet.Log.Time
import RecordSheet.Run
import Std.Time.DateTime.Timestamp

namespace RecordSheet

def systemPath (path : Bytes) : String :=
  String.ofList (Path.display path)

/-- The number of a system error; some calls give its negative as a word. -/
def unsigned (n : UInt32) : Nat :=
  if n.toNat < 0x80000000 then n.toNat else 0x100000000 - n.toNat

def systemNumber : IO.Error → Nat
  | .alreadyExists _ n _ => unsigned n
  | .otherError n _ => unsigned n
  | .resourceBusy n _ => unsigned n
  | .resourceVanished n _ => unsigned n
  | .unsupportedOperation n _ => unsigned n
  | .hardwareFault n _ => unsigned n
  | .unsatisfiedConstraints n _ => unsigned n
  | .illegalOperation n _ => unsigned n
  | .protocolError n _ => unsigned n
  | .timeExpired n _ => unsigned n
  | .interrupted _ n _ => unsigned n
  | .noFileOrDirectory _ n _ => unsigned n
  | .invalidArgument _ n _ => unsigned n
  | .permissionDenied _ n _ => unsigned n
  | .resourceExhausted _ n _ => unsigned n
  | .inappropriateType _ n _ => unsigned n
  | .noSuchThing _ n _ => unsigned n
  | .unexpectedEof => 0
  | .userError _ => 0

def attempt {α : Type} (path : Bytes) (action : IO α) : IO (Except FileError α) := do
  if path.contains 0 then return .error .zeroInName
  try
    return .ok (← action)
  catch e =>
    return .error (.system (systemNumber e))

def bytesOfArray (bytes : ByteArray) : Bytes :=
  bytes.toList

def arrayOfBytes (bytes : Bytes) : ByteArray :=
  ⟨bytes.toArray⟩

instance : Files IO where
  readFile path := attempt path do
    return bytesOfArray (← IO.FS.readBinFile (systemPath path))
  isFile path := do
    let found ← attempt path do
      let real ← IO.FS.realPath (systemPath path)
      return (← real.metadata).type == IO.FS.FileType.file
    match found with
    | .ok answer => return answer
    | .error _ => return false
  writeFile path content := attempt path do
    IO.FS.writeBinFile (systemPath path) (arrayOfBytes content)

def readStandardInput : IO Bytes := do
  return bytesOfArray (← (← IO.getStdin).readBinToEnd)

def environmentValue? (name : String) : IO (Option Bytes) := do
  return (← IO.getEnv name).map fun value => Utf8.encode value.toList

def nanosecondsNow : IO Nat := do
  return (← Std.Time.Timestamp.now).toNanosecondsSinceUnixEpoch.val.toNat

/--
Runs the program. Arguments and variables come as strings from the system here, so what is not UTF-8
in them has been replaced before, and no argument aborts the run.
-/
def runProcess (arguments : List String) : IO UInt32 := do
  let start ← nanosecondsNow
  let config ← environmentValue? (String.ofList Command.configVariable)
  let environment : Environment :=
    ⟨config, ← environmentValue? "JSONTOCSV_LOG", ← environmentValue? "RUST_LOG"⟩
  let directory := (← IO.currentDir).toString
  let invocation : Invocation :=
    ⟨arguments.map fun a => Utf8.encode a.toList, environment, Utf8.encode directory.toList,
      fun _ => []⟩
  let now ← nanosecondsNow
  let clock : Log.Clock := ⟨fun _ => Log.renderTime now, Log.renderElapsed (now - start)⟩
  let outcome ← run invocation clock readStandardInput
  (← IO.getStderr).putStr (String.ofList outcome.stderr)
  (← IO.getStdout).putStr (String.ofList outcome.stdout)
  return outcome.status.code.toUInt32

end RecordSheet

def main (arguments : List String) : IO UInt32 :=
  RecordSheet.runProcess arguments
