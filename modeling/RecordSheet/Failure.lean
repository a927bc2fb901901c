import RecordSheet.Files.Basic
import RecordSheet.Json.Printer

namespace RecordSheet

/-- How a run ends: by itself, or aborted by the runtime. -/
inductive Status where
  | success
  | failure
  | usage
  | data
  | aborted
  deriving DecidableEq, Repr

def Status.code : Status → Nat
  | .success => 0
  | .failure => 1
  | .usage => 2
  | .data => 3
  | .aborted => 101

inductive Failure where
  | usage (message : Text)
  | invalidInput (reason : Text)
  | invalidSettings (report : Text)
  | system (reason : Text)
  | json (reason : Text)
  | operation (verb target reason : Text)
  | other (message : Text)
  deriving DecidableEq, Repr

namespace Failure

def status : Failure → Status
  | .usage _ => .usage
  | .invalidInput _ => .data
  | .invalidSettings _ => .data
  | .system _ => .failure
  | .json _ => .failure
  | .operation _ _ _ => .failure
  | .other _ => .failure

def kind : Failure → Text
  | .usage _ => "usage_error".toList
  | .invalidInput _ => "invalid_input".toList
  | .invalidSettings _ => "toml_error".toList
  | .system _ => "io_error".toList
  | .json _ => "json_error".toList
  | .operation _ _ _ => "failed_operation_with_target".toList
  | .other _ => "other".toList

def message : Failure → Text
  | .usage message => message
  | .invalidInput reason => "invalid input: ".toList ++ reason
  | .invalidSettings report => "TOML error: ".toList ++ report
  | .system reason => "IO error: ".toList ++ reason
  | .json reason => "JSON error: ".toList ++ reason
  | .operation verb target reason =>
    "failed to ".toList ++ verb ++ ' ' :: target ++ ": ".toList ++ reason
  | .other message => message

def reading (path : Bytes) (e : FileError) : Failure :=
  .operation "read".toList (Path.display path) e.message

def writing (path : Bytes) (e : FileError) : Failure :=
  .operation "write".toList (Path.display path) e.message

def envelope (f : Failure) : Json :=
  .object [("error".toList, .object [
    ("code".toList, .ofCount f.status.code),
    ("type".toList, .string f.kind),
    ("message".toList, .string f.message)])]

end Failure

end RecordSheet
