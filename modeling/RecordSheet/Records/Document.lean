import RecordSheet.Failure
import RecordSheet.Json.Parser
import RecordSheet.Records.Basic

namespace RecordSheet

inductive InvalidDocument where
  | notJson (reason : Text)
  | notObject (found : Json)
  | noData
  | dataNotArray (found : Json)
  deriving Repr

def InvalidDocument.message : InvalidDocument → Text
  | .notJson reason => "not valid JSON: ".toList ++ reason
  | .notObject found => "input must be a JSON object, found ".toList ++ found.kind
  | .noData => "input object has no `data` field".toList
  | .dataNotArray found => "`data` must be an array, found ".toList ++ found.kind

def Failure.ofDocument (e : InvalidDocument) : Failure :=
  .invalidInput e.message

namespace Record

/-- The records of a document: the elements of its `data` array. Other members are ignored. -/
def ofJson : Json → Except InvalidDocument (List Record)
  | .object members =>
    match members.lookup dataKey with
    | some (.array items) => .ok (items.map Record.mk)
    | some found => .error (.dataNotArray found)
    | none => .error .noData
  | found => .error (.notObject found)

def ofText (t : Text) : Except InvalidDocument (List Record) :=
  match Json.parse t with
  | .ok j => ofJson j
  | .error reason => .error (.notJson reason)

def ofBytes (bytes : Bytes) : Except InvalidDocument (List Record) :=
  match Json.parseBytes bytes with
  | .ok j => ofJson j
  | .error reason => .error (.notJson reason)

def load {m : Type → Type} [Monad m] [Files m] (path : Bytes) :
    m (Except Failure (List Record)) := do
  match ← Files.readText path with
  | .ok t => return (ofText t).mapError Failure.ofDocument
  | .error e => return .error (.reading path e)

end Record

end RecordSheet
