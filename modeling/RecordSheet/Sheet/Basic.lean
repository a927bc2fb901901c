import RecordSheet.Failure
import RecordSheet.Records.Basic
import RecordSheet.Sheet.Quotes

namespace RecordSheet

/-- A row: the URI as it is, and the record's JSON text with its quotes doubled. -/
structure Row where
  uri : Text
  data : Text
  deriving DecidableEq, Repr

namespace Row

def ofRecord (r : Record) : Row :=
  ⟨r.uri?.getD [], doubleQuotes r.raw.render⟩

def line (r : Row) : Text :=
  '"' :: r.uri ++ '"' :: ',' :: '"' :: r.data ++ ['"']

end Row

structure Counts where
  records : Nat
  rows : Nat
  deriving DecidableEq, Repr

structure Sheet where
  rows : List Row
  records : Nat
  deriving DecidableEq, Repr

namespace Sheet

def columns : List Text :=
  ["esco_uri".toList, "data".toList]

def header : Text :=
  joinWith [','] columns

def lineBreak : Text :=
  ['\r', '\n']

def ofRecords (records : List Record) : Sheet :=
  ⟨(records.filter Record.hasUri).map Row.ofRecord, records.length⟩

def counts (s : Sheet) : Counts :=
  ⟨s.records, s.rows.length⟩

def render (s : Sheet) : Text :=
  joinWith lineBreak (header :: s.rows.map Row.line)

end Sheet

/-- The text of the sheet of some records and its counts. No records give no text, not even a header. -/
def convert (records : List Record) : Text × Counts :=
  if records.isEmpty then ([], ⟨0, 0⟩)
  else
    let sheet := Sheet.ofRecords records
    (sheet.render, sheet.counts)

inductive Destination where
  | standardOutput
  | file (path : Bytes)
  deriving DecidableEq, Repr

def Destination.ofPath (path : Bytes) : Destination :=
  if path = Path.dash then .standardOutput else .file path

def writeSheet {m : Type → Type} [Monad m] [Files m] (path : Bytes) (sheet : Text) :
    m (Except Failure Unit) := do
  match ← Files.writeFile path (Utf8.encode sheet) with
  | .ok () => return .ok ()
  | .error e => return .error (.writing path e)

end RecordSheet
