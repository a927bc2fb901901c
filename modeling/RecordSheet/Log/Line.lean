import RecordSheet.Json.Printer
import RecordSheet.Log.Event

namespace RecordSheet.Log

inductive Style where
  | compact
  | json
  deriving DecidableEq, Repr

/-- What the clock says: the time of day as a style writes it, and the time since the start. -/
structure Clock where
  now : Style → Text
  elapsed : Text

def FieldValue.render (clock : Clock) : FieldValue → Text
  | .count n => decimal n
  | .text t => t
  | .elapsed => clock.elapsed

def FieldValue.toJson (clock : Clock) : FieldValue → Json
  | .count n => .ofCount n
  | .text t => .string t
  | .elapsed => .string clock.elapsed

namespace Event

def compact (clock : Clock) (e : Event) : Text :=
  clock.now .compact ++ ' ' :: rightAligned 5 e.level.name ++ ' ' :: e.message ++
    e.fields.flatMap fun f => ' ' :: f.1 ++ '=' :: f.2.render clock

def toJson (clock : Clock) (e : Event) : Json :=
  .object [
    ("timestamp".toList, .string (clock.now .json)),
    ("level".toList, .string e.level.name),
    ("fields".toList, .object (("message".toList, .string e.message) ::
      e.fields.map fun f => (f.1, f.2.toJson clock))),
    ("target".toList, .string e.target)]

def line (clock : Clock) (style : Style) (e : Event) : Text :=
  match style with
  | .compact => e.compact clock ++ ['\n']
  | .json => (e.toJson clock).render ++ ['\n']

end Event

end RecordSheet.Log
