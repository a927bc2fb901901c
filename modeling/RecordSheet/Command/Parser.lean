import RecordSheet.Command.Usage

namespace RecordSheet.Command

/-- What ends the reading of a command line before anything is done. -/
inductive Stop where
  | help (long : Bool)
  | version
  | misuse (m : Misuse)
  deriving DecidableEq, Repr

/--
What has been read: the parameters taken in, one that is pending, and whether `--` has come. A value is
taken in only when the next argument has come, so that of two faults the one of the later argument may
win.
-/
structure State where
  given : List Parameter
  options : Options
  pending : Option (Parameter × Option Bytes)
  onlyValues : Bool
  deriving Repr

namespace State

def initial : State :=
  ⟨[], .none, none, false⟩

def assign (o : Options) (p : Parameter) (value : Bytes) : Except Misuse Options :=
  match p with
  | .input => if value.isEmpty then .error (.valueMissing p) else .ok { o with input := value }
  | .output => if value.isEmpty then .error (.valueMissing p) else .ok { o with output := value }
  | .config => if value.isEmpty then .error (.valueMissing p) else .ok { o with config := value }
  | .format =>
    if value.isEmpty then .error (.valueMissing p)
    else
      match (Utf8.decode? value).bind Format.ofName? with
      | some format => .ok { o with format }
      | none => .error (.unknownFormat (Utf8.decodeLossy value))
  | .logLevel =>
    match Utf8.decode? value with
    | some t => .ok { o with logLevel := t }
    | none => .error .notUtf8
  | .quiet => .ok { o with quiet := true }
  | .verbose => .ok { o with verbose := true }
  | .logJson => .ok { o with logJson := true }
  | .help => .ok o
  | .version => .ok o

/-- Takes in a parameter with its value. A parameter that is refused as repeated is forgotten. -/
def accept (s : State) (p : Parameter) (value : Bytes) : State × Option Misuse :=
  if s.given.contains p then ({ s with given := s.given.erase p }, some (.repeated p))
  else
    let s := { s with given := s.given ++ [p] }
    match assign s.options p value with
    | .ok options => ({ s with options }, none)
    | .error m => (s, some m)

def settle (s : State) : State × Option Misuse :=
  match s.pending with
  | none => (s, none)
  | some (p, none) => ({ s with pending := none }, some (.valueMissing p))
  | some (p, some value) => { s with pending := none }.accept p value

def check (r : State × Option Misuse) : Except Stop State :=
  match r.2 with
  | none => .ok r.1
  | some m => .error (.misuse m)

def settled (s : State) : Except Stop State :=
  check s.settle

def await (s : State) (p : Parameter) (value : Option Bytes) : Except Stop State := do
  let s ← s.settled
  .ok { s with pending := some (p, value) }

def take (s : State) (p : Parameter) (value : Bytes) : Except Stop State := do
  let s ← s.settled
  check (s.accept p value)

def takeFlag (s : State) (long : Bool) (p : Parameter) : Except Stop State := do
  match p with
  | .help => do
    let _ ← s.settled
    .error (.help long)
  | .version => do
    let _ ← s.settled
    .error .version
  | _ => s.take p []

def unexpected (argument : Text) (hint : Hint) (used : List Parameter) : Except Stop State :=
  .error (.misuse (.unexpectedArgument argument hint used))

/-- A long name that is not known: a similar one counts as given. -/
def unknownLong (s : State) (name : Text) : Except Stop State :=
  let given := s.settle.1.given
  match Similarity.best? name (Parameter.named.filterMap Parameter.long?) with
  | some long =>
    let suggested := (Parameter.ofLong? long).toList.filter fun p => !given.contains p
    unexpected ("--".toList ++ name) (.similar long) (given ++ suggested)
  | none => unexpected ("--".toList ++ name) .asValue given

def takeLong (s : State) (name : Text) (value : Option Bytes) : Except Stop State :=
  match Parameter.ofLong? name with
  | none => s.unknownLong name
  | some p =>
    match p.hasValue, value with
    | true, some value => s.take p value
    | true, none => s.await p none
    | false, none => s.takeFlag true p
    | false, some value =>
      .error (.misuse (.unexpectedValue (Utf8.decodeLossy value) p (s.given ++ [p])))

def bytesOf (ps : List Utf8.Piece) : Bytes :=
  ps.flatMap Utf8.Piece.bytes

def takeShort (s : State) : List Utf8.Piece → Except Stop State
  | [] => .ok s
  | .broken bytes :: ps => unexpected ('-' :: Utf8.decodeLossy (bytes ++ bytesOf ps)) .asValue []
  | .char c :: ps =>
    match Parameter.ofShort? c with
    | none => unexpected ['-', c] .asValue []
    | some p =>
      if p.hasValue then
        match ps with
        | [] => s.await p none
        | .char '=' :: value => s.take p (bytesOf value)
        | value => s.take p (bytesOf value)
      else do
        let s ← s.takeFlag false p
        takeShort s ps

def takeValue (s : State) (argument : Bytes) : Except Stop State :=
  match s.pending, s.onlyValues with
  | some (p, none), false => .ok { s with pending := some (p, some argument) }
  | _, _ =>
    let inputGiven := s.given.contains .input || s.pending.any fun p => p.1 == .input
    if inputGiven then unexpected (Utf8.decodeLossy argument) .none []
    else s.await .input (some argument)

def splitEquals : Bytes → Bytes × Option Bytes
  | [] => ([], none)
  | b :: bs =>
    if b = 0x3D then ([], some bs)
    else
      let (name, value) := splitEquals bs
      (b :: name, value)

def takeArgument (s : State) (argument : Bytes) : Except Stop State :=
  if s.onlyValues then s.takeValue argument
  else
    match argument with
    | 0x2D :: 0x2D :: [] => .ok { s with onlyValues := true }
    | 0x2D :: 0x2D :: rest =>
      let (name, value) := splitEquals rest
      s.takeLong (Utf8.decodeLossy name) value
    | 0x2D :: b :: rest => s.takeShort (Utf8.pieces (b :: rest))
    | _ => s.takeValue argument

def takeVariable (s : State) (config : Option Bytes) : Except Stop State :=
  match config with
  | some path => if s.given.contains .config then .ok s else check (s.accept .config path)
  | none => .ok s

end State

def parse (arguments : List Bytes) (config : Option Bytes) : Except Stop Options := do
  let s ← arguments.foldlM State.takeArgument State.initial
  let s ← s.settled
  let s ← s.takeVariable config
  .ok s.options

def argumentText (argument : Bytes) : Except Bytes Text :=
  match Utf8.decode? argument with
  | some t => .ok t
  | none => .error argument

/--
Whether a command line asks for errors in JSON, whatever else is wrong with it. Arguments are looked
at up to the one that asks for it, and an argument that is looked at has to be a text.
-/
def requestsJson : List Bytes → Except Bytes Bool
  | [] => .ok false
  | [argument] => do
    let name ← argumentText argument
    .ok (name == "--format=json".toList)
  | argument :: value :: rest => do
    let name ← argumentText argument
    if name = "--format".toList then
      let format ← argumentText value
      if format = "json".toList then .ok true else requestsJson rest
    else if name = "--format=json".toList then .ok true
    else requestsJson (value :: rest)

/-- What ends a run before anything is done: an argument that is no text, or what stops the reading. -/
inductive Ending where
  | aborted (argument : Bytes)
  | stopped (inJson : Bool) (stop : Stop)
  deriving DecidableEq, Repr

/-- Reads a command line, after it has been looked through for the form of errors. -/
def readOptions (arguments : List Bytes) (config : Option Bytes) : Except Ending Options := do
  let inJson ← (requestsJson arguments).mapError Ending.aborted
  (parse arguments config).mapError (Ending.stopped inJson)

end RecordSheet.Command
