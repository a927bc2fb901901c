import RecordSheet.Text.Utf8

namespace RecordSheet.Command

inductive Format where
  | human
  | json
  deriving DecidableEq, Repr

namespace Format

def name : Format → Text
  | .human => "human".toList
  | .json => "json".toList

def all : List Format :=
  [.human, .json]

def ofName? (t : Text) : Option Format :=
  all.find? fun f => f.name == t

end Format

inductive Parameter where
  | input
  | output
  | config
  | format
  | quiet
  | verbose
  | logLevel
  | logJson
  | help
  | version
  deriving DecidableEq, Repr

namespace Parameter

def long? : Parameter → Option Text
  | .input => none
  | .output => some "output".toList
  | .config => some "config".toList
  | .format => some "format".toList
  | .quiet => some "quiet".toList
  | .verbose => some "verbose".toList
  | .logLevel => some "log-level".toList
  | .logJson => some "log-json".toList
  | .help => some "help".toList
  | .version => some "version".toList

/-- The parameters with a long name, in the order of the help. -/
def named : List Parameter :=
  [.output, .config, .format, .quiet, .verbose, .logLevel, .logJson, .help, .version]

def ofLong? (t : Text) : Option Parameter :=
  named.find? fun p => p.long? == some t

def ofShort? : Char → Option Parameter
  | 'o' => some .output
  | 'q' => some .quiet
  | 'v' => some .verbose
  | 'h' => some .help
  | 'V' => some .version
  | _ => none

def valueName? : Parameter → Option Text
  | .input => some "INPUT".toList
  | .output => some "OUTPUT".toList
  | .config => some "CONFIG".toList
  | .format => some "FORMAT".toList
  | .logLevel => some "LOG_LEVEL".toList
  | _ => none

def hasValue (p : Parameter) : Bool :=
  p.valueName?.isSome

def display (p : Parameter) : Text :=
  match p.long?, p.valueName? with
  | some long, some value => "--".toList ++ long ++ " <".toList ++ value ++ ['>']
  | some long, none => "--".toList ++ long
  | none, some value => '[' :: value ++ [']']
  | none, none => []

end Parameter

structure Options where
  input : Option Bytes
  output : Option Bytes
  config : Option Bytes
  format : Format
  quiet : Bool
  verbose : Bool
  logLevel : Option Text
  logJson : Bool
  deriving DecidableEq, Repr

def Options.none : Options :=
  ⟨.none, .none, .none, .human, false, false, .none, false⟩

end RecordSheet.Command
