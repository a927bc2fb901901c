import RecordSheet.Command.Options
import RecordSheet.Text.Similarity

namespace RecordSheet.Command

def configVariable : Text :=
  "JSONTOCSV_CONFIG".toList

def versionText : Text :=
  "jsontocsv 0.1.0\n".toList

def usage (used : List Parameter) : Text :=
  let options := (used.filter fun p => p ≠ .input).eraseDups
  let input := if used.contains .input then " <INPUT>" else " [INPUT]"
  let given :=
    if used.isEmpty then " [OPTIONS]".toList else options.flatMap fun p => ' ' :: p.display
  "Usage: jsontocsv".toList ++ given ++ input.toList

inductive Hint where
  | none
  | similar (long : Text)
  | asValue
  deriving DecidableEq, Repr

inductive Misuse where
  | valueMissing (p : Parameter)
  | unknownFormat (value : Text)
  | repeated (p : Parameter)
  | unexpectedArgument (argument : Text) (hint : Hint) (used : List Parameter)
  | unexpectedValue (value : Text) (p : Parameter) (used : List Parameter)
  | notUtf8
  deriving DecidableEq, Repr

namespace Misuse

def formats : Text :=
  "\n  [possible values: ".toList ++ joinWith ", ".toList (Format.all.map Format.name) ++ [']']

def inQuotes (t : Text) : Text :=
  '\'' :: t ++ ['\'']

def reason : Misuse → Text
  | .valueMissing p =>
    "a value is required for ".toList ++ inQuotes p.display ++ " but none was supplied".toList ++
      (if p = .format then formats else [])
  | .unknownFormat value =>
    "invalid value ".toList ++ inQuotes value ++ " for ".toList ++
      inQuotes (Parameter.display .format) ++ formats ++
      match Similarity.best? value (Format.all.map Format.name) with
      | some name => "\n\n  tip: a similar value exists: ".toList ++ inQuotes name
      | none => []
  | .repeated p =>
    "the argument ".toList ++ inQuotes p.display ++ " cannot be used multiple times\n\n".toList ++
      usage []
  | .unexpectedArgument argument hint used =>
    "unexpected argument ".toList ++ inQuotes argument ++ " found\n\n".toList ++
      (match hint with
      | .none => []
      | .similar long =>
        "  tip: a similar argument exists: ".toList ++ inQuotes ("--".toList ++ long) ++
          "\n\n".toList
      | .asValue =>
        "  tip: to pass ".toList ++ inQuotes argument ++ " as a value, use ".toList ++
          inQuotes ("-- ".toList ++ argument) ++ "\n\n".toList) ++
      usage used
  | .unexpectedValue value p used =>
    "unexpected value ".toList ++ inQuotes value ++ " for ".toList ++ inQuotes p.display ++
      " found; no more were expected\n\n".toList ++ usage used
  | .notUtf8 =>
    "invalid UTF-8 was detected in one or more arguments\n\n".toList ++ usage []

def message (m : Misuse) : Text :=
  "error: ".toList ++ m.reason ++ "\n\nFor more information, try '--help'.\n".toList

end Misuse

def indented (width : Nat) (t : Text) : Text :=
  t.flatMap fun c => if c = '\n' then '\n' :: List.replicate width ' ' else [c]

def helpHeading : Text :=
  "Convert ESCO record dumps to esco_uri,data CSV files\n\n".toList ++ usage [] ++ "\n\n".toList

def unlines (ls : List String) : Text :=
  ls.flatMap fun l => l.toList ++ ['\n']

def shortHelp (config : Text) : Text :=
  helpHeading ++
    unlines [
      "Arguments:",
      "  [INPUT]  Input JSON document (`-` for stdin; defaults to config `input`, then stdin)",
      "",
      "Options:",
      "  -o, --output <OUTPUT>        Output CSV path (`-` for stdout; defaults to config " ++
        "`output`, then ammattiryhma.csv)"] ++
    ("      --config <CONFIG>        Config file (defaults to ./jsontocsv.toml when present) " ++
      "[env: ").toList ++ configVariable ++ '=' :: indented 31 config ++
    unlines [
      "]",
      "      --format <FORMAT>        Completion report format [default: human] " ++
        "[possible values: human, json]",
      "  -q, --quiet                  Suppress non-essential output",
      "  -v, --verbose                Enable debug logging",
      "      --log-level <LOG_LEVEL>  Log filter (e.g. `info`, `jsontocsv_core=trace`)",
      "      --log-json               Emit logs as JSON on stderr",
      "  -h, --help                   Print help (see more with '--help')",
      "  -V, --version                Print version"]

def longHelp (config : Text) : Text :=
  helpHeading ++
    unlines [
      "Arguments:",
      "  [INPUT]",
      "          Input JSON document (`-` for stdin; defaults to config `input`, then stdin)",
      "",
      "Options:",
      "  -o, --output <OUTPUT>",
      "          Output CSV path (`-` for stdout; defaults to config `output`, then " ++
        "ammattiryhma.csv)",
      "",
      "      --config <CONFIG>",
      "          Config file (defaults to ./jsontocsv.toml when present)",
      "          "] ++
    "          [env: ".toList ++ configVariable ++ '=' :: indented 10 config ++
    unlines [
      "]",
      "",
      "      --format <FORMAT>",
      "          Completion report format",
      "",
      "          Possible values:",
      "          - human: Human-readable output (default)",
      "          - json:  JSON output for machine consumption",
      "          ",
      "          [default: human]",
      "",
      "  -q, --quiet",
      "          Suppress non-essential output",
      "",
      "  -v, --verbose",
      "          Enable debug logging",
      "",
      "      --log-level <LOG_LEVEL>",
      "          Log filter (e.g. `info`, `jsontocsv_core=trace`)",
      "",
      "      --log-json",
      "          Emit logs as JSON on stderr",
      "",
      "  -h, --help",
      "          Print help (see a summary with '-h')",
      "",
      "  -V, --version",
      "          Print version"]

def helpText (long : Bool) (config : Option Bytes) : Text :=
  let value := Utf8.decodeLossy (config.getD [])
  if long then longHelp value else shortHelp value

end RecordSheet.Command
