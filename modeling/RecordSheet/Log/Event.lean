import RecordSheet.Files.Path

namespace RecordSheet.Log

inductive Level where
  | error
  | warn
  | info
  | debug
  | trace
  deriving DecidableEq, Repr

namespace Level

def rank : Level → Nat
  | .error => 1
  | .warn => 2
  | .info => 3
  | .debug => 4
  | .trace => 5

def name : Level → Text
  | .error => "ERROR".toList
  | .warn => "WARN".toList
  | .info => "INFO".toList
  | .debug => "DEBUG".toList
  | .trace => "TRACE".toList

end Level

inductive FieldValue where
  | count (n : Nat)
  | text (t : Text)
  | elapsed
  deriving DecidableEq, Repr

inductive Event where
  | argumentsParsed
  | settingsFound (path : Bytes)
  | settingsLoaded
  | recordsRead (count : Nat)
  | inputRead
  | recordSkipped (index : Nat)
  | recordsConverted (rows : Nat)
  | sheetConverted
  | sheetWritten (path : Bytes) (size : Nat)
  | outputWritten
  deriving DecidableEq, Repr

namespace Event

def level : Event → Level
  | .argumentsParsed => .debug
  | .settingsFound _ => .debug
  | .settingsLoaded => .debug
  | .recordsRead _ => .info
  | .inputRead => .trace
  | .recordSkipped _ => .debug
  | .recordsConverted _ => .info
  | .sheetConverted => .trace
  | .sheetWritten _ _ => .debug
  | .outputWritten => .trace

def target : Event → Text
  | .argumentsParsed => "jsontocsv".toList
  | .settingsFound _ => "jsontocsv_core::config".toList
  | .settingsLoaded => "jsontocsv::commands::dispatch".toList
  | .recordSkipped _ => "jsontocsv_core::csv".toList
  | .sheetWritten _ _ => "jsontocsv_core::sink".toList
  | .recordsRead _ => "jsontocsv::commands::convert".toList
  | .inputRead => "jsontocsv::commands::convert".toList
  | .recordsConverted _ => "jsontocsv::commands::convert".toList
  | .sheetConverted => "jsontocsv::commands::convert".toList
  | .outputWritten => "jsontocsv::commands::convert".toList

def message : Event → Text
  | .argumentsParsed => "parse_args".toList
  | .settingsFound _ => "using discovered config".toList
  | .settingsLoaded => "load_config".toList
  | .recordsRead _ => "read records".toList
  | .inputRead => "read_input".toList
  | .recordSkipped _ => "skipping record without uri".toList
  | .recordsConverted _ => "converted records".toList
  | .sheetConverted => "convert".toList
  | .sheetWritten _ _ => "wrote csv".toList
  | .outputWritten => "write_output".toList

def fields : Event → List (Text × FieldValue)
  | .argumentsParsed => [("elapsed".toList, .elapsed)]
  | .settingsFound path => [("path".toList, .text (Path.display path))]
  | .settingsLoaded => [("elapsed".toList, .elapsed)]
  | .recordsRead count => [("input_records".toList, .count count)]
  | .inputRead => [("elapsed".toList, .elapsed)]
  | .recordSkipped index => [("index".toList, .count index)]
  | .recordsConverted rows => [("output_rows".toList, .count rows)]
  | .sheetConverted => [("elapsed".toList, .elapsed)]
  | .sheetWritten path size =>
    [("path".toList, .text (Path.display path)), ("bytes".toList, .count size)]
  | .outputWritten => [("elapsed".toList, .elapsed)]

end Event

end RecordSheet.Log
