import RecordSheet.Log.Event
import RecordSheet.Text.Blank
import RecordSheet.Text.Symbol

namespace RecordSheet.Log

abbrev Verbosity := Option Level

namespace Verbosity

def names : List (String × Verbosity) :=
  [("off", none), ("error", some .error), ("warn", some .warn), ("info", some .info),
    ("debug", some .debug), ("trace", some .trace)]

def ofNumber? : Nat → Option Verbosity
  | 0 => some none
  | 1 => some (some .error)
  | 2 => some (some .warn)
  | 3 => some (some .info)
  | 4 => some (some .debug)
  | 5 => some (some .trace)
  | _ => none

def number? (t : Text) : Option Nat :=
  let digits := if t.head? = some '+' then t.drop 1 else t
  if !digits.isEmpty && digits.all Char.isDigit then some (digitsValue digits) else none

/-- The verbosity of a text: a number up to five, or a name in letters of any case. -/
def ofText? (t : Text) : Option Verbosity :=
  match number? t with
  | some n => ofNumber? n
  | none => (names.find? fun entry => entry.1.toList == t.map Char.toLower).map Prod.snd

end Verbosity

/--
The verbosity for a target, for events that have some fields. A directive may be about spans or the
values of fields as well; as no event here is within a span, it then enables nothing.
-/
structure Directive where
  verbosity : Verbosity
  target : Option Text
  fields : List Text
  ofSpans : Bool
  deriving DecidableEq, Repr

inductive DirectiveError where
  | verbosity
  | shape
  deriving DecidableEq, Repr

def DirectiveError.message : DirectiveError → Text
  | .verbosity =>
    ("error parsing level filter: expected one of \"off\", \"error\", \"warn\", \"info\", " ++
      "\"debug\", \"trace\", or a number 0-5").toList
  | .shape => "invalid filter directive".toList

namespace Directive

/-- Where the reading of a directive stands; numbers tell where a part has begun. -/
inductive Stage where
  | start
  | levelOrTarget (begun : Nat)
  | span (begun : Nat)
  | field (begun : Nat)
  | fieldsClosed
  | spanClosed
  | level (begun : Nat)
  deriving DecidableEq, Repr

structure Reading where
  stage : Stage
  directive : Directive
  deriving Repr

def slice (t : Text) (start stop : Nat) : Text :=
  (t.take stop).drop start

def isStart (c : Char) : Bool :=
  c.isAlphanum || c == '-' || c == ':' || c == '_' || (0x80 ≤ c.toNat && !isSymbol c)

def verbosityOf (t : Text) : Except DirectiveError Verbosity :=
  if t.isEmpty then .ok (some .trace)
  else
    match Verbosity.ofText? t with
    | some v => .ok v
    | none => .error .verbosity

def addField (d : Directive) (t : Text) : Directive :=
  let name := t.takeWhile (· != '=')
  { d with fields := d.fields ++ [name], ofSpans := d.ofSpans || t.contains '=' }

def step (t : Text) (r : Reading) (index : Nat) (c : Char) : Except DirectiveError Reading :=
  let d := r.directive
  match r.stage with
  | .start =>
    if c = '[' then .ok ⟨.span (index + 1), d⟩
    else if isStart c then .ok ⟨.levelOrTarget index, d⟩
    else .error .shape
  | .levelOrTarget begun =>
    if c = '=' then .ok ⟨.level (index + 1), { d with target := some (slice t begun index) }⟩
    else if c = '[' then .ok ⟨.span (index + 1), { d with target := some (slice t begun index) }⟩
    else .ok r
  | .span begun =>
    if c = ']' then .ok ⟨.spanClosed, { d with ofSpans := true }⟩
    else if c = '\x7b' then
      .ok ⟨.field (index + 1), { d with ofSpans := !(slice t begun index).isEmpty }⟩
    else .ok r
  | .field begun =>
    if c = '\x7d' ∨ c = ',' then
      let name := slice t begun index
      if name.isEmpty then .error .shape
      else .ok ⟨if c = ',' then .field (index + 1) else .fieldsClosed, addField d name⟩
    else .ok r
  | .fieldsClosed => if c = ']' then .ok ⟨.spanClosed, d⟩ else .error .shape
  | .spanClosed => if c = '=' then .ok ⟨.level (index + 1), d⟩ else .error .shape
  | .level _ => .ok r

def steps (t : Text) (r : Reading) (index : Nat) : Text → Except DirectiveError Reading
  | [] => .ok r
  | c :: rest => do
    let r ← step t r index c
    steps t r (index + 1) rest

/--
The directive that a text is. White space at its ends is skipped, but the parts are cut out of the
whole text, at the indexes that they have without it.
-/
def parse (t : Text) : Except DirectiveError Directive := do
  let r ← steps t ⟨.start, ⟨some .trace, none, [], false⟩⟩ 0 (trim t)
  match r.stage with
  | .levelOrTarget begun =>
    match Verbosity.ofText? (t.drop begun) with
    | some v => .ok { r.directive with verbosity := v, target := none }
    | none => .ok { r.directive with target := some (t.drop begun) }
  | .level begun => do
    let v ← verbosityOf (t.drop begun)
    .ok { r.directive with verbosity := v }
  | .spanClosed => .ok r.directive
  | _ => .error .shape

def isAbout (d : Directive) (e : Event) : Bool :=
  d.target.all (fun target => target.isPrefixOf e.target) &&
    d.fields.all fun name => name = "message".toList || (e.fields.lookup name).isSome

def isLess (a b : Text) : Bool :=
  decide (a < b)

/-- Whether the first directive that differs is the greater one. -/
def isMoreSpecific (a b : Directive) : Bool :=
  let size (d : Directive) : Nat := match d.target with
    | none => 0
    | some t => Utf8.size t + 1
  if size a ≠ size b then size b < size a
  else if a.fields.length ≠ b.fields.length then b.fields.length < a.fields.length
  else if a.target ≠ b.target then isLess (b.target.getD []) (a.target.getD [])
  else decide (b.fields < a.fields)

/-- A list of directives, most specific first, with one put in; it replaces its like. -/
def insert (d : Directive) : List Directive → List Directive
  | [] => [d]
  | e :: es =>
    if e.target = d.target ∧ e.fields = d.fields then d :: es
    else if isMoreSpecific d e then d :: e :: es
    else e :: insert d es

end Directive

structure Filter where
  directives : List Directive
  deriving DecidableEq, Repr

namespace Filter

def ofDirectives (ds : List Directive) : Filter :=
  let events := ds.filter fun d => !d.ofSpans
  let plain := events.filter fun d => d.fields.isEmpty
  let withFields := events.filter fun d => !d.fields.isEmpty
  ⟨(plain ++ withFields).foldl (fun done d => Directive.insert d done) []⟩

def enables (f : Filter) (e : Event) : Bool :=
  match f.directives.find? fun d => d.isAbout e with
  | some d => d.verbosity.any fun level => e.level.rank ≤ level.rank
  | none => false

def parts (t : Text) : List Text :=
  (split t).filter fun p => !p.isEmpty
where
  split : Text → List Text
    | [] => [[]]
    | c :: t =>
      match split t with
      | [] => [[c]]
      | p :: ps => if c = ',' then [] :: p :: ps else (c :: p) :: ps

def parse? (t : Text) : Option Filter :=
  match (parts t).mapM Directive.parse with
  | .ok ds => some (ofDirectives ds)
  | .error _ => none

/-- The filter of the parts of a text that are directives, and a notice on each other part. -/
def parseLossy (t : Text) : Filter × List Text :=
  let read := (parts t).map fun p => (p, Directive.parse p)
  let directives := read.filterMap fun r => r.2.toOption
  let notices := read.filterMap fun r =>
    match r.2 with
    | .ok _ => none
    | .error e => some ("ignoring `".toList ++ r.1 ++ "`: ".toList ++ e.message)
  (ofDirectives directives, notices)

def expand (level : Text) : Text :=
  if level.contains '=' then level
  else "jsontocsv=".toList ++ level ++ ",jsontocsv_core=".toList ++ level

def level (verbose : Bool) (given : Option Text) : Text :=
  given.getD (if verbose then "debug".toList else "warn".toList)

/--
The filter of a run, with its notices: that of the first variable that holds one, else that of the
command line.
-/
def choose (sources : List (Option Bytes)) (verbose : Bool) (given : Option Text) :
    Filter × List Text :=
  let fromSource (v : Option Bytes) : Option Filter := do
    let t ← Utf8.decode? (← v)
    parse? t
  match sources.findSome? fromSource with
  | some f => (f, [])
  | none => parseLossy (expand (level verbose given))

end Filter

end RecordSheet.Log
