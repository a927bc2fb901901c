import RecordSheet.Toml.Scalar
import RecordSheet.Toml.Statement

namespace RecordSheet.Toml

/-- How a table came about: on the way of a header or a key, by a dotted key, within braces. -/
structure Origin where
  implicit : Bool
  dotted : Bool
  braced : Bool
  deriving DecidableEq, Repr

inductive Value where
  | scalar (value : Scalar)
  | array (ofTables : Bool) (items : List (Span × Value))
  | table (origin : Origin) (entries : List (Text × Span × Value))
  deriving Repr

def Value.typeName : Value → String
  | .scalar (.string _) => "string"
  | .scalar (.integer _) => "integer"
  | .scalar (.float _) => "float"
  | .scalar (.boolean _) => "boolean"
  | .scalar .dateTime => "datetime"
  | .array _ _ => "array"
  | .table origin _ => if origin.braced then "inline table" else "table"

structure KeyPart where
  text : Text
  span : Span
  deriving DecidableEq, Repr

structure Table where
  origin : Origin
  entries : List (Text × Span × Value)
  deriving Repr

/-- What goes down a path of tables: a header, a dotted key, a dotted key within braces. -/
inductive Descent where
  | header
  | dotted
  | braced
  deriving DecidableEq, Repr

def Descent.origin : Descent → Origin
  | .header => ⟨true, false, false⟩
  | .dotted => ⟨true, true, false⟩
  | .braced => ⟨true, true, true⟩

namespace Table

def empty : Table :=
  ⟨⟨false, false, false⟩, []⟩

def duplicate (k : KeyPart) : Fault :=
  .plain "duplicate key" k.span

def find? (t : Table) (key : Text) : Option (Span × Value) :=
  t.entries.lookup key

def add (t : Table) (key : Text) (span : Span) (value : Value) : Table :=
  { t with entries := t.entries ++ [(key, span, value)] }

def replace (t : Table) (key : Text) (value : Value) : Table :=
  { t with entries := t.entries.map fun e => if e.1 = key then (e.1, e.2.1, value) else e }

def remove (t : Table) (key : Text) : Table :=
  { t with entries := t.entries.filter fun e => e.1 ≠ key }

def notExtensible (k : KeyPart) (v : Value) : Fault :=
  .plain ("cannot extend value of type " ++ v.typeName ++ " with a dotted key") k.span

/-- Changes the table at the end of a path, and tells what the change tells. -/
def changeAt {α : Type} (descent : Descent) (change : Table → Except Fault (Table × α)) :
    List KeyPart → Table → Except Fault (Table × α)
  | [], t => change t
  | k :: ks, t =>
    match t.find? k.text with
    | none => do
      let (inner, a) ← changeAt descent change ks ⟨descent.origin, []⟩
      .ok (t.add k.text k.span (.table inner.origin inner.entries), a)
    | some (_, .table origin entries) =>
      if origin.braced && descent ≠ .braced then .error (notExtensible k (.table origin entries))
      else if descent ≠ .header && !origin.implicit then .error (duplicate k)
      else do
        let (inner, a) ← changeAt descent change ks ⟨origin, entries⟩
        .ok (t.replace k.text (.table inner.origin inner.entries), a)
    | some (_, .array true items) =>
      match items.getLast? with
      | some (span, .table origin entries) => do
        let (inner, a) ← changeAt descent change ks ⟨origin, entries⟩
        let last := (span, Value.table inner.origin inner.entries)
        .ok (t.replace k.text (.array true (items.dropLast ++ [last])), a)
      | _ => .error (notExtensible k (.array true items))
    | some (_, v) => .error (notExtensible k v)

def insert (descent : Descent) (path : List KeyPart) (key : KeyPart) (span : Span) (value : Value)
    (t : Table) : Except Fault Table := do
  let (t, _) ← changeAt descent (α := Unit) (fun parent =>
    if parent.origin.dotted == path.isEmpty || (parent.find? key.text).isSome then
      .error (duplicate key)
    else .ok (parent.add key.text span value, ())) path t
  .ok t

end Table

def pathLimit : Nat :=
  80

namespace Key

def readParts (tokens : List Token) : Except Fault (List KeyPart × KeyPart) := do
  let parts ← tokens.mapM fun t => do
    let text ← Key.read t
    .ok (KeyPart.mk text ⟨t.start, t.stop⟩)
  match parts.getLast? with
  | some last =>
    if pathLimit < parts.length then .error ⟨"recursion limit", none, none⟩
    else .ok (parts.dropLast, last)
  | none => .error ⟨"recursion limit", none, none⟩

end Key

mutual

def readExpr : Expr → Except Fault (Span × Value)
  | .scalar token => do
    let s ← Scalar.read token
    .ok (⟨token.start, token.stop⟩, .scalar s)
  | .array span items => do
    let items ← readExprs items
    .ok (span, .array false items)
  | .inlineTable span pairs => do
    let t ← readPairs ⟨⟨false, false, true⟩, []⟩ pairs
    .ok (span, .table t.origin t.entries)

def readExprs : List Expr → Except Fault (List (Span × Value))
  | [] => .ok []
  | e :: es => do
    let v ← readExpr e
    let vs ← readExprs es
    .ok (v :: vs)

def readPairs (t : Table) : List (List Token × Expr) → Except Fault Table
  | [] => .ok t
  | (key, e) :: pairs => do
    let (path, last) ← Key.readParts key
    let (span, v) ← readExpr e
    let t ← t.insert .braced path last span v
    readPairs t pairs

end

structure Header where
  ofSeveral : Bool
  path : List KeyPart
  key : KeyPart
  span : Span
  deriving Repr

/-- A document in parts: what is complete, the table that is open, and its header. -/
structure Builder where
  root : Table
  current : Table
  header : Option Header
  deriving Repr

namespace Builder

def close (b : Builder) : Except Fault Table :=
  match b.header with
  | none => .ok b.current
  | some h => do
    let table := Value.table b.current.origin b.current.entries
    let (root, _) ← Table.changeAt .header (α := Unit) (fun parent =>
      if h.ofSeveral then
        match parent.find? h.key.text with
        | some (_, .array true items) =>
          .ok (parent.replace h.key.text (.array true (items ++ [(h.span, table)])), ())
        | none => .ok (parent.add h.key.text h.span (.array true [(h.span, table)]), ())
        | some _ => .error (Table.duplicate h.key)
      else .ok (parent.add h.key.text h.span table, ())) h.path b.root
    .ok root

/-- What an opened table has in it already: what headers below it have put there. -/
def opened (h : Header) (parent : Table) : Except Fault (Table × Table) :=
  match parent.find? h.key.text with
  | none => .ok (parent, .empty)
  | some (_, v) =>
    match h.ofSeveral, v with
    | true, .array true _ => .ok (parent, .empty)
    | false, .table origin entries =>
      if origin.implicit && !origin.dotted then
        .ok (parent.remove h.key.text, ⟨Table.empty.origin, entries⟩)
      else .error (Table.duplicate h.key)
    | _, _ => .error (Table.duplicate h.key)

def step (b : Builder) : Statement → Except Fault Builder
  | .pair key e => do
    let (path, last) ← Key.readParts key
    let (span, v) ← readExpr e
    let current ← b.current.insert .dotted path last span v
    .ok { b with current }
  | .header ofSeveral key span => do
    let root ← b.close
    let (path, last) ← Key.readParts key
    let h : Header := ⟨ofSeveral, path, last, span⟩
    let (root, current) ← Table.changeAt .header (opened h) path root
    .ok ⟨root, current, some h⟩

end Builder

namespace Document

def read (source : Text) : Except Fault (List (Text × Span × Value)) := do
  let statements ← Statement.list source
  let b ← statements.foldlM Builder.step ⟨.empty, .empty, none⟩
  let t ← b.close
  .ok t.entries

end Document

end RecordSheet.Toml
