/-! The tables of a settings file and how its parts enter them. A table may be opened by one header
only, a key is given once, and what dotted keys or braces have made is closed to headers. -/
namespace VersionedLedger.Toml

inductive Value
  | text (s : String)
  | whole (n : Int)
  | real (x : Float)
  | flag (b : Bool)
  /-- A date or a time; no setting takes one. -/
  | moment
  | list (items : List Value)
  | table (members : List (String × Value))

inductive TableForm
  /-- By its own header, or as the table that the file itself is. -/
  | declared
  /-- As a part of the path in another table's header. -/
  | implied
  | dotted
  deriving DecidableEq, Repr

inductive Node
  | value (v : Value)
  | table (form : TableForm) (members : List (String × Node))
  /-- One table for each header in double brackets. -/
  | tables (items : List (List (String × Node)))

abbrev Members := List (String × Node)

namespace Members

def find? (m : Members) (key : String) : Option Node := m.lookup key

def set (m : Members) (key : String) (n : Node) : Members :=
  if m.any (·.1 == key) then m.map fun p => if p.1 == key then (key, n) else p
  else m ++ [(key, n)]

def updateLast (f : Members → Option Members) : List Members → Option (List Members)
  | [] => none
  | [last] => (f last).map fun m => [m]
  | first :: rest => (updateLast f rest).map (first :: ·)

def enter (m : Members) (key : String) (v : Value) : Option Members :=
  if m.any (·.1 == key) then none else some (m ++ [(key, .value v)])

/-- Gives a dotted key its value. Tables on the way are made as needed; those that a header made
stay closed. -/
def put : List String → String → Value → Members → Option Members
  | [], key, v, m => m.enter key v
  | first :: rest, key, v, m =>
    match m.find? first with
    | none => (put rest key v []).map fun c => m.set first (.table .dotted c)
    | some (.table .dotted c) => (put rest key v c).map fun c => m.set first (.table .dotted c)
    | some (.table .implied c) =>
      if rest.isEmpty then none
      else (put rest key v c).map fun c => m.set first (.table .implied c)
    | some (.tables items) =>
      if rest.isEmpty then none
      else (updateLast (put rest key v) items).map fun items => m.set first (.tables items)
    | _ => none

def update (f : Members → Option Members) : List String → Members → Option Members
  | [], m => f m
  | first :: rest, m =>
    match m.find? first with
    | none => (update f rest []).map fun c => m.set first (.table .implied c)
    | some (.table form c) => (update f rest c).map fun c => m.set first (.table form c)
    | some (.tables items) =>
      (updateLast (update f rest) items).map fun items => m.set first (.tables items)
    | some (.value _) => none

def declare (key : String) (m : Members) : Option Members :=
  match m.find? key with
  | none => some (m.set key (.table .declared []))
  | some (.table .implied c) => some (m.set key (.table .declared c))
  | _ => none

def declareNext (key : String) (m : Members) : Option Members :=
  match m.find? key with
  | none => some (m.set key (.tables [[]]))
  | some (.tables items) => some (m.set key (.tables (items ++ [[]])))
  | _ => none

end Members

mutual

def Node.close : Node → Value
  | .value v => v
  | .table _ m => .table (closeMembers m)
  | .tables items => .list (closeTables items)

def closeMembers : List (String × Node) → List (String × Value)
  | [] => []
  | p :: rest => closePair p :: closeMembers rest

def closePair : String × Node → String × Value
  | (key, n) => (key, n.close)

def closeTables : List (List (String × Node)) → List Value
  | [] => []
  | m :: rest => .table (closeMembers m) :: closeTables rest

end

structure Path where
  tables : List String
  key : String
  deriving DecidableEq, Repr

namespace Path

def toList (p : Path) : List String := p.tables ++ [p.key]

end Path

inductive Statement
  | header (p : Path)
  | listHeader (p : Path)
  | entry (p : Path) (v : Value)

structure Draft where
  root : Members := []
  current : List String := []

namespace Draft

def add (d : Draft) : Statement → Option Draft
  | .header p =>
    (d.root.update (Members.declare p.key) p.tables).map fun root => ⟨root, p.toList⟩
  | .listHeader p =>
    (d.root.update (Members.declareNext p.key) p.tables).map fun root => ⟨root, p.toList⟩
  | .entry p v =>
    (d.root.update (Members.put p.tables p.key v) d.current).map fun root => { d with root }

def ofStatements (statements : List Statement) : Option Draft := statements.foldlM add {}

end Draft

end VersionedLedger.Toml
