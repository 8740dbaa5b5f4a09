/-
Tables under construction.

A table knows how it came about: by its own header or braces, or implicitly, as a step on the way to something else; and
an implicit one, whether the step was a dotted key. A header may adopt a table that another header's path made, but not
one that a dotted key made; a dotted key may only pass through tables that are implicit. No key is ever set twice.
-/
import EdgeTunnel.Document.Data

namespace EdgeTunnel.Toml

/-- how a table came about -/
inductive Origin where
  | explicit
  | header
  | dotted
  deriving DecidableEq, Repr

mutual

/-- what a key stands for: a value, a table, or an array of tables -/
inductive Node where
  | leaf (x : Data)
  | table (t : Table)
  | tables (earlier : List Table) (last : Table)

/-- an origin and the entries in order -/
inductive Table where
  | mk (origin : Origin) (entries : List (String × Node))

end

namespace Table

def origin : Table → Origin
  | .mk o _ => o

def entries : Table → List (String × Node)
  | .mk _ es => es

def empty (o : Origin) : Table := .mk o []

/-- what a key stands for -/
def get? (t : Table) (k : String) : Option Node := t.entries.lookup k

/-- the table with a key set, in place when it is there and at the end when it is not -/
def put (t : Table) (k : String) (x : Node) : Table :=
  .mk t.origin <|
    if t.entries.any (·.1 == k) then t.entries.map fun e => if e.1 == k then (k, x) else e
    else t.entries ++ [(k, x)]

/-- a header with this path: the table it opens is new, or implicit by another header -/
def openTable (t : Table) : List String → Option Table
  | [] => none
  | [k] =>
    match t.get? k with
    | none => some (t.put k (.table (empty .explicit)))
    | some (.table (.mk .header es)) => some (t.put k (.table (.mk .explicit es)))
    | some _ => none
  | k :: rest =>
    match t.get? k with
    | none => (openTable (empty .header) rest).map fun u => t.put k (.table u)
    | some (.table u) => (u.openTable rest).map fun u => t.put k (.table u)
    | some (.tables us u) => (u.openTable rest).map fun u => t.put k (.tables us u)
    | some (.leaf _) => none

/-- an array header with this path: a new last table of the array -/
def openElement (t : Table) : List String → Option Table
  | [] => none
  | [k] =>
    match t.get? k with
    | none => some (t.put k (.tables [] (empty .explicit)))
    | some (.tables us u) => some (t.put k (.tables (us ++ [u]) (empty .explicit)))
    | some _ => none
  | k :: rest =>
    match t.get? k with
    | none => (openElement (empty .header) rest).map fun u => t.put k (.table u)
    | some (.table u) => (u.openElement rest).map fun u => t.put k (.table u)
    | some (.tables us u) => (u.openElement rest).map fun u => t.put k (.tables us u)
    | some (.leaf _) => none

/-- a new key in a table; `dotted` when a dotted key led to the table -/
def addKey (t : Table) (dotted : Bool) (k : String) (x : Data) : Option Table :=
  if dotted != (t.origin == .dotted) then none
  else
    match t.get? k with
    | none => some (t.put k (.leaf x))
    | some _ => none

/-- a value under a dotted key: `path` leads to the table, `k` is the key in it -/
def addDotted (t : Table) (dotted : Bool) (path : List String) (k : String) (x : Data) : Option Table :=
  match path with
  | [] => t.addKey dotted k x
  | p :: rest =>
    match t.get? p with
    | none => (addDotted (empty .dotted) true rest k x).map fun u => t.put p (.table u)
    | some (.table u) =>
      if u.origin = .explicit then none else (u.addDotted true rest k x).map fun u => t.put p (.table u)
    | some (.tables us u) => (u.addDotted true rest k x).map fun u => t.put p (.tables us u)
    | some (.leaf _) => none

/-- a value under a dotted key inside the table that a header opened -/
def addUnder (t : Table) (header path : List String) (k : String) (x : Data) : Option Table :=
  match header with
  | [] => t.addDotted false path k x
  | h :: rest =>
    match t.get? h with
    | some (.table u) => (u.addUnder rest path k x).map fun u => t.put h (.table u)
    | some (.tables us u) => (u.addUnder rest path k x).map fun u => t.put h (.tables us u)
    | _ => none

mutual

/-- the finished record of a table -/
def toData : Table → Data
  | .mk _ es => .record (entriesToData es)

def entriesToData : List (String × Node) → List (Option String × Data)
  | [] => []
  | (k, n) :: r => (some k, nodeToData n) :: entriesToData r

def nodeToData : Node → Data
  | .leaf x => x
  | .table t => toData t
  | .tables us u => .list (tablesToData us ++ [toData u])

def tablesToData : List Table → List Data
  | [] => []
  | t :: r => toData t :: tablesToData r

end

end Table

end EdgeTunnel.Toml
