import MigrationSetup.Graph.Basic
import MigrationSetup.Yaml.Node

/-! From the nodes of a YAML text to what they mean.

Scalars are values, and collections are objects under the numbers of their nodes. The
collections are built in the order in which they are found, from the outside to the
inside, so that of several faults the outermost is met first. A mapping first takes in
the mappings under its merge keys (`flatten`): their entries come in front of its own,
which therefore win, and of several mappings the first one wins. -/
namespace MigrationSetup.Yaml
namespace Build

/-- What has been built, and what is left. -/
structure State where
  table : Array Node
  objects : Objects
  /-- What the scalars read so far mean. -/
  scalars : Array (Option Value)
  /-- The collections found so far. -/
  known : List Nat
  /-- The collections that are still to be built. -/
  waiting : List Nat
  /-- Whether a collection was found twice. -/
  isShared : Bool

abbrev Step := StateT State (Except Fault)

/-- The node with a number. -/
def nodeAt (table : Array Node) (id : Nat) : Node := (table[id]?).getD ⟨.other, .scalar []⟩

def node (id : Nat) : Step Node := return nodeAt (← get).table id

/-! ### Scalars -/

/-- The text of a scalar. That of a mapping is the text under its value key. -/
def text (table : Array Node) : Nat → Nat → Except Fault Text
  | 0, _ => .error .endless
  | fuel + 1, id =>
    match (nodeAt table id).content with
    | .scalar t => .ok t
    | .sequence _ => .error .malformed
    | .mapping es =>
      match es.find? fun e => (nodeAt table e.1).tag == .value with
      | some (_, v) => text table fuel v
      | none => .error .malformed

/-- What a scalar means. A result that is no number has the name of its node. -/
def scalar (table : Array Node) (id : Nat) : Except Fault Value := do
  let n := nodeAt table id
  if [Tag.merge, .value, .other].contains n.tag then throw .malformed
  let t ← text table (table.size + 1) id
  match n.tag, n.content with
  | .timestamp, .mapping _ => throw .timestampMapping
  | tag, _ =>
    match ← Scalar.read tag t with
    | .float .nan => return .nan (id + 1)
    | v => return v

/-- Whether the nodes with a tag are objects. -/
def isCollection : Tag → Bool
  | .seq => true
  | .map => true
  | .set => true
  | .omap => true
  | .pairs => true
  | _ => false

/-- What a node means. A scalar is read once, and the parts of a collection are left for
later. -/
def reference (id : Nat) : Step Ref := do
  let s ← get
  let n := nodeAt s.table id
  if isCollection n.tag then
    if s.known.contains id then set { s with isShared := true }
    else set { s with known := id :: s.known, waiting := s.waiting ++ [id] }
    return .object id
  else
    match (s.scalars[id]?).join with
    | some v => return .value v
    | none =>
      let v ← scalar s.table id
      set { s with scalars := s.scalars.setIfInBounds id (some v) }
      return .value v

/-! ### Mappings -/

def entries (id : Nat) : Step (List (Nat × Nat)) := do
  match (← node id).content with
  | .mapping es => return es
  | _ => throw .malformed

def setEntries (id : Nat) (es : List (Nat × Nat)) : Step Unit :=
  modify fun s => { s with table := s.table.modify id fun n => { n with content := .mapping es } }

/-- Makes a key that is tagged as the main value an ordinary one. -/
def settleKey (id : Nat) : Step Unit :=
  modify fun s => { s with table := s.table.modify id fun n =>
    if n.tag = .value then { n with tag := .str } else n }

/-- The mappings that stand under a merge key. -/
def sources (id : Nat) : Step (List Nat) := do
  match (← node id).content with
  | .mapping _ => return [id]
  | .sequence items => return items
  | .scalar _ => throw .malformed

/-- Takes the mappings under merge keys into a mapping, one key after the other. `taken`
is what the keys before have brought. -/
def flatten : Nat → List (Nat × Nat) → Nat → Step Unit
  | 0, _, _ => throw .endless
  | fuel + 1, taken, id => do
    let es ← entries id
    let table := (← get).table
    match es.findIdx? fun e => (nodeAt table e.1).tag == .merge with
    | none =>
      es.forM fun e => settleKey e.1
      setEntries id (taken ++ es)
    | some i =>
      setEntries id (es.eraseIdx i)
      let found ← (← (es[i]?).elim (pure []) fun e => sources e.2).mapM fun source => do
        flatten fuel [] source
        entries source
      flatten fuel (taken ++ found.reverse.flatten) id

/-- Fuel for taking in mappings: each step removes a merge key or is the last one for its
mapping. -/
def flattenFuel (table : Array Node) : Nat :=
  table.foldl (fun n node => n + match node.content with
    | .mapping es => 2 * es.length
    | _ => 0) 2

/-- The entries of a mapping, once it has taken in what it merges. -/
def dict (id : Nat) : Step (Table Ref) := do
  let _ ← entries id
  flatten (flattenFuel (← get).table) [] id
  (← entries id).foldlM (fun t e => do
    match ← reference e.1 with
    | .object _ => throw .malformed
    | .value k => return t.put k (← reference e.2)) []

/-! ### Collections -/

/-- The single entry of a mapping. -/
def pair (id : Nat) : Step (Ref × Ref) := do
  match ← entries id with
  | [(k, v)] => return (← reference k, ← reference v)
  | _ => throw .malformed

/-- What a collection holds. -/
def shape (id : Nat) : Step Shape := do
  let n ← node id
  match n.tag, n.content with
  | .seq, .sequence items => return .list (← items.mapM reference)
  | .omap, .sequence items => return .pairs (← items.mapM pair)
  | .pairs, .sequence items => return .pairs (← items.mapM pair)
  | .map, _ => return .dict (← dict id)
  | .set, _ => return .set (← dict id).keys
  | _, _ => throw .malformed

/-- Builds the collections that are waiting, of which each node is one at most once. -/
def all : Nat → Step Unit
  | 0 => return
  | fuel + 1 => do
    match (← get).waiting with
    | [] => return
    | id :: rest =>
      modify fun s => { s with waiting := rest }
      let found ← shape id
      modify fun s => { s with objects := s.objects.setIfInBounds id found }
      all fuel

/-- What the outermost node means, once all collections are built. -/
def root (nodes : Nodes) : Step Ref := do
  let found ← reference nodes.root
  all (nodes.table.size + 1)
  return found

end Build

/-- The graph of a table of nodes. -/
def Nodes.graph (nodes : Nodes) : Except Fault Graph := do
  let count := nodes.table.size
  let (root, s) ← (Build.root nodes).run
    ⟨nodes.table, .replicate count default, .replicate count none, [], [], false⟩
  return ⟨s.objects, root, s.isShared⟩

end MigrationSetup.Yaml
