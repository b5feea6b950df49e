import MigrationSetup.Value.Key

/-! Values that share parts.

A settings file may give a part of itself a name and use it in several places, and all
of these are one object: what is laid over one of them shows in the others. A `Graph`
is the objects by number, and what they hold refers to them by number (`Ref`). A graph
can be unfolded to a value (`Ref.unfold`); where an object holds itself the value has a
`loop`. Results that are no numbers are told apart by name, and no two graphs have a name
in common once one of them is set apart (`Graph.apart`). -/
namespace MigrationSetup

/-- A result that is no number under another name, the constant and all else as it is. -/
def Value.renamed (name : Nat → Value) : Value → Value
  | .nan (n + 1) => name n
  | v => v

/-- What cannot change, or the number of an object. -/
inductive Ref
  | value (v : Value)
  | object (id : Nat)
deriving Inhabited

/-- What an object holds. -/
inductive Shape
  | list (items : List Ref)
  /-- A list of pairs. -/
  | pairs (items : List (Ref × Ref))
  | dict (entries : Table Ref)
  | set (items : List Value)
deriving Inhabited

abbrev Objects := Array Shape

structure Graph where
  objects : Objects
  root : Ref
  /-- Whether an object stands in several places. -/
  isShared : Bool

namespace Shape

/-- A value of the same kind, without its parts. -/
def face : Shape → Value
  | .list _ => .loop true
  | .pairs _ => .loop true
  | .dict _ => .loop false
  | .set _ => .set []

end Shape

namespace Objects

/-- What an object holds. A number that belongs to no object is an empty list. -/
def shape (objects : Objects) (id : Nat) : Shape := (objects[id]?).getD (.list [])

/-- The entries of a dict. -/
def entries (objects : Objects) (id : Nat) : Table Ref :=
  match objects.shape id with
  | .dict es => es
  | _ => []

end Objects

namespace Ref

/-- The number of a dict. -/
def dict? (objects : Objects) : Ref → Option Nat
  | .value _ => none
  | .object id =>
    match objects.shape id with
    | .dict _ => some id
    | _ => none

/-- A value of the same kind, without its parts. -/
def face (objects : Objects) : Ref → Value
  | .value v => v
  | .object id => (objects.shape id).face

/-- The value of a reference inside the objects of `path`, with a `loop` where one of
these comes again. As none comes twice, the objects' count is fuel enough. -/
def unfoldIn (objects : Objects) : Nat → List Nat → Ref → Value
  | _, _, .value v => v
  | 0, _, .object id => (objects.shape id).face
  | fuel + 1, path, .object id =>
    if path.contains id then (objects.shape id).face
    else
      let part := unfoldIn objects fuel (id :: path)
      match objects.shape id with
      | .list items => .list (items.map part)
      | .pairs items => .list (items.map fun p => .tuple [part p.1, part p.2])
      | .dict es => .dict (es.map fun e => (e.1, part e.2))
      | .set items => .set items

/-- The value of a reference by itself. -/
def unfold (objects : Objects) (r : Ref) : Value := unfoldIn objects (objects.size + 1) [] r

/-- The reference to the same object behind `n` others. -/
def shift (n : Nat) : Ref → Ref
  | .value v => .value v
  | .object id => .object (n + id)

def renamed (name : Nat → Value) : Ref → Ref
  | .value v => .value (v.renamed name)
  | .object id => .object id

end Ref

namespace Shape

/-- The shape that refers to the same objects behind `n` others. -/
def shift (n : Nat) : Shape → Shape
  | .list items => .list (items.map (Ref.shift n))
  | .pairs items => .pairs (items.map fun p => (p.1.shift n, p.2.shift n))
  | .dict es => .dict (es.map fun e => (e.1, e.2.shift n))
  | .set items => .set items

def renamed (name : Nat → Value) : Shape → Shape
  | .list items => .list (items.map (Ref.renamed name))
  | .pairs items => .pairs (items.map fun p => (p.1.renamed name, p.2.renamed name))
  | .dict es => .dict (es.map fun e => (e.1.renamed name, e.2.renamed name))
  | .set items => .set (items.map (Value.renamed name))

end Shape

namespace Graph

def renamed (name : Nat → Value) (g : Graph) : Graph :=
  ⟨g.objects.map (Shape.renamed name), g.root.renamed name, g.isShared⟩

/-- The graph without names, where no result that is no number is a key twice. -/
def anonymous (g : Graph) : Graph := g.renamed fun _ => .float .nan

/-- The graph with names beyond the first `n`. -/
def apart (n : Nat) (g : Graph) : Graph := g.renamed fun m => .nan (m + 1 + n)

mutual

/-- Adds the dicts of a value, whose lists are left as they are. -/
def addValue (objects : Objects) : Value → Ref × Objects
  | .dict es =>
    let (es, objects) := addEntries objects es
    (.object objects.size, objects.push (.dict es))
  | v => (.value v, objects)

def addEntries (objects : Objects) : List (Value × Value) → Table Ref × Objects
  | [] => ([], objects)
  | (k, v) :: rest =>
    let (r, objects) := addValue objects v
    let (rest, objects) := addEntries objects rest
    ((k, r) :: rest, objects)

end

/-- The graph of a value, which shares nothing. -/
def ofValue (v : Value) : Graph :=
  let (root, objects) := addValue #[] v
  ⟨objects, root, false⟩

/-- The value of a graph. -/
def unfold (g : Graph) : Value := g.root.unfold g.objects

/-- The value of a graph whose entries are each unfolded by themselves, and so are the
entries of the dict under `key`. -/
def unfoldEntries (key : Value) (g : Graph) : Value :=
  match g.root.dict? g.objects with
  | none => g.unfold
  | some id => .dict ((g.objects.entries id).map fun (k, r) =>
    match r.dict? g.objects with
    | some id =>
      if Value.sameKey k key then
        (k, .dict ((g.objects.entries id).map fun e => (e.1, e.2.unfold g.objects)))
      else (k, r.unfold g.objects)
    | none => (k, r.unfold g.objects))

end Graph
end MigrationSetup
