import MigrationSetup.Failure
import MigrationSetup.Graph.Basic
import MigrationSetup.Settings.Merge

/-! Laying one graph over another.

The rules are those for values. A dict of the base is changed where it stands, so every
place that shares it shows the change, while a value that takes the place of another
changes that place alone. What comes from the override is copied entry by entry and
shares nothing with other entries.

Laying a graph over one that holds itself need not end, so it gives up at some depth
(`maxDepth`). That stands for the limit on nested calls there only: the limit is left out
elsewhere, and values without sharing may be nested as deeply as they come. -/
namespace MigrationSetup.Graph

/-- How far down dicts may be merged. Only graphs that hold themselves go further. -/
def maxDepth : Nat := 1000

/-- A copy of `r` and of all that it holds. -/
def copyIn (source : Objects) (r : Ref) (objects : Objects) : Ref × Objects :=
  match r with
  | .value v => (.value v, objects)
  | .object id => (.object (objects.size + id), objects ++ source.map (Shape.shift objects.size))

/-- Puts a copy of `r` under a key of the dict `id`. -/
def putCopy (source : Objects) (id : Nat) (k : Value) (r : Ref) (objects : Objects) : Objects :=
  let (r, objects) := copyIn source r objects
  objects.setIfInBounds id (.dict ((objects.entries id).put k r))

/-- Lays one entry over the dict `id` of `objects`. Where dicts meet `below` goes on. -/
def mergeEntry (override : Objects)
    (below : List Text → Nat → Table Ref → Objects → Except Failure Objects)
    (path : List Text) (id : Nat) (objects : Objects) (e : Value × Ref) :
    Except Failure Objects :=
  let (k, r) := e
  if k.hasLong then .error (.setting .longNumber)
  else
    match (objects.entries id).get? k with
    | none => .ok (putCopy override id k r objects)
    | some current =>
      match r.dict? override, current.dict? objects with
      | some o, some c => below (path ++ [k.spelled]) c (override.entries o) objects
      | _, _ =>
        let face := r.face override
        let under := current.face objects
        if under.yieldsTo face then .ok (putCopy override id k r objects)
        else .error (.setting (.conflict (path ++ [k.spelled]) under.kind face.kind))

/-- Lays entries over the dict `id` of `objects`. -/
def mergeInto (override : Objects) :
    Nat → List Text → Nat → Table Ref → Objects → Except Failure Objects
  | 0, _, _, _, _ => .error .endlessMerge
  | fuel + 1, path, id, es, objects =>
    es.foldlM (mergeEntry override (mergeInto override fuel) path id) objects

/-- Lays `override` over `base`. A graph has no more names than objects. -/
def merge (base override : Graph) : Except Failure Graph :=
  let override := override.apart base.objects.size
  match base.root.dict? base.objects, override.root.dict? override.objects with
  | some b, some o => do
    let objects ←
      mergeInto override.objects maxDepth [] b (override.objects.entries o) base.objects
    return ⟨objects, .object b, true⟩
  | _, _ =>
    let kind (g : Graph) : Kind := (g.root.face g.objects).kind
    .error (.setting (.layerKinds (kind base) (kind override)))

end MigrationSetup.Graph
