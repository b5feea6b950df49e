import MigrationSetup.Graph.Merge
import MigrationSetup.Json.Reader
import MigrationSetup.Yaml.Build
import MigrationSetup.Yaml.Tokens

/-! What a settings file says.

A document is read from YAML or from JSON. Most documents are plain values. A YAML
document that uses a part of itself in several places is kept as a graph, for what is
laid over one of these places shows in the others. -/
namespace MigrationSetup

inductive Document
  | plain (v : Value)
  | shared (g : Graph)

namespace Document

/-- The document of a file without content. -/
def empty : Document := .plain (.dict [])

def ofGraph (g : Graph) : Document :=
  if g.isShared then .shared g else .plain g.anonymous.unfold

/-- A document in JSON. -/
def ofJson (cs : List Char) : Except Failure Document := (Json.read cs).map .plain

/-- A document in YAML. -/
def ofYaml (s : Yaml.Source) : Except Failure Document := do
  match ← (Yaml.Nodes.ofTokens (Yaml.Tokens.ofSource s)).mapError .yaml with
  | none => return .plain .null
  | some nodes => return ofGraph (← nodes.graph.mapError .yaml)

/-- A document with nothing in it is an empty dict, and one that is no dict is refused. -/
def requireDict : Document → Except SettingError Document
  | .plain .null => .ok empty
  | .plain (.dict es) => .ok (.plain (.dict es))
  | .plain v => .error (.rootKind v.kind)
  | .shared g =>
    if (g.root.dict? g.objects).isSome then .ok (.shared g)
    else .error (.rootKind (g.root.face g.objects).kind)

def graph : Document → Graph
  | .plain v => .ofValue v
  | .shared g => g

/-- The document as a value. -/
def value : Document → Value
  | .plain v => v
  | .shared g => g.unfold

/-- Lays `override` over `base`. -/
def merge (base override : Document) : Except Failure Document :=
  match base, override with
  | .plain b, .plain o => (Value.merge b o).map .plain |>.mapError .setting
  | b, o => (b.graph.merge o.graph).map .shared

end Document
end MigrationSetup
