/-! The tags of YAML nodes.

A tag says what a node is to be read as. The tags of the standard types are known by
name; all others are one case, since no node that has one of them can be read. -/
namespace MigrationSetup.Yaml

inductive Tag
  | null
  | bool
  | int
  | float
  | binary
  | timestamp
  | omap
  | pairs
  | set
  | str
  | seq
  | map
  /-- The key that takes in other mappings. -/
  | merge
  /-- The key of the main value of a mapping. -/
  | value
  | other
deriving DecidableEq, Repr

namespace Tag

/-- What the full names of the standard types start with. -/
def standardPrefix : String := "tag:yaml.org,2002:"

/-- The standard tags that a document may give, with their names. -/
def named : List (String × Tag) :=
  [("null", .null), ("bool", .bool), ("int", .int), ("float", .float), ("binary", .binary),
    ("timestamp", .timestamp), ("omap", .omap), ("pairs", .pairs), ("set", .set), ("str", .str),
    ("seq", .seq), ("map", .map), ("merge", .merge), ("value", .value)]

/-- The tag with a full name. -/
def ofName (name : List Char) : Tag :=
  match named.find? fun t => (standardPrefix ++ t.1).toList == name with
  | some t => t.2
  | none => .other

end Tag
end MigrationSetup.Yaml
