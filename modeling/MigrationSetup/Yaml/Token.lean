import MigrationSetup.Yaml.Fault

/-! The tokens of a YAML text.

What indentation says in block style and brackets say in flow style is all in the
tokens: collections begin and end with a token of their own, and each key and each
value of a mapping has one in front of it. A text that breaks off is the tokens up to
there and then `broken`, so that only who reads that far meets the fault. -/
namespace MigrationSetup.Yaml

/-- What a line in front of a document says. -/
inductive Directive
  | version (major : Nat)
  /-- What the tags with a handle start with. -/
  | handle (name start : List Char)
  | unknown
deriving DecidableEq, Repr

inductive Token
  | directive (d : Directive)
  | documentStart
  | documentEnd
  | streamEnd
  | blockSequence
  | blockMapping
  | blockEnd
  | flowSequence
  | flowSequenceEnd
  | flowMapping
  | flowMappingEnd
  | blockEntry
  | flowEntry
  | key
  | value
  | reference (name : List Char)
  | anchor (name : List Char)
  /-- A tag with its handle, or a full one. -/
  | tag (handle? : Option (List Char)) (suffix : List Char)
  | scalar (text : Text) (isPlain : Bool)
  | broken (fault : Fault)
deriving DecidableEq, Repr

end MigrationSetup.Yaml
