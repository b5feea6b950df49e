import MigrationSetup.Yaml.Scalar
import MigrationSetup.Yaml.Token

/-! The nodes of a YAML text.

A document is a table of nodes that refer to each other by number, since a node may
stand in several places, even inside itself. `ofTokens` reads the tokens by recursive
descent. Its steps hand on what they have not read (`Reading`); each uses up one unit of
fuel, of which there is more than any text can need. -/
namespace MigrationSetup.Yaml

inductive Content
  | scalar (text : Text)
  | sequence (items : List Nat)
  | mapping (entries : List (Nat × Nat))
deriving DecidableEq, Repr

structure Node where
  tag : Tag
  content : Content
deriving DecidableEq, Repr

/-- A document: its nodes, and the number of the outermost one. -/
structure Nodes where
  table : Array Node
  root : Nat

namespace Nodes

/-- What has been read, and what is left. -/
structure Reading where
  tokens : List Token
  table : Array Node
  /-- The nodes with names. -/
  names : List (List Char × Nat)
  /-- What the tags with a handle start with. -/
  handles : List (List Char × List Char)

abbrev Read := StateT Reading (Except Fault)

/-! ### Tokens -/

/-- The next token, which stays. A broken text breaks off here. -/
def peek : Read Token := do
  match (← get).tokens with
  | [] => throw .malformed
  | .broken f :: _ => throw f
  | t :: _ => return t

def next : Read Unit := modify fun r => { r with tokens := r.tokens.drop 1 }

/-- Takes the next token if it is `t`. -/
def take? (t : Token) : Read Bool := do
  if (← peek) = t then
    next
    return true
  else return false

/-- Whether the next token is one of `ts`. -/
def isAt (ts : List Token) : Read Bool := return ts.contains (← peek)

/-- Takes a token that has to come. -/
def expect (t : Token) : Read Unit := do
  if !(← take? t) then throw .malformed

/-! ### Properties -/

def handle? : Token → Option (Option (List Char) × List Char)
  | .tag h s => some (h, s)
  | _ => none

def anchor? : Token → Option (List Char)
  | .anchor n => some n
  | _ => none

/-- Takes the next token if it is of a kind. -/
def takeAs? {α : Type} (kind : Token → Option α) : Read (Option α) := do
  let found := kind (← peek)
  if found.isSome then next
  return found

/-- A name and a tag, in either order. -/
def properties : Read (Option (List Char) × Option (Option (List Char) × List Char)) := do
  match ← takeAs? anchor? with
  | some n => return (some n, ← takeAs? handle?)
  | none =>
    match ← takeAs? handle? with
    | some t => return (← takeAs? anchor?, some t)
    | none => return (none, none)

/-- A tag in full. -/
def fullTag : Option (List Char) × List Char → Read (List Char)
  | (none, suffix) => return suffix
  | (some h, suffix) => do
    match (← get).handles.lookup h with
    | some start => return start ++ suffix
    | none => throw .malformed

/-- Gives a node a name. Every name is given once. -/
def name (n : Option (List Char)) (node : Nat) : Read Unit := do
  match n with
  | none => return
  | some n =>
    if ((← get).names.lookup n).isSome then throw .malformed
    modify fun r => { r with names := (n, node) :: r.names }

/-- Adds a node. -/
def add (tag : Tag) (content : Content) : Read Nat :=
  modifyGet fun r => (r.table.size, { r with table := r.table.push ⟨tag, content⟩ })

/-- Gives a node its content once that is read. -/
def fill (node : Nat) (content : Content) : Read Unit :=
  modify fun r => { r with table := r.table.modify node fun n => { n with content } }

/-- The tag that leaves the type open. -/
def openTag : List Char := ['!']

/-- What a scalar is. -/
def scalarTag (tag : Option (List Char)) (isPlain : Bool) (text : Text) : Tag :=
  match tag with
  | none => if isPlain then Scalar.plainTag text else .str
  | some t => if t = openTag then Scalar.plainTag text else .ofName t

/-- What a collection is. -/
def collectionTag (tag : Option (List Char)) (standard : Tag) : Tag :=
  match tag with
  | none => standard
  | some t => if t = openTag then standard else .ofName t

/-- A node where nothing is written. -/
def emptyNode : Read Nat := add .null (.scalar [])

/-! ### Nodes and their parts -/

/-- Where a node stands: in flow style, in block style, or as a key or a value in block
style, where a sequence need not be indented. -/
inductive Place
  | flow | block | entry
deriving DecidableEq

mutual

/-- A node that has to come. -/
def node : Nat → Place → Read Nat
  | 0, _ => throw .malformed
  | fuel + 1, place => do
    match ← peek with
    | .reference n =>
      next
      match (← get).names.lookup n with
      | some found => return found
      | none => throw .malformed
    | _ =>
      let (n, tag) ← properties
      let tag ← tag.mapM fullTag
      let collection (standard : Tag) (content : Read Content) : Read Nat := do
        let id ← add (collectionTag tag standard) (.scalar [])
        name n id
        fill id (← content)
        return id
      match ← peek with
      | .scalar text isPlain =>
        next
        let id ← add (scalarTag tag isPlain text) (.scalar text)
        name n id
        return id
      | .flowSequence =>
        next
        collection .seq do return .sequence (← flowItems fuel true)
      | .flowMapping =>
        next
        collection .map do return .mapping (← flowEntries fuel true)
      | .blockSequence =>
        if place = .flow then throw .malformed
        next
        collection .seq do return .sequence (← blockItems fuel)
      | .blockMapping =>
        if place = .flow then throw .malformed
        next
        collection .map do return .mapping (← blockEntries fuel)
      | .blockEntry =>
        if place = .entry then collection .seq do return .sequence (← flushItems fuel)
        else emptyWith n tag
      | _ => emptyWith n tag

/-- A node that is there for its properties alone. -/
def emptyWith (n tag : Option (List Char)) : Read Nat := do
  if n.isNone && tag.isNone then throw .malformed
  let id ← add (scalarTag tag true []) (.scalar [])
  name n id
  return id

/-- A node, unless one of `ends` comes at once. -/
def nodeOrEmpty : Nat → Place → List Token → Read Nat
  | 0, _, _ => throw .malformed
  | fuel + 1, place, ends => do
    if ← isAt ends then emptyNode else node fuel place

/-- The items of a sequence in block style. -/
def blockItems : Nat → Read (List Nat)
  | 0 => throw .malformed
  | fuel + 1 => do
    if ← take? .blockEntry then
      let item ← nodeOrEmpty fuel .block [.blockEntry, .blockEnd]
      return item :: (← blockItems fuel)
    else
      expect .blockEnd
      return []

/-- The items of a sequence that is not indented. -/
def flushItems : Nat → Read (List Nat)
  | 0 => throw .malformed
  | fuel + 1 => do
    if ← take? .blockEntry then
      let item ← nodeOrEmpty fuel .block [.blockEntry, .key, .value, .blockEnd]
      return item :: (← flushItems fuel)
    else return []

/-- The entries of a mapping in block style. -/
def blockEntries : Nat → Read (List (Nat × Nat))
  | 0 => throw .malformed
  | fuel + 1 => do
    if ← take? .key then
      let key ← nodeOrEmpty fuel .entry [.key, .value, .blockEnd]
      let value ←
        if ← take? .value then nodeOrEmpty fuel .entry [.key, .value, .blockEnd] else emptyNode
      return (key, value) :: (← blockEntries fuel)
    else
      expect .blockEnd
      return []

/-- The items of a sequence in flow style. A key makes an item a mapping of its own. -/
def flowItems : Nat → Bool → Read (List Nat)
  | 0, _ => throw .malformed
  | fuel + 1, isFirst => do
    if ← take? .flowSequenceEnd then return []
    if !isFirst then expect .flowEntry
    if ← take? .flowSequenceEnd then return []
    if ← take? .key then
      let id ← add .map (.scalar [])
      let key ← nodeOrEmpty fuel .flow [.value, .flowEntry, .flowSequenceEnd]
      let value ←
        if ← take? .value then nodeOrEmpty fuel .flow [.flowEntry, .flowSequenceEnd]
        else emptyNode
      fill id (.mapping [(key, value)])
      return id :: (← flowItems fuel false)
    else
      let item ← node fuel .flow
      return item :: (← flowItems fuel false)

/-- The entries of a mapping in flow style. -/
def flowEntries : Nat → Bool → Read (List (Nat × Nat))
  | 0, _ => throw .malformed
  | fuel + 1, isFirst => do
    if ← take? .flowMappingEnd then return []
    if !isFirst then expect .flowEntry
    if ← take? .flowMappingEnd then return []
    if ← take? .key then
      let key ← nodeOrEmpty fuel .flow [.value, .flowEntry, .flowMappingEnd]
      let value ←
        if ← take? .value then nodeOrEmpty fuel .flow [.flowEntry, .flowMappingEnd]
        else emptyNode
      return (key, value) :: (← flowEntries fuel false)
    else
      let key ← node fuel .flow
      let value ← emptyNode
      return (key, value) :: (← flowEntries fuel false)

end

/-! ### Documents -/

def directive? : Token → Option Directive
  | .directive d => some d
  | _ => none

/-- The handles that need no directive. -/
def standardHandles : List (List Char × List Char) :=
  [(['!'], ['!']), (['!', '!'], Tag.standardPrefix.toList)]

/-- The directives in front of a document. `hasVersion` says whether one gave a version. -/
def directives (hasVersion : Bool) : Nat → Read Unit
  | 0 => throw .malformed
  | fuel + 1 => do
    match ← takeAs? directive? with
    | none => modify fun r => { r with handles := r.handles ++ standardHandles }
    | some (.version major) =>
      if hasVersion || major != 1 then throw .malformed
      directives true fuel
    | some (.handle h start) =>
      if ((← get).handles.lookup h).isSome then throw .malformed
      modify fun r => { r with handles := r.handles ++ [(h, start)] }
      directives hasVersion fuel
    | some .unknown => directives hasVersion fuel

/-- Passes over the marks behind a document. -/
def ends : Nat → Read Unit
  | 0 => throw .malformed
  | fuel + 1 => do if ← take? .documentEnd then ends fuel

def isDirective (t : Token) : Bool := (directive? t).isSome

/-- Makes sure that no other document follows. Its directives are read before it is
refused. -/
def expectEnd (fuel : Nat) : Read Unit := do
  ends fuel
  if (← peek) = .streamEnd then return
  modify fun r => { r with handles := [] }
  directives false fuel
  let _ ← peek
  throw .malformed

/-- The one document of a text, if there is any. -/
def document (fuel : Nat) : Read (Option Nat) := do
  if (← peek) = .streamEnd then return none
  let t ← peek
  let root ←
    if isDirective t || t = .documentStart then do
      directives false fuel
      expect .documentStart
      let t ← peek
      if isDirective t || [Token.documentStart, .documentEnd, .streamEnd].contains t then
        emptyNode
      else node fuel .block
    else do
      modify fun r => { r with handles := standardHandles }
      node fuel .block
  expectEnd fuel
  return some root

/-- The nodes that the tokens of a text write, if they write any. -/
def ofTokens (ts : List Token) : Except Fault (Option Nodes) := do
  let fuel := 4 * ts.length + 4
  let (root, r) ← (document fuel).run ⟨ts, #[], [], []⟩
  return root.map fun root => ⟨r.table, root⟩

end Nodes
end MigrationSetup.Yaml
