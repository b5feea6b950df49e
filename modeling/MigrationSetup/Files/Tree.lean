import MigrationSetup.Failure
import MigrationSetup.Files.Path

/-! A file system.

It is a tree of directories, files and links with a current directory. A path is
followed name by name (`FileSystem.follow`): `..` leads to the parent of where the walk
has got to, a link is replaced by its target, and at most forty links are followed. A
walk fails because a name is missing, because something on the way is no directory,
because links do not end, because a directory on the way is closed to whoever asks, or
because a name or the whole path is too long. Only the last two count as failures where
the question is whether a path exists. What a closed directory holds makes no difference,
so it is not kept, and a file that a path leads to can always be read. Names are texts;
what tells one from another are its bytes. -/
namespace MigrationSetup

/-- What stands at a path. -/
inductive FileNode
  | directory (entries : List (Text × FileNode))
  /-- A directory in which nothing may be looked up. -/
  | closed
  | file (bytes : List UInt8)
  | link (target : Text)
deriving Inhabited

namespace FileNode

/-- Whether two texts are one name. -/
def sameName (a b : Text) : Bool := Text.Utf8.nameBytes? a == Text.Utf8.nameBytes? b

/-- What stands under a name. -/
def child? (name : Text) : List (Text × FileNode) → Option FileNode
  | [] => none
  | (n, node) :: rest => if sameName n name then some node else child? name rest

/-- What stands at a sequence of names, no link being followed. -/
def at? : List Text → FileNode → Option FileNode
  | [], node => some node
  | name :: names, .directory es => (child? name es).bind (at? names)
  | _ :: _, _ => none

/-- Entries with `node` under a name, or with nothing there. -/
def putEntry (name : Text) (node : Option FileNode) (es : List (Text × FileNode)) :
    List (Text × FileNode) :=
  es.filter (fun e => !sameName e.1 name) ++ (node.map fun n => (name, n)).toList

/-- The tree with `node` at a sequence of names, or with nothing there. Directories on
the way are made as needed. -/
def put : List Text → Option FileNode → FileNode → FileNode
  | [], node, old => node.getD old
  | [name], node, .directory es => .directory (putEntry name node es)
  | name :: names, node, .directory es =>
    .directory (putEntry name (some (put names node ((child? name es).getD (.directory [])))) es)
  | _ :: _, _, old => old

def isDirectory : FileNode → Bool
  | .directory _ => true
  | .closed => true
  | _ => false

end FileNode

/-- Why a path leads nowhere. -/
inductive Lost
  | missing
  | notDirectory
  | endlessLinks
  /-- A directory on the way is closed. -/
  | denied
  | tooLong
deriving DecidableEq, Repr

structure FileSystem where
  root : FileNode
  /-- The names that lead to the current directory. -/
  current : List Text

namespace FileSystem

/-- The most links that are followed on one path. -/
def maxLinks : Nat := 40

/-- The most bytes that a name may have. -/
def maxName : Nat := 255

/-- A path of this many bytes is too long. -/
def pathLimit : Nat := 4096

/-- The number of bytes of a name or a path. -/
def size (name : Text) : Nat := ((Text.Utf8.nameBytes? name).getD []).length

/-- Whether a text can be a name: it has bytes, and none of them is zero. -/
def isName (name : Text) : Bool := (Text.Utf8.nameBytes? name).any fun bytes => !bytes.contains 0

/-- The names of a link's target. A slash at its end asks for a directory. -/
def targetNames (target : Text) : List Text :=
  let names := (Path.pieces target).filter (· ≠ [])
  if target.getLast? = some (.char '/') then names ++ [Text.ofString "."] else names

/-- Follows names from the place `here`, and gives the place that they lead to. -/
def follow (root : FileNode) (links : Nat) (here names : List Text) :
    Except Lost (List Text) :=
  match names with
  | [] => .ok here
  | name :: rest =>
    match root.at? here with
    | some .closed => .error .denied
    | some (.directory entries) =>
      if name = "." then follow root links here rest
      else if name = ".." then follow root links here.dropLast rest
      else if maxName < size name then .error .tooLong
      else
        match FileNode.child? name entries with
        | none => .error .missing
        | some (.link target) =>
          match links with
          | 0 => .error .endlessLinks
          | links + 1 =>
            if target = [] then .error .missing
            else
              let start := if target.head? = some (.char '/') then [] else here
              follow root links start (targetNames target ++ rest)
        | some _ => follow root links (here ++ [name]) rest
    | _ => .error .notDirectory
termination_by (links, names.length)

/-- The place that a path leads to. -/
def locate (fs : FileSystem) (p : Path) : Except Lost (List Text) :=
  if pathLimit ≤ size p.text then .error .tooLong
  else follow fs.root maxLinks (if p.isAbsolute then [] else fs.current) p.names

/-- What a path leads to. -/
def lookup (fs : FileSystem) (p : Path) : Except Lost FileNode := do
  match fs.root.at? (← fs.locate p) with
  | some node => return node
  | none => throw .missing

/-! ### Questions -/

/-- Whether what a path leads to passes a test. A path with a name that none can have, or that
leads nowhere, does not; one that is too long or closed is a failure. -/
def test (fs : FileSystem) (p : Path) (passes : FileNode → Bool) : Except Failure Bool :=
  if p.names.any fun n => !isName n then .ok false
  else
    match fs.lookup p with
    | .ok node => .ok (passes node)
    | .error .tooLong => .error (.nameTooLong p.text)
    | .error .denied => .error (.denied p.text)
    | .error _ => .ok false

def exists? (fs : FileSystem) (p : Path) : Except Failure Bool := fs.test p fun _ => true

def isDirectory? (fs : FileSystem) (p : Path) : Except Failure Bool :=
  fs.test p FileNode.isDirectory

/-- The bytes of the file that a path leads to. -/
def read (fs : FileSystem) (p : Path) : Except Failure (List UInt8) :=
  match fs.lookup p with
  | .ok (.file bytes) => .ok bytes
  | .ok (.directory _) => .error (.isDirectory p.text)
  | .ok .closed => .error (.isDirectory p.text)
  | .ok (.link _) => .error (.setting (.missingFile p.text))
  | .error .tooLong => .error (.nameTooLong p.text)
  | .error .denied => .error (.denied p.text)
  | .error _ => .error (.setting (.missingFile p.text))

/-! ### Changes -/

/-- The place of a name below `here`, behind its links if they lead anywhere. -/
def placeOf (fs : FileSystem) (here : List Text) (name : Text) : List Text :=
  if name = ".." then here.dropLast
  else
    match follow fs.root maxLinks here [name] with
    | .ok place => place
    | .error _ => here ++ [name]

/-- The place where a file is written that is named below `here`: behind a link the place
that it leads to, which need not be there yet. -/
def placeOfFile (fs : FileSystem) : Nat → List Text → List Text → List Text
  | 0, here, names => here ++ names
  | links + 1, here, names =>
    match follow fs.root maxLinks here names.dropLast, names.getLast? with
    | .ok parent, some name =>
      match fs.root.at? (parent ++ [name]) with
      | some (.link target) =>
        placeOfFile fs links (if target.head? = some (.char '/') then [] else parent)
          (targetNames target)
      | _ => parent ++ [name]
    | _, _ => here ++ names

/-- Puts `node` at a path, making the directories on the way. A directory that is there
is kept, and a file is written through links. -/
def put (fs : FileSystem) (p : Path) (node : FileNode) : FileSystem :=
  let start := if p.isAbsolute then [] else fs.current
  let make (fs : FileSystem) (place : List Text) : FileSystem :=
    if (fs.root.at? place).isSome then fs
    else { fs with root := fs.root.put place (some (.directory [])) }
  let (fs, parent) := p.names.dropLast.foldl
    (fun (fs, here) name => let place := fs.placeOf here name; (make fs place, place)) (fs, start)
  match p.names.getLast? with
  | none => fs
  | some name =>
    match node with
    | .directory _ => make fs (fs.placeOf parent name)
    | .file _ =>
      { fs with root := fs.root.put (fs.placeOfFile maxLinks parent [name]) (some node) }
    | _ => { fs with root := fs.root.put (parent ++ [name]) (some node) }

/-- Takes away what stands at a path, and all below it. A link at its end is taken away
itself. -/
def remove (fs : FileSystem) (p : Path) : FileSystem :=
  let start := if p.isAbsolute then [] else fs.current
  match p.names.getLast?, follow fs.root maxLinks start p.names.dropLast with
  | some name, .ok parent => { fs with root := fs.root.put (parent ++ [name]) none }
  | _, _ => fs

end FileSystem
end MigrationSetup
