import MigrationSetup.Files.Tree
import MigrationSetup.Location
import MigrationSetup.Validation

/-! Looking for locations in a file system.

A location of the file system is a path of its own, taken from the base directory if
there is one and the path is relative. A location of the classpath is tried below each
search root in turn, and the first root where it exists wins. Roots that are not given
are the directories of the search path at the time of the question. -/
namespace MigrationSetup

structure Search where
  /-- The search roots, or none for the directories of the search path. -/
  roots : Option (List Path)
  /-- Where relative paths of the file system start, or none for the current directory. -/
  base : Option Path

namespace Search

/-- A search that leaves both open. -/
def standard : Search := ⟨none, none⟩

/-- The directories among the entries of a search path. An empty entry is the current
directory. -/
def directories (fs : FileSystem) : List Text → Except Failure (List Path)
  | [] => .ok []
  | entry :: rest => do
    let p := Path.ofText entry
    let here ← fs.isDirectory? p
    let more ← directories fs rest
    return if here then p :: more else more

/-- The first root below which `relative` exists. -/
def firstBelow (fs : FileSystem) (relative : Path) : List Path → Except Failure (Option Path)
  | [] => .ok none
  | root :: rest => do
    let candidate := root.join relative
    if ← fs.exists? candidate then return some candidate else firstBelow fs relative rest

/-- The path of a location without its prefix, as a path of the file system. -/
def ownPath (s : Search) (path : Text) : Path :=
  let p := Path.ofText path
  match s.base with
  | some base => base.join p
  | none => p

/-- The path of a location without its prefix, as a path below a root. -/
def relativePath (path : Text) : Path := Path.ofText (path.dropWhile (· = .char '/'))

/-- The first existing path for a location. -/
def resolveLocation (s : Search) (fs : FileSystem) (searchPath : List Text) (l : Location) :
    Except Failure (Option Path) :=
  match l.kind with
  | .file => do
    let p := s.ownPath l.path
    return if ← fs.exists? p then some p else none
  | .classpath => do
    let roots ← match s.roots with
      | some roots => pure roots
      | none => directories fs searchPath
    firstBelow fs (relativePath l.path) roots

/-- The first existing path for a value that should be a location. -/
def resolve (s : Search) (fs : FileSystem) (searchPath : List Text) (v : Value) :
    Except Failure (Option Path) := do
  s.resolveLocation fs searchPath (← Location.ofValue v)

/-- Whether a location exists. -/
def exists? (s : Search) (fs : FileSystem) (searchPath : List Text) (v : Value) :
    Except Failure Bool :=
  (s.resolve fs searchPath v).map Option.isSome

/-- The search as a checker. What was asked before makes no difference. -/
def checker (s : Search) (fs : FileSystem) (searchPath : List Text) : Checker :=
  fun _ v => (s.exists? fs searchPath v).map .bool

end Search
end MigrationSetup
