import MigrationSetup.Text.Letter

/-! Paths of files.

A path is an anchor and the names behind it. Repeated and trailing slashes and the name
`.` mean nothing and are dropped; `..` is kept, since what it leads to depends on links.
Exactly two slashes at the front are an anchor of their own. -/
namespace MigrationSetup

/-- Where a path starts. -/
inductive Anchor
  | here
  | root
  /-- Two slashes. It leads to the root as well. -/
  | doubleRoot
deriving DecidableEq, Repr

structure Path where
  anchor : Anchor
  names : List Text
deriving DecidableEq, Repr

namespace Path

/-- The pieces of a text between slashes. -/
def pieces : Text → List Text
  | [] => [[]]
  | .char '/' :: cs => [] :: pieces cs
  | c :: cs =>
    match pieces cs with
    | [] => [[c]]
    | p :: ps => (c :: p) :: ps

/-- The names between slashes. -/
def namesOf (cs : Text) : List Text := (pieces cs).filter fun p => p ≠ [] ∧ p ≠ "."

def anchorOf : Text → Anchor
  | .char '/' :: .char '/' :: .char '/' :: _ => .root
  | .char '/' :: .char '/' :: _ => .doubleRoot
  | .char '/' :: _ => .root
  | _ => .here

def ofText (cs : Text) : Path := ⟨anchorOf cs, namesOf cs⟩

def isAbsolute (p : Path) : Bool := p.anchor != .here

/-- The path that `b` names from `a` on: `b` itself if it is absolute. -/
def join (a b : Path) : Path := if b.isAbsolute then b else ⟨a.anchor, a.names ++ b.names⟩

def Anchor.text : Anchor → String
  | .here => ""
  | .root => "/"
  | .doubleRoot => "//"

/-- The spelling of a path; the empty path is a dot. -/
def text (p : Path) : Text :=
  let s := Anchor.text p.anchor ++ Text.between "/" p.names
  if s = [] then "." else s

/-- The last name, or nothing. -/
def name (p : Path) : Text := p.names.getLast?.getD []

/-- The part of a name from its last dot on, if something stands on both sides of it. -/
def suffixOf (name : Text) : Text :=
  let after := name.reverse.takeWhile (· ≠ .char '.')
  let before := name.take (name.length - after.length - 1)
  if after.length = name.length ∨ after = [] ∨ before = [] then [] else .char '.' :: after.reverse

def suffix (p : Path) : Text := suffixOf p.name

example : (ofText ".hidden.yml").suffix = ".yml" := by decide
example : (ofText "d/.yaml").suffix = "" := by decide
example : (ofText "m.").suffix = "" := by decide
example : (ofText "//a//./b/").text = "//a/b" := by decide
example : (ofText "///a/..").text = "/a/.." := by decide

end Path
end MigrationSetup
