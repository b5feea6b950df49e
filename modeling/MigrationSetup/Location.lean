import MigrationSetup.Failure

/-! Where scripts are looked for.

A location names a path in the file system (`file:`) or below the search roots
(`classpath:`). Only these two prefixes are known, in lower case and at the very front;
a text with neither is a path below the search roots, whatever colons it has. -/
namespace MigrationSetup

inductive LocationKind
  | file
  | classpath
deriving DecidableEq, Repr

namespace LocationKind

def name : LocationKind → String
  | .file => "file"
  | .classpath => "classpath"

/-- What a location of the kind starts with. -/
def mark (k : LocationKind) : Text := k.name ++ ":"

end LocationKind

structure Location where
  kind : LocationKind
  path : Text
deriving DecidableEq, Repr

namespace Location

/-- `cs` without `front`, if it starts with it. -/
def cut? (front cs : Text) : Option Text :=
  match front, cs with
  | [], cs => some cs
  | _ :: _, [] => none
  | f :: fs, c :: cs => if f = c then cut? fs cs else none

/-- Splits a location. The prefix of the file system is tried first. -/
def parse (cs : Text) : Location :=
  match cut? LocationKind.file.mark cs with
  | some path => ⟨.file, path⟩
  | none =>
    match cut? LocationKind.classpath.mark cs with
    | some path => ⟨.classpath, path⟩
    | none => ⟨.classpath, cs⟩

/-- Splits a value that counts as a text. -/
def ofValue (v : Value) : Except Failure Location :=
  match v.text? with
  | some s => .ok (parse s)
  | none => .error (.locationKind v.kind)

/-- The path as a value: what is left of a text, or the value itself where nothing was
cut off. -/
def pathValue (l : Location) (v : Value) : Value :=
  if v.text? = some l.path then v else .text l.path

theorem cut?_append (front cs : Text) : cut? front (front ++ cs) = some cs := by
  induction front with
  | nil => simp [cut?]
  | cons f fs ih => simp [cut?, ih]

theorem cut?_eq_some {front cs rest : Text} (h : cut? front cs = some rest) :
    cs = front ++ rest := by
  fun_induction cut? front cs <;> simp_all

theorem parse_file (path : Text) : parse (LocationKind.file.mark ++ path) = ⟨.file, path⟩ := by
  rw [parse, cut?_append]

theorem parse_classpath (path : Text) :
    parse (LocationKind.classpath.mark ++ path) = ⟨.classpath, path⟩ := by
  have : cut? LocationKind.file.mark (LocationKind.classpath.mark ++ path) = none := rfl
  rw [parse, this, cut?_append]

/-- A text with neither prefix is kept whole. -/
theorem parse_bare {cs : Text} (file : cut? LocationKind.file.mark cs = none)
    (classpath : cut? LocationKind.classpath.mark cs = none) : parse cs = ⟨.classpath, cs⟩ := by
  rw [parse, file, classpath]

end Location
end MigrationSetup
