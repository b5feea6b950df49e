import Mathlib
import MigrationSetup.Proofs.Searching

/-! What the spellings of a location ask for.

A prefix decides between two searches, and what stands behind it is read as it is: a location
is got back from its prefix and its path (`Location.parse_mark`). Below the search roots the
prefix may be left out and slashes may be added, and the base directory does not matter; the
roots are tried one after the other, so a list of roots may be cut in two (`firstOf_append`).
In the file system the roots do not matter, and one path is asked for. The whole is
`resolve_searches`. -/
namespace MigrationSetup

/-! ### Prefixes -/

namespace Location

/-- Only a text that starts with the prefix has something behind it. -/
theorem cut?_eq_none {front cs : Text} (h : ¬front <+: cs) : cut? front cs = none := by
  cases hcut : cut? front cs with
  | none => rfl
  | some rest => exact absurd ⟨rest, (cut?_eq_some hcut).symm⟩ h

/-- A location is got back from its prefix and its path, whatever the path looks like. -/
theorem parse_mark (l : Location) : parse (l.kind.mark ++ l.path) = l := by
  obtain ⟨kind, path⟩ := l
  cases kind with
  | file => exact parse_file path
  | classpath => exact parse_classpath path

theorem ofValue_text (s : Text) : ofValue (.text s) = .ok (parse s) := rfl

end Location

/-- Whether a text starts with neither of the prefixes. -/
def Bare (s : Text) : Prop :=
  ¬LocationKind.file.mark <+: s ∧ ¬LocationKind.classpath.mark <+: s

theorem Bare.parse_eq {s : Text} (h : Bare s) : Location.parse s = ⟨.classpath, s⟩ :=
  Location.parse_bare (Location.cut?_eq_none h.1) (Location.cut?_eq_none h.2)

/-- So many slashes. -/
def slashes (n : Nat) : Text := List.replicate n (.char '/')

theorem parse_classpath_slashes (n : Nat) (s : Text) :
    Location.parse (LocationKind.classpath.mark ++ slashes n ++ s) =
      ⟨.classpath, slashes n ++ s⟩ := by
  rw [List.append_assoc, Location.parse_classpath]

/-- Without the prefix of the file system a text is a path below the roots. -/
theorem parse_of_not_file {cs : Text} (h : ¬LocationKind.file.mark <+: cs) :
    Location.parse cs = ⟨.classpath, (Location.parse cs).path⟩ := by
  rw [Location.parse, Location.cut?_eq_none h]
  cases Location.cut? LocationKind.classpath.mark cs <;> rfl

namespace Search
variable {fs : FileSystem} {searchPath : List Text}

/-- Slashes at the front of a path below a root mean nothing. -/
theorem relativePath_slashes (n : Nat) (cs : Text) :
    relativePath (slashes n ++ cs) = relativePath cs := by
  induction n with
  | zero => rfl
  | succ n ih => exact ih

/-- No location names an absolute path below a root. -/
theorem relativePath_anchor (path : Text) : (relativePath path).anchor = .here := by
  induction path with
  | nil => rfl
  | cons c cs ih =>
    by_cases hc : c = .char '/'
    · subst hc
      exact ih
    · have hkept : (c :: cs).dropWhile (· = .char '/') = c :: cs := by
        simp [hc]
      rw [relativePath, hkept]
      show Path.anchorOf (c :: cs) = .here
      unfold Path.anchorOf
      split <;> simp_all

/-- So below a root it names what its names lead to from there. -/
theorem join_relativePath (root : Path) (path : Text) :
    root.join (relativePath path) = ⟨root.anchor, root.names ++ (relativePath path).names⟩ := by
  simp [Path.join, Path.isAbsolute, relativePath_anchor]

/-! ### One search or the other -/

/-- The roots of a search: those that were given, or the directories of the search path. -/
def rootsOf (roots : Option (List Path)) (fs : FileSystem) (searchPath : List Text) :
    Except Failure (List Path) :=
  match roots with
  | some roots => .ok roots
  | none => directories fs searchPath

/-- Below the roots the base directory does not matter. -/
theorem resolve_text_classpath (s : Search) (fs : FileSystem) (searchPath : List Text)
    {text path : Text} (h : Location.parse text = ⟨.classpath, path⟩) :
    s.resolve fs searchPath (.text text) =
      rootsOf s.roots fs searchPath >>= firstBelow fs (relativePath path) := by
  rw [resolve, Location.ofValue_text, h]
  obtain ⟨roots, base⟩ := s
  cases roots <;> rfl

/-- In the file system the roots do not matter, and one path is asked for. -/
theorem resolve_text_file (s : Search) (fs : FileSystem) (searchPath : List Text)
    {text path : Text} (h : Location.parse text = ⟨.file, path⟩) :
    s.resolve fs searchPath (.text text) = firstOf fs [s.ownPath path] := by
  have htried : s.Candidates fs searchPath (.text text) [s.ownPath path] :=
    .own (l := ⟨.file, path⟩) (by rw [Location.ofValue_text, h]) rfl
  exact htried.resolve_eq

/-- An absolute path does not depend on the base directory. -/
theorem ownPath_absolute (s : Search) {path : Text}
    (h : (Path.ofText path).isAbsolute = true) : s.ownPath path = Path.ofText path := by
  obtain ⟨roots, base⟩ := s
  cases base with
  | none => rfl
  | some base => simp only [ownPath, Path.join, h, if_true]

/-- A relative path is taken from the base directory. -/
theorem ownPath_relative (roots : Option (List Path)) (base : Path) {path : Text}
    (h : (Path.ofText path).isAbsolute = false) :
    (Search.mk roots (some base)).ownPath path =
      ⟨base.anchor, base.names ++ (Path.ofText path).names⟩ := by
  simp [ownPath, Path.join, h]

theorem firstOf_single (fs : FileSystem) (q : Path) :
    firstOf fs [q] = (fs.exists? q).map fun there => if there then some q else none := by
  rw [firstOf]
  cases fs.exists? q with
  | error e => rfl
  | ok there => cases there <;> rfl

/-! ### Roots one after the other -/

/-- What one search finds, or what the next one does if it finds nothing. -/
def orNext (one next : Except Failure (Option Path)) : Except Failure (Option Path) := do
  match ← one with
  | some q => return some q
  | none => next

/-- Of two lists of paths the second is asked if nothing in the first exists. -/
theorem firstOf_append (fs : FileSystem) (ps qs : List Path) :
    firstOf fs (ps ++ qs) = orNext (firstOf fs ps) (firstOf fs qs) := by
  induction ps with
  | nil => rfl
  | cons p ps ih =>
    rw [List.cons_append, firstOf, firstOf, ih]
    cases fs.exists? p with
    | error e => rfl
    | ok there => cases there <;> rfl

theorem orNext_self (r : Except Failure (Option Path)) : orNext r r = r := by
  cases r with
  | error e => rfl
  | ok found => cases found <;> rfl

theorem resolveLocation_append (fs : FileSystem) (searchPath : List Text) (as bs : List Path)
    (base : Option Path) (l : Location) :
    (Search.mk (some (as ++ bs)) base).resolveLocation fs searchPath l =
      orNext ((Search.mk (some as) base).resolveLocation fs searchPath l)
        ((Search.mk (some bs) base).resolveLocation fs searchPath l) := by
  obtain ⟨kind, path⟩ := l
  cases kind with
  | file => exact (orNext_self _).symm
  | classpath =>
    show firstBelow fs (relativePath path) (as ++ bs) = _
    rw [firstBelow_eq, List.map_append, firstOf_append, ← firstBelow_eq, ← firstBelow_eq]
    rfl

/-- **Where locations are looked for.** With two lists of roots the second is searched for
what is not found with the first, and a failure is a failure. A text with neither prefix is
looked for as it is behind the prefix of the classpath, with any number of slashes between
them, whatever the base directory is. What stands behind the prefix of the file system is
looked for whatever the roots are, and whatever the base directory is if it is absolute; it is
found there, behind the base directory if it is relative and one is given, or not at all. And
no location is mistaken for another one. -/
theorem resolve_searches (fs : FileSystem) (searchPath : List Text) :
    (∀ (as bs : List Path) (base : Option Path) (v : Value),
      (Search.mk (some (as ++ bs)) base).resolve fs searchPath v =
        orNext ((Search.mk (some as) base).resolve fs searchPath v)
          ((Search.mk (some bs) base).resolve fs searchPath v)) ∧
    (∀ s, Bare s → ∀ (n : Nat) (roots : Option (List Path)) (base base' : Option Path),
      (Search.mk roots base).resolve fs searchPath
          (.text (LocationKind.classpath.mark ++ slashes n ++ s)) =
        (Search.mk roots base').resolve fs searchPath (.text s)) ∧
    (∀ (path : Text) (roots : Option (List Path)),
      let own := Path.ofText path
      let file : Value := .text (LocationKind.file.mark ++ path)
      let found (q : Path) := (fs.exists? q).map fun there => if there then some q else none
      (∀ base, own.isAbsolute = true →
        (Search.mk roots base).resolve fs searchPath file = found own) ∧
      (∀ base, own.isAbsolute = false → (Search.mk roots (some base)).resolve fs searchPath file =
        found ⟨base.anchor, base.names ++ own.names⟩) ∧
      (Search.mk roots none).resolve fs searchPath file = found own) ∧
    ∀ l : Location, Location.parse (l.kind.mark ++ l.path) = l := by
  refine ⟨fun as bs base v => ?_, fun s hs n roots base base' => ?_, fun path roots => ?_,
    Location.parse_mark⟩
  · rw [resolve, resolve, resolve]
    cases Location.ofValue v with
    | error e => rfl
    | ok l => exact resolveLocation_append fs searchPath as bs base l
  · rw [resolve_text_classpath _ fs searchPath (parse_classpath_slashes n s),
      resolve_text_classpath _ fs searchPath hs.parse_eq, relativePath_slashes]
  · intro own file found
    have hfile (base : Option Path) : (Search.mk roots base).resolve fs searchPath file =
        found ((Search.mk roots base).ownPath path) :=
      (resolve_text_file _ fs searchPath (Location.parse_file path)).trans (firstOf_single fs _)
    refine ⟨fun base habs => ?_, fun base hrel => ?_, hfile none⟩
    · rw [hfile, ownPath_absolute _ habs]
    · rw [hfile, ownPath_relative roots base hrel]

/-- A text that only looks as if it had a prefix, behind the prefix and three slashes. -/
theorem resolve_searches_lookalike :
    let fs : FileSystem :=
      ⟨.directory [("scripts", .directory [("Classpath:db", .file [])])], []⟩
    let search (base : Option Path) : Search := ⟨some [⟨.here, ["scripts"]⟩], base⟩
    Bare "Classpath:db" ∧
      (search (some ⟨.root, []⟩)).resolve fs []
          (.text (LocationKind.classpath.mark ++ slashes 3 ++ "Classpath:db")) =
        (search none).resolve fs [] (.text "Classpath:db") ∧
      (search none).resolve fs [] (.text "Classpath:db") =
        .ok (some ⟨.here, ["scripts", "Classpath:db"]⟩) := by
  intro fs search
  have hbare : Bare "Classpath:db" := by
    constructor <;> decide
  have hthere : fs.Exists ⟨.here, ["scripts", "Classpath:db"]⟩ :=
    ⟨.file [], FileSystem.holds_iff.2 ⟨by decide, by cbv⟩⟩
  refine ⟨hbare, (resolve_searches fs []).2.1 _ hbare 3 _ _ none, ?_⟩
  have hparsed := hbare.parse_eq
  rw [resolve_text_classpath _ fs [] hparsed]
  exact firstOf_found hthere []

end Search
end MigrationSetup
