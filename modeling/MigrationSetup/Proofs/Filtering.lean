import MigrationSetup.Proofs.Addressing

/-! Which entries of a search path matter.

Where no roots are given those entries of the search path are tried that are directories. That
leaves nothing out: a walk takes the names of its path one after the other, and each of them
in a directory (`Walk.Steps.split`), so below what is no directory nothing exists and nothing
fails (`FileSystem.isDirectory_of_exists`, `FileSystem.isDirectory_of_fails`). As long as every
entry can be asked for, and the location names anything, the search comes to the same with every
entry as a root (`resolve_default_roots`). But every entry has to be asked for first, also those
that no search from the front would get to (`default_roots_stop`). -/
namespace MigrationSetup

namespace Walk
variable {root : FileNode} {w w' : Walk}

/-- A name is taken in a directory. -/
theorem Step.inside (h : Step root w w') : ∃ es, root.at? w.here = some (.directory es) := by
  cases h with
  | dot inside => exact ⟨_, inside⟩
  | up inside => exact ⟨_, inside⟩
  | down inside => exact ⟨_, inside⟩
  | link inside => exact ⟨_, inside⟩

/-- A walk that goes on is in a directory. -/
theorem Steps.inside (h : Steps root w w') :
    w = w' ∨ ∃ es, root.at? w.here = some (.directory es) := by
  cases h using Relation.ReflTransGen.head_induction_on with
  | refl => exact .inl rfl
  | head hstep _ => exact .inr hstep.inside

/-- A step that takes the first of some names does not touch those behind them. -/
theorem Step.split {links : Nat} {here names rest : List Text} {name : Text}
    (h : Step root ⟨links, here, name :: names ++ rest⟩ w') :
    ∃ names', w'.names = names' ++ rest ∧
      Step root ⟨links, here, name :: names⟩ ⟨w'.links, w'.here, names'⟩ := by
  cases h with
  | dot inside => exact ⟨names, rfl, .dot inside⟩
  | up inside => exact ⟨names, rfl, .up inside⟩
  | down inside proper short there plain =>
    exact ⟨names, rfl, .down inside proper short there plain⟩
  | link inside proper short there leads =>
    exact ⟨_, (List.append_assoc ..).symm, .link inside proper short there leads⟩

/-- A walk along some names and others behind them is still on its way along the ones, or has
gone along them first. -/
theorem Steps.split (h : Steps root w w') {names rest : List Text}
    (hnames : w.names = names ++ rest) :
    (∃ left, left ≠ [] ∧ w'.names = left ++ rest ∧
      Steps root ⟨w.links, w.here, names⟩ ⟨w'.links, w'.here, left⟩) ∨
    ∃ links here, Steps root ⟨w.links, w.here, names⟩ ⟨links, here, []⟩ ∧
      Steps root ⟨links, here, rest⟩ w' := by
  induction h using Relation.ReflTransGen.head_induction_on generalizing names with
  | refl =>
    cases names with
    | nil =>
      obtain ⟨links, here, all⟩ := w'
      subst hnames
      exact .inr ⟨links, here, .refl, .refl⟩
    | cons name names => exact .inl ⟨_, List.cons_ne_nil name names, hnames, .refl⟩
  | @head w w₁ hstep hsteps ih =>
    obtain ⟨links, here, all⟩ := w
    subst hnames
    cases names with
    | nil => exact .inr ⟨links, here, .refl, .head hstep hsteps⟩
    | cons name names =>
      obtain ⟨names', hnames', hfirst⟩ := hstep.split
      rcases ih hnames' with ⟨left, hmore, hleft, hon⟩ | ⟨links', here', hon, hrest⟩
      · exact .inl ⟨left, hmore, hleft, .head hfirst hon⟩
      · exact .inr ⟨links', here', .head hfirst hon, hrest⟩

/-- A name is too long whatever stands behind it. -/
theorem Overlong.front {left rest : List Text} (h : w.Overlong root) (hmore : left ≠ [])
    (hnames : w.names = left ++ rest) : Overlong root ⟨w.links, w.here, left⟩ := by
  obtain ⟨es, name, names, inside, hname, proper, long⟩ := h
  cases left with
  | nil => exact absurd rfl hmore
  | cons first left =>
    obtain ⟨rfl, -⟩ := List.cons.inj (hname.symm.trans hnames)
    exact ⟨es, name, left, inside, rfl, proper, long⟩

end Walk

namespace FileSystem
variable {fs : FileSystem} {p : Path} {names : List Text}

theorem isUnnamed_front (h : Path.isUnnamed ⟨p.anchor, p.names ++ names⟩ = false) :
    p.isUnnamed = false := by
  rw [Path.isUnnamed, List.any_append, Bool.or_eq_false_iff] at h
  exact h.1

/-- A path that can be asked for is short, if it has names. -/
theorem short_of_answers (hnamed : p.isUnnamed = false) (hp : ∀ e, ¬fs.Fails p e) :
    size p.text < pathLimit :=
  Nat.not_le.1 fun hlong => hp _ (.tooLong ⟨hnamed, .inl hlong⟩)

/-- Only below a directory anything exists. -/
theorem isDirectory_of_exists (hp : ∀ e, ¬fs.Fails p e) (hmore : names ≠ [])
    (h : fs.Exists ⟨p.anchor, p.names ++ names⟩) : fs.IsDirectory p := by
  obtain ⟨node, hnamed, -, left, place, hsteps, -⟩ := h
  have hnamed := isUnnamed_front hnamed
  have hshort := short_of_answers hnamed hp
  rcases hsteps.split rfl with ⟨on, -, hall, -⟩ | ⟨links, here, hfirst, hrest⟩
  · exact absurd (List.append_eq_nil_iff.1 hall.symm).2 hmore
  · rcases hrest.inside with hend | ⟨es, inside⟩
    · exact absurd (congrArg Walk.names hend) hmore
    · exact ⟨_, ⟨hnamed, hshort, links, here, hfirst, inside⟩, rfl⟩

/-- Only below a directory anything fails, unless its text is too long. -/
theorem isDirectory_of_fails {e : Failure} (hp : ∀ e, ¬fs.Fails p e)
    (hshort : size (Path.text ⟨p.anchor, p.names ++ names⟩) < pathLimit)
    (h : fs.Fails ⟨p.anchor, p.names ++ names⟩ e) : fs.IsDirectory p := by
  obtain ⟨hnamed, w, hsteps, hstuck⟩ : Path.isUnnamed ⟨p.anchor, p.names ++ names⟩ = false ∧
      ∃ w, Walk.Steps fs.root (fs.start ⟨p.anchor, p.names ++ names⟩) w ∧
        (w.Overlong fs.root ∨ w.Barred fs.root) := by
    rcases h with ⟨hnamed, hlong | ⟨w, hsteps, long⟩⟩ | ⟨hnamed, -, w, hsteps, closed⟩
    · exact absurd hlong (Nat.not_le.2 hshort)
    · exact ⟨hnamed, w, hsteps, .inl long⟩
    · exact ⟨hnamed, w, hsteps, .inr closed⟩
  have hnamed := isUnnamed_front hnamed
  have hshort := short_of_answers hnamed hp
  rcases hsteps.split rfl with ⟨left, hmore, hleft, hfirst⟩ | ⟨links, here, hfirst, hrest⟩
  -- The walk stops on the way to `p`, so that `p` fails as well.
  · rcases hstuck with long | closed
    · exact absurd (.tooLong ⟨hnamed, .inr ⟨_, hfirst, long.front hmore hleft⟩⟩) (hp _)
    · exact absurd (.denied ⟨hnamed, hshort, _, hfirst, closed.1, hmore⟩) (hp _)
  -- It has got to `p`, and what stops it there or below is a directory.
  · obtain ⟨node, hnode, hdirectory⟩ :
        ∃ node, fs.root.at? here = some node ∧ node.isDirectory = true := by
      rcases hrest.inside with rfl | ⟨es, inside⟩
      · rcases hstuck with ⟨es, -, -, inside, -⟩ | ⟨hclosed, -⟩
        · exact ⟨_, inside, rfl⟩
        · exact ⟨_, hclosed, rfl⟩
      · exact ⟨_, inside, rfl⟩
    exact ⟨node, ⟨hnamed, hshort, links, here, hfirst, hnode⟩, hdirectory⟩

end FileSystem

namespace Search
variable {fs : FileSystem}

/-- Below the directories of a search path the same is found as below all of its entries. -/
theorem Directories.firstBelow_eq {entries : List Text} {roots : List Path}
    (h : Directories fs entries roots) {path : Text} (hmore : (relativePath path).names ≠ [])
    (hs : ∀ entry ∈ entries,
      FileSystem.size ((Path.ofText entry).join (relativePath path)).text <
        FileSystem.pathLimit) :
    firstBelow fs (relativePath path) roots =
      firstBelow fs (relativePath path) (entries.map Path.ofText) := by
  induction h with
  | nil => rfl
  | directory _ _ ih =>
    rw [List.forall_mem_cons] at hs
    rw [List.map_cons, firstBelow, firstBelow, ih hs.2]
  | @other entry entries roots answers not_here _ ih =>
    rw [List.forall_mem_cons, join_relativePath] at hs
    have hlacks : fs.Lacks ((Path.ofText entry).join (relativePath path)) := by
      rw [join_relativePath]
      exact ⟨fun e hfails => not_here (FileSystem.isDirectory_of_fails answers hs.1 hfails),
        fun hfound => not_here (FileSystem.isDirectory_of_exists answers hmore hfound)⟩
    rw [ih hs.2, List.map_cons, firstBelow, FileSystem.exists?_eq_false_iff.2 hlacks]
    rfl

end Search
end MigrationSetup
