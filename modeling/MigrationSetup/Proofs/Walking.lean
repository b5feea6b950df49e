import Mathlib.Logic.Relation
import MigrationSetup.Files.Tree
import MigrationSetup.Proofs.Result

/-! Following paths.

A path is followed name by name, and a walk is how far this has got: the links that may
still be followed, the place, and the names to go (`Walk`). One step takes the next name
(`Walk.Step`), and where a path leads is where a walk without names to go has got to
(`follow_ok_iff`). A walk may stop for a name that is too long for a directory, or in front of
a closed directory. These two and a text that is too long are the only things that make it a
failure to ask whether a path exists (`FileSystem.Fails`). Where neither a name of the path nor
one in the target of a link is that long no walk stops for it (`not_tooLong`). -/
namespace MigrationSetup

/-- How far a path has been followed. -/
structure Walk where
  /-- How many links may be followed still. -/
  links : Nat
  here : List Text
  names : List Text

namespace Walk

/-- A name that stands for an entry of a directory. -/
def Proper (name : Text) : Prop := name ≠ "." ∧ name ≠ ".."

/-- The next name is taken. -/
inductive Step (root : FileNode) : Walk → Walk → Prop
  | dot {links : Nat} {here rest : List Text} {es : List (Text × FileNode)}
      (inside : root.at? here = some (.directory es)) :
      Step root ⟨links, here, Text.ofString "." :: rest⟩ ⟨links, here, rest⟩
  | up {links : Nat} {here rest : List Text} {es : List (Text × FileNode)}
      (inside : root.at? here = some (.directory es)) :
      Step root ⟨links, here, Text.ofString ".." :: rest⟩ ⟨links, here.dropLast, rest⟩
  | down {links : Nat} {here rest : List Text} {name : Text} {node : FileNode}
      {es : List (Text × FileNode)} (inside : root.at? here = some (.directory es))
      (proper : Proper name) (short : FileSystem.size name ≤ FileSystem.maxName)
      (there : FileNode.child? name es = some node) (plain : ∀ target, node ≠ .link target) :
      Step root ⟨links, here, name :: rest⟩ ⟨links, here ++ [name], rest⟩
  | link {links : Nat} {here rest : List Text} {name target : Text}
      {es : List (Text × FileNode)} (inside : root.at? here = some (.directory es))
      (proper : Proper name) (short : FileSystem.size name ≤ FileSystem.maxName)
      (there : FileNode.child? name es = some (.link target)) (leads : target ≠ []) :
      Step root ⟨links + 1, here, name :: rest⟩
        ⟨links, if target.head? = some (.char '/') then [] else here,
          FileSystem.targetNames target ++ rest⟩

/-- Names are taken one after the other. -/
def Steps (root : FileNode) : Walk → Walk → Prop := Relation.ReflTransGen (Step root)

/-- The next name is too long for the directory that the walk has got to. -/
def Overlong (root : FileNode) (w : Walk) : Prop :=
  ∃ es name rest, root.at? w.here = some (.directory es) ∧ w.names = name :: rest ∧
    Proper name ∧ FileSystem.maxName < FileSystem.size name

/-- The walk has names to go and has got to a closed directory. -/
def Barred (root : FileNode) (w : Walk) : Prop :=
  root.at? w.here = some .closed ∧ w.names ≠ []

/-- What the rest of a walk comes to. -/
def follow (root : FileNode) (w : Walk) : Except Lost (List Text) :=
  FileSystem.follow root w.links w.here w.names

variable {root : FileNode} {w w' : Walk}

/-- A step does not change where a walk leads. -/
theorem Step.follow_eq (h : Step root w w') : w.follow root = w'.follow root := by
  cases h with
  | dot inside =>
    simp only [follow]
    rw [FileSystem.follow]
    simp only [inside, if_true]
  | up inside =>
    simp only [follow]
    rw [FileSystem.follow]
    simp [inside]
  | down inside proper short there plain =>
    simp only [follow]
    rw [FileSystem.follow]
    simp only [inside, proper.1, proper.2, if_false, Nat.not_lt.2 short, there]
  | link inside proper short there leads =>
    simp only [follow]
    rw [FileSystem.follow]
    simp only [inside, proper.1, proper.2, if_false, Nat.not_lt.2 short, there, leads]

theorem Steps.follow_eq (h : Steps root w w') : w.follow root = w'.follow root := by
  induction h with
  | refl => rfl
  | tail _ hstep ih => exact ih.trans hstep.follow_eq

theorem Overlong.follow_eq (h : w.Overlong root) : w.follow root = .error .tooLong := by
  obtain ⟨es, name, rest, inside, hnames, proper, long⟩ := h
  rw [follow, hnames, FileSystem.follow]
  simp only [inside, proper.1, proper.2, if_false, long, if_true]

theorem Barred.follow_eq (h : w.Barred root) : w.follow root = .error .denied := by
  obtain ⟨links, here, names⟩ := w
  obtain ⟨hclosed, hmore⟩ := h
  cases names with
  | nil => exact absurd rfl hmore
  | cons name rest =>
    rw [follow, FileSystem.follow]
    simp only [show root.at? here = some .closed from hclosed]

/-- How a walk stops. -/
inductive Stopped (root : FileNode) (w : Walk) : Prop
  | arrived (none : w.names = [])
  | overlong (long : w.Overlong root)
  | barred (closed : w.Barred root)
  | lost {reason : Lost} (nowhere : w.follow root = .error reason) (short : reason ≠ .tooLong)
      (opened : reason ≠ .denied)

/-- Step by step every walk comes to a stop. -/
theorem exists_stopped (root : FileNode) (w : Walk) : ∃ w', Steps root w w' ∧ w'.Stopped root := by
  obtain ⟨links, here, names⟩ := w
  induction links, here, names using FileSystem.follow.induct root with
  | case1 links here => exact ⟨_, .refl, .arrived rfl⟩
  | case2 links here name rest hclosed =>
    exact ⟨_, .refl, .barred ⟨hclosed, List.cons_ne_nil _ _⟩⟩
  | case3 links here rest es inside ih =>
    obtain ⟨w', hsteps, hstop⟩ := ih
    exact ⟨w', .head (.dot inside) hsteps, hstop⟩
  | case4 links here rest es inside _ ih =>
    obtain ⟨w', hsteps, hstop⟩ := ih
    exact ⟨w', .head (.up inside) hsteps, hstop⟩
  | case5 links here name rest es inside hdot hup long =>
    exact ⟨_, .refl, .overlong ⟨es, name, rest, inside, rfl, ⟨hdot, hup⟩, long⟩⟩
  | case6 links here name rest es inside hdot hup short there =>
    have hlost : follow root ⟨links, here, name :: rest⟩ = .error .missing := by
      rw [follow, FileSystem.follow]
      simp only [inside, hdot, hup, short, there, if_false]
    exact ⟨_, .refl, .lost hlost (by decide) (by decide)⟩
  | case7 here name rest es inside hdot hup short target there =>
    have hlost : follow root ⟨0, here, name :: rest⟩ = .error .endlessLinks := by
      rw [follow, FileSystem.follow]
      simp only [inside, hdot, hup, short, there, if_false]
    exact ⟨_, .refl, .lost hlost (by decide) (by decide)⟩
  | case8 here name rest es inside hdot hup short links there =>
    have hlost : follow root ⟨links + 1, here, name :: rest⟩ = .error .missing := by
      rw [follow, FileSystem.follow]
      simp only [inside, hdot, hup, short, there, if_false, if_true]
    exact ⟨_, .refl, .lost hlost (by decide) (by decide)⟩
  | case9 here name rest es inside hdot hup short target there links hne start ih =>
    obtain ⟨w', hsteps, hstop⟩ := ih
    exact ⟨w', .head (.link inside ⟨hdot, hup⟩ (Nat.not_lt.1 short) there hne) hsteps, hstop⟩
  | case10 links here name rest es inside hdot hup short node plain there ih =>
    obtain ⟨w', hsteps, hstop⟩ := ih
    exact ⟨w', .head (.down inside ⟨hdot, hup⟩ (Nat.not_lt.1 short) there plain) hsteps, hstop⟩
  | case11 links here name rest opened outside =>
    have hlost : follow root ⟨links, here, name :: rest⟩ = .error .notDirectory := by
      rw [follow, FileSystem.follow]
      split
      · next hclosed => exact (opened hclosed).elim
      · next es inside => exact (outside es inside).elim
      · rfl
    exact ⟨_, .refl, .lost hlost (by decide) (by decide)⟩

/-- Where a walk leads is where it has got to once no names are left. -/
theorem follow_ok_iff {place : List Text} :
    w.follow root = .ok place ↔ ∃ left, Steps root w ⟨left, place, []⟩ := by
  constructor
  · intro h
    obtain ⟨w', hsteps, hstop⟩ := exists_stopped root w
    rw [hsteps.follow_eq] at h
    cases hstop with
    | arrived none =>
      obtain ⟨left, here, names⟩ := w'
      subst none
      rw [follow, FileSystem.follow] at h
      exact ⟨left, Except.ok.inj h ▸ hsteps⟩
    | overlong long => rw [long.follow_eq] at h; cases h
    | barred closed => rw [closed.follow_eq] at h; cases h
    | lost nowhere => rw [nowhere] at h; cases h
  · intro h
    obtain ⟨left, hsteps⟩ := h
    rw [hsteps.follow_eq, follow, FileSystem.follow]

/-- A walk is too long if it gets to a name that is. -/
theorem follow_tooLong_iff :
    w.follow root = .error .tooLong ↔ ∃ w', Steps root w w' ∧ w'.Overlong root := by
  constructor
  · intro h
    obtain ⟨w', hsteps, hstop⟩ := exists_stopped root w
    rw [hsteps.follow_eq] at h
    cases hstop with
    | arrived none => rw [follow, none, FileSystem.follow] at h; cases h
    | overlong long => exact ⟨w', hsteps, long⟩
    | barred closed => rw [closed.follow_eq] at h; cases h
    | lost nowhere short =>
      rw [nowhere] at h
      exact absurd (Except.error.inj h) short
  · intro h
    obtain ⟨w', hsteps, long⟩ := h
    rw [hsteps.follow_eq, long.follow_eq]

/-- A walk is denied if it gets to a closed directory that it would have to pass. -/
theorem follow_denied_iff :
    w.follow root = .error .denied ↔ ∃ w', Steps root w w' ∧ w'.Barred root := by
  constructor
  · intro h
    obtain ⟨w', hsteps, hstop⟩ := exists_stopped root w
    rw [hsteps.follow_eq] at h
    cases hstop with
    | arrived none => rw [follow, none, FileSystem.follow] at h; cases h
    | overlong long => rw [long.follow_eq] at h; cases h
    | barred closed => exact ⟨w', hsteps, closed⟩
    | lost nowhere _ opened =>
      rw [nowhere] at h
      exact absurd (Except.error.inj h) opened
  · intro h
    obtain ⟨w', hsteps, closed⟩ := h
    rw [hsteps.follow_eq, closed.follow_eq]

end Walk

/-! ### What a path leads to -/

/-- Whether a path has a name that nothing can have. -/
def Path.isUnnamed (p : Path) : Bool := p.names.any fun n => !FileSystem.isName n

namespace FileSystem
variable {fs : FileSystem} {p : Path}

/-- The walk along a path, before its first step. -/
def start (fs : FileSystem) (p : Path) : Walk :=
  ⟨maxLinks, if p.isAbsolute then [] else fs.current, p.names⟩

/-- There is such a node at the end of the path. -/
def Holds (fs : FileSystem) (p : Path) (node : FileNode) : Prop :=
  p.isUnnamed = false ∧ size p.text < pathLimit ∧
    ∃ left place, Walk.Steps fs.root (fs.start p) ⟨left, place, []⟩ ∧
      fs.root.at? place = some node

/-- The text of the path is too long, or the walk along it gets to a name that is. -/
def TooLong (fs : FileSystem) (p : Path) : Prop :=
  p.isUnnamed = false ∧ (pathLimit ≤ size p.text ∨
    ∃ w, Walk.Steps fs.root (fs.start p) w ∧ w.Overlong fs.root)

/-- The walk along the path gets to a closed directory that it would have to pass. -/
def Denied (fs : FileSystem) (p : Path) : Prop :=
  p.isUnnamed = false ∧ size p.text < pathLimit ∧
    ∃ w, Walk.Steps fs.root (fs.start p) w ∧ w.Barred fs.root

/-- Whether the path exists cannot be said, for this failure. -/
inductive Fails (fs : FileSystem) (p : Path) : Failure → Prop
  | tooLong (long : fs.TooLong p) : Fails fs p (.nameTooLong p.text)
  | denied (closed : fs.Denied p) : Fails fs p (.denied p.text)

theorem locate_of_short (h : size p.text < pathLimit) :
    fs.locate p = (fs.start p).follow fs.root := by
  rw [locate, if_neg (Nat.not_le.2 h)]
  rfl

theorem lookup_of_long (h : pathLimit ≤ size p.text) : fs.lookup p = .error .tooLong := by
  rw [lookup, locate, if_pos h]
  rfl

/-- What stands at a place, or that nothing does. -/
theorem lookup_of_short (h : size p.text < pathLimit) :
    fs.lookup p = ((fs.start p).follow fs.root).bind fun place =>
      match fs.root.at? place with
      | some node => .ok node
      | none => .error .missing := by
  rw [lookup, locate_of_short h]
  rfl

theorem lookup_ok_iff {node : FileNode} : fs.lookup p = .ok node ↔
    size p.text < pathLimit ∧
      ∃ left place, Walk.Steps fs.root (fs.start p) ⟨left, place, []⟩ ∧
        fs.root.at? place = some node := by
  by_cases hlong : pathLimit ≤ size p.text
  · rw [lookup_of_long hlong]
    constructor
    · intro h
      cases h
    · intro h
      omega
  · rw [lookup_of_short (Nat.not_le.1 hlong)]
    constructor
    · intro h
      obtain ⟨place, hplace, h⟩ := bind_eq_ok.1 h
      obtain ⟨left, hsteps⟩ := Walk.follow_ok_iff.1 hplace
      split at h
      · next found hfound =>
        obtain rfl := Except.ok.inj h
        exact ⟨Nat.not_le.1 hlong, left, place, hsteps, hfound⟩
      · cases h
    · intro h
      obtain ⟨-, left, place, hsteps, hfound⟩ := h
      have hplace : (fs.start p).follow fs.root = .ok place := Walk.follow_ok_iff.2 ⟨left, hsteps⟩
      rw [hplace]
      simp only [Except.bind, hfound]

/-- Looking up a short path fails as the walk along it does, or for nothing being there. -/
theorem lookup_eq_error_iff {reason : Lost} (h : size p.text < pathLimit)
    (hr : reason ≠ .missing) :
    fs.lookup p = .error reason ↔ (fs.start p).follow fs.root = .error reason := by
  rw [lookup_of_short h]
  cases (fs.start p).follow fs.root with
  | error lost => simp only [Except.bind, Except.error.injEq]
  | ok place =>
    refine iff_of_false ?_ nofun
    simp only [Except.bind]
    split
    · nofun
    · exact fun h => hr (Except.error.inj h).symm

theorem lookup_tooLong_iff : fs.lookup p = .error .tooLong ↔
    pathLimit ≤ size p.text ∨
      ∃ w, Walk.Steps fs.root (fs.start p) w ∧ w.Overlong fs.root := by
  by_cases hlong : pathLimit ≤ size p.text
  · rw [lookup_of_long hlong]
    exact ⟨fun _ => .inl hlong, fun _ => rfl⟩
  · rw [lookup_eq_error_iff (Nat.not_le.1 hlong) (by decide), Walk.follow_tooLong_iff,
      or_iff_right hlong]

theorem lookup_denied_iff : fs.lookup p = .error .denied ↔
    size p.text < pathLimit ∧
      ∃ w, Walk.Steps fs.root (fs.start p) w ∧ w.Barred fs.root := by
  by_cases hlong : pathLimit ≤ size p.text
  · rw [lookup_of_long hlong]
    exact iff_of_false nofun fun h => Nat.not_lt.2 hlong h.1
  · rw [lookup_eq_error_iff (Nat.not_le.1 hlong) (by decide), Walk.follow_denied_iff,
      and_iff_right (Nat.not_le.1 hlong)]

/-! ### Questions -/

theorem holds_iff {node : FileNode} :
    fs.Holds p node ↔ p.isUnnamed = false ∧ fs.lookup p = .ok node := by
  rw [Holds, lookup_ok_iff]

theorem tooLong_iff : fs.TooLong p ↔ p.isUnnamed = false ∧ fs.lookup p = .error .tooLong := by
  rw [TooLong, lookup_tooLong_iff]

theorem denied_iff : fs.Denied p ↔ p.isUnnamed = false ∧ fs.lookup p = .error .denied := by
  rw [Denied, lookup_denied_iff]

theorem fails_iff {e : Failure} : fs.Fails p e ↔ p.isUnnamed = false ∧
    (fs.lookup p = .error .tooLong ∧ e = .nameTooLong p.text ∨
      fs.lookup p = .error .denied ∧ e = .denied p.text) := by
  constructor
  · rintro (long | closed)
    · exact ⟨(tooLong_iff.1 long).1, .inl ⟨(tooLong_iff.1 long).2, rfl⟩⟩
    · exact ⟨(denied_iff.1 closed).1, .inr ⟨(denied_iff.1 closed).2, rfl⟩⟩
  · rintro ⟨hnamed, ⟨hlong, rfl⟩ | ⟨hclosed, rfl⟩⟩
    · exact .tooLong (tooLong_iff.2 ⟨hnamed, hlong⟩)
    · exact .denied (denied_iff.2 ⟨hnamed, hclosed⟩)

/-- A path fails for one thing. -/
theorem Fails.eq {e f : Failure} (h : fs.Fails p e) (h' : fs.Fails p f) : e = f := by
  obtain ⟨-, ⟨hl, rfl⟩ | ⟨hl, rfl⟩⟩ := fails_iff.1 h
  · obtain ⟨-, ⟨-, rfl⟩ | ⟨hl', rfl⟩⟩ := fails_iff.1 h'
    · rfl
    · cases hl.symm.trans hl'
  · obtain ⟨-, ⟨hl', rfl⟩ | ⟨-, rfl⟩⟩ := fails_iff.1 h'
    · cases hl.symm.trans hl'
    · rfl

theorem test_eq (passes : FileNode → Bool) : fs.test p passes =
    if p.isUnnamed then .ok false
    else match fs.lookup p with
      | .ok node => .ok (passes node)
      | .error .tooLong => .error (.nameTooLong p.text)
      | .error .denied => .error (.denied p.text)
      | .error _ => .ok false := rfl

/-- A path passes a test if what stands at its end does. -/
theorem test_eq_true_iff {passes : FileNode → Bool} :
    fs.test p passes = .ok true ↔ ∃ node, fs.Holds p node ∧ passes node = true := by
  simp only [test_eq, holds_iff]
  cases p.isUnnamed with
  | true => simp
  | false =>
    cases fs.lookup p with
    | ok node => simp
    | error reason => cases reason <;> simp

/-- No question fails but that about a path that is too long or closed. -/
theorem test_eq_error_iff {passes : FileNode → Bool} {e : Failure} :
    fs.test p passes = .error e ↔ fs.Fails p e := by
  simp only [test_eq, fails_iff]
  cases p.isUnnamed with
  | true => simp
  | false =>
    cases fs.lookup p with
    | ok node => simp
    | error reason => cases reason <;> simp [eq_comm]

/-- A path exists if something stands at its end. -/
theorem exists?_eq_true_iff : fs.exists? p = .ok true ↔ ∃ node, fs.Holds p node := by
  simp only [exists?, test_eq_true_iff, and_true]

theorem exists?_eq_error_iff {e : Failure} : fs.exists? p = .error e ↔ fs.Fails p e :=
  test_eq_error_iff

theorem exists?_eq_false_iff :
    fs.exists? p = .ok false ↔ (∀ e, ¬fs.Fails p e) ∧ ¬∃ node, fs.Holds p node := by
  rw [← exists?_eq_true_iff]
  simp only [← exists?_eq_error_iff]
  cases fs.exists? p with
  | error e => simp
  | ok found => cases found <;> simp

theorem read_file {bytes : List UInt8} (h : fs.Holds p (.file bytes)) : fs.read p = .ok bytes := by
  rw [read, (holds_iff.1 h).2]

theorem read_directory {node : FileNode} (hd : node.isDirectory = true) (h : fs.Holds p node) :
    fs.read p = .error (.isDirectory p.text) := by
  rw [read, (holds_iff.1 h).2]
  cases node with
  | directory => rfl
  | closed => rfl
  | file => cases hd
  | link => cases hd

theorem read_link {target : Text} (h : fs.Holds p (.link target)) :
    fs.read p = .error (.setting (.missingFile p.text)) := by
  rw [read, (holds_iff.1 h).2]

end FileSystem

/-! ### Short names -/

/-- No name is too long for a directory. -/
def ShortNames (names : List Text) : Prop :=
  ∀ n ∈ names, FileSystem.size n ≤ FileSystem.maxName

/-- No link leads along a name that is too long. -/
def FileNode.ShortLinks (root : FileNode) : Prop :=
  ∀ place target, root.at? place = some (.link target) →
    ShortNames (FileSystem.targetNames target)

theorem FileNode.at?_child {root node : FileNode} {here : List Text} {name : Text}
    {es : List (Text × FileNode)} (inside : root.at? here = some (.directory es))
    (there : FileNode.child? name es = some node) : root.at? (here ++ [name]) = some node := by
  induction here generalizing root with
  | nil =>
    obtain rfl := Option.some.inj inside
    simp [FileNode.at?, there]
  | cons first here ih =>
    cases root with
    | directory gs =>
      simp only [FileNode.at?, List.cons_append, Option.bind_eq_some_iff] at inside ⊢
      obtain ⟨child, hchild, inside⟩ := inside
      exact ⟨child, hchild, ih inside⟩
    | closed => cases inside
    | file => cases inside
    | link => cases inside

namespace Walk
variable {root : FileNode} {w w' : Walk}

/-- One step along short names leaves short names. -/
theorem Step.short (hl : root.ShortLinks) (h : Step root w w') (hn : ShortNames w.names) :
    ShortNames w'.names := by
  cases h with
  | dot => exact fun n hm => hn n (List.mem_cons_of_mem _ hm)
  | up => exact fun n hm => hn n (List.mem_cons_of_mem _ hm)
  | down => exact fun n hm => hn n (List.mem_cons_of_mem _ hm)
  | link inside _ _ there =>
    intro n hm
    rcases List.mem_append.1 hm with hm | hm
    · exact hl _ _ (FileNode.at?_child inside there) n hm
    · exact hn n (List.mem_cons_of_mem _ hm)

theorem Steps.short (hl : root.ShortLinks) (h : Steps root w w') (hn : ShortNames w.names) :
    ShortNames w'.names := by
  induction h with
  | refl => exact hn
  | tail _ hstep ih => exact hstep.short hl ih

end Walk

/-- A short path of short names is not too long, whatever it leads to, as long as the links
are short as well. -/
theorem FileSystem.not_tooLong {fs : FileSystem} {p : Path} (hl : fs.root.ShortLinks)
    (ht : size p.text < pathLimit) (hn : ShortNames p.names) : ¬fs.TooLong p := by
  intro h
  rcases h.2 with hlong | ⟨w, hsteps, es, name, rest, -, hnames, -, hlong⟩
  · omega
  · have hname := hsteps.short hl hn name (hnames ▸ List.mem_cons_self)
    omega

/-- No directory is closed. -/
def FileNode.Open (root : FileNode) : Prop := ∀ place, root.at? place ≠ some .closed

theorem FileSystem.not_denied {fs : FileSystem} (ho : fs.root.Open) (p : Path) : ¬fs.Denied p := by
  rintro ⟨-, -, w, -, hclosed, -⟩
  exact ho w.here hclosed

end MigrationSetup
