import MigrationSetup.Files.Search
import MigrationSetup.Proofs.Loading
import MigrationSetup.Proofs.Probing
import MigrationSetup.Proofs.Walking

/-! How locations are looked for.

A location gives paths to try, and the first of them that exists is what is found
(`Search.Finds`). If none exists the location is missing (`Search.Misses`), unless a path on
the way is too long or leads through a closed directory: then the search stops with a failure
(`Search.Stops`), whatever comes behind. So with a search as the checker, locations are enough
if one of them is found, in whatever order they come, as long as none of them stops the search
(`validate_searches`). Short paths do not, where no directory is closed (`not_stops`). -/
namespace MigrationSetup

/-- A text behind the prefix of the file system is a path of its own. -/
theorem Location.ofValue_file (path : Text) :
    ofValue (.text (LocationKind.file.mark ++ path)) = .ok ⟨.file, path⟩ := by
  show Except.ok (parse (LocationKind.file.mark ++ path)) = _
  rw [parse_file]

/-! ### Trying paths -/

/-- Neither the path nor one of its names is too long. -/
def Path.Short (p : Path) : Prop :=
  FileSystem.size p.text < FileSystem.pathLimit ∧ ShortNames p.names

namespace FileSystem

/-- Something stands at the end of the path. -/
def Exists (fs : FileSystem) (p : Path) : Prop := ∃ node, fs.Holds p node

/-- Nothing stands at the end of the path, and it can be asked for. -/
def Lacks (fs : FileSystem) (p : Path) : Prop := (∀ e, ¬fs.Fails p e) ∧ ¬fs.Exists p

def IsDirectory (fs : FileSystem) (p : Path) : Prop :=
  ∃ node, fs.Holds p node ∧ node.isDirectory = true

variable {fs : FileSystem} {p : Path}

theorem isDirectory?_eq_true_iff : fs.isDirectory? p = .ok true ↔ fs.IsDirectory p :=
  test_eq_true_iff

end FileSystem

namespace Search
variable {s : Search} {fs : FileSystem} {searchPath : List Text}

/-- The first of several paths that exists. -/
def firstOf (fs : FileSystem) : List Path → Except Failure (Option Path)
  | [] => .ok none
  | p :: rest => do
    if ← fs.exists? p then return some p else firstOf fs rest

theorem firstBelow_eq (fs : FileSystem) (relative : Path) (roots : List Path) :
    firstBelow fs relative roots = firstOf fs (roots.map (·.join relative)) := by
  induction roots with
  | nil => rfl
  | cons root roots ih => rw [firstBelow, List.map_cons, firstOf, ih]

/-- Paths that are missing are passed over. -/
theorem firstOf_past {before : List Path} (h : ∀ p ∈ before, fs.Lacks p) (rest : List Path) :
    firstOf fs (before ++ rest) = firstOf fs rest := by
  induction before with
  | nil => rfl
  | cons p before ih =>
    rw [List.forall_mem_cons] at h
    rw [List.cons_append, firstOf, FileSystem.exists?_eq_false_iff.2 h.1]
    exact ih h.2

theorem firstOf_found {q : Path} (h : fs.Exists q) (rest : List Path) :
    firstOf fs (q :: rest) = .ok (some q) := by
  rw [firstOf, FileSystem.exists?_eq_true_iff.2 h]
  rfl

theorem firstOf_fails {q : Path} {e : Failure} (h : fs.Fails q e) (rest : List Path) :
    firstOf fs (q :: rest) = .error e := by
  rw [firstOf, FileSystem.exists?_eq_error_iff.2 h]
  rfl

/-- Of several paths one exists behind missing ones, or one fails behind missing ones, or all
are missing. -/
theorem exists_or_fails_or_lacks (fs : FileSystem) (paths : List Path) :
    (∃ before q after, paths = before ++ q :: after ∧ (∀ p ∈ before, fs.Lacks p) ∧ fs.Exists q) ∨
      (∃ before q after e, paths = before ++ q :: after ∧ (∀ p ∈ before, fs.Lacks p) ∧
        fs.Fails q e) ∨ ∀ p ∈ paths, fs.Lacks p := by
  induction paths with
  | nil => exact .inr (.inr (List.forall_mem_nil _))
  | cons p paths ih =>
    by_cases hfails : ∃ e, fs.Fails p e
    · obtain ⟨e, he⟩ := hfails
      exact .inr (.inl ⟨[], p, paths, e, rfl, List.forall_mem_nil _, he⟩)
    · by_cases hfound : fs.Exists p
      · exact .inl ⟨[], p, paths, rfl, List.forall_mem_nil _, hfound⟩
      · have hp : fs.Lacks p := ⟨not_exists.1 hfails, hfound⟩
        rcases ih with ⟨before, q, after, rfl, hb, hq⟩ | ⟨before, q, after, e, rfl, hb, hq⟩ | hall
        · exact .inl ⟨p :: before, q, after, rfl, List.forall_mem_cons.2 ⟨hp, hb⟩, hq⟩
        · exact .inr (.inl ⟨p :: before, q, after, e, rfl, List.forall_mem_cons.2 ⟨hp, hb⟩, hq⟩)
        · exact .inr (.inr (List.forall_mem_cons.2 ⟨hp, hall⟩))

/-! ### The paths of a location -/

/-- The directories among the entries of a search path, none of which fails. -/
inductive Directories (fs : FileSystem) : List Text → List Path → Prop
  | nil : Directories fs [] []
  | directory {entry : Text} {entries : List Text} {roots : List Path}
      (here : fs.IsDirectory (Path.ofText entry)) (more : Directories fs entries roots) :
      Directories fs (entry :: entries) (Path.ofText entry :: roots)
  | other {entry : Text} {entries : List Text} {roots : List Path}
      (answers : ∀ e, ¬fs.Fails (Path.ofText entry) e)
      (not_here : ¬fs.IsDirectory (Path.ofText entry))
      (more : Directories fs entries roots) : Directories fs (entry :: entries) roots

theorem Directories.directories_eq {entries : List Text} {roots : List Path}
    (h : Directories fs entries roots) : directories fs entries = .ok roots := by
  induction h with
  | nil => rfl
  | directory here _ ih =>
    rw [directories, FileSystem.isDirectory?_eq_true_iff.2 here, ih]
    rfl
  | @other entry entries roots answers not_here _ ih =>
    have hfalse : fs.isDirectory? (Path.ofText entry) = .ok false := by
      cases htest : fs.isDirectory? (Path.ofText entry) with
      | error e => exact absurd (FileSystem.test_eq_error_iff.1 htest) (answers e)
      | ok found =>
        cases found with
        | false => rfl
        | true => exact absurd (FileSystem.isDirectory?_eq_true_iff.1 htest) not_here
    rw [directories, hfalse, ih]
    rfl

theorem directories_fails {before after : List Text} {entry : Text} {e : Failure}
    (hb : ∀ other ∈ before, ∀ f, ¬fs.Fails (Path.ofText other) f)
    (h : fs.Fails (Path.ofText entry) e) :
    directories fs (before ++ entry :: after) = .error e := by
  induction before with
  | nil =>
    rw [List.nil_append, directories]
    exact bind_eq_error.2 (.inl (FileSystem.test_eq_error_iff.2 h))
  | cons other before ih =>
    rw [List.forall_mem_cons] at hb
    rw [List.cons_append, directories]
    cases htest : fs.isDirectory? (Path.ofText other) with
    | error f => exact absurd (FileSystem.test_eq_error_iff.1 htest) (hb.1 f)
    | ok here => exact bind_eq_error.2 (.inr ⟨here, rfl, bind_eq_error.2 (.inl (ih hb.2))⟩)

theorem directories_or_fails (fs : FileSystem) (entries : List Text) :
    (∃ roots, Directories fs entries roots) ∨
      ∃ before entry after e, entries = before ++ entry :: after ∧
        (∀ other ∈ before, ∀ f, ¬fs.Fails (Path.ofText other) f) ∧
          fs.Fails (Path.ofText entry) e := by
  induction entries with
  | nil => exact .inl ⟨[], .nil⟩
  | cons entry entries ih =>
    by_cases hfails : ∃ e, fs.Fails (Path.ofText entry) e
    · obtain ⟨e, he⟩ := hfails
      exact .inr ⟨[], entry, entries, e, rfl, List.forall_mem_nil _, he⟩
    · have hanswers := not_exists.1 hfails
      rcases ih with ⟨roots, hroots⟩ | ⟨before, other, after, e, rfl, hb, he⟩
      · by_cases here : fs.IsDirectory (Path.ofText entry)
        · exact .inl ⟨_, .directory here hroots⟩
        · exact .inl ⟨_, .other hanswers here hroots⟩
      · exact .inr ⟨entry :: before, other, after, e, rfl,
          List.forall_mem_cons.2 ⟨hanswers, hb⟩, he⟩

/-- The paths that are tried for a value that counts as a text, in this order. -/
inductive Candidates (s : Search) (fs : FileSystem) (searchPath : List Text) (v : Value) :
    List Path → Prop
  | own {l : Location} (parsed : Location.ofValue v = .ok l) (kind : l.kind = .file) :
      Candidates s fs searchPath v [s.ownPath l.path]
  | given {l : Location} {roots : List Path} (parsed : Location.ofValue v = .ok l)
      (kind : l.kind = .classpath) (given : s.roots = some roots) :
      Candidates s fs searchPath v (roots.map (·.join (relativePath l.path)))
  | searched {l : Location} {roots : List Path} (parsed : Location.ofValue v = .ok l)
      (kind : l.kind = .classpath) (unset : s.roots = none)
      (found : Directories fs searchPath roots) :
      Candidates s fs searchPath v (roots.map (·.join (relativePath l.path)))

/-- A value that counts as a text is looked for at its paths. -/
theorem Candidates.resolve_eq {v : Value} {paths : List Path}
    (h : Candidates s fs searchPath v paths) : s.resolve fs searchPath v = firstOf fs paths := by
  cases h with
  | @own l parsed kind =>
    rw [resolve, parsed]
    show s.resolveLocation fs searchPath l = _
    simp only [resolveLocation, kind, firstOf]
    cases fs.exists? (s.ownPath l.path) with
    | error e => rfl
    | ok found => cases found <;> rfl
  | @given l roots parsed kind given =>
    rw [resolve, parsed]
    show s.resolveLocation fs searchPath l = _
    rw [resolveLocation, kind, given, ← firstBelow_eq]
    rfl
  | @searched l roots parsed kind unset found =>
    rw [resolve, parsed]
    show s.resolveLocation fs searchPath l = _
    rw [resolveLocation, kind, unset, ← firstBelow_eq]
    simp only [found.directories_eq]
    rfl

/-! ### What a search comes to -/

/-- The first of the paths that exists is `q`. -/
def Finds (s : Search) (fs : FileSystem) (searchPath : List Text) (v : Value) (q : Path) : Prop :=
  ∃ before after, s.Candidates fs searchPath v (before ++ q :: after) ∧
    (∀ p ∈ before, fs.Lacks p) ∧ fs.Exists q

/-- None of the paths exists, and all of them can be asked for. -/
def Misses (s : Search) (fs : FileSystem) (searchPath : List Text) (v : Value) : Prop :=
  ∃ paths, s.Candidates fs searchPath v paths ∧ ∀ p ∈ paths, fs.Lacks p

/-- The search stops with a failure: that of one of the paths, or of an entry of the search
path. -/
inductive Stops (s : Search) (fs : FileSystem) (searchPath : List Text) (v : Value) :
    Failure → Prop
  | candidate {before after : List Path} {q : Path} {e : Failure}
      (tried : s.Candidates fs searchPath v (before ++ q :: after))
      (missing : ∀ p ∈ before, fs.Lacks p) (fails : fs.Fails q e) : Stops s fs searchPath v e
  | entry {l : Location} {before after : List Text} {entry : Text} {e : Failure}
      (parsed : Location.ofValue v = .ok l) (kind : l.kind = .classpath) (unset : s.roots = none)
      (split : searchPath = before ++ entry :: after)
      (answers : ∀ other ∈ before, ∀ f, ¬fs.Fails (Path.ofText other) f)
      (fails : fs.Fails (Path.ofText entry) e) : Stops s fs searchPath v e

/-- The ways in which a search ends. -/
inductive Ends (s : Search) (fs : FileSystem) (searchPath : List Text) (v : Value) :
    Except Failure (Option Path) → Prop
  | found {q : Path} (h : s.Finds fs searchPath v q) : Ends s fs searchPath v (.ok (some q))
  | missed (h : s.Misses fs searchPath v) : Ends s fs searchPath v (.ok none)
  | stopped {e : Failure} (h : s.Stops fs searchPath v e) : Ends s fs searchPath v (.error e)

variable {v : Value} {q : Path} {e : Failure}

theorem Finds.resolve_eq (h : s.Finds fs searchPath v q) :
    s.resolve fs searchPath v = .ok (some q) := by
  obtain ⟨before, after, htried, hb, hq⟩ := h
  rw [htried.resolve_eq, firstOf_past hb, firstOf_found hq]

theorem Misses.resolve_eq (h : s.Misses fs searchPath v) :
    s.resolve fs searchPath v = .ok none := by
  obtain ⟨paths, htried, hb⟩ := h
  rw [htried.resolve_eq, ← List.append_nil paths, firstOf_past hb]
  rfl

theorem Stops.resolve_eq (h : s.Stops fs searchPath v e) :
    s.resolve fs searchPath v = .error e := by
  cases h with
  | candidate htried hb hq => rw [htried.resolve_eq, firstOf_past hb, firstOf_fails hq]
  | @entry l before after entry e parsed kind unset split answers fails =>
    rw [resolve, parsed]
    show s.resolveLocation fs searchPath l = _
    rw [resolveLocation, kind, unset, split]
    exact bind_eq_error.2 (.inl (directories_fails answers fails))

theorem Candidates.ends {paths : List Path} (h : s.Candidates fs searchPath v paths) :
    Ends s fs searchPath v (s.resolve fs searchPath v) := by
  rcases exists_or_fails_or_lacks fs paths with ⟨before, q, after, rfl, hb, hq⟩ |
    ⟨before, q, after, e, rfl, hb, hq⟩ | hall
  · have hfound : s.Finds fs searchPath v q := ⟨before, after, h, hb, hq⟩
    exact hfound.resolve_eq ▸ .found hfound
  · have hstop : s.Stops fs searchPath v e := .candidate h hb hq
    exact hstop.resolve_eq ▸ .stopped hstop
  · have hmissed : s.Misses fs searchPath v := ⟨paths, h, hall⟩
    exact hmissed.resolve_eq ▸ .missed hmissed

/-- Every search for a value that counts as a text ends in one of these ways. -/
theorem resolve_ends (s : Search) (fs : FileSystem) (searchPath : List Text)
    (hv : v.isText = true) : Ends s fs searchPath v (s.resolve fs searchPath v) := by
  obtain ⟨l, parsed⟩ : ∃ l, Location.ofValue v = .ok l := by
    obtain ⟨text, htext⟩ := Option.isSome_iff_exists.1 hv
    exact ⟨Location.parse text, by rw [Location.ofValue, htext]⟩
  cases kind : l.kind with
  | file => exact (Candidates.own parsed kind).ends
  | classpath =>
    cases hroots : s.roots with
    | some roots => exact (Candidates.given parsed kind hroots).ends
    | none =>
      rcases directories_or_fails fs searchPath with ⟨roots, found⟩ |
        ⟨before, entry, after, e, split, answers, fails⟩
      · exact (Candidates.searched parsed kind hroots found).ends
      · have hstop : s.Stops fs searchPath v e := .entry parsed kind hroots split answers fails
        exact hstop.resolve_eq ▸ .stopped hstop

/-- Nothing stops a search along short paths where no directory is closed, whatever these
lead to. -/
theorem not_stops (ho : fs.root.Open) (hl : fs.root.ShortLinks)
    (hs : ∀ entry ∈ searchPath, (Path.ofText entry).Short)
    (hp : ∀ paths, s.Candidates fs searchPath v paths → ∀ p ∈ paths, p.Short) :
    ¬s.Stops fs searchPath v e := by
  intro h
  have hshort {q : Path} (hq : q.Short) (hfails : fs.Fails q e) : False := by
    cases hfails with
    | tooLong long => exact FileSystem.not_tooLong hl hq.1 hq.2 long
    | denied closed => exact FileSystem.not_denied ho q closed
  cases h with
  | @candidate _ _ q _ tried _ fails => exact hshort (hp _ tried q (by simp)) fails
  | entry _ _ _ split _ fails => exact hshort (hs _ (by simp [split])) fails

theorem resolve_eq_some_iff (hv : v.isText = true) :
    s.resolve fs searchPath v = .ok (some q) ↔ s.Finds fs searchPath v q := by
  refine ⟨fun h => ?_, Finds.resolve_eq⟩
  have hends := resolve_ends s fs searchPath hv
  rw [h] at hends
  cases hends with
  | found hfound => exact hfound

theorem resolve_eq_none_iff (hv : v.isText = true) :
    s.resolve fs searchPath v = .ok none ↔ s.Misses fs searchPath v := by
  refine ⟨fun h => ?_, Misses.resolve_eq⟩
  have hends := resolve_ends s fs searchPath hv
  rw [h] at hends
  cases hends with
  | missed hmissed => exact hmissed

theorem resolve_eq_error_iff (hv : v.isText = true) :
    s.resolve fs searchPath v = .error e ↔ s.Stops fs searchPath v e := by
  refine ⟨fun h => ?_, Stops.resolve_eq⟩
  have hends := resolve_ends s fs searchPath hv
  rw [h] at hends
  cases hends with
  | stopped hstop => exact hstop

/-! ### The search as a checker -/

section Checker
variable {asked : List Value}

theorem checker_eq (asked : List Value) (v : Value) : s.checker fs searchPath asked v =
    (s.resolve fs searchPath v).map fun q => .bool q.isSome := by
  rw [checker, exists?]
  cases s.resolve fs searchPath v <;> rfl

theorem checker_yes_iff (hv : v.isText = true) :
    (∃ a, s.checker fs searchPath asked v = .ok a ∧ a.isTrue = true) ↔
      ∃ q, s.Finds fs searchPath v q := by
  simp only [checker_eq, map_eq_ok, ← resolve_eq_some_iff hv]
  constructor
  · intro h
    obtain ⟨a, ⟨found, hfound, rfl⟩, htrue⟩ := h
    cases found with
    | some q => exact ⟨q, hfound⟩
    | none => cases htrue
  · intro h
    obtain ⟨q, hfound⟩ := h
    exact ⟨_, ⟨_, hfound, rfl⟩, rfl⟩

theorem checker_no_iff (hv : v.isText = true) :
    (∃ a, s.checker fs searchPath asked v = .ok a ∧ a.isTrue = false) ↔
      s.Misses fs searchPath v := by
  simp only [checker_eq, map_eq_ok, ← resolve_eq_none_iff hv]
  constructor
  · intro h
    obtain ⟨a, ⟨found, hfound, rfl⟩, hfalse⟩ := h
    cases found with
    | some q => cases hfalse
    | none => exact hfound
  · intro h
    exact ⟨_, ⟨_, h, rfl⟩, rfl⟩

theorem checker_error_iff (hv : v.isText = true) :
    s.checker fs searchPath asked v = .error e ↔ s.Stops fs searchPath v e := by
  rw [checker_eq, map_eq_error, resolve_eq_error_iff hv]

end Checker

end Search

namespace Probing

/-! ### Decisions by a checker -/

section Decisions
variable {config : Config} {checker : Checker} {check : Value} {p : Probing}

/-- A decision about texts fails only with a question. -/
theorem validate_error_iff {e : Failure} (ht : ∀ l ∈ config.locations, l.isText = true) :
    (validate config (some checker) check p).1 = .error e ↔
      check.isTrue = true ∧ config.packages = [] ∧
        ∃ l before, FirstFailed checker p.asked config.locations before l e := by
  constructor
  · intro h
    have hexit := validate_exit config checker check p
    generalize validate config (some checker) check p = r at h hexit
    cases hexit with
    | unchecked => cases h
    | empty => cases h
    | packages => cases h
    | found => cases h
    | missed => cases h
    | failed hc hp hfailed =>
      obtain rfl := Except.error.inj h
      exact ⟨hc, hp, _, _, hfailed⟩
    | unnamed _ _ hunnamed => cases hunnamed.not_isText.symm.trans (ht _ hunnamed.mem)
  · intro h
    obtain ⟨hc, hp, l, before, hfailed⟩ := h
    rw [validate_failed check p hp hfailed.ne_nil hc hfailed]

/-- With the check on and without packages it takes a location that exists. -/
theorem validate_valid_iff (hc : check.isTrue = true) (hp : config.packages = []) :
    (validate config (some checker) check p).1 = .ok (.valid config) ↔
      ∃ l before, FirstFound checker p.asked config.locations before l := by
  constructor
  · intro h
    have hexit := validate_exit config checker check p
    generalize validate config (some checker) check p = r at h hexit
    cases hexit with
    | unchecked hoff => cases hc.symm.trans hoff
    | empty => cases h
    | packages _ hsome => exact absurd hp hsome
    | found _ _ hfound => exact ⟨_, _, hfound⟩
    | missed => cases h
    | failed => cases h
    | unnamed => cases h
  · intro h
    obtain ⟨l, before, hfound⟩ := h
    rw [validate_found check p hp hfound.ne_nil hc hfound]

end Decisions

/-! ### Decisions by a search -/

open Search
variable {s : Search} {fs : FileSystem} {searchPath : List Text} {asked ls : List Value}

/-- Asked with a search, locations are answered no if it misses each. -/
theorem missed_checker_iff (ht : ∀ l ∈ ls, l.isText = true) :
    Missed (s.checker fs searchPath) asked ls ↔ ∀ l ∈ ls, s.Misses fs searchPath l := by
  induction ls generalizing asked with
  | nil => simp [missed_nil]
  | cons l ls ih =>
    rw [List.forall_mem_cons] at ht
    rw [missed_cons, List.forall_mem_cons, Absent, checker_no_iff ht.1, ih ht.2,
      and_iff_left (Value.hasLong_of_isText ht.1)]

/-- The search gets to `l`: the locations before it are missing. -/
def Reaches (s : Search) (fs : FileSystem) (searchPath : List Text) (ls : List Value)
    (l : Value) : Prop :=
  ∃ before after, ls = before ++ l :: after ∧ ∀ m ∈ before, s.Misses fs searchPath m

theorem Reaches.mem {l : Value} (h : Reaches s fs searchPath ls l) : l ∈ ls := by
  obtain ⟨before, after, rfl, -⟩ := h
  simp

/-- Asked with a search, `l` is the first question answered in a way that says `P` if the
search gets to `l`, and `P` holds. -/
theorem reaches_checker_iff (asked : List Value) (ht : ∀ l ∈ ls, l.isText = true) {l : Value}
    {A : Except Failure Value → Prop} {P : Prop}
    (ha : l.isText = true → ∀ asked, A (s.checker fs searchPath asked l) ↔ P) :
    (∃ before, (∃ after, ls = before ++ l :: after) ∧
        Missed (s.checker fs searchPath) asked before ∧
          A (s.checker fs searchPath (asked ++ before) l)) ↔
      Reaches s fs searchPath ls l ∧ P := by
  constructor
  · intro h
    obtain ⟨before, ⟨after, rfl⟩, hmissed, hanswer⟩ := h
    rw [List.forall_mem_append, List.forall_mem_cons] at ht
    exact ⟨⟨before, after, rfl, (missed_checker_iff ht.1).1 hmissed⟩, (ha ht.2.1 _).1 hanswer⟩
  · intro h
    obtain ⟨⟨before, after, rfl, hmissed⟩, hP⟩ := h
    rw [List.forall_mem_append, List.forall_mem_cons] at ht
    exact ⟨before, ⟨after, rfl⟩, (missed_checker_iff ht.1).2 hmissed, (ha ht.2.1 _).2 hP⟩

/-- Asked with a search, the first location that is answered yes is the one that the search
gets to and finds. -/
theorem firstFound_checker_iff (ht : ∀ l ∈ ls, l.isText = true) {l : Value} :
    (∃ before, FirstFound (s.checker fs searchPath) asked ls before l) ↔
      Reaches s fs searchPath ls l ∧ ∃ q, s.Finds fs searchPath l q := by
  rw [← reaches_checker_iff asked ht
    (A := fun r => ∃ a, r = .ok a ∧ a.isTrue = true) fun hl _ => checker_yes_iff hl]
  exact exists_congr fun before =>
    ⟨fun h => ⟨h.split, h.missed, h.found⟩, fun h => ⟨h.1, h.2.1, h.2.2⟩⟩

/-- Asked with a search, the first question that fails is about the location that the search
gets to and that stops it. -/
theorem firstFailed_checker_iff (ht : ∀ l ∈ ls, l.isText = true) {l : Value} {e : Failure} :
    (∃ before, FirstFailed (s.checker fs searchPath) asked ls before l e) ↔
      Reaches s fs searchPath ls l ∧ s.Stops fs searchPath l e := by
  rw [← reaches_checker_iff asked ht
    (A := fun r => r = .error e) fun hl _ => checker_error_iff hl]
  exact exists_congr fun before =>
    ⟨fun h => ⟨h.split, h.missed, h.failed⟩, fun h => ⟨h.1, h.2.1, h.2.2⟩⟩

/-- Where nothing stops the search it gets to a location that it finds, if there is one. -/
theorem reaches_found (ht : ∀ l ∈ ls, l.isText = true)
    (hs : ∀ l ∈ ls, ∀ e, ¬s.Stops fs searchPath l e) {l : Value} {q : Path} (hl : l ∈ ls)
    (h : s.Finds fs searchPath l q) :
    ∃ l, Reaches s fs searchPath ls l ∧ ∃ q, s.Finds fs searchPath l q := by
  cases asked_ends (s.checker fs searchPath) [] ls with
  | found before m hfound => exact ⟨m, (firstFound_checker_iff ht).1 ⟨before, hfound⟩⟩
  | failed before m e hfailed =>
    obtain ⟨hreach, hstop⟩ := (firstFailed_checker_iff ht).1 ⟨before, hfailed⟩
    exact absurd hstop (hs m hreach.mem e)
  | unnamed before m hunnamed =>
    cases hunnamed.not_isText.symm.trans (ht m hunnamed.mem)
  | missed hmissed =>
    have hmiss : s.Misses fs searchPath l := (missed_checker_iff ht).1 hmissed l hl
    cases Except.ok.inj (h.resolve_eq.symm.trans hmiss.resolve_eq)

/-- **What a search makes of locations.** With a search as the checker the decision fails
exactly if, unless the check is off and without packages, the search gets to a location that
stops it, and the failure names the path that is too long or closed. Otherwise the
configuration is usable exactly if the search gets to a location that it finds. If no location
stops the search it never fails, and one that it finds is enough, wherever it stands and
whatever the others are. -/
theorem validate_searches (s : Search) (fs : FileSystem) (searchPath : List Text)
    (config : Config) (check : Value) (p : Probing)
    (ht : ∀ l ∈ config.locations, l.isText = true) :
    let decision := (validate config (some (s.checker fs searchPath)) check p).1
    (∀ e, decision = .error e ↔ check.isTrue = true ∧ config.packages = [] ∧
      ∃ l, Reaches s fs searchPath config.locations l ∧ s.Stops fs searchPath l e) ∧
    (check.isTrue = true → config.packages = [] →
      (decision = .ok (.valid config) ↔
        ∃ l, Reaches s fs searchPath config.locations l ∧ ∃ q, s.Finds fs searchPath l q) ∧
      ((∀ l ∈ config.locations, ∀ e, ¬s.Stops fs searchPath l e) →
        (∀ e, decision ≠ .error e) ∧
        (decision = .ok (.valid config) ↔
          ∃ l ∈ config.locations, ∃ q, s.Finds fs searchPath l q))) := by
  intro decision
  have hfails (e : Failure) : decision = .error e ↔ check.isTrue = true ∧ config.packages = [] ∧
      ∃ l, Reaches s fs searchPath config.locations l ∧ s.Stops fs searchPath l e := by
    simp only [decision, validate_error_iff ht, firstFailed_checker_iff ht]
  refine ⟨hfails, fun hc hp => ?_⟩
  have husable : decision = .ok (.valid config) ↔
      ∃ l, Reaches s fs searchPath config.locations l ∧ ∃ q, s.Finds fs searchPath l q := by
    simp only [decision, validate_valid_iff hc hp, firstFound_checker_iff ht]
  refine ⟨husable, fun hs => ⟨fun e h => ?_, ?_⟩⟩
  · obtain ⟨-, -, l, hreach, hstop⟩ := (hfails e).1 h
    exact hs l hreach.mem e hstop
  · rw [husable]
    constructor
    · intro h
      obtain ⟨l, hreach, hfound⟩ := h
      exact ⟨l, hreach.mem, hfound⟩
    · intro h
      obtain ⟨l, hl, q, hfound⟩ := h
      exact reaches_found ht hs hl hfound

/-- A file name that no directory can hold, in front of a file that exists, is a failure,
and behind it is not looked at. -/
theorem validate_searches_long :
    let name : Text := List.replicate 256 (.char 'a')
    let long : Value := .text (LocationKind.file.mark ++ name)
    let there : Value := .text "file:there"
    let fs : FileSystem := ⟨.directory [("there", .file [])], []⟩
    let p : Probing := ⟨[], EventLog.empty fun n => toString n⟩
    let config (ls : List Value) : Config := ⟨[], ls, .perMigration, .null, .text "deploy"⟩
    let decision (ls : List Value) :=
      (validate (config ls) (some (Search.standard.checker fs [])) (.bool true) p).1
    (∀ l ∈ [long, there], l.isText = true) ∧
      decision [long, there] = .error (.nameTooLong name) ∧
      decision [there, long] = .ok (.valid (config [there, long])) := by
  intro name long there fs p config decision
  have hlong : Search.standard.Stops fs [] long (.nameTooLong (Path.text ⟨.here, [name]⟩)) := by
    have hpath : Search.standard.ownPath name = ⟨.here, [name]⟩ := by
      decide +kernel
    have htried : Search.standard.Candidates fs [] long ([] ++ ⟨.here, [name]⟩ :: []) := by
      rw [List.nil_append, ← hpath]
      exact .own (Location.ofValue_file name) rfl
    have hnamed : Path.isUnnamed ⟨.here, [name]⟩ = false := by decide +kernel
    have hover : (fs.start ⟨.here, [name]⟩).Overlong fs.root :=
      ⟨_, name, [], rfl, rfl, ⟨by decide +kernel, by decide +kernel⟩, by decide +kernel⟩
    exact .candidate htried (List.forall_mem_nil _)
      (.tooLong ⟨hnamed, .inr ⟨_, .refl, hover⟩⟩)
  have hthere : Search.standard.Finds fs [] there ⟨.here, ["there"]⟩ := by
    have hfile : fs.Holds ⟨.here, ["there"]⟩ (.file []) :=
      FileSystem.holds_iff.2 ⟨by decide,
        FileSystem.lookup_current (by decide) (by decide) rfl⟩
    exact ⟨[], [], .own (l := ⟨.file, "there"⟩) rfl rfl, List.forall_mem_nil _, _, hfile⟩
  have htext : ∀ l ∈ [long, there], l.isText = true := by
    simp [long, there, Value.isText, Value.text?]
  have hfirst : Reaches Search.standard fs [] [long, there] long :=
    ⟨[], [there], rfl, List.forall_mem_nil _⟩
  have hlater : Reaches Search.standard fs [] [there, long] there :=
    ⟨[], [long], rfl, List.forall_mem_nil _⟩
  refine ⟨htext, ?_, ?_⟩
  · have hfails := (validate_searches Search.standard fs [] (config [long, there]) (.bool true) p
      htext).1
    have hshown : name = Path.text ⟨.here, [name]⟩ := by decide +kernel
    exact hshown ▸ (hfails _).2 ⟨rfl, rfl, long, hfirst, hlong⟩
  · have hdecides := (validate_searches Search.standard fs [] (config [there, long]) (.bool true) p
      fun l hl => htext l ((List.Perm.swap long there []).mem_iff.1 hl)).2 rfl rfl
    exact hdecides.1.2 ⟨there, hlater, _, hthere⟩

end Probing
end MigrationSetup
