import Mathlib.Data.List.Induction
import MigrationSetup.Proofs.Addressing

/-! How far a location leads from its root.

Without looking at links, names lead some steps up and then down along others (`Course`), and
the course of names behind others is got from the two courses (`Course.of_append`). So a path
below a root, collapsed, is the root or below it exactly if the names behind the root do not
lead up at all, or come back along the names that they left (`Course.Returns`). Nothing in a
search asks for that: `resolve_within` tells which of the paths that it finds lie below their
roots. -/
namespace MigrationSetup

/-- Steps up, and then names down. -/
structure Course where
  ups : Nat
  downs : List Text
deriving DecidableEq, Repr

namespace Course

/-- A dot leads nowhere, two dots take a name back or lead one step up. -/
def step (c : Course) (name : Text) : Course :=
  if name = "." then c
  else if name = ".." then ⟨c.ups + (1 - c.downs.length), c.downs.dropLast⟩
  else ⟨c.ups, c.downs ++ [name]⟩

/-- Where names lead. -/
def of (names : List Text) : Course := names.foldl step ⟨0, []⟩

/-- One course behind another. -/
def andThen (c d : Course) : Course :=
  ⟨c.ups + (d.ups - c.downs.length), c.downs.take (c.downs.length - d.ups) ++ d.downs⟩

variable {c d : Course}

theorem of_concat (names : List Text) (name : Text) :
    of (names ++ [name]) = (of names).step name := by
  rw [of, List.foldl_append]
  rfl

/-- A step behind two courses is a step of the second one. -/
theorem andThen_step (c d : Course) (name : Text) :
    (c.andThen d).step name = c.andThen (d.step name) := by
  by_cases hdot : name = "."
  · simp only [step, hdot, if_true]
  by_cases hup : name = ".."
  · subst hup
    by_cases hd : d.downs = []
    · have htaken : (c.downs.take (c.downs.length - d.ups)).dropLast =
          c.downs.take (c.downs.length - (d.ups + 1)) := by
        rw [List.dropLast_eq_take, List.take_take, List.length_take]
        congr 1
        omega
      simp [step, andThen, hd, htaken]
      omega
    · have hlength : 1 - d.downs.length = 0 := by
        have := List.length_pos_of_ne_nil hd
        omega
      simp [step, andThen, hlength, List.dropLast_append_of_ne_nil hd]
      omega
  · simp only [step, andThen, hdot, hup, if_false, List.append_assoc]

/-- Names behind others lead along the two courses. -/
theorem of_append (xs ys : List Text) : of (xs ++ ys) = (of xs).andThen (of ys) := by
  induction ys using List.reverseRecOn with
  | nil => simp [of, andThen]
  | append_singleton ys name ih =>
    rw [← List.append_assoc, of_concat, of_concat, ih, andThen_step]

/-- No name down is one up. -/
theorem up_notMem_downs (names : List Text) : Text.ofString ".." ∉ (of names).downs := by
  induction names using List.reverseRecOn with
  | nil => simp [of]
  | append_singleton names name ih =>
    rw [of_concat]
    by_cases hdot : name = "."
    · simpa only [step, hdot, if_true] using ih
    by_cases hup : name = ".."
    · simp only [step, hup, if_true]
      exact fun h => ih (List.dropLast_subset _ h)
    · simp only [step, hdot, hup, if_false, List.mem_append, not_or]
      exact ⟨ih, fun h => hup (List.mem_singleton.1 h).symm⟩

/-- The names that two courses spell if they start at a root, or where they start. -/
def names (c : Course) (absolute : Bool) : List Text :=
  (if absolute then [] else List.replicate c.ups (Text.ofString "..")) ++ c.downs

/-- Behind the course `c` the course `d` comes back to where it starts: it leaves `c` on no
name or comes down along those that it left. From a root no step leads further up. -/
def Returns (c d : Course) (absolute : Bool) : Prop :=
  (absolute = true ∨ d.ups ≤ c.downs.length) ∧
    c.downs.drop (c.downs.length - d.ups) <+: d.downs

theorem returns_of_ups {absolute : Bool} (h : d.ups = 0) : c.Returns d absolute := by
  simp [Returns, h]

/-- Some of the names of a list and others behind them spell the list and more exactly if the
others spell what is left of it. -/
theorem take_append_iff {xs ys : List Text} (n : Nat) (hys : Text.ofString ".." ∉ ys) :
    (∃ below, Text.ofString ".." ∉ below ∧ xs.take n ++ ys = xs ++ below) ↔ xs.drop n <+: ys := by
  constructor
  · rintro ⟨below, -, h⟩
    refine ⟨below, ?_⟩
    have hsplit : xs.take n ++ ys = xs.take n ++ (xs.drop n ++ below) := by
      rw [h, ← List.append_assoc, List.take_append_drop]
    exact (List.append_cancel_left hsplit).symm
  · rintro ⟨below, rfl⟩
    refine ⟨below, fun h => hys (List.mem_append_right _ h), ?_⟩
    rw [← List.append_assoc, List.take_append_drop]

/-- Only a course that comes back leads below where it starts. -/
theorem names_andThen_iff {absolute : Bool} (hc : Text.ofString ".." ∉ c.downs)
    (hd : Text.ofString ".." ∉ d.downs) :
    (∃ below, Text.ofString ".." ∉ below ∧
      (c.andThen d).names absolute = c.names absolute ++ below) ↔ c.Returns d absolute := by
  cases absolute with
  | true =>
    simp only [names, andThen, if_true, List.nil_append, Returns, true_or, true_and]
    exact take_append_iff _ hd
  | false =>
    simp only [names, andThen, Bool.false_eq_true, if_false, Returns, false_or]
    by_cases hups : d.ups ≤ c.downs.length
    · have hnone : d.ups - c.downs.length = 0 := by omega
      simp only [hnone, Nat.add_zero, List.append_assoc, List.append_cancel_left_eq, hups,
        true_and]
      exact take_append_iff _ hd
    -- It leads further up than `c` went down, and no name below `c` is one up.
    · simp only [hups, false_and, iff_false]
      rintro ⟨below, hbelow, h⟩
      rw [← List.replicate_append_replicate, List.append_assoc, List.append_assoc] at h
      have hmem : Text.ofString ".." ∈ c.downs ++ below := by
        rw [← List.append_cancel_left h]
        exact List.mem_append_left _ (List.mem_replicate.2 ⟨by omega, rfl⟩)
      exact (List.mem_append.1 hmem).elim hc hbelow

end Course

namespace Path

/-- The path without dots, and with two dots at its front at most. Above the root there is
nothing to climb to. -/
def collapsed (p : Path) : Path := ⟨p.anchor, (Course.of p.names).names p.isAbsolute⟩

example : (ofText "a/./b/../../../c").collapsed = ofText "../c" := by decide
example : (ofText "/a/../../c").collapsed = ofText "/c" := by decide

/-- Collapsed, the path is the other one or lies below it. -/
def Within (p root : Path) : Prop :=
  ∃ below, Text.ofString ".." ∉ below ∧
    p.collapsed = ⟨root.collapsed.anchor, root.collapsed.names ++ below⟩

/-- Names behind a path lead below it exactly if they come back to it. -/
theorem within_iff (root : Path) (names : List Text) :
    Within ⟨root.anchor, root.names ++ names⟩ root ↔
      (Course.of root.names).Returns (Course.of names) root.isAbsolute := by
  rw [← Course.names_andThen_iff (Course.up_notMem_downs _) (Course.up_notMem_downs _),
    ← Course.of_append]
  simp only [Within, collapsed, Path.mk.injEq, true_and]
  rfl

/-- Names that never lead up lead below it, whatever the path is. -/
theorem within_of_ups (root : Path) {names : List Text} (h : (Course.of names).ups = 0) :
    Within ⟨root.anchor, root.names ++ names⟩ root :=
  (within_iff root names).2 (Course.returns_of_ups h)

end Path

namespace Search
variable {fs : FileSystem}

/-- What is found below some roots is found below one of them. -/
theorem exists_of_firstBelow {relative q : Path} {roots : List Path}
    (h : firstBelow fs relative roots = .ok (some q)) :
    ∃ root ∈ roots, q = root.join relative ∧ fs.Exists q := by
  induction roots with
  | nil => cases h
  | cons root roots ih =>
    obtain ⟨there, hthere, h⟩ := bind_eq_ok.1 h
    cases there with
    | true =>
      obtain rfl := Option.some.inj (Except.ok.inj h)
      exact ⟨root, List.mem_cons_self, rfl, FileSystem.exists?_eq_true_iff.1 hthere⟩
    | false =>
      obtain ⟨root', hroot', hq⟩ := ih h
      exact ⟨root', List.mem_cons_of_mem _ hroot', hq⟩

/-- **Where a location leads.** A path that is found for a location without the prefix of the
file system is one of the roots with the names of the location behind it, leading slashes left
out, and something stands there. Collapsed, it is the root or lies below it exactly if the
names come back to what they leave, which they do if they never lead above where they start:
nothing but the names of the location keeps a search below its roots. -/
theorem resolve_within (s : Search) (fs : FileSystem) (searchPath : List Text) {text : Text}
    {q : Path} (hfile : ¬LocationKind.file.mark <+: text)
    (h : s.resolve fs searchPath (.text text) = .ok (some q)) :
    let names := (relativePath (Location.parse text).path).names
    s.exists? fs searchPath (.text text) = .ok true ∧
      ∃ roots root, rootsOf s.roots fs searchPath = .ok roots ∧ root ∈ roots ∧
        q = ⟨root.anchor, root.names ++ names⟩ ∧ fs.Exists q ∧
        (q.Within root ↔ (Course.of root.names).Returns (Course.of names) root.isAbsolute) ∧
        ((Course.of names).ups = 0 → q.Within root) := by
  intro names
  have hexists : s.exists? fs searchPath (.text text) = .ok true := by
    rw [exists?, h]
    rfl
  rw [resolve_text_classpath s fs searchPath (parse_of_not_file hfile)] at h
  obtain ⟨roots, hroots, h⟩ := bind_eq_ok.1 h
  obtain ⟨root, hroot, rfl, hthere⟩ := exists_of_firstBelow h
  have hjoin : root.join (relativePath (Location.parse text).path) =
      ⟨root.anchor, root.names ++ names⟩ := join_relativePath root _
  rw [hjoin] at hthere ⊢
  exact ⟨hexists, roots, root, hroots, hroot, rfl, hthere, root.within_iff names,
    root.within_of_ups⟩

/-- Two dots lead out of the root, to a file beside it. -/
theorem resolve_within_outside :
    let fs : FileSystem := ⟨.directory [("roots", .directory []), ("outside.txt", .file [])], []⟩
    let root : Path := ⟨.here, ["roots"]⟩
    let q : Path := ⟨.here, ["roots", "..", "outside.txt"]⟩
    let s : Search := ⟨some [root], none⟩
    let text := "classpath:/../outside.txt"
    ¬LocationKind.file.mark <+: text ∧ s.resolve fs [] (.text text) = .ok (some q) ∧
      s.exists? fs [] (.text text) = .ok true ∧ q.collapsed = ⟨.here, ["outside.txt"]⟩ ∧
      ¬q.Within root := by
  intro fs root q s text
  have hfile : ¬LocationKind.file.mark <+: text := by decide
  have hthere : fs.Exists q := ⟨.file [], FileSystem.holds_iff.2 ⟨by decide, by cbv⟩⟩
  have hnames : relativePath (Location.parse text).path =
      ⟨.here, ["..", "outside.txt"]⟩ := by decide
  have hfound : s.resolve fs [] (.text text) = .ok (some q) := by
    rw [resolve_text_classpath s fs [] (parse_of_not_file hfile), hnames]
    exact firstOf_found hthere []
  obtain ⟨hexists, roots, root', hroots, hroot, -, -, hwithin, -⟩ :=
    resolve_within s fs [] hfile hfound
  obtain rfl : roots = [root] := (Except.ok.inj hroots).symm
  obtain rfl := List.mem_singleton.1 hroot
  exact ⟨hfile, hfound, hexists, by decide, fun h => absurd (hwithin.1 h).2 (by decide)⟩

end Search
end MigrationSetup
