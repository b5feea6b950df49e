import MigrationSetup.Proofs.Brief
import MigrationSetup.Proofs.Loading
import MigrationSetup.Proofs.Walking

/-! How loading fails.

Rejections of settings are one family of failures (`Failure.isRejection`), and a caller who
handles these should have handled all that can be wrong with settings. Not all failures of
loading belong to it. A settings file ends in one of eight ways (`FileExit`), and three of
them are failures of another family: the path is too long or leads through a closed directory,
a directory stands at it, or its bytes cannot be read in its format. Two files that were read
can be laid over one another without end, and a number may be too long for the path or the
message that shows it. These are the only ways out of the family (`load_escapes_iff`). -/
namespace MigrationSetup

/-! ### Rejections -/

/-- The failure is a rejection of settings. -/
def Failure.isRejection : Failure → Bool
  | .setting e => e.fault != .longNumber
  | _ => false

/-- Bytes are no text, or a text is not in its format. -/
inductive Failure.Unreadable : Failure → Prop
  | bytes (fault : Text.Utf8.Fault) : Unreadable (.bytes fault)
  | json (fault : Json.Fault) : Unreadable (.json fault)
  | jsonDigits (count : Nat) : Unreadable (.jsonDigits count)
  | yaml (fault : Yaml.Fault) : Unreadable (.yaml fault)

namespace Failure

theorem Unreadable.isRejection {e : Failure} (h : Unreadable e) : e.isRejection = false := by
  cases h <;> rfl

end Failure

/-! ### Documents -/

theorem Json.read_unreadable {cs : List Char} {e : Failure} (h : read cs = .error e) :
    e.Unreadable := by
  rw [read] at h
  split at h
  · cases h
  · cases h
    exact .jsonDigits _
  · cases h
    exact .json _

theorem Document.ofYaml_unreadable {s : Yaml.Source} {e : Failure} (h : ofYaml s = .error e) :
    e.Unreadable := by
  rw [ofYaml, bind_eq_error] at h
  rcases h with h | ⟨nodes?, -, h⟩
  · obtain ⟨f, -, rfl⟩ := mapError_eq_error.1 h
    exact .yaml f
  · cases nodes? with
    | none => cases h
    | some nodes =>
      rcases bind_eq_error.1 h with h | ⟨g, -, h⟩
      · obtain ⟨f, -, rfl⟩ := mapError_eq_error.1 h
        exact .yaml f
      · cases h

/-- Reading fails for the bytes only. -/
theorem Format.read_unreadable {format : Format} {bytes : List UInt8} {e : Failure}
    (h : format.read bytes = .error e) : e.Unreadable := by
  cases format with
  | yaml => exact Document.ofYaml_unreadable h
  | json =>
    rcases bind_eq_error.1 h with h | ⟨cs, -, h⟩
    · obtain ⟨f, -, rfl⟩ := mapError_eq_error.1 h
      exact .bytes f
    · exact Json.read_unreadable (map_eq_error.1 h)

/-- Only what is no dict is refused at the root. -/
theorem Document.requireDict_rejects {d : Document} {e : SettingError}
    (h : d.requireDict = .error e) : e.fault = .invalidRoot := by
  cases d with
  | plain v => cases v <;> cases h <;> rfl
  | shared g =>
    rw [requireDict] at h
    split at h
    · cases h
    · cases h
      rfl

/-! ### Files -/

namespace FileSystem
variable {fs : FileSystem} {p : Path}

/-- The ways in which reading a settings file ends. -/
inductive FileExit (fs : FileSystem) (p : Path) : Except Failure Document → Prop
  | unanswered {e : Failure} (fails : fs.Fails p e) : FileExit fs p (.error e)
  | missing (none : ¬∃ node, fs.Holds p node) :
      FileExit fs p (.error (.setting (.missingFile p.text)))
  | unknown {node : FileNode} (there : fs.Holds p node)
      (suffix : Format.ofSuffix? p.suffix = none) :
      FileExit fs p (.error (.setting (.unknownFormat p.suffix)))
  | directory {format : Format} {node : FileNode} (there : fs.Holds p node)
      (isDirectory : node.isDirectory = true)
      (suffix : Format.ofSuffix? p.suffix = some format) :
      FileExit fs p (.error (.isDirectory p.text))
  | link {format : Format} {target : Text} (there : fs.Holds p (.link target))
      (suffix : Format.ofSuffix? p.suffix = some format) :
      FileExit fs p (.error (.setting (.missingFile p.text)))
  | unreadable {format : Format} {bytes : List UInt8} {e : Failure}
      (there : fs.Holds p (.file bytes)) (suffix : Format.ofSuffix? p.suffix = some format)
      (refused : format.read bytes = .error e) : FileExit fs p (.error e)
  | noDict {format : Format} {bytes : List UInt8} {d : Document} {e : SettingError}
      (there : fs.Holds p (.file bytes)) (suffix : Format.ofSuffix? p.suffix = some format)
      (read : format.read bytes = .ok d) (refused : d.requireDict = .error e) :
      FileExit fs p (.error (.setting e))
  | read {format : Format} {bytes : List UInt8} {d d' : Document}
      (there : fs.Holds p (.file bytes)) (suffix : Format.ofSuffix? p.suffix = some format)
      (read : format.read bytes = .ok d) (dict : d.requireDict = .ok d') :
      FileExit fs p (.ok d')

theorem settingsFile_of_exists {found : Bool} (h : fs.exists? p = .ok found) :
    fs.settingsFile p =
      if found then
        match Format.ofSuffix? p.suffix with
        | none => .error (.setting (.unknownFormat p.suffix))
        | some format => do
          let document ← format.read (← fs.read p)
          document.requireDict.mapError .setting
      else .error (.setting (.missingFile p.text)) := by
  rw [settingsFile, h]
  cases found with
  | false => rfl
  | true =>
    simp only [bind, Except.bind, Bool.not_true, Bool.false_eq_true, if_false, if_true]
    cases Format.ofSuffix? p.suffix with
    | none => rfl
    | some format => rfl

/-- Reading a settings file ends in one of these ways. -/
theorem settingsFile_exit (fs : FileSystem) (p : Path) : FileExit fs p (fs.settingsFile p) := by
  cases hfound : fs.exists? p with
  | error e =>
    have hfile : fs.settingsFile p = .error e := by
      rw [settingsFile, hfound]
      rfl
    rw [hfile]
    exact .unanswered (exists?_eq_error_iff.1 hfound)
  | ok found =>
    rw [settingsFile_of_exists hfound]
    cases found with
    | false => exact .missing (exists?_eq_false_iff.1 hfound).2
    | true =>
      obtain ⟨node, there⟩ := exists?_eq_true_iff.1 hfound
      cases hsuffix : Format.ofSuffix? p.suffix with
      | none => exact .unknown there hsuffix
      | some format =>
        simp only [if_true]
        cases node with
        | directory es =>
          rw [read_directory rfl there]
          exact .directory there rfl hsuffix
        | closed =>
          rw [read_directory rfl there]
          exact .directory there rfl hsuffix
        | link target =>
          rw [read_link there]
          exact .link there hsuffix
        | file bytes =>
          rw [read_file there]
          show FileExit fs p (format.read bytes >>= fun d => d.requireDict.mapError .setting)
          cases hread : format.read bytes with
          | error e => exact .unreadable there hsuffix hread
          | ok d =>
            show FileExit fs p (d.requireDict.mapError .setting)
            cases hdict : d.requireDict with
            | error e => exact .noDict there hsuffix hread hdict
            | ok d' => exact .read there hsuffix hread hdict

/-- The failures of reading a settings file that are no rejections. -/
inductive Escapes (fs : FileSystem) (p : Path) : Failure → Prop
  | unanswered {e : Failure} (fails : fs.Fails p e) : Escapes fs p e
  | directory {format : Format} {node : FileNode} (there : fs.Holds p node)
      (isDirectory : node.isDirectory = true)
      (suffix : Format.ofSuffix? p.suffix = some format) :
      Escapes fs p (.isDirectory p.text)
  | unreadable {format : Format} {bytes : List UInt8} {e : Failure}
      (there : fs.Holds p (.file bytes)) (suffix : Format.ofSuffix? p.suffix = some format)
      (refused : format.read bytes = .error e) : Escapes fs p e

theorem Escapes.isRejection {e : Failure} (h : fs.Escapes p e) : e.isRejection = false := by
  cases h with
  | unanswered fails => cases fails <;> rfl
  | directory => rfl
  | unreadable _ _ refused => exact (Format.read_unreadable refused).isRejection

/-- What escapes is how reading ends. -/
theorem Escapes.settingsFile_eq {e : Failure} (h : fs.Escapes p e) :
    fs.settingsFile p = .error e := by
  cases h with
  | unanswered fails =>
    rw [settingsFile, exists?_eq_error_iff.2 fails]
    rfl
  | directory there isDirectory suffix =>
    rw [settingsFile_of_exists (exists?_eq_true_iff.2 ⟨_, there⟩), suffix,
      read_directory isDirectory there]
    rfl
  | unreadable there suffix refused =>
    rw [settingsFile_of_exists (exists?_eq_true_iff.2 ⟨_, there⟩), suffix, read_file there]
    exact bind_eq_error.2 (.inr ⟨_, rfl, bind_eq_error.2 (.inl refused)⟩)

/-- Reading a settings file fails with a rejection, or with one of what escapes. -/
theorem settingsFile_escapes_iff {e : Failure} :
    fs.settingsFile p = .error e ∧ e.isRejection = false ↔ fs.Escapes p e := by
  constructor
  · intro h
    obtain ⟨h, hother⟩ := h
    have hexit := settingsFile_exit fs p
    rw [h] at hexit
    cases hexit with
    | unanswered fails => exact .unanswered fails
    | missing => cases hother
    | unknown => cases hother
    | directory there isDirectory suffix => exact .directory there isDirectory suffix
    | link => cases hother
    | unreadable there suffix refused => exact .unreadable there suffix refused
    | noDict _ _ _ refused =>
      rw [Failure.isRejection, Document.requireDict_rejects refused] at hother
      cases hother
  · intro h
    exact ⟨h.settingsFile_eq, h.isRejection⟩

/-- What the file of defaults says, and nothing without one. -/
def defaultsFile (fs : FileSystem) (defaults : Option Path) : Except Failure Document :=
  (defaults.map fs.settingsFile).getD (.ok .empty)

theorem settingsFiles_none (defaults : Option Path) :
    fs.settingsFiles defaults none = fs.defaultsFile defaults := by
  rw [settingsFiles, defaultsFile]
  cases (defaults.map fs.settingsFile).getD (.ok .empty) <;> rfl

theorem settingsFiles_some (defaults : Option Path) (q : Path) :
    fs.settingsFiles defaults (some q) = fs.defaultsFile defaults >>= fun base =>
      fs.exists? q >>= fun found =>
        if found then fs.settingsFile q >>= base.merge else .ok base := by
  rw [settingsFiles, defaultsFile]
  rfl

end FileSystem

/-! ### Laying one file over another -/

/-- Layers that cannot be merged are rejected, or their merge does not end. -/
def Failure.OfMerge (e : Failure) : Prop := e = .endlessMerge ∨ ∃ f, e = .setting f

namespace Graph

theorem mergeEntry_error {override objects : Objects}
    {below : List Text → Nat → Table Ref → Objects → Except Failure Objects}
    {path : List Text} {id : Nat} {entry : Value × Ref} {e : Failure}
    (hb : ∀ path id es objects, below path id es objects = .error e → e.OfMerge)
    (h : mergeEntry override below path id objects entry = .error e) : e.OfMerge := by
  simp only [mergeEntry] at h
  split at h
  · cases h
    exact .inr ⟨_, rfl⟩
  · split at h
    · cases h
    · split at h
      · exact hb _ _ _ _ h
      · split at h
        · cases h
        · cases h
          exact .inr ⟨_, rfl⟩

theorem mergeInto_error {override objects : Objects} {fuel : Nat} {path : List Text} {id : Nat}
    {es : Table Ref} {e : Failure}
    (h : mergeInto override fuel path id es objects = .error e) : e.OfMerge := by
  induction fuel generalizing path id es objects with
  | zero =>
    cases h
    exact .inl rfl
  | succ fuel ih =>
    obtain ⟨objects, entry, -, h⟩ := foldlM_eq_error h
    exact mergeEntry_error (fun _ _ _ _ h => ih h) h

theorem merge_error {base override : Graph} {e : Failure}
    (h : base.merge override = .error e) : e.OfMerge := by
  rw [merge] at h
  split at h
  · rcases bind_eq_error.1 h with h | ⟨objects, -, h⟩
    · exact mergeInto_error h
    · cases h
  · cases h
    exact .inr ⟨_, rfl⟩

end Graph

theorem Document.merge_error {base override : Document} {e : Failure}
    (h : base.merge override = .error e) : e.OfMerge := by
  unfold Document.merge at h
  split at h
  · obtain ⟨f, -, rfl⟩ := mapError_eq_error.1 h
    exact .inr ⟨f, rfl⟩
  · exact Graph.merge_error (map_eq_error.1 h)

namespace Settings

/-- The failures of loading that are no rejections. -/
inductive Escapes (fs : FileSystem) (defaults local? : Option Path) : Failure → Prop
  | defaults {p : Path} {e : Failure} (given : defaults = some p) (escapes : fs.Escapes p e) :
      Escapes fs defaults local? e
  | override {base : Document} {q : Path} {e : Failure}
      (lower : fs.defaultsFile defaults = .ok base)
      (given : local? = some q) (escapes : fs.Escapes q e) : Escapes fs defaults local? e
  | endless {base override : Document} {q : Path} (lower : fs.defaultsFile defaults = .ok base)
      (given : local? = some q) (upper : fs.settingsFile q = .ok override)
      (merged : base.merge override = .error .endlessMerge) :
      Escapes fs defaults local? .endlessMerge
  | longKey {base override : Document} {q : Path} (lower : fs.defaultsFile defaults = .ok base)
      (given : local? = some q) (upper : fs.settingsFile q = .ok override)
      (merged : base.merge override = .error (.setting .longNumber)) :
      Escapes fs defaults local? (.setting .longNumber)
  | longShown {d : Document} (read : fs.settingsFiles defaults local? = .ok d)
      (bound : ofDocument d = .error .longNumber) :
      Escapes fs defaults local? (.setting .longNumber)

theorem eq_longNumber_of_escapes {f : SettingError}
    (h : (Failure.setting f).isRejection = false) : f = .longNumber := by
  cases f <;> first | rfl | cases h

theorem Escapes.isRejection {fs : FileSystem} {defaults local? : Option Path} {e : Failure}
    (h : Escapes fs defaults local? e) : e.isRejection = false := by
  cases h with
  | defaults _ escapes => exact escapes.isRejection
  | override _ _ escapes => exact escapes.isRejection
  | endless => rfl
  | longKey => rfl
  | longShown => rfl

theorem settingsFiles_escapes {fs : FileSystem} {defaults local? : Option Path} {e : Failure}
    (h : fs.settingsFiles defaults local? = .error e) (ho : e.isRejection = false) :
    Escapes fs defaults local? e := by
  have hlower (h : fs.defaultsFile defaults = .error e) : Escapes fs defaults local? e := by
    cases defaults with
    | none => cases h
    | some p => exact .defaults rfl (FileSystem.settingsFile_escapes_iff.1 ⟨h, ho⟩)
  cases local? with
  | none => exact hlower (fs.settingsFiles_none defaults ▸ h)
  | some q =>
    rw [FileSystem.settingsFiles_some] at h
    rcases bind_eq_error.1 h with h | ⟨base, hbase, h⟩
    · exact hlower h
    rcases bind_eq_error.1 h with h | ⟨found, -, h⟩
    · exact .override hbase rfl (.unanswered (FileSystem.exists?_eq_error_iff.1 h))
    cases found with
    | false => cases h
    | true =>
      rcases bind_eq_error.1 h with h | ⟨upper, hupper, h⟩
      · exact .override hbase rfl (FileSystem.settingsFile_escapes_iff.1 ⟨h, ho⟩)
      rcases Document.merge_error h with rfl | ⟨f, rfl⟩
      · exact .endless hbase rfl hupper h
      · obtain rfl := eq_longNumber_of_escapes ho
        exact .longKey hbase rfl hupper h

/-- Files that were both read are laid over one another. -/
theorem settingsFiles_read {fs : FileSystem} {defaults : Option Path} {q : Path}
    {base upper : Document} (hbase : fs.defaultsFile defaults = .ok base)
    (hupper : fs.settingsFile q = .ok upper) :
    fs.settingsFiles defaults (some q) = base.merge upper := by
  rw [FileSystem.settingsFiles_some, hbase]
  show (fs.exists? q >>= _) = _
  rw [exists_of_settingsFile hupper]
  show (fs.settingsFile q >>= _) = _
  rw [hupper]
  rfl

/-- A local file is not passed over for what escapes from reading it. -/
theorem settingsFiles_override {fs : FileSystem} {defaults : Option Path} {q : Path}
    {base : Document} {e : Failure} (hbase : fs.defaultsFile defaults = .ok base)
    (h : fs.Escapes q e) : fs.settingsFiles defaults (some q) = .error e := by
  have hfile : fs.settingsFile q = .error e := h.settingsFile_eq
  rw [FileSystem.settingsFiles_some, hbase]
  show (fs.exists? q >>= _) = _
  cases hfound : fs.exists? q with
  | error e' =>
    rw [FileSystem.settingsFile, hfound] at hfile
    exact hfile
  | ok found =>
    cases found with
    | true => exact bind_eq_error.2 (.inr ⟨true, rfl, bind_eq_error.2 (.inl hfile)⟩)
    | false =>
      rw [FileSystem.settingsFile_of_exists hfound] at hfile
      obtain rfl := Except.error.inj hfile
      cases h.isRejection

theorem Escapes.load_eq {fs : FileSystem} {defaults local? : Option Path} {e : Failure}
    (h : Escapes fs defaults local? e) : load fs defaults local? = .error e := by
  -- All but the last leave the family before anything is bound.
  have hread (h : fs.settingsFiles defaults local? = .error e) :
      load fs defaults local? = .error e := bind_eq_error.2 (.inl h)
  cases h with
  | @defaults p e given escapes =>
    apply hread
    obtain rfl := given
    have hlower : fs.defaultsFile (some p) = .error e := escapes.settingsFile_eq
    cases local? with
    | none => rw [FileSystem.settingsFiles_none, hlower]
    | some q =>
      rw [FileSystem.settingsFiles_some, hlower]
      rfl
  | override lower given escapes =>
    apply hread
    obtain rfl := given
    exact settingsFiles_override lower escapes
  | endless lower given upper merged =>
    apply hread
    obtain rfl := given
    rw [settingsFiles_read lower upper, merged]
  | longKey lower given upper merged =>
    apply hread
    obtain rfl := given
    rw [settingsFiles_read lower upper, merged]
  | longShown read bound =>
    exact bind_eq_error.2 (.inr ⟨_, read, mapError_eq_error.2 ⟨_, bound, rfl⟩⟩)

theorem load_escapes_iff {fs : FileSystem} {defaults local? : Option Path} {e : Failure} :
    load fs defaults local? = .error e ∧ e.isRejection = false ↔
      Escapes fs defaults local? e := by
  constructor
  · intro h
    obtain ⟨h, ho⟩ := h
    rcases bind_eq_error.1 h with h | ⟨d, hd, h⟩
    · exact settingsFiles_escapes h ho
    · obtain ⟨f, hf, rfl⟩ := mapError_eq_error.1 h
      obtain rfl := eq_longNumber_of_escapes ho
      exact .longShown hd hf
  · intro h
    exact ⟨h.load_eq, h.isRejection⟩

/-- Reading one file does not fail for a number, however long. -/
theorem settingsFile_ne_longNumber (fs : FileSystem) (p : Path) :
    fs.settingsFile p ≠ .error (.setting .longNumber) := by
  intro h
  have hescapes : fs.Escapes p (.setting .longNumber) :=
    FileSystem.settingsFile_escapes_iff.1 ⟨h, rfl⟩
  cases hescapes with
  | unanswered fails => cases fails
  | unreadable _ _ refused => cases Format.read_unreadable refused

/-- Files without numbers that are too long load without failing for one. -/
theorem load_brief {fs : FileSystem} {defaults local? : Option Path}
    (h : ∀ p d, defaults = some p ∨ local? = some p → fs.settingsFile p = .ok d → d.Brief) :
    load fs defaults local? ≠ .error (.setting .longNumber) := by
  have hfile (p : Path) (given : defaults = some p ∨ local? = some p) :
      Spared (.setting .longNumber) Document.Brief (fs.settingsFile p) := by
    cases hp : fs.settingsFile p with
    | ok d => exact h p d given hp
    | error e => exact fun he => settingsFile_ne_longNumber fs p (hp.trans (congrArg _ he))
  have hlower : Spared (.setting .longNumber) Document.Brief (fs.defaultsFile defaults) := by
    cases defaults with
    | none => exact (rfl : (Value.dict []).Brief)
    | some p => exact hfile p (.inl rfl)
  have hfiles : Spared (.setting .longNumber) Document.Brief
      (fs.settingsFiles defaults local?) := by
    cases local? with
    | none => exact fs.settingsFiles_none defaults ▸ hlower
    | some q =>
      rw [FileSystem.settingsFiles_some]
      refine hlower.bind fun base hbase => ?_
      cases hfound : fs.exists? q with
      | error e =>
        intro h
        obtain rfl := h
        cases FileSystem.exists?_eq_error_iff.1 hfound
      | ok found =>
        cases found with
        | false => exact hbase
        | true => exact (hfile q (.inr rfl)).bind fun upper hupper =>
            Document.merge_brief hbase hupper
  intro hload
  rcases bind_eq_error.1 hload with he | ⟨d, hd, he⟩
  · rw [he] at hfiles
    exact hfiles rfl
  · rw [hd] at hfiles
    obtain ⟨f, hf, hlong⟩ := mapError_eq_error.1 he
    obtain rfl := Failure.setting.inj hlong
    exact ofDocument_brief hfiles hf

/-- **How loading fails.** Loading gives settings or a rejection of settings, unless one of
the failures escapes that are none; each of these is what loading then ends in. One of them
is a number that is too long to be shown, and then a file that was read has such a number. -/
theorem load_rejects_or_escapes (fs : FileSystem) (defaults local? : Option Path) :
    (((∃ l, load fs defaults local? = .ok l) ∨
        ∃ e, load fs defaults local? = .error e ∧ e.isRejection = true) ↔
      ¬∃ e, Escapes fs defaults local? e) ∧
    (∀ e, Escapes fs defaults local? e →
      load fs defaults local? = .error e ∧ e.isRejection = false) ∧
    (load fs defaults local? = .error (.setting .longNumber) →
      ∃ p d, (defaults = some p ∨ local? = some p) ∧ fs.settingsFile p = .ok d ∧ ¬d.Brief) := by
  refine ⟨?_, fun e => load_escapes_iff.2, fun h => ?_⟩
  · have hexists : (∃ e, Escapes fs defaults local? e) ↔
        ∃ e, load fs defaults local? = .error e ∧ e.isRejection = false :=
      exists_congr fun e => load_escapes_iff.symm
    rw [hexists]
    cases load fs defaults local? with
    | ok l => simp
    | error e => simp
  · by_contra hnone
    refine load_brief (fun p d given read => ?_) h
    by_contra hlong
    exact hnone ⟨p, d, given, read, hlong⟩

/-- A file of defaults that breaks off fails with the fault of its text, which is no
rejection, and so does a directory in its place with a failure of its own. -/
theorem load_fails_otherwise :
    let broken := FileSystem.ofPair "\x7b" "\x7b\x7d"
    let directory : FileSystem := ⟨.directory [("defaults.json", .directory [])], []⟩
    load broken (some FileSystem.defaultsPath) none = .error (.json ⟨.name, 1, 2, 1⟩) ∧
      load directory (some FileSystem.defaultsPath) none = .error (.isDirectory "defaults.json") ∧
      (Failure.json ⟨.name, 1, 2, 1⟩).isRejection = false ∧
      (Failure.isDirectory "defaults.json").isRejection = false := by
  intro broken directory
  have hsuffix : Format.ofSuffix? FileSystem.defaultsPath.suffix = some .json := by decide
  have hfile : broken.Holds FileSystem.defaultsPath
      (.file (Text.Utf8.encode "\x7b".toList)) :=
    FileSystem.holds_iff.2 ⟨by decide,
      FileSystem.lookup_current (by decide) (by decide) rfl⟩
  have hdirectory : directory.Holds FileSystem.defaultsPath (.directory []) := by
    have hstep : Walk.Step directory.root (directory.start FileSystem.defaultsPath)
        ⟨FileSystem.maxLinks, ["defaults.json"], []⟩ :=
      .down rfl ⟨by decide, by decide⟩ (by decide) rfl (by simp)
    exact ⟨by decide, by decide, _, _, .single hstep, rfl⟩
  have hread : Format.read .json (Text.Utf8.encode "\x7b".toList) =
      .error (.json ⟨.name, 1, 2, 1⟩) := rfl
  have hbroken : Escapes broken (some FileSystem.defaultsPath) none (.json ⟨.name, 1, 2, 1⟩) :=
    .defaults rfl (.unreadable hfile hsuffix hread)
  have htaken : Escapes directory (some FileSystem.defaultsPath) none
      (.isDirectory FileSystem.defaultsPath.text) :=
    .defaults rfl (.directory hdirectory rfl hsuffix)
  exact ⟨hbroken.load_eq, htaken.load_eq, rfl, rfl⟩

end Settings
end MigrationSetup
