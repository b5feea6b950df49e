import MigrationSetup.Load
import MigrationSetup.Proofs.Merging

/-! Loading, once the files are read.

What two files give together depends on their documents only (`load_eq_ofLayers`). Two
results are `Alike` if they are the same, or if both are rejections of one class: the
messages may differ, as they show keys and values as they were written. -/
namespace MigrationSetup

/-! ### Reading files -/

namespace FileSystem

/-- A path of one short name leads to the file of that name. -/
theorem lookup_current {es : List (Text × FileNode)} {name : Text} {bytes : List UInt8}
    (hn : name ≠ "." ∧ name ≠ ".." ∧ size name ≤ maxName)
    (ht : size (Path.text ⟨.here, [name]⟩) < pathLimit)
    (h : FileNode.child? name es = some (.file bytes)) :
    (FileSystem.mk (.directory es) []).lookup ⟨.here, [name]⟩ = .ok (.file bytes) := by
  obtain ⟨hdot, hup, hsize⟩ := hn
  have hfollow : follow (.directory es) maxLinks [] [name] = .ok [name] := by
    rw [follow]
    simp only [FileNode.at?, hdot, hup, if_false, Nat.not_lt.2 hsize, h, List.nil_append]
    rw [follow]
  simp only [lookup, locate, Nat.not_le.2 ht, if_false]
  show (follow _ _ [] [name] >>= _) = _
  rw [hfollow]
  simp only [bind, Except.bind, FileNode.at?, h, Option.bind_some]
  rfl

/-- What a settings file says is what its bytes say in its format. -/
theorem settingsFile_of_lookup {fs : FileSystem} {p : Path} {bytes : List UInt8}
    {format : Format} {d d' : Document}
    (hp : (p.names.any fun n => !isName n) = false)
    (hl : fs.lookup p = .ok (.file bytes)) (hf : Format.ofSuffix? p.suffix = some format)
    (hr : format.read bytes = .ok d) (hd : d.requireDict = .ok d') :
    fs.settingsFile p = .ok d' := by
  have he : fs.exists? p = .ok true := by
    simp only [exists?, test, hp, hl]
    rfl
  have hread : fs.read p = .ok bytes := by
    simp only [read, hl]
  simp only [settingsFile, he, hf, hread]
  show (format.read bytes >>= _) = _
  rw [hr]
  show d.requireDict.mapError _ = _
  rw [hd]
  rfl

/-- Two settings files in JSON, one of defaults and a local one. -/
def ofPair (base override : String) : FileSystem :=
  ⟨.directory [("defaults.json", .file (Text.Utf8.encode base.toList)),
    ("local.json", .file (Text.Utf8.encode override.toList))], []⟩

def defaultsPath : Path := ⟨.here, ["defaults.json"]⟩

def localPath : Path := ⟨.here, ["local.json"]⟩

theorem settingsFile_defaults {base : String} (override : String) {root : Entries}
    (h : Format.read .json (Text.Utf8.encode base.toList) = .ok (.plain (.dict root))) :
    (ofPair base override).settingsFile defaultsPath = .ok (.plain (.dict root)) :=
  have hf : Format.ofSuffix? defaultsPath.suffix = some .json := by decide
  settingsFile_of_lookup (by decide) (lookup_current (by decide) (by decide) rfl) hf h rfl

theorem settingsFile_local (base : String) {override : String} {root : Entries}
    (h : Format.read .json (Text.Utf8.encode override.toList) = .ok (.plain (.dict root))) :
    (ofPair base override).settingsFile localPath = .ok (.plain (.dict root)) :=
  have hf : Format.ofSuffix? localPath.suffix = some .json := by decide
  settingsFile_of_lookup (by decide) (lookup_current (by decide) (by decide) rfl) hf h rfl

end FileSystem

namespace Settings

/-- The settings of one document with another over it. -/
def ofLayers (base override : Document) : Except Failure Settings := do
  (ofDocument (← base.merge override)).mapError .setting

/-- The same result, or rejections of one class. -/
inductive Alike : Except Failure Settings → Except Failure Settings → Prop
  | same (r : Except Failure Settings) : Alike r r
  | rejected {e f : SettingError} (fault : e.fault = f.fault) :
      Alike (.error (.setting e)) (.error (.setting f))

namespace Alike
variable {a b c : Except Failure Settings}

theorem of_eq (h : a = b) : Alike a b := h ▸ .same a

theorem symm (h : Alike a b) : Alike b a := by
  cases h with
  | same => exact .same _
  | rejected fault => exact .rejected fault.symm

theorem trans (h : Alike a b) (h' : Alike b c) : Alike a c := by
  cases h with
  | same => exact h'
  | rejected fault =>
    cases h' with
    | same => exact .rejected fault
    | rejected fault' => exact .rejected (fault.trans fault')

/-- Only success with the same settings is alike to success. -/
theorem eq_of_ok {s : Settings} (h : Alike (.ok s) b) : b = .ok s := by
  cases h
  rfl

end Alike

/-! ### Files that were read -/

/-- Only a file that is there was read. -/
theorem exists_of_settingsFile {fs : FileSystem} {p : Path} {d : Document}
    (h : fs.settingsFile p = .ok d) : fs.exists? p = .ok true := by
  obtain ⟨found, hf, h⟩ := bind_eq_ok.1 h
  cases found with
  | true => exact hf
  | false => cases h

theorem load_eq_ofLayers {fs : FileSystem} {p q : Path} {base override : Document}
    (hp : fs.settingsFile p = .ok base) (hq : fs.settingsFile q = .ok override) :
    load fs (some p) (some q) = ofLayers base override := by
  have hfiles : fs.settingsFiles (some p) (some q) = base.merge override := by
    simp only [FileSystem.settingsFiles, Option.map_some, Option.getD_some, hp,
      exists_of_settingsFile hq, hq]
    rfl
  rw [load, hfiles]
  rfl

/-! ### Plain documents -/

theorem ofLayers_plain (base override : Entries) :
    ofLayers (.plain (.dict base)) (.plain (.dict override)) =
      ((Value.mergeEntries [] base override).bind fun es => ofValue (.dict es)).mapError
        .setting := by
  simp only [ofLayers, Document.merge, Value.merge]
  cases Value.mergeEntries [] base override <;> rfl

/-! ### Documents that share parts -/

/-- The settings of one graph with another over it. -/
def ofGraphs (g o : Graph) : Except Failure Settings := do
  (ofDocument (.shared (← g.merge o))).mapError .setting

theorem ofLayers_shared (g : Graph) (o : Document) :
    ofLayers (.shared g) o = ofGraphs g o.graph :=
  map_bind _ _ _

theorem ofLayers_plain_shared (x : Value) (g : Graph) :
    ofLayers (.plain x) (.shared g) = ofGraphs (Document.plain x).graph g :=
  map_bind _ _ _

theorem ofGraphs_eq {g o : Graph} {b c : Nat} (hb : g.root.dict? g.objects = some b)
    (hc : o.root.dict? o.objects = some c) :
    ofGraphs g o = (Graph.mergeInto (o.apart g.objects.size).objects Graph.maxDepth [] b
      ((o.apart g.objects.size).objects.entries c) g.objects >>= fun a =>
        (ofDocument (.shared ⟨a, .object b, true⟩)).mapError .setting) := by
  rw [ofGraphs, Graph.merge_eq hb hc]
  exact map_bind _ _ _

end Settings
end MigrationSetup
