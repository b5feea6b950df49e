import MigrationSetup.Document
import MigrationSetup.Files.Tree
import MigrationSetup.Settings.Binding

/-! Settings from files.

The suffix of a file tells its format. A file of defaults has to be there if it is asked
for, and a local file counts only if it is there; what it says is laid over the
defaults. -/
namespace MigrationSetup

/-- The formats of settings files. -/
inductive Format
  | yaml | json
deriving DecidableEq, Repr

/-- The format that a suffix tells, in any letter case. -/
def Format.ofSuffix? (suffix : Text) : Option Format :=
  let name := Text.lowercase suffix
  if name = ".yaml" ∨ name = ".yml" then some .yaml
  else if name = ".json" then some .json
  else none

/-- The document in the bytes of a file. YAML is read only as far as need be. -/
def Format.read (format : Format) (bytes : List UInt8) : Except Failure Document :=
  match format with
  | .yaml => Document.ofYaml (.ofBytes bytes)
  | .json => do
    let cs ← (Text.Utf8.decode bytes).mapError .bytes
    Document.ofJson (Text.Lines.unify cs)

namespace FileSystem

/-- The document in a settings file. -/
def settingsFile (fs : FileSystem) (p : Path) : Except Failure Document := do
  if !(← fs.exists? p) then throw (.setting (.missingFile p.text))
  match Format.ofSuffix? p.suffix with
  | none => throw (.setting (.unknownFormat p.suffix))
  | some format =>
    let document ← format.read (← fs.read p)
    document.requireDict.mapError .setting

/-- The document of a file of defaults with a local file over it. -/
def settingsFiles (fs : FileSystem) (defaults local? : Option Path) : Except Failure Document := do
  let base ← (defaults.map fs.settingsFile).getD (.ok .empty)
  match local? with
  | none => return base
  | some p =>
    if ← fs.exists? p then base.merge (← fs.settingsFile p)
    else return base

end FileSystem

/-- The settings that a document holds. -/
def Settings.ofDocument (d : Document) : Except SettingError Settings :=
  match d with
  | .plain v => ofValue v
  | .shared g => ofValue (g.unfoldEntries (.text sectionKey))

/-- Loads the settings of a file of defaults and a local file. -/
def Settings.load (fs : FileSystem) (defaults local? : Option Path) : Except Failure Settings := do
  (ofDocument (← fs.settingsFiles defaults local?)).mapError .setting

end MigrationSetup
