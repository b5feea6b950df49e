import MigrationSetup.Options

/-! From a dict to settings.

Settings stand in a section of their own or, where there is none, at the root of the
dict. Every key has to name a setting; of several spellings of one setting the last one
counts. A scan list may be written as a list or as one text with commas, blanks around
its items and blank items being dropped. A switch is a truth value or its name. What is
absent or nothing keeps the default. -/
namespace MigrationSetup

/-- The settings of a run. -/
structure Settings where
  enabled : Bool
  checkLocation : Bool
  options : Options

namespace Settings

/-- The settings where nothing was set. -/
def standard : Settings := ⟨true, true, Options.empty⟩

/-- The key of the section. -/
def sectionKey : String := "migrations"

/-- The entries that hold the settings. -/
def sectionOf : Value → Except SettingError Entries
  | .dict root =>
    match Table.get? (.text sectionKey) root with
    | none => .ok root
    | some .null => .ok []
    | some (.dict es) => .ok es
    | some v => .error (.sectionKind v.kind)
  | v => .error (.rootKind v.kind)

/-- The value of the last spelling of a setting, `last` being that of the entries before. -/
def lastOf (s : Setting) (last : Value) : Entries → Value
  | [] => last
  | (k, v) :: rest => lastOf s (if Setting.ofKey? k = some s then v else last) rest

/-- The first key that names no setting. -/
def stranger? : Entries → Option Value
  | [] => none
  | (k, _) :: rest => if (Setting.ofKey? k).isNone then some k else stranger? rest

/-! ### Single settings -/

/-- The pieces of a text between commas. -/
def commaPieces : Text → List Text
  | [] => [[]]
  | .char ',' :: cs => [] :: commaPieces cs
  | c :: cs =>
    match commaPieces cs with
    | [] => [[c]]
    | p :: ps => (c :: p) :: ps

/-- The stripped items that are not blank. -/
def keepItems (items : List Text) : List Value :=
  ((items.map Text.strip).filter (· ≠ [])).map .text

/-- The texts of a list, or the first item that is none. -/
def texts : List Value → Except Kind (List Text)
  | [] => .ok []
  | v :: vs =>
    match v.text? with
    | some s => do return s :: (← texts vs)
    | none => .error v.kind

/-- A scan list. -/
def scanList (s : Setting) (v : Value) : Except SettingError (Option (List Value)) :=
  let ofItems (xs : List Value) : Except SettingError (Option (List Value)) :=
    match texts xs with
    | .ok items => .ok (some (keepItems items))
    | .error kind => .error (.itemKind s kind)
  match v with
  | .null => .ok none
  | .text t => .ok (some (keepItems (commaPieces t)))
  | .mode m => .ok (some (keepItems (commaPieces m.name)))
  | .list xs => ofItems xs
  | .tuple xs => ofItems xs
  | v => .error (.listKind s v.kind)

/-- A text or nothing. -/
def textOrNull (s : Setting) (v : Value) : Except SettingError Value :=
  if v.isNull || v.isText then .ok v else .error (.textKind s v.kind)

/-- The truth value that a text names. -/
def switch? (t : Text) : Option Bool :=
  let name := Text.lowercase (Text.strip t)
  if name = "true" then some true
  else if name = "false" then some false
  else none

/-- A switch. -/
def switch (s : Setting) (standard : Bool) (v : Value) : Except SettingError Bool :=
  match v with
  | .null => .ok standard
  | .bool b => .ok b
  | v =>
    match v.text?.bind switch? with
    | some b => .ok b
    | none => .error (.showing v (.notBool s v))

/-! ### All of them -/

/-- Settings from the entries that hold them. -/
def ofEntries (es : Entries) : Except SettingError Settings := do
  match stranger? es with
  | some k => throw (.showing k (.unknownSetting k))
  | none => pure ()
  let value (s : Setting) : Value := lastOf s .null es
  let packages ← scanList .packages (value .packages)
  let locations ← scanList .locations (value .locations)
  let mode ← (value .mode).mode?
  let database ← textOrNull .database (value .database)
  let installedBy ← textOrNull .installedBy (value .installedBy)
  let enabled ← switch .enabled true (value .enabled)
  let checkLocation ← switch .checkLocation true (value .checkLocation)
  return ⟨enabled, checkLocation, ⟨packages, locations, mode, database, installedBy⟩⟩

/-- Settings from a value of any kind. -/
def ofValue (v : Value) : Except SettingError Settings := do
  ofEntries (← sectionOf v)

end Settings
end MigrationSetup
