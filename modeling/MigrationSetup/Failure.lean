import MigrationSetup.Canonical
import MigrationSetup.Json.Fault
import MigrationSetup.Report
import MigrationSetup.Settings.Error
import MigrationSetup.Text.Utf8
import MigrationSetup.Yaml.Fault

/-! All that can go wrong, by cause.

Most causes are rejected settings or a configuration that finds no migrations. The
others are files that cannot be read, values that cannot be used for what they were
given for, and failures of the collaborators that a caller supplies. Each cause has one
message. -/
namespace MigrationSetup

inductive Failure
  | setting (error : SettingError)
  /-- The configuration finds no migrations. -/
  | refused (refusal : Refusal)
  | yaml (fault : Yaml.Fault)
  | json (fault : Json.Fault)
  /-- A JSON number has more digits than a number may have. -/
  | jsonDigits (count : Nat)
  | bytes (fault : Text.Utf8.Fault)
  | nameTooLong (path : Text)
  /-- A directory on the way is closed. -/
  | denied (path : Text)
  | isDirectory (path : Text)
  | notIterable (kind : Kind)
  /-- What should be the message of a refusal is no text. -/
  | messageKind (kind : Kind)
  /-- An item that should be an entry does not hold two items. -/
  | entryLength (index length : Nat)
  /-- An item that should be an entry holds no items. -/
  | entryKind (index : Nat)
  | locationKind (kind : Kind)
  | identityKind (kind : Kind)
  | hashKind (kind : Kind)
  | changeable (kind : Kind)
  | missingChecker
  /-- Two files hold themselves and are laid over one another without end. -/
  | endlessMerge
  | unwritable (reason : Unwritable)
  /-- The canonical text of a value cannot be written as bytes. -/
  | unencodable (fault : Text.Utf8.Unencodable)
  /-- A collaborator failed with a text of its own. -/
  | collaborator (text : Text)

namespace Failure

def message : Failure → Text
  | .setting e => e.message
  | .refused r => r.text
  | .yaml f => f.message
  | .json f => f.message
  | .jsonDigits count => tooManyDigitsMessage count
  | .bytes f => f.message
  | .nameTooLong path => "[Errno 36] File name too long: " ++ Text.quoted path
  | .denied path => "[Errno 13] Permission denied: " ++ Text.quoted path
  | .isDirectory path => "[Errno 21] Is a directory: " ++ Text.quoted path
  | .notIterable k => "'" ++ k.fullName ++ "' object is not iterable"
  | .messageKind k => "__str__ returned non-string (type " ++ k.fullName ++ ")"
  | .entryLength i n =>
    s!"dictionary update sequence element #{i} has length {n}; 2 is required"
  | .entryKind i => s!"cannot convert dictionary update sequence element #{i} to a sequence"
  | .locationKind k => "Location deve ser str, recebido: " ++ k.name
  | .identityKind k => "Identidade deve ser str, recebido: " ++ k.name
  | .hashKind k => "Config para hashing deve ser ResolvedConfig ou dict, recebido: " ++ k.name
  | .changeable k => "unhashable type: '" ++ k.fullName ++ "'"
  | .endlessMerge => Yaml.Fault.endless.message ++ " while calling a Python object"
  | .missingChecker => "resource_checker é obrigatório para verificar locations"
  | .unwritable u => u.message
  | .unencodable f => f.message
  | .collaborator text => text

end Failure
end MigrationSetup
