import MigrationSetup.Settings.Name

/-! What can be wrong with settings.

Settings fail in six ways (`Fault`): a file is missing, its format is not known, what
should be a dict is none, two layers disagree about a kind, a single setting is not
acceptable, or a number that has to be named is too long for that. `SettingError` tells
them apart further by cause, and each cause has one message. -/
namespace MigrationSetup

/-- The ways in which settings fail. -/
inductive Fault
  | notFound
  | unsupportedFormat
  | invalidRoot
  | typeConflict
  | invalidSetting
  | longNumber
deriving DecidableEq, Repr

/-- Why settings were rejected. -/
inductive SettingError
  /-- There is no file at the path. -/
  | missingFile (path : Text)
  | unknownFormat (suffix : Text)
  | rootKind (kind : Kind)
  | sectionKind (kind : Kind)
  /-- One of two layers is no dict. -/
  | layerKinds (base override : Kind)
  /-- Two layers hold different kinds of values at a path. -/
  | conflict (path : List Text) (base override : Kind)
  | unknownSetting (key : Value)
  | unknownMode (given : Text)
  | modeKind (kind : Kind)
  | notBool (setting : Setting) (given : Value)
  | itemKind (setting : Setting) (kind : Kind)
  | listKind (setting : Setting) (kind : Kind)
  | textKind (setting : Setting) (kind : Kind)
  /-- A value that has to be shown holds too long a number. -/
  | longNumber

namespace SettingError

def fault : SettingError → Fault
  | .missingFile _ => .notFound
  | .unknownFormat _ => .unsupportedFormat
  | .rootKind _ => .invalidRoot
  | .sectionKind _ => .invalidRoot
  | .layerKinds _ _ => .typeConflict
  | .conflict _ _ _ => .typeConflict
  | .unknownSetting _ => .invalidSetting
  | .unknownMode _ => .invalidSetting
  | .modeKind _ => .invalidSetting
  | .notBool _ _ => .invalidSetting
  | .itemKind _ _ => .invalidSetting
  | .listKind _ _ => .invalidSetting
  | .textKind _ _ => .invalidSetting
  | .longNumber => .longNumber

def message : SettingError → Text
  | .missingFile path => "Arquivo de settings não encontrado: " ++ path
  | .unknownFormat suffix => "Formato não suportado: " ++ suffix
  | .rootKind k => "Settings root deve ser dict, recebido: " ++ k.name
  | .sectionKind k => "Seção 'migrations' deve ser dict, recebido: " ++ k.name
  | .layerKinds b o =>
    "Deep-merge requer dicts no nível raiz, recebido: " ++ b.name ++ " vs " ++ o.name
  | .conflict path b o =>
    "Conflito de tipo em '" ++ Text.between "." path ++ "': " ++ b.name ++ " vs " ++ o.name
  | .unknownSetting key => "Setting desconhecido: " ++ key.shown
  | .unknownMode given =>
    "transaction_mode desconhecido: " ++ Text.quoted given ++
      " (permitidos: " ++ TransactionMode.allowed ++ ")"
  | .modeKind k => "transaction_mode deve ser str, recebido: " ++ k.name
  | .notBool s given => s.name ++ " deve ser booleano, recebido: " ++ given.shown
  | .itemKind s k => s.name ++ " deve conter apenas strings, recebido: " ++ k.name
  | .listKind s k =>
    s.name ++ " deve ser lista ou string separada por vírgulas, recebido: " ++ k.name
  | .textKind s k => s.name ++ " deve ser str, recebido: " ++ k.name
  | .longNumber => tooLongMessage

/-- An error whose message shows `v`, unless `v` cannot be shown. -/
def showing (v : Value) (e : SettingError) : SettingError := if v.hasLong then .longNumber else e

end SettingError
end MigrationSetup
