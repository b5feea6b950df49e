import MigrationSetup.Config

/-! Building a configuration step by step.

A builder collects options. Each `Change` replaces one of them and makes all of them again,
and one that is refused leaves them all as they were. A list is given item by item: no items
mean the empty list, and a single nothing takes the option back. `build` fills in the defaults
and leaves the builder usable. -/
namespace MigrationSetup

/-- A change to one option. -/
inductive Change
  | packages (items : List Value)
  | locations (items : List Value)
  | mode (value : Value)
  | database (value : Value)
  | installedBy (value : Value)

/-- The first item that is no text. -/
def firstOther (items : List Value) : Option Value := items.find? fun v => !v.isText

/-- The scan list that items give. -/
def scanOption (setting : Setting) (items : List Value) :
    Except SettingError (Option (List Value)) :=
  match items with
  | [.null] => .ok none
  | items =>
    match firstOther items with
    | some v => .error (.itemKind setting v.kind)
    | none => .ok (some items)

namespace Options

/-- The options with the value of a change in place. -/
def replace (o : Options) : Change → Except SettingError Options
  | .packages items => do return { o with packages := ← scanOption .packages items }
  | .locations items => do return { o with locations := ← scanOption .locations items }
  | .mode v => do return { o with mode := ← v.mode? }
  | .database v => .ok { o with database := v }
  | .installedBy v => .ok { o with installedBy := v }

/-- The options after a change. -/
def change (o : Options) (c : Change) : Except Failure Options := do
  (← (o.replace c).mapError .setting).renew

end Options

/-- Options under construction, and how often the provider was asked. -/
structure Builder where
  options : Options
  provider : Provider
  asked : Nat

namespace Builder

def new (options : Options) (provider : Provider) : Builder := ⟨options, provider, 0⟩

/-- Applies a change. A refused change is reported and changes nothing. -/
def apply (b : Builder) (c : Change) : Except Failure Unit × Builder :=
  match b.options.change c with
  | .ok o => (.ok (), { b with options := o })
  | .error e => (.error e, b)

def build (b : Builder) : Except Failure Config × Builder :=
  let (result, asked) := Config.resolve b.options b.provider b.asked
  (result, { b with asked := asked })

theorem options_build (b : Builder) : b.build.2.options = b.options := rfl

end Builder
end MigrationSetup
