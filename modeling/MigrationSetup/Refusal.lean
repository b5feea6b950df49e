import MigrationSetup.Options

/-! Refusals from values.

Whoever refuses a configuration gives a message, details and a hint, and any of them may
be any value. The message has to be a text. The details are entries: those of a dict, or
the pairs of whatever else holds pairs, the last one winning under each key. The first
item that is no entry is reported.

The finding behind a message is looked up under the message as a key, so a value that can
change is reported, and any other value that is no text has none. -/
namespace MigrationSetup

/-- The entry that an item is, at its place among the others. -/
def Value.entry (index : Nat) (item : Value) : Except Failure (Value × Value) :=
  match item.items with
  | .ok [k, v] =>
    match k.changeable? with
    | some kind => .error (.changeable kind)
    | none => .ok (k, v)
  | .ok parts => .error (.entryLength index parts.length)
  | .error _ => .error (.entryKind index)

/-- The entries that a value gives. -/
def Value.toEntries : Value → Except Failure Entries
  | .dict es => .ok es
  | v => do
    (← v.items).zipIdx.foldlM (fun t (item, i) => do
      let (k, v) ← item.entry i
      return Table.put k v t) []

/-- The finding whose message a value is. -/
def Value.finding? : Value → Except Failure (Option Finding)
  | .text s => .ok (Finding.ofMessage? s)
  | v =>
    match v.changeable? with
    | some kind => .error (.changeable kind)
    | none => .ok none

/-- A refusal from values of any kind. -/
def Refusal.ofValues (family : Refusal.Family) (message details hint : Value) :
    Except Failure Refusal := do
  if !message.isText then throw (.messageKind message.kind)
  return ⟨family, message, ← details.toEntries, hint⟩

end MigrationSetup
