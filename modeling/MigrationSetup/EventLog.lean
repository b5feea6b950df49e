import MigrationSetup.Value.Basic

/-! The record of a run.

A log holds events in the order in which they happened and, apart from them, warnings
grouped by the component that gave them, components in the order of their first
warning. An event has a component, a level and a message, the time of its recording and
any further fields. A further field named like the time takes its place. Events are found
by what they show under a name (`Event.field?`). -/
namespace MigrationSetup

/-- A field that an event is asked for and does not show. -/
structure MissingField where
  name : Text
deriving DecidableEq, Repr

structure Event where
  component : Text
  level : Text
  message : Text
  time : Text
  extra : List (Text × Value)

namespace Event

/-- The name under which an event shows its time. -/
def timeField : String := "timestamp"

/-- Puts a field in place of the one with its name, or at the end. -/
def putField (fields : List (Text × Value)) (name : Text) (v : Value) :
    List (Text × Value) :=
  match fields with
  | [] => [(name, v)]
  | (n, w) :: rest => if n = name then (n, v) :: rest else (n, w) :: putField rest name v

/-- The fields that an event shows. -/
def fields (e : Event) : List (Text × Value) :=
  e.extra.foldl (fun fs f => putField fs f.1 f.2)
    [("component", .text e.component), ("level", .text e.level), ("message", .text e.message),
      (timeField, .text e.time)]

/-- What the event shows under a name. -/
def field? (e : Event) (name : Text) : Option Value := e.fields.lookup name

/-- Whether the event shows a text under a name, if one is asked for. -/
def shows (e : Event) (name : Text) (wanted : Option Text) : Except MissingField Bool :=
  match wanted with
  | none => .ok true
  | some text =>
    match e.field? name with
    | none => .error ⟨name⟩
    | some v => .ok (v.text? == some text)

/-- Whether the event has the component and the message, as far as they are asked for. The
message is looked at only where the component is right. -/
def meets (e : Event) (component message : Option Text) : Except MissingField Bool := do
  if ← e.shows "component" component then e.shows "message" message else return false

end Event

/-- `clock` gives the time at which the event with a number is recorded. -/
structure EventLog where
  clock : Nat → Text
  events : List Event
  warnings : List (Text × List Text)

namespace EventLog

def empty (clock : Nat → Text) : EventLog := ⟨clock, [], []⟩

/-- Records an event. -/
def log (l : EventLog) (component level message : Text) (extra : List (Text × Value)) :
    EventLog :=
  { l with events := l.events ++ [⟨component, level, message, l.clock l.events.length, extra⟩] }

/-- Adds a warning to those of its component. -/
def addWarning (warnings : List (Text × List Text)) (component message : Text) :
    List (Text × List Text) :=
  match warnings with
  | [] => [(component, [message])]
  | (c, ms) :: rest =>
    if c = component then (c, ms ++ [message]) :: rest
    else (c, ms) :: addWarning rest component message

def warn (l : EventLog) (component message : Text) : EventLog :=
  { l with warnings := addWarning l.warnings component message }

/-- The events with the component and the message, as far as they are asked for. -/
def find (l : EventLog) (component message : Option Text) :
    Except MissingField (List Event) :=
  l.events.filterM fun e => e.meets component message

/-- The warnings of a component. -/
def warningsOf (l : EventLog) (component : Text) : List Text :=
  ((l.warnings.find? fun w => w.1 == component).map Prod.snd).getD []

theorem events_log (l : EventLog) (c v m : Text) (x : List (Text × Value)) :
    (l.log c v m x).events = l.events ++ [⟨c, v, m, l.clock l.events.length, x⟩] := rfl

theorem warnings_log (l : EventLog) (c v m : Text) (x : List (Text × Value)) :
    (l.log c v m x).warnings = l.warnings := rfl

theorem events_warn (l : EventLog) (c m : Text) : (l.warn c m).events = l.events := rfl

end EventLog
end MigrationSetup
