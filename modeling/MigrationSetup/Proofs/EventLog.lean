import MigrationSetup.EventLog

/-! What a log gains.

A log only grows: events come behind the earlier ones, and a warning joins those of its
component. `EventLog.Grows` says of two logs that the second is the first with certain
events and with certain warnings of one component. It is kept by every step of a run, so
what a run adds is what its steps add, one after the other (`EventLog.Grows.trans`). -/
namespace MigrationSetup

/-- An event before its time is known. -/
structure Note where
  component : Text
  level : Text
  message : Text
  extra : List (Text × Value)

/-- The event that records a note at a time. -/
def Note.dated (n : Note) (time : Text) : Event :=
  ⟨n.component, n.level, n.message, time, n.extra⟩

namespace EventLog

/-- The events that record notes, the first of them as the event number `start`. -/
def entered (clock : Nat → Text) : Nat → List Note → List Event
  | _, [] => []
  | start, n :: ns => n.dated (clock start) :: entered clock (start + 1) ns

theorem length_entered (clock : Nat → Text) (start : Nat) (ns : List Note) :
    (entered clock start ns).length = ns.length := by
  induction ns generalizing start with
  | nil => rfl
  | cons n ns ih => simp only [entered, List.length_cons, ih]

theorem entered_append (clock : Nat → Text) (start : Nat) (a b : List Note) :
    entered clock start (a ++ b) =
      entered clock start a ++ entered clock (start + a.length) b := by
  induction a generalizing start with
  | nil => rfl
  | cons n ns ih =>
    simp only [List.cons_append, entered, ih, List.length_cons]
    rw [Nat.add_assoc, Nat.add_comm 1]

/-- An event that was entered is a note with a time. -/
theorem mem_entered {clock : Nat → Text} {start : Nat} {ns : List Note} {e : Event}
    (h : e ∈ entered clock start ns) : ∃ n ∈ ns, ∃ time, e = n.dated time := by
  induction ns generalizing start with
  | nil => cases h
  | cons n ns ih =>
    rcases List.mem_cons.1 h with rfl | h
    · exact ⟨n, List.mem_cons_self, _, rfl⟩
    · obtain ⟨m, hm, hdated⟩ := ih h
      exact ⟨m, List.mem_cons_of_mem _ hm, hdated⟩

/-! ### Warnings -/

/-- A warning joins those of its own component and no others. -/
theorem find?_addWarning (ws : List (Text × List Text)) (component message c : Text) :
    (((addWarning ws component message).find? fun w => w.1 == c).map Prod.snd).getD [] =
      ((ws.find? fun w => w.1 == c).map Prod.snd).getD [] ++
        if c = component then [message] else [] := by
  induction ws with
  | nil =>
    by_cases hc : c = component
    · simp [addWarning, hc]
    · simp [addWarning, hc, Ne.symm hc]
  | cons w ws ih =>
    obtain ⟨name, ms⟩ := w
    by_cases hn : name = component
    · by_cases hc : c = component
      · simp [addWarning, hn, hc]
      · simp [addWarning, hn, hc, Ne.symm hc]
    · by_cases hc : name = c
      · have hcc : c ≠ component := fun h => hn (hc.trans h)
        simp [addWarning, hc, hcc]
      · simp only [addWarning, hn, if_false, List.find?_cons, beq_eq_false_iff_ne.2 hc]
        exact ih

theorem warningsOf_warn (l : EventLog) (component message c : Text) :
    (l.warn component message).warningsOf c =
      l.warningsOf c ++ if c = component then [message] else [] :=
  find?_addWarning l.warnings component message c

/-! ### Growth -/

/-- `l'` is `l` with these events behind its own and with these warnings of a component
behind those that it has. All else is as it was. -/
structure Grows (l l' : EventLog) (notes : List Note) (component : Text)
    (warnings : List Text) : Prop where
  clock : l'.clock = l.clock
  events : l'.events = l.events ++ entered l.clock l.events.length notes
  own : l'.warningsOf component = l.warningsOf component ++ warnings
  others : ∀ c, c ≠ component → l'.warningsOf c = l.warningsOf c

namespace Grows

theorem refl (l : EventLog) (component : Text) : l.Grows l [] component [] :=
  ⟨rfl, by simp [entered], by simp, fun _ _ => rfl⟩

theorem trans {l l' l'' : EventLog} {a b : List Note} {component : Text} {v w : List Text}
    (h : l.Grows l' a component v) (h' : l'.Grows l'' b component w) :
    l.Grows l'' (a ++ b) component (v ++ w) where
  clock := h'.clock.trans h.clock
  events := by
    rw [h'.events, h.events, h.clock, entered_append, List.length_append, length_entered,
      List.append_assoc]
  own := by rw [h'.own, h.own, List.append_assoc]
  others := fun c hc => (h'.others c hc).trans (h.others c hc)

/-- Recording an event. -/
theorem log (l : EventLog) (n : Note) (component : Text) :
    l.Grows (l.log n.component n.level n.message n.extra) [n] component [] :=
  ⟨rfl, rfl, by simp [EventLog.log, warningsOf], fun _ _ => rfl⟩

/-- Giving a warning. -/
theorem warn (l : EventLog) (component message : Text) :
    l.Grows (l.warn component message) [] component [message] where
  clock := rfl
  events := by simp [entered, events_warn]
  own := by rw [warningsOf_warn, if_pos rfl]
  others := fun c hc => by rw [warningsOf_warn, if_neg hc, List.append_nil]

/-- Earlier events stay where they were. -/
theorem events_prefix {l l' : EventLog} {notes : List Note} {component : Text}
    {ws : List Text} (h : l.Grows l' notes component ws) : l.events <+: l'.events :=
  ⟨_, h.events.symm⟩

end Grows
end EventLog
end MigrationSetup
