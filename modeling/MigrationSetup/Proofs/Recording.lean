import Mathlib.Data.List.Induction
import MigrationSetup.Proofs.EventLog
import MigrationSetup.Proofs.Result

/-! What a log holds after any calls.

A log is written to and searched in any order. `EventLog.run_records` says what a run of calls
on a new log comes to: the events are what was noted, one for each note and in their order, the
warnings are those that were given, grouped by their components, and each search finds exactly
the events that were noted before it and fit. No call changes an event that is there.

A search looks its fields up in what an event shows, where further fields may take the place of
others. It cannot fail, as no further field is named like one that every event is given
(`Extra`). -/
namespace MigrationSetup

/-! ### What an event shows -/

namespace Event

theorem lookup_putField_self (fs : List (Text × Value)) (name : Text) (v : Value) :
    (putField fs name v).lookup name = some v := by
  induction fs with
  | nil => simp [putField]
  | cons f fs ih =>
    by_cases h : f.1 = name
    · simp [putField, h]
    · have hne : (name == f.1) = false := beq_eq_false_iff_ne.2 (Ne.symm h)
      simp only [putField, h, if_false, List.lookup_cons, hne, ih]

theorem lookup_putField_of_ne {name other : Text} (h : other ≠ name)
    (fs : List (Text × Value)) (v : Value) :
    (putField fs name v).lookup other = fs.lookup other := by
  induction fs with
  | nil => simp [putField, h]
  | cons f fs ih =>
    by_cases hf : f.1 = name
    · have hne : (other == f.1) = false := beq_eq_false_iff_ne.2 (hf ▸ h)
      have hne' : (other == name) = false := beq_eq_false_iff_ne.2 h
      show (putField ((f.1, f.2) :: fs) name v).lookup other = ((f.1, f.2) :: fs).lookup other
      simp only [putField, hf, if_true, List.lookup_cons, hne']
    · show (putField ((f.1, f.2) :: fs) name v).lookup other = ((f.1, f.2) :: fs).lookup other
      simp only [putField, hf, if_false, List.lookup_cons, ih]

/-- Fields that are put one after the other show what they hold, and where none of them has a
name what was there before. -/
theorem lookup_putFields {extra : List (Text × Value)} (h : (extra.map Prod.fst).Nodup)
    (fs : List (Text × Value)) (name : Text) :
    (extra.foldl (fun fs f => putField fs f.1 f.2) fs).lookup name =
      (extra.lookup name).or (fs.lookup name) := by
  induction extra generalizing fs with
  | nil => rfl
  | cons f extra ih =>
    obtain ⟨hnew, hrest⟩ := List.nodup_cons.1 h
    rw [List.foldl_cons, ih hrest, List.lookup_cons]
    by_cases hf : name = f.1
    · have hnone : extra.lookup name = none := by
        rw [List.lookup_eq_none_iff]
        intro g hg
        have hne : name ≠ g.1 := fun e => hnew (List.mem_map.2 ⟨g, hg, e.symm.trans hf⟩)
        exact bne_iff_ne.2 hne
      rw [hnone, hf, beq_self_eq_true, lookup_putField_self]
      rfl
    · rw [lookup_putField_of_ne hf, beq_eq_false_iff_ne.2 hf]

/-- The names of what every event is given. -/
def givenNames : List Text := ["component", "level", "message"]

end Event

/-- The names that a call which logs an event has already taken: those of what every event is
given, and that of the log. -/
def takenNames : List Text := "self" :: Event.givenNames

/-- Further fields of an event. No two have one name, and none has a name that is taken. -/
structure Extra where
  fields : List (Text × Value)
  distinct : (fields.map Prod.fst).Nodup
  others : ∀ f ∈ fields, f.1 ∉ takenNames

namespace Extra

theorem lookup_given (x : Extra) {name : Text} (h : name ∈ Event.givenNames) :
    x.fields.lookup name = none := by
  rw [List.lookup_eq_none_iff]
  intro f hf
  have hne : name ≠ f.1 := fun e => x.others f hf (List.mem_cons_of_mem _ (e ▸ h))
  exact bne_iff_ne.2 hne

theorem lookup_of_mem (x : Extra) {f : Text × Value} (h : f ∈ x.fields) :
    x.fields.lookup f.1 = some f.2 := by
  obtain ⟨before, after, hsplit⟩ := List.append_of_mem h
  refine List.lookup_eq_some_iff.2 ⟨before, after, hsplit, fun g hg => ?_⟩
  have hnodup := x.distinct
  rw [hsplit, List.map_append, List.map_cons] at hnodup
  have hne : f.1 ≠ g.1 := fun e =>
    (List.nodup_append.1 hnodup).2.2 g.1 (List.mem_map_of_mem hg) f.1 List.mem_cons_self e.symm
  exact bne_iff_ne.2 hne

end Extra

namespace Event

/-- What the event shows is what was noted: the component, the level and the message, all
further fields, and its time unless a further field takes its place. It shows nothing else. -/
structure Carries (e : Event) (n : Note) : Prop where
  dated : e = n.dated e.time
  component : e.field? "component" = some (.text n.component)
  level : e.field? "level" = some (.text n.level)
  message : e.field? "message" = some (.text n.message)
  extra : ∀ f ∈ n.extra, e.field? f.1 = some f.2
  time : (∀ f ∈ n.extra, f.1 ≠ timeField) → e.field? timeField = some (.text e.time)
  others : ∀ name ∉ givenNames, name ≠ timeField → (∀ f ∈ n.extra, f.1 ≠ name) →
    e.field? name = none

/-- What an event with further fields shows under a name. -/
theorem field?_eq (component level message time : Text) (x : Extra) (name : Text) :
    (Event.mk component level message time x.fields).field? name =
      (x.fields.lookup name).or
        (List.lookup name ([("component", .text component), ("level", .text level),
          ("message", .text message), (timeField, .text time)] : List (Text × Value))) :=
  lookup_putFields x.distinct _ name

theorem carries_dated (component level message time : Text) (x : Extra) :
    ((Note.mk component level message x.fields).dated time).Carries
      ⟨component, level, message, x.fields⟩ := by
  have hfield (name : Text) := field?_eq component level message time x name
  have hnone {name : Text} (h : ∀ f ∈ x.fields, f.1 ≠ name) : x.fields.lookup name = none :=
    List.lookup_eq_none_iff.2 fun f hf => bne_iff_ne.2 (h f hf).symm
  constructor
  case dated => rfl
  case component => exact (hfield _).trans (by rw [x.lookup_given (by decide)]; rfl)
  case level => exact (hfield _).trans (by rw [x.lookup_given (by decide)]; rfl)
  case message => exact (hfield _).trans (by rw [x.lookup_given (by decide)]; rfl)
  case extra => exact fun f hf => (hfield _).trans (by rw [x.lookup_of_mem hf]; rfl)
  case time => exact fun h => (hfield _).trans (by rw [hnone h]; rfl)
  case others =>
    intro name hgiven htime hextra
    have hne {other : Text} (h : name ≠ other) : (name == other) = false :=
      beq_eq_false_iff_ne.2 h
    simp only [givenNames, List.mem_cons, List.not_mem_nil, or_false, not_or] at hgiven
    refine (hfield name).trans ?_
    rw [hnone hextra]
    simp only [List.lookup_cons, List.lookup_nil, hne hgiven.1, hne hgiven.2.1, hne hgiven.2.2,
      hne htime, Option.none_or]

end Event

/-! ### Searching -/

/-- The event was noted with the component and the message, as far as they are asked for. -/
def Event.fits (component message : Option Text) (e : Event) : Bool :=
  component.all (· == e.component) && message.all (· == e.message)

theorem Event.shows_eq {e : Event} {name text : Text}
    (h : e.field? name = some (.text text)) (wanted : Option Text) :
    e.shows name wanted = .ok (wanted.all (· == text)) := by
  cases wanted with
  | none => rfl
  | some w =>
    have hsame : (some text == some w) = (w == text) := by
      rw [Option.some_beq_some, BEq.comm]
    simp only [Event.shows, h, Value.text?_text, hsame, Option.all_some]

/-- An event is found by the component and the message that it was noted with. -/
theorem Event.Carries.meets_eq {e : Event} {n : Note} (h : e.Carries n)
    (component message : Option Text) :
    e.meets component message = .ok (e.fits component message) := by
  have hc : e.component = n.component := congrArg Event.component h.dated
  have hm : e.message = n.message := congrArg Event.message h.dated
  rw [Event.meets, Event.shows_eq h.component, Event.shows_eq h.message, Event.fits, hc, hm]
  cases component.all (· == n.component) <;> rfl

namespace EventLog

/-! ### Calls -/

inductive Call
  | log (component level message : Text) (extra : Extra)
  | warn (component message : Text)
  /-- A search for events with a component and a message, as far as they are given. -/
  | find (component message : Option Text)

/-- What a call gives back, which is nothing unless it is a search, and the log behind it. -/
def perform (l : EventLog) : Call → Except MissingField (Option (List Event) × EventLog)
  | .log component level message extra => .ok (none, l.log component level message extra.fields)
  | .warn component message => .ok (none, l.warn component message)
  | .find component message => (l.find component message).map fun found => (some found, l)

/-- What calls give back one after the other, and the log behind them. -/
def run (l : EventLog) : List Call → Except MissingField (List (Option (List Event)) × EventLog)
  | [] => .ok ([], l)
  | call :: calls => do
    let (answer, l) ← l.perform call
    let (answers, l) ← l.run calls
    return (answer :: answers, l)

/-- What a call notes, if it logs an event. -/
def Call.note? : Call → Option Note
  | .log component level message extra => some ⟨component, level, message, extra.fields⟩
  | _ => none

/-- The warning that a call gives, if it gives one, with its component. -/
def Call.warning? : Call → Option (Text × Text)
  | .warn component message => some (component, message)
  | _ => none

/-- Warnings by component: each component once, in the order of their first warnings, and with
it all its messages in their order. -/
def grouped (ws : List (Text × Text)) : List (Text × List Text) :=
  (ws.map Prod.fst).eraseDups.map fun c => (c, (ws.filter (·.1 == c)).map Prod.snd)

/-! ### Warnings by component -/

theorem eraseDups_concat (cs : List Text) (c : Text) :
    (cs ++ [c]).eraseDups = cs.eraseDups ++ if c ∈ cs then [] else [c] := by
  rw [List.eraseDups_append]
  by_cases h : c ∈ cs
  · simp [List.removeAll, h]
  · simp [List.removeAll, h, List.eraseDups_cons]

theorem nodup_eraseDups (cs : List Text) : cs.eraseDups.Nodup := by
  induction cs using List.reverseRecOn with
  | nil => exact List.nodup_nil
  | append_singleton cs c ih =>
    rw [eraseDups_concat]
    by_cases h : c ∈ cs
    · simpa [h] using ih
    · have hnew : ∀ d ∈ cs, d ≠ c := fun d hd e => h (e ▸ hd)
      simpa [h, List.nodup_append, ih] using hnew

/-- A warning of a component that has warned before joins those of the component. -/
theorem addWarning_of_mem {names : List Text} {component : Text} (h : component ∈ names)
    (hd : names.Nodup) (own : Text → List Text) (message : Text) :
    addWarning (names.map fun c => (c, own c)) component message =
      names.map fun c => (c, own c ++ if c = component then [message] else []) := by
  induction names with
  | nil => cases h
  | cons c names ih =>
    obtain ⟨hnew, hd⟩ := List.nodup_cons.1 hd
    by_cases hc : c = component
    · have hrest : ∀ d ∈ names, own d = own d ++ if d = component then [message] else [] := by
        intro d hd
        have hne : d ≠ component := fun e => hnew (hc.trans e.symm ▸ hd)
        rw [if_neg hne, List.append_nil]
      simp only [List.map_cons, addWarning, hc, if_true]
      exact congrArg _ (List.map_congr_left fun d hd => congrArg _ (hrest d hd))
    · have hmem : component ∈ names := (List.mem_cons.1 h).resolve_left (Ne.symm hc)
      simp only [List.map_cons, addWarning, hc, if_false, List.append_nil, ih hmem hd]

theorem addWarning_of_notMem {names : List Text} {component : Text} (h : component ∉ names)
    (own : Text → List Text) (message : Text) :
    addWarning (names.map fun c => (c, own c)) component message =
      (names.map fun c => (c, own c)) ++ [(component, [message])] := by
  induction names with
  | nil => rfl
  | cons c names ih =>
    obtain ⟨hc, hrest⟩ := not_or.1 (mt List.mem_cons.2 h)
    simp only [List.map_cons, addWarning, Ne.symm hc, if_false, ih hrest, List.cons_append]

/-- One more warning among those by component. -/
theorem addWarning_grouped (ws : List (Text × Text)) (component message : Text) :
    addWarning (grouped ws) component message = grouped (ws ++ [(component, message)]) := by
  have hown (c : Text) : ((ws ++ [(component, message)]).filter (·.1 == c)).map Prod.snd =
      (ws.filter (·.1 == c)).map Prod.snd ++ if c = component then [message] else [] := by
    by_cases h : c = component
    · simp [h]
    · simp [h, Ne.symm h]
  have hnames : ((ws ++ [(component, message)]).map Prod.fst).eraseDups =
      (ws.map Prod.fst).eraseDups ++ if component ∈ ws.map Prod.fst then [] else [component] := by
    rw [List.map_append, List.map_singleton, eraseDups_concat]
  simp only [grouped, hown, hnames]
  by_cases h : component ∈ ws.map Prod.fst
  · rw [addWarning_of_mem (List.mem_eraseDups.2 h) (nodup_eraseDups _), if_pos h, List.append_nil]
  · have hnone : ws.filter (·.1 == component) = [] := by
      rw [List.filter_eq_nil_iff]
      exact fun w hw e => h (eq_of_beq e ▸ List.mem_map_of_mem hw)
    have hrest : ∀ c ∈ (ws.map Prod.fst).eraseDups,
        (ws.filter (·.1 == c)).map Prod.snd =
          (ws.filter (·.1 == c)).map Prod.snd ++ if c = component then [message] else [] := by
      intro c hc
      have hne : c ≠ component := fun e => h (e ▸ List.mem_eraseDups.1 hc)
      rw [if_neg hne, List.append_nil]
    rw [addWarning_of_notMem (mt List.mem_eraseDups.1 h), if_neg h, List.map_append,
      List.map_congr_left fun c hc => congrArg (Prod.mk c) (hrest c hc)]
    simp [hnone]

/-! ### Runs -/

/-- A log on which certain calls were made. -/
structure Records (clock : Nat → Text) (calls : List Call) (l : EventLog) : Prop where
  timed : l.clock = clock
  events : l.events = entered clock 0 (calls.filterMap Call.note?)
  warnings : l.warnings = grouped (calls.filterMap Call.warning?)

/-- What one call does to a log, and what it gives back. -/
inductive Turn (l : EventLog) : Call → Option (List Event) → EventLog → Prop
  | log {l' : EventLog} (component level message : Text) (extra : Extra) (event : Event)
      (carries : event.Carries ⟨component, level, message, extra.fields⟩)
      (events : l'.events = l.events ++ [event]) (warnings : l'.warnings = l.warnings) :
      Turn l (.log component level message extra) none l'
  | warn {l' : EventLog} (component message : Text) (events : l'.events = l.events)
      (warnings : l'.warnings = addWarning l.warnings component message) :
      Turn l (.warn component message) none l'
  | find (component message : Option Text) :
      Turn l (.find component message) (some (l.events.filter (Event.fits component message))) l

theorem records_empty (clock : Nat → Text) : Records clock [] (empty clock) :=
  ⟨rfl, rfl, rfl⟩

/-- What a call notes is shown by the event that is entered for it. -/
theorem Call.carries_of_note? {call : Call} {n : Note} (h : call.note? = some n) (time : Text) :
    (n.dated time).Carries n := by
  cases call with
  | log component level message extra =>
    cases h
    exact Event.carries_dated component level message time extra
  | warn => cases h
  | find => cases h

/-- What calls note is shown by the events that are entered for it. -/
theorem carries_of_mem {calls : List Call} {n : Note} (h : n ∈ calls.filterMap Call.note?)
    (time : Text) : (n.dated time).Carries n := by
  obtain ⟨call, -, hnote⟩ := List.mem_filterMap.1 h
  exact Call.carries_of_note? hnote time

theorem entered_carry (clock : Nat → Text) (start : Nat) {ns : List Note}
    (h : ∀ n ∈ ns, ∀ time, (n.dated time).Carries n) :
    List.Forall₂ Event.Carries (entered clock start ns) ns := by
  induction ns generalizing start with
  | nil => exact .nil
  | cons n ns ih =>
    obtain ⟨hn, hns⟩ := List.forall_mem_cons.1 h
    exact .cons (hn _) (ih (start + 1) hns)

namespace Records
variable {clock : Nat → Text} {calls : List Call} {l : EventLog}

theorem carry (h : Records clock calls l) :
    List.Forall₂ Event.Carries l.events (calls.filterMap Call.note?) :=
  h.events ▸ entered_carry clock 0 fun _ hn => carries_of_mem hn

/-- A search finds the events that fit, and it does not fail. -/
theorem find_eq (h : Records clock calls l) (component message : Option Text) :
    l.find component message = .ok (l.events.filter (Event.fits component message)) := by
  refine filterM_eq_ok fun e he => ?_
  obtain ⟨n, hn, time, rfl⟩ := mem_entered (h.events ▸ he)
  exact (carries_of_mem hn time).meets_eq component message

/-- One more call. -/
theorem perform (h : Records clock calls l) (call : Call) :
    ∃ answer l', l.perform call = .ok (answer, l') ∧ Turn l call answer l' ∧
      Records clock (calls ++ [call]) l' := by
  obtain ⟨htimed, hevents, hwarnings⟩ := h
  cases call with
  | log component level message extra =>
    refine ⟨none, _, rfl, .log component level message extra _
      (Event.carries_dated component level message _ extra) rfl rfl, htimed, ?_, ?_⟩
    · rw [events_log, hevents, htimed, List.filterMap_append, entered_append, length_entered,
        Nat.zero_add]
      rfl
    · rw [warnings_log, hwarnings, List.filterMap_append]
      exact congrArg grouped (List.append_nil _).symm
  | warn component message =>
    refine ⟨none, _, rfl, .warn component message rfl rfl, htimed, ?_, ?_⟩
    · rw [events_warn, hevents, List.filterMap_append]
      exact congrArg (entered clock 0) (List.append_nil _).symm
    · rw [List.filterMap_append]
      show addWarning l.warnings component message = _
      rw [hwarnings, addWarning_grouped]
      rfl
  | find component message =>
    have hfind : l.find component message = _ := find_eq ⟨htimed, hevents, hwarnings⟩ _ _
    refine ⟨_, l, ?_, .find component message, htimed, ?_, ?_⟩
    · rw [EventLog.perform, hfind]
      rfl
    · rw [hevents, List.filterMap_append]
      exact congrArg (entered clock 0) (List.append_nil _).symm
    · rw [hwarnings, List.filterMap_append]
      exact congrArg grouped (List.append_nil _).symm

/-- Earlier events stay where they were. -/
theorem events_prefix {more : List Call} {l' : EventLog} (h : Records clock calls l)
    (h' : Records clock (calls ++ more) l') : l.events <+: l'.events := by
  rw [h.events, h'.events, List.filterMap_append, entered_append]
  exact List.prefix_append _ _

/-- More calls. -/
theorem run (h : Records clock calls l) (more : List Call) :
    ∃ answers l', l.run more = .ok (answers, l') ∧ answers.length = more.length ∧
      Records clock (calls ++ more) l' := by
  induction more generalizing calls l with
  | nil => exact ⟨[], l, rfl, rfl, (List.append_nil calls).symm ▸ h⟩
  | cons call more ih =>
    obtain ⟨answer, l', hcall, -, h'⟩ := h.perform call
    obtain ⟨answers, l'', hmore, hlength, h''⟩ := ih h'
    refine ⟨answer :: answers, l'', ?_, congrArg (· + 1) hlength, ?_⟩
    · rw [EventLog.run, hcall]
      show (l'.run more >>= _) = _
      rw [hmore]
      rfl
    · rwa [List.append_assoc] at h''

end Records

/-- Calls that are made one after the other give back what they give back in two runs. -/
theorem run_append {l l' l'' : EventLog} {a b : List Call} {xs ys : List (Option (List Event))}
    (ha : l.run a = .ok (xs, l')) (hb : l'.run b = .ok (ys, l'')) :
    l.run (a ++ b) = .ok (xs ++ ys, l'') := by
  induction a generalizing l xs with
  | nil =>
    cases ha
    exact hb
  | cons call a ih =>
    obtain ⟨⟨answer, m⟩, hcall, ha⟩ := bind_eq_ok.1 ha
    obtain ⟨⟨answers, m'⟩, hrest, ha⟩ := bind_eq_ok.1 ha
    cases ha
    rw [List.cons_append, run, hcall]
    show (m.run (a ++ b) >>= _) = _
    rw [ih hrest]
    rfl

/-- **A log holds what was noted, whatever else is called.** A run of calls on a new log does not
fail. Its events are those that were noted, in their order, each with what it was noted with, and
its warnings are those that were given, by component. Each call on the way answers from the log
that the calls before it have left: only logging adds an event and only a warning changes the
warnings, a search finds the events so far that fit, and the events so far stay to the end. -/
theorem run_records (clock : Nat → Text) (calls : List Call) :
    ∃ answers l, (empty clock).run calls = .ok (answers, l) ∧ answers.length = calls.length ∧
      l.events = entered clock 0 (calls.filterMap Call.note?) ∧
      List.Forall₂ Event.Carries l.events (calls.filterMap Call.note?) ∧
      l.warnings = grouped (calls.filterMap Call.warning?) ∧
      ∀ before call after, calls = before ++ call :: after →
        ∃ earlier m answer m', (empty clock).run before = .ok (earlier, m) ∧
          m.perform call = .ok (answer, m') ∧ answers[before.length]? = some answer ∧
          Turn m call answer m' ∧ m.events <+: m'.events ∧ m'.events <+: l.events := by
  obtain ⟨answers, l, hrun, hlength, hrecords⟩ := (records_empty clock).run calls
  refine ⟨answers, l, hrun, hlength, hrecords.events, hrecords.carry, hrecords.warnings, ?_⟩
  rintro before call after rfl
  obtain ⟨earlier, m, hbefore, hcount, hm⟩ := (records_empty clock).run before
  obtain ⟨answer, m', hcall, hturn, hm'⟩ := hm.perform call
  obtain ⟨later, l', hafter, -, hl'⟩ := hm'.run after
  have hrest : m.run (call :: after) = .ok (answer :: later, l') := by
    rw [run, hcall]
    show (m'.run after >>= _) = _
    rw [hafter]
    rfl
  obtain ⟨rfl, rfl⟩ := Prod.mk.inj (Except.ok.inj (hrun.symm.trans (run_append hbefore hrest)))
  have hanswer : (earlier ++ answer :: later)[before.length]? = some answer := by
    rw [← hcount, List.getElem?_append_right (Nat.le_refl _), Nat.sub_self]
    rfl
  exact ⟨earlier, m, answer, m', hbefore, hcall, hanswer, hturn, hm.events_prefix hm',
    hm'.events_prefix hl'⟩

end EventLog
end MigrationSetup
