import Mathlib.Data.List.Forall2
import MigrationSetup.Proofs.Probing

/-! What a decision records.

Of the events that a decision adds to a log some record answered questions, one for each
location that was asked for and in the same order, and the others state the decision
(`Accounts`). `validate_accounts` says how many these are: one, which comes last and is told by
the outcome (`States`), unless a location was found. Then the answer that found it comes last and
nothing else states the decision. -/
namespace MigrationSetup.Probing

/-! ### Completed decisions -/

/-- Without a checker a decision that completes is the one with any checker, as nothing is
asked. -/
theorem validate_of_none {config : Config} {check : Value} {p after : Probing}
    {outcome : Outcome} (h : validate config none check p = (.ok outcome, after))
    (checker : Checker) : validate config (some checker) check p = (.ok outcome, after) := by
  cases hc : check.isTrue with
  | false => rwa [validate_unchecked check p _ hc] at h ⊢
  | true =>
    by_cases hp : config.packages = []
    · by_cases hl : config.locations = []
      · rwa [validate_empty check p _ hc hp hl] at h ⊢
      · have hplaces : config.hasPlaces = true := by
          simp [Config.hasPlaces, hl]
        simp [validate, hc, hplaces, hp] at h
    · rwa [validate_packages check p _ hc hp] at h ⊢

/-- With a checker that answers every question every decision completes, unless no warning can
be given of a location. -/
theorem validate_completes {checker : Checker} (h : ∀ asked l, ∃ a, checker asked l = .ok a)
    (config : Config) (check : Value) (p : Probing) :
    (∃ outcome after, validate config (some checker) check p = (.ok outcome, after)) ∨
      ∃ l ∈ config.locations, l.hasLong = true ∧
        (validate config (some checker) check p).1 = .error (.setting .longNumber) := by
  have hexit := validate_exit config checker check p
  generalize validate config (some checker) check p = r at hexit ⊢
  cases hexit with
  | unchecked => exact .inl ⟨_, _, rfl⟩
  | empty => exact .inl ⟨_, _, rfl⟩
  | packages => exact .inl ⟨_, _, rfl⟩
  | found => exact .inl ⟨_, _, rfl⟩
  | missed => exact .inl ⟨_, _, rfl⟩
  | @failed before l e _ _ hfailed =>
    obtain ⟨a, ha⟩ := h (p.asked ++ before) l
    cases ha.symm.trans hfailed.failed
  | unnamed _ _ hunnamed => exact .inr ⟨_, hunnamed.mem, hunnamed.long, rfl⟩

/-! ### Questions and decisions among events -/

/-- Whether the event records an answered question. -/
def isAnswer (e : Event) : Bool := e.message == Text.ofString "location checked"

/-- The outcome is due to a location that exists. -/
structure Located (config : Config) (check : Value) (outcome : Outcome) : Prop where
  checked : check.isTrue = true
  noPackages : config.packages = []
  valid : outcome.isValid = true

/-- The note that states a decision with an outcome. -/
inductive States (config : Config) (check : Value) : Outcome → Note → Prop
  | unchecked (off : check.isTrue = false) :
      States config check (.valid config) (decided "location check disabled" [])
  | noTargets (on : check.isTrue = true) (packages : config.packages = [])
      (locations : config.locations = []) :
      States config check (.invalid Finding.noTargets.message (some config))
        (finding .noTargets [])
  | packages (on : check.isTrue = true) (packages : config.packages ≠ []) :
      States config check (.valid config)
        (decided "packages configured, locations not checked"
          [(Setting.packages.name, .list config.packages)])
  | noneExists (on : check.isTrue = true) (packages : config.packages = [])
      (locations : config.locations ≠ []) :
      States config check (.invalid Finding.noneExists.message (some config))
        (finding .noneExists [("checked_locations", .list config.locations)])

/-- What a decision that asked for these locations adds to a log. -/
structure Accounts (config : Config) (check : Value) (outcome : Outcome) (asked : List Value)
    (new : List Event) : Prop where
  /-- As many events record answers as questions were asked. -/
  count : (new.filter isAnswer).length = asked.length
  /-- They record the questions in their order. -/
  answers : List.Forall₂ (fun e l => ∃ found time, e = (answered found l).dated time)
    (new.filter isAnswer) asked
  /-- One more event states the decision, and it is the last one. -/
  decision : ¬Located config check outcome → ∃ note time, States config check outcome note ∧
    new.filter (!isAnswer ·) = [note.dated time] ∧ new.getLast? = some (note.dated time)
  /-- Where a location was found nothing follows the answer that found it. -/
  found : Located config check outcome → new.filter (!isAnswer ·) = [] ∧
    ∃ l time, asked.getLast? = some l ∧ new.getLast? = some ((answered true l).dated time)

theorem not_located_invalid {config : Config} {check : Value} {reason : Text}
    {c : Option Config} : ¬Located config check (.invalid reason c) := fun h => by
  cases h.valid

theorem isAnswer_answered (found : Bool) (l : Value) (time : Text) :
    isAnswer ((answered found l).dated time) = true := rfl

theorem States.isAnswer {config : Config} {check : Value} {outcome : Outcome} {n : Note}
    (h : States config check outcome n) (time : Text) : isAnswer (n.dated time) = false := by
  have hother {message : String} (h : message ≠ "location checked") :
      (Text.ofString message == Text.ofString "location checked") = false :=
    beq_eq_false_iff_ne.2 (mt Text.ofString_inj.1 h)
  have hfinding (f : Finding) : f.message ≠ "location checked" := by
    cases f <;> decide
  cases h with
  | unchecked => exact hother (by decide)
  | noTargets => exact hother (hfinding .noTargets)
  | packages => exact hother (by decide)
  | noneExists => exact hother (hfinding .noneExists)

/-! ### Events for notes -/

/-- The events of answers are all such, one for each location. -/
theorem entered_answers (clock : Nat → Text) (start : Nat) {notes : List Note}
    {asked : List Value} (h : List.Forall₂ (fun n l => ∃ found, n = answered found l) notes asked) :
    (EventLog.entered clock start notes).filter isAnswer = EventLog.entered clock start notes ∧
      (EventLog.entered clock start notes).filter (!isAnswer ·) = [] ∧
      List.Forall₂ (fun e l => ∃ found time, e = (answered found l).dated time)
        (EventLog.entered clock start notes) asked := by
  induction h generalizing start with
  | nil => exact ⟨rfl, rfl, .nil⟩
  | @cons n l _ _ hn _ ih =>
    obtain ⟨found, rfl⟩ := hn
    obtain ⟨hkept, hnone, hrest⟩ := ih (start + 1)
    have hanswer := isAnswer_answered found l (clock start)
    refine ⟨?_, ?_, .cons ⟨found, _, rfl⟩ hrest⟩
    · rw [EventLog.entered, List.filter_cons_of_pos hanswer, hkept]
    · rw [EventLog.entered, List.filter_cons_of_neg (by simp [hanswer]), hnone]

theorem answers_missed (ls : List Value) :
    List.Forall₂ (fun n l => ∃ found, n = answered found l) (ls.map (answered false)) ls :=
  List.forall₂_map_left_iff.2 (List.forall₂_same.2 fun _ _ => ⟨false, rfl⟩)

variable {config : Config} {check : Value} {outcome : Outcome} {asked : List Value}

/-- Answers and then a note that states the decision. -/
theorem accounts_stated (clock : Nat → Text) (start : Nat) {notes : List Note} {note : Note}
    (h : List.Forall₂ (fun n l => ∃ found, n = answered found l) notes asked)
    (hnote : States config check outcome note) (hnot : ¬Located config check outcome) :
    Accounts config check outcome asked (EventLog.entered clock start (notes ++ [note])) := by
  obtain ⟨hkept, hnone, hanswers⟩ := entered_answers clock start h
  have hstated := hnote.isAnswer (clock (start + notes.length))
  have hsplit : EventLog.entered clock start (notes ++ [note]) =
      EventLog.entered clock start notes ++ [note.dated (clock (start + notes.length))] :=
    EventLog.entered_append clock start notes [note]
  have hfilter : (EventLog.entered clock start (notes ++ [note])).filter isAnswer =
      EventLog.entered clock start notes := by
    rw [hsplit, List.filter_append, hkept, List.filter_cons_of_neg (by simp [hstated]),
      List.filter_nil, List.append_nil]
  refine ⟨?_, hfilter ▸ hanswers, fun _ => ⟨note, clock (start + notes.length), hnote, ?_, ?_⟩,
    fun h => absurd h hnot⟩
  · rw [hfilter, hanswers.length_eq]
  · rw [hsplit, List.filter_append, hnone, List.filter_cons_of_pos (by simp [hstated])]
    rfl
  · rw [hsplit, List.getLast?_concat]

/-- Answers, of which the last one found a location. -/
theorem accounts_found (clock : Nat → Text) (start : Nat) (before : List Value) (l : Value)
    (hfound : Located config check outcome) :
    Accounts config check outcome (before ++ [l])
      (EventLog.entered clock start (before.map (answered false) ++ [answered true l])) := by
  have h : List.Forall₂ (fun n l => ∃ found, n = answered found l)
      (before.map (answered false) ++ [answered true l]) (before ++ [l]) :=
    List.rel_append (answers_missed before) (.cons ⟨true, rfl⟩ .nil)
  obtain ⟨hkept, hnone, hanswers⟩ := entered_answers clock start h
  refine ⟨?_, ?_, fun hnot => absurd hfound hnot,
    fun _ => ⟨hnone, l, clock (start + (before.map (answered false)).length), ?_, ?_⟩⟩
  · rw [hkept, hanswers.length_eq]
  · rwa [hkept]
  · rw [List.getLast?_concat]
  · rw [EventLog.entered_append]
    exact List.getLast?_concat

/-- **Every question is recorded once, and so is every decision but that a location was found.**
A decision with a checker that answers every question completes, unless no warning can be given
of a location, as it holds too long a number. Of the events that a completed decision adds
behind any earlier ones as many record answers as locations were asked for, in the same order,
and exactly one more states the decision, unless a location was found: then the last event is
the answer that found it, and there is no other. -/
theorem validate_accounts (config : Config) (checker : Option Checker) (check : Value)
    (p : Probing) :
    (∀ c, checker = some c → (∀ asked l, ∃ a, c asked l = .ok a) →
      (∃ outcome after, validate config checker check p = (.ok outcome, after)) ∨
        ∃ l ∈ config.locations, l.hasLong = true ∧
          (validate config checker check p).1 = .error (.setting .longNumber)) ∧
    ∀ outcome after, validate config checker check p = (.ok outcome, after) →
      ∃ asked new, after.asked = p.asked ++ asked ∧ after.log.events = p.log.events ++ new ∧
        Accounts config check outcome asked new := by
  refine ⟨fun c hc h => hc ▸ validate_completes h config check p, fun outcome after h => ?_⟩
  -- With nobody to ask the decision is that with anybody, who is not asked.
  obtain ⟨c, hsome⟩ : ∃ c, validate config (some c) check p = (.ok outcome, after) := by
    cases checker with
    | none => exact ⟨fun _ _ => .ok .null, validate_of_none h _⟩
    | some c => exact ⟨c, h⟩
  have hexit := validate_exit config c check p
  rw [hsome] at hexit
  have hnil : p.asked = p.asked ++ [] := (List.append_nil _).symm
  cases hexit with
  | unchecked hc =>
    have hnot (hl : Located config check (.valid config)) : False := by
      cases hc.symm.trans hl.checked
    exact ⟨[], _, hnil, (EventLog.Grows.log p.log (decided _ []) component).events,
      accounts_stated _ _ .nil (.unchecked hc) hnot⟩
  | empty hc hp hl =>
    exact ⟨[], _, hnil, (EventLog.Grows.log p.log (finding .noTargets []) component).events,
      accounts_stated _ _ .nil (.noTargets hc hp hl) not_located_invalid⟩
  | packages hc hp =>
    have hnot (hl : Located config check (.valid config)) : False := hp hl.noPackages
    exact ⟨[], _, hnil, (EventLog.Grows.log p.log (decided _ [_]) component).events,
      accounts_stated _ _ .nil (.packages hc hp) hnot⟩
  | @found before l hc hp hfirst =>
    have hgrows := (missAll_grows p before).trans (.log _ (answered true l) component)
    exact ⟨before ++ [l], _, List.append_assoc _ _ _, hgrows.events,
      accounts_found _ _ before l ⟨hc, hp, rfl⟩⟩
  | missed hc hp hl hmissed =>
    have hgrows := (missAll_grows p config.locations).trans
      (.log _ (finding .noneExists [("checked_locations", .list config.locations)]) component)
    exact ⟨config.locations, _, rfl, hgrows.events,
      accounts_stated _ _ (answers_missed _) (.noneExists hc hp hl) not_located_invalid⟩

/-- Of two locations the second exists: two events record the two answers, and no third one
follows. -/
theorem validate_accounts_second :
    let config : Config := ⟨[], [.text "file:a", .text "file:b"], .perMigration, .null,
      .text "deploy"⟩
    let checker : Checker := fun asked _ => .ok (.int asked.length)
    let p : Probing := ⟨[],
      (EventLog.empty fun n => toString n).log "prepare" "INFO" "config resolved" []⟩
    (∀ asked l, ∃ a, checker asked l = .ok a) ∧
      ∃ outcome after asked new,
        validate config (some checker) (.bool true) p = (.ok outcome, after) ∧
          Accounts config (.bool true) outcome asked new ∧
          Located config (.bool true) outcome ∧ asked = config.locations ∧
          after.log.events = p.log.events ++ new ∧ new.length = 2 := by
  intro config checker p
  have hanswers : ∀ asked l, ∃ a, checker asked l = .ok a := fun asked _ => ⟨.int asked.length, rfl⟩
  obtain ⟨hcompletes, haccounts⟩ := validate_accounts config (some checker) (.bool true) p
  obtain ⟨outcome, after, h⟩ := (hcompletes checker rfl hanswers).resolve_right fun h => by
    obtain ⟨-, -, -, hfails⟩ := h
    cases hfails
  obtain ⟨asked, new, hasked, hevents, hnew⟩ := haccounts outcome after h
  obtain ⟨houtcome, rfl⟩ := Prod.mk.inj h
  obtain rfl := Except.ok.inj houtcome
  have hlength : 3 = 1 + new.length := congrArg List.length hevents |>.trans (List.length_append)
  exact ⟨hanswers, .valid config, _, asked, new, h, hnew, ⟨rfl, rfl, rfl⟩, hasked.symm, hevents,
    by omega⟩

end MigrationSetup.Probing
