import MigrationSetup.Proofs.EventLog
import MigrationSetup.Validation

/-! How locations are asked for.

A checker may answer with anything, may remember what it was asked before, and may fail,
so its answers are followed question by question. Asking goes through the locations in
their order, past every one that is answered no and of which a warning can be given
(`Missed`), and ends in one of four ways: at the first that is answered yes (`FirstFound`), at
the first question that fails (`FirstFailed`), at the first that is answered no and cannot be
written out (`FirstUnnamed`), which is no text, or behind the last location.
`validate_asks_until_found` says for each of them what the decision is, which questions were
asked, and what the log gained. -/
namespace MigrationSetup.Probing

/-! ### Answers along the way -/

/-- The location is answered no, asked for behind `asked`. -/
def Absent (checker : Checker) (asked : List Value) (l : Value) : Prop :=
  ∃ a, checker asked l = .ok a ∧ a.isTrue = false

/-- Every one of `ls` is answered no, asked for behind `asked` and those before it, and can be
written out. -/
def Missed (checker : Checker) (asked ls : List Value) : Prop :=
  ∀ before l after, ls = before ++ l :: after →
    Absent checker (asked ++ before) l ∧ l.hasLong = false

/-- Of `ls`, those in `before` are answered no and `l`, which is next, is answered yes. -/
structure FirstFound (checker : Checker) (asked ls before : List Value) (l : Value) : Prop where
  split : ∃ after, ls = before ++ l :: after
  missed : Missed checker asked before
  found : ∃ a, checker (asked ++ before) l = .ok a ∧ a.isTrue = true

/-- Of `ls`, those in `before` are answered no and the question about `l`, which is next,
fails. -/
structure FirstFailed (checker : Checker) (asked ls before : List Value) (l : Value)
    (e : Failure) : Prop where
  split : ∃ after, ls = before ++ l :: after
  missed : Missed checker asked before
  failed : checker (asked ++ before) l = .error e

/-- Of `ls`, those in `before` are answered no and can be written out. `l`, which is next, is
answered no and cannot. -/
structure FirstUnnamed (checker : Checker) (asked ls before : List Value) (l : Value) : Prop where
  split : ∃ after, ls = before ++ l :: after
  missed : Missed checker asked before
  absent : Absent checker (asked ++ before) l
  long : l.hasLong = true

section Split
variable {checker : Checker} {asked ls before : List Value} {l : Value}

theorem FirstFound.ne_nil (h : FirstFound checker asked ls before l) : ls ≠ [] := by
  obtain ⟨after, rfl⟩ := h.split
  simp

theorem FirstFailed.ne_nil {e : Failure} (h : FirstFailed checker asked ls before l e) :
    ls ≠ [] := by
  obtain ⟨after, rfl⟩ := h.split
  simp

theorem FirstUnnamed.mem (h : FirstUnnamed checker asked ls before l) : l ∈ ls := by
  obtain ⟨after, rfl⟩ := h.split
  simp

/-- Only what is no text cannot be written out. -/
theorem FirstUnnamed.not_isText (h : FirstUnnamed checker asked ls before l) :
    l.isText = false := by
  cases ht : l.isText with
  | false => rfl
  | true => exact absurd (Value.hasLong_of_isText ht ▸ h.long) (by decide)

end Split

theorem missed_nil (checker : Checker) (asked : List Value) : Missed checker asked [] := by
  intro before l after h
  simp at h

theorem missed_cons {checker : Checker} {asked ls : List Value} {l : Value} :
    Missed checker asked (l :: ls) ↔
      (Absent checker asked l ∧ l.hasLong = false) ∧ Missed checker (asked ++ [l]) ls := by
  constructor
  · intro h
    refine ⟨by simpa using h [] l ls rfl, fun before m after hs => ?_⟩
    simpa [List.append_assoc] using h (l :: before) m after (by rw [hs]; rfl)
  · rintro ⟨hl, h⟩ before m after hs
    cases before with
    | nil =>
      obtain ⟨rfl, -⟩ := List.cons.inj hs
      simpa using hl
    | cons b before =>
      obtain ⟨rfl, hrest⟩ := List.cons.inj hs
      simpa [List.append_assoc] using h before m after hrest

/-- How asking for `ls` ends: at a location that exists, at a question that fails, at a location
that cannot be written out, or nowhere. -/
inductive Asked (checker : Checker) (asked ls : List Value) : Prop
  | found (before : List Value) (l : Value) (h : FirstFound checker asked ls before l)
  | failed (before : List Value) (l : Value) (e : Failure)
    (h : FirstFailed checker asked ls before l e)
  | unnamed (before : List Value) (l : Value) (h : FirstUnnamed checker asked ls before l)
  | missed (h : Missed checker asked ls)

theorem asked_ends (checker : Checker) (asked ls : List Value) : Asked checker asked ls := by
  induction ls generalizing asked with
  | nil => exact .missed (missed_nil checker asked)
  | cons l ls ih =>
    cases ha : checker asked l with
    | error e =>
      exact .failed [] l e ⟨⟨ls, rfl⟩, missed_nil checker asked, by simpa using ha⟩
    | ok a =>
      cases ht : a.isTrue with
      | true =>
        exact .found [] l ⟨⟨ls, rfl⟩, missed_nil checker asked, a, by simpa using ha, ht⟩
      | false =>
        have habsent : Absent checker asked l := ⟨a, ha, ht⟩
        cases hlong : l.hasLong with
        | true =>
          exact .unnamed [] l
            ⟨⟨ls, rfl⟩, missed_nil checker asked, by simpa using habsent, hlong⟩
        | false =>
          have hmissed {before : List Value} (h : Missed checker (asked ++ [l]) before) :
              Missed checker asked (l :: before) := missed_cons.2 ⟨⟨habsent, hlong⟩, h⟩
          cases ih (asked ++ [l]) with
          | found before m h =>
            obtain ⟨⟨after, hs⟩, hm, hf⟩ := h
            exact .found (l :: before) m
              ⟨⟨after, by rw [hs]; rfl⟩, hmissed hm, by simpa [List.append_assoc] using hf⟩
          | failed before m e h =>
            obtain ⟨⟨after, hs⟩, hm, hf⟩ := h
            exact .failed (l :: before) m e
              ⟨⟨after, by rw [hs]; rfl⟩, hmissed hm, by simpa [List.append_assoc] using hf⟩
          | unnamed before m h =>
            obtain ⟨⟨after, hs⟩, hm, hf, hl⟩ := h
            exact .unnamed (l :: before) m
              ⟨⟨after, by rw [hs]; rfl⟩, hmissed hm, by simpa [List.append_assoc] using hf, hl⟩
          | missed h => exact .missed (hmissed h)

/-! ### What is recorded -/

/-- The note of an answered question. -/
def answered (found : Bool) (l : Value) : Note :=
  ⟨component, "DEBUG", "location checked", [("location", l), ("exists", .bool found)]⟩

/-- The warning that a location does not exist. -/
def missing (l : Value) : Text := "location does not exist: " ++ l.spelled

/-- The note of a finding. -/
def finding (f : Finding) (extra : List (Text × Value)) : Note :=
  ⟨component, "ERROR", f.message, extra⟩

/-- The note of a decision that stops nothing. -/
def decided (message : Text) (extra : List (Text × Value)) : Note :=
  ⟨component, "INFO", message, extra⟩

/-- The probing behind a question that was answered no. -/
def miss (p : Probing) (l : Value) : Probing :=
  ⟨p.asked ++ [l], (recordAnswer p.log l false).warn component (missing l)⟩

theorem miss_grows (p : Probing) (l : Value) :
    p.log.Grows (p.miss l).log [answered false l] component [missing l] :=
  (EventLog.Grows.log p.log (answered false l) component).trans
    (EventLog.Grows.warn _ component (missing l))

/-- The probing behind questions that were all answered no. -/
def missAll (p : Probing) (ls : List Value) : Probing := ls.foldl miss p

theorem asked_missAll (p : Probing) (ls : List Value) :
    (p.missAll ls).asked = p.asked ++ ls := by
  induction ls generalizing p with
  | nil => exact (List.append_nil _).symm
  | cons l ls ih =>
    show ((p.miss l).missAll ls).asked = _
    rw [ih]
    exact List.append_assoc p.asked [l] ls

theorem missAll_grows (p : Probing) (ls : List Value) :
    p.log.Grows (p.missAll ls).log (ls.map (answered false)) component (ls.map missing) := by
  induction ls generalizing p with
  | nil => exact EventLog.Grows.refl p.log component
  | cons l ls ih => exact (miss_grows p l).trans (ih (p.miss l))

/-! ### Searching -/

section Search
variable {checker : Checker} {checked : List Value} {p : Probing} {ls before : List Value}
  {l : Value}

/-- The search goes past what is missed. -/
theorem search_past (rest : List Value) (h : Missed checker p.asked ls) :
    search checker checked p (ls ++ rest) =
      search checker (checked ++ ls) (p.missAll ls) rest := by
  induction ls generalizing checked p with
  | nil => rw [List.nil_append, List.append_nil]; rfl
  | cons l ls ih =>
    obtain ⟨⟨⟨a, ha, ht⟩, hlong⟩, hm⟩ := missed_cons.1 h
    have hstep : search checker checked p (l :: (ls ++ rest)) =
        search checker (checked ++ [l]) (p.miss l) (ls ++ rest) := by
      simp only [search, ha, ht, warnMissing, hlong, Bool.false_eq_true, if_false]
      rfl
    rw [List.cons_append, hstep, ih hm, List.append_assoc]
    rfl

theorem search_missed (h : Missed checker p.asked ls) :
    search checker checked p ls = (.ok (.noneOf (checked ++ ls)), p.missAll ls) := by
  have hpast : search checker checked p (ls ++ []) = _ := search_past [] h
  rwa [List.append_nil] at hpast

theorem search_found (h : FirstFound checker p.asked ls before l) :
    search checker checked p ls = (.ok .one,
      ⟨p.asked ++ before ++ [l], recordAnswer (p.missAll before).log l true⟩) := by
  obtain ⟨⟨after, rfl⟩, hm, a, ha, ht⟩ := h
  rw [search_past _ hm, ← asked_missAll]
  rw [← asked_missAll] at ha
  simp only [search, ha, ht, if_true]

theorem search_failed {e : Failure} (h : FirstFailed checker p.asked ls before l e) :
    search checker checked p ls =
      (.error e, ⟨p.asked ++ before ++ [l], (p.missAll before).log⟩) := by
  obtain ⟨⟨after, rfl⟩, hm, he⟩ := h
  rw [search_past _ hm, ← asked_missAll]
  rw [← asked_missAll] at he
  simp only [search, he]

theorem search_unnamed (h : FirstUnnamed checker p.asked ls before l) :
    search checker checked p ls = (.error (.setting .longNumber),
      ⟨p.asked ++ before ++ [l], recordAnswer (p.missAll before).log l false⟩) := by
  obtain ⟨⟨after, rfl⟩, hm, ⟨a, ha, ht⟩, hlong⟩ := h
  rw [search_past _ hm, ← asked_missAll]
  rw [← asked_missAll] at ha
  simp only [search, ha, ht, warnMissing, hlong, Bool.false_eq_true, if_false, if_true]

end Search

/-! ### The exits of the decision -/

section Exits
variable {config : Config} {checker : Checker} (check : Value) (p : Probing)

theorem validate_unchecked (checker : Option Checker) (hc : check.isTrue = false) :
    validate config checker check p =
      (.ok (.valid config), { p with log := decide p.log "location check disabled" [] }) := by
  simp only [validate, hc, Bool.not_false, if_true]

theorem validate_empty (checker : Option Checker) (hc : check.isTrue = true)
    (hp : config.packages = []) (hl : config.locations = []) :
    validate config checker check p = (.ok (.invalid Finding.noTargets.message (some config)),
      { p with log := find p.log .noTargets [] }) := by
  have hplaces : config.hasPlaces = false := by
    simp [Config.hasPlaces, hp, hl]
  simp only [validate, hc, hplaces, Bool.not_true, Bool.not_false, Bool.false_eq_true, if_false,
    if_true]

theorem validate_packages (checker : Option Checker) (hc : check.isTrue = true)
    (hp : config.packages ≠ []) :
    validate config checker check p = (.ok (.valid config),
      { p with
        log := decide p.log "packages configured, locations not checked"
          [(Setting.packages.name, .list config.packages)] }) := by
  have hplaces : config.hasPlaces = true := by
    simp [Config.hasPlaces, hp]
  have hnone : config.packages.isEmpty = false := by
    simpa using hp
  simp only [validate, hc, hplaces, hnone, Bool.not_true, Bool.not_false, Bool.false_eq_true,
    if_false, if_true]

/-- With locations only, the decision is what the search comes to. -/
theorem validate_eq_search (hp : config.packages = []) (hl : config.locations ≠ [])
    (hc : check.isTrue = true) : validate config (some checker) check p =
      match search checker [] p config.locations with
      | (.error e, p) => (.error e, p)
      | (.ok .one, p) => (.ok (.valid config), p)
      | (.ok (.noneOf checked), p) =>
        (.ok (.invalid Finding.noneExists.message (some config)),
          { p with log := find p.log .noneExists [("checked_locations", .list checked)] }) := by
  have hplaces : config.hasPlaces = true := by
    simp [Config.hasPlaces, hl]
  rw [validate, hc, hplaces, hp]
  rfl

theorem validate_found {before : List Value} {l : Value} (hp : config.packages = [])
    (hl : config.locations ≠ []) (hc : check.isTrue = true)
    (h : FirstFound checker p.asked config.locations before l) :
    validate config (some checker) check p = (.ok (.valid config),
      ⟨p.asked ++ before ++ [l], recordAnswer (p.missAll before).log l true⟩) := by
  rw [validate_eq_search check p hp hl hc, search_found h]

theorem validate_missed (hp : config.packages = []) (hl : config.locations ≠ [])
    (hc : check.isTrue = true) (h : Missed checker p.asked config.locations) :
    validate config (some checker) check p =
      (.ok (.invalid Finding.noneExists.message (some config)),
        ⟨p.asked ++ config.locations, find (p.missAll config.locations).log .noneExists
          [("checked_locations", .list config.locations)]⟩) := by
  rw [validate_eq_search check p hp hl hc, search_missed h, ← asked_missAll, List.nil_append]

theorem validate_failed {before : List Value} {l : Value} {e : Failure}
    (hp : config.packages = []) (hl : config.locations ≠ []) (hc : check.isTrue = true)
    (h : FirstFailed checker p.asked config.locations before l e) :
    validate config (some checker) check p =
      (.error e, ⟨p.asked ++ before ++ [l], (p.missAll before).log⟩) := by
  rw [validate_eq_search check p hp hl hc, search_failed h]

theorem validate_unnamed {before : List Value} {l : Value} (hp : config.packages = [])
    (hl : config.locations ≠ []) (hc : check.isTrue = true)
    (h : FirstUnnamed checker p.asked config.locations before l) :
    validate config (some checker) check p = (.error (.setting .longNumber),
      ⟨p.asked ++ before ++ [l], recordAnswer (p.missAll before).log l false⟩) := by
  rw [validate_eq_search check p hp hl hc, search_unnamed h]

end Exits

/-- The ways in which a decision ends, each with when it does and what it leaves. -/
inductive Exit (config : Config) (checker : Checker) (check : Value) (p : Probing) :
    Except Failure Outcome × Probing → Prop
  | unchecked : check.isTrue = false → Exit config checker check p
      (.ok (.valid config), { p with log := decide p.log "location check disabled" [] })
  | empty : check.isTrue = true → config.packages = [] → config.locations = [] →
      Exit config checker check p
        (.ok (.invalid Finding.noTargets.message (some config)),
          { p with log := find p.log .noTargets [] })
  | packages : check.isTrue = true → config.packages ≠ [] → Exit config checker check p
      (.ok (.valid config),
        { p with
          log := decide p.log "packages configured, locations not checked"
            [(Setting.packages.name, .list config.packages)] })
  | found {before l} : check.isTrue = true → config.packages = [] →
      FirstFound checker p.asked config.locations before l → Exit config checker check p
        (.ok (.valid config),
          ⟨p.asked ++ before ++ [l], recordAnswer (p.missAll before).log l true⟩)
  | missed : check.isTrue = true → config.packages = [] → config.locations ≠ [] →
      Missed checker p.asked config.locations → Exit config checker check p
        (.ok (.invalid Finding.noneExists.message (some config)),
          ⟨p.asked ++ config.locations, find (p.missAll config.locations).log .noneExists
            [("checked_locations", .list config.locations)]⟩)
  | failed {before l e} : check.isTrue = true → config.packages = [] →
      FirstFailed checker p.asked config.locations before l e → Exit config checker check p
        (.error e, ⟨p.asked ++ before ++ [l], (p.missAll before).log⟩)
  | unnamed {before l} : check.isTrue = true → config.packages = [] →
      FirstUnnamed checker p.asked config.locations before l → Exit config checker check p
        (.error (.setting .longNumber),
          ⟨p.asked ++ before ++ [l], recordAnswer (p.missAll before).log l false⟩)

/-- Every decision ends in one of these ways. -/
theorem validate_exit (config : Config) (checker : Checker) (check : Value) (p : Probing) :
    Exit config checker check p (validate config (some checker) check p) := by
  cases hc : check.isTrue with
  | false => exact validate_unchecked check p (some checker) hc ▸ .unchecked hc
  | true =>
    by_cases hp : config.packages = []
    · by_cases hl : config.locations = []
      · exact validate_empty check p (some checker) hc hp hl ▸ .empty hc hp hl
      · cases asked_ends checker p.asked config.locations with
        | found _ _ h => exact validate_found check p hp hl hc h ▸ .found hc hp h
        | failed _ _ _ h => exact validate_failed check p hp hl hc h ▸ .failed hc hp h
        | unnamed _ _ h => exact validate_unnamed check p hp hl hc h ▸ .unnamed hc hp h
        | missed h => exact validate_missed check p hp hl hc h ▸ .missed hc hp hl h
    · exact validate_packages check p (some checker) hc hp ▸ .packages hc hp

/-- A decision adds to the log and takes nothing away. -/
theorem validate_grows (config : Config) (checker : Checker) (check : Value) (p : Probing) :
    ∃ notes warnings, p.log.Grows (validate config (some checker) check p).2.log notes component
      warnings := by
  have h := validate_exit config checker check p
  generalize validate config (some checker) check p = r at h ⊢
  cases h with
  | unchecked => exact ⟨_, _, .log p.log (decided "location check disabled" []) component⟩
  | empty => exact ⟨_, _, .log p.log (finding .noTargets []) component⟩
  | packages => exact ⟨_, _, .log p.log (decided _ [_]) component⟩
  | @found before l =>
    exact ⟨_, _, (missAll_grows p before).trans (.log _ (answered true l) component)⟩
  | missed => exact ⟨_, _, (missAll_grows p _).trans (.log _ (finding .noneExists [_]) component)⟩
  | @failed before => exact ⟨_, _, missAll_grows p before⟩
  | @unnamed before l =>
    exact ⟨_, _, (missAll_grows p before).trans (.log _ (answered false l) component)⟩

/-- **Asking ends at the first location that exists.** With locations only, and unless the
check is off, they are asked for in their order up to the first that is answered yes, to
the first question that fails, or to the last. The log gains one event for each answer,
one warning for each no, and the finding exactly if all answers are no. Where a location is
answered no of which no warning can be given, which no text is, asking ends there with a failure
behind the event of its answer. -/
theorem validate_asks_until_found (config : Config) (checker : Checker) (check : Value)
    (p : Probing) (hp : config.packages = []) (hl : config.locations ≠ [])
    (hc : check.isTrue = true) :
    (∀ before l, FirstFound checker p.asked config.locations before l →
      ∃ after, validate config (some checker) check p = (.ok (.valid config), after) ∧
        after.asked = p.asked ++ before ++ [l] ∧
        p.log.Grows after.log (before.map (answered false) ++ [answered true l]) component
          (before.map missing)) ∧
    (Missed checker p.asked config.locations →
      ∃ after, validate config (some checker) check p =
          (.ok (.invalid Finding.noneExists.message (some config)), after) ∧
        after.asked = p.asked ++ config.locations ∧
        p.log.Grows after.log
          (config.locations.map (answered false) ++
            [finding .noneExists [("checked_locations", .list config.locations)]])
          component (config.locations.map missing)) ∧
    (∀ before l e, FirstFailed checker p.asked config.locations before l e →
      ∃ after, validate config (some checker) check p = (.error e, after) ∧
        after.asked = p.asked ++ before ++ [l] ∧
        p.log.Grows after.log (before.map (answered false)) component (before.map missing)) ∧
    (∀ before l, FirstUnnamed checker p.asked config.locations before l →
      l ∈ config.locations ∧ l.isText = false ∧
      ∃ after, validate config (some checker) check p = (.error (.setting .longNumber), after) ∧
        after.asked = p.asked ++ before ++ [l] ∧
        p.log.Grows after.log (before.map (answered false) ++ [answered false l]) component
          (before.map missing)) ∧
    ((∃ before l, FirstFound checker p.asked config.locations before l) ∨
      (∃ before l e, FirstFailed checker p.asked config.locations before l e) ∨
      (∃ before l, FirstUnnamed checker p.asked config.locations before l) ∨
      Missed checker p.asked config.locations) := by
  have hpast (before : List Value) (l : Value) (found : Bool) :
      p.log.Grows (recordAnswer (p.missAll before).log l found)
        (before.map (answered false) ++ [answered found l]) component (before.map missing) := by
    have := (missAll_grows p before).trans
      (EventLog.Grows.log (p.missAll before).log (answered found l) component)
    rwa [List.append_nil] at this
  refine ⟨fun before l h => ?_, fun h => ?_, fun before l e h => ?_, fun before l h => ?_, ?_⟩
  · exact ⟨_, validate_found check p hp hl hc h, rfl, hpast before l true⟩
  · refine ⟨_, validate_missed check p hp hl hc h, rfl, ?_⟩
    have := (missAll_grows p config.locations).trans
      (EventLog.Grows.log (p.missAll config.locations).log
        (finding .noneExists [("checked_locations", .list config.locations)]) component)
    rwa [List.append_nil] at this
  · exact ⟨_, validate_failed check p hp hl hc h, rfl, missAll_grows p before⟩
  · exact ⟨h.mem, h.not_isText, _, validate_unnamed check p hp hl hc h, rfl,
      hpast before l false⟩
  · cases asked_ends checker p.asked config.locations with
    | found _ _ h => exact .inl ⟨_, _, h⟩
    | failed _ _ _ h => exact .inr (.inl ⟨_, _, _, h⟩)
    | unnamed _ _ h => exact .inr (.inr (.inl ⟨_, _, h⟩))
    | missed h => exact .inr (.inr (.inr h))

/-- A checker that answers with the number of questions before: the second location is the
first that exists, and the third is not asked for. -/
theorem validate_asks_until_second :
    let config : Config := ⟨[], [.text "file:a", .text "file:b", .text "file:c"],
      .perMigration, .null, .text "deploy"⟩
    let checker : Checker := fun asked _ => .ok (.int asked.length)
    let p : Probing := ⟨[], EventLog.empty fun n => toString n⟩
    config.packages = [] ∧ config.locations ≠ [] ∧ (Value.bool true).isTrue = true ∧
      FirstFound checker p.asked config.locations [.text "file:a"] (.text "file:b") ∧
      ∃ after, validate config (some checker) (.bool true) p = (.ok (.valid config), after) ∧
        after.asked = [.text "file:a", .text "file:b"] ∧
        p.log.Grows after.log
          [answered false (.text "file:a"), answered true (.text "file:b")] component
          ["location does not exist: file:a"] := by
  intro config checker p
  have hf : FirstFound checker p.asked config.locations [.text "file:a"] (.text "file:b") :=
    ⟨⟨[.text "file:c"], rfl⟩, missed_cons.2 ⟨⟨⟨.int 0, rfl, rfl⟩, rfl⟩, missed_nil _ _⟩,
      .int 1, rfl, rfl⟩
  have hl : config.locations ≠ [] := List.cons_ne_nil _ _
  exact ⟨rfl, hl, rfl, hf,
    (validate_asks_until_found config checker (.bool true) p rfl hl rfl).1 _ _ hf⟩

end MigrationSetup.Probing
