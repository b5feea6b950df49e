import MigrationSetup.Proofs.Probing

/-! How a finding is reported.

A configuration that cannot be used shows in three places: in the report of the outcome, in
the refusal that is raised for it, and in the last event of the log. They are made apart from
one another, and `validate_reports_alike` says that they agree: on code, message, details and
hint, and where no location exists on the list of those that were asked for. -/
namespace MigrationSetup

/-! ### Refusals -/

/-- A refusal with the message of a finding has its code. -/
theorem Refusal.code_of_finding {r : Refusal} {f : Finding} (hf : r.family = .configuration)
    (ht : r.text = f.message) : r.code = f.code := by
  simp only [Refusal.code, hf, ht, Finding.ofMessage?_message]

/-- The code of a finding is that of no kind of failure. -/
theorem Refusal.code_ne {r : Refusal} {f : Finding} (h : r.code = f.code)
    (family : Refusal.Family) : r.code ≠ family.code := by
  rw [h]
  cases f <;> cases family <;> decide

namespace Outcome

/-- The details of a report are entries. -/
theorem dict_entriesOf_reportFor (reason : Text) (config : Option Config) :
    Value.dict (entriesOf (reportFor reason config).details) =
      (reportFor reason config).details := by
  unfold reportFor
  split <;> rfl

theorem reportFor_noTargets (config : Option Config) :
    reportFor Finding.noTargets.message config =
      .noTargets (.text Finding.noTargets.hint) :=
  if_pos rfl

theorem reportFor_noneExists (config : Config) :
    reportFor Finding.noneExists.message (some config) =
      .noneExists config.locations (.text Finding.noneExists.hint) := by
  have hne : Text.ofString Finding.noneExists.message ≠ Text.ofString Finding.noTargets.message :=
    mt Text.ofString_inj.1 (by decide)
  exact if_neg hne

theorem reportFor_finding (f : Finding) (config : Option Config) :
    (reportFor f.message config).code = f.code ∧
      (reportFor f.message config).message = .text f.message := by
  cases f with
  | noTargets => exact ⟨rfl, rfl⟩
  | noneExists => exact ⟨rfl, rfl⟩

/-- What is raised for a finding reports what its outcome reports. -/
theorem require_finding (f : Finding) (config : Option Config) :
    ∃ e, (invalid f.message config).require = .error (.refused e) ∧ e.family = .configuration ∧
      e.text = f.message ∧ e.code = f.code ∧ e.report = reportFor f.message config := by
  refine ⟨_, rfl, rfl, rfl, Refusal.code_of_finding rfl rfl, ?_⟩
  obtain ⟨hcode, hmessage⟩ := reportFor_finding f config
  have hdetails := dict_entriesOf_reportFor f.message config
  rw [Refusal.report, Refusal.code_of_finding (f := f) rfl rfl, hdetails, ← hcode, ← hmessage]

end Outcome

/-! ### Decisions -/

namespace Probing

/-- The ways in which a configuration is found unusable. -/
theorem validate_invalid {config : Config} {checker : Option Checker} {check : Value}
    {p after : Probing} {reason : Text} {about : Option Config}
    (h : validate config checker check p = (.ok (.invalid reason about), after)) :
    about = some config ∧
      ((reason = Finding.noTargets.message ∧ config.packages = [] ∧ config.locations = [] ∧
          after = { p with log := find p.log .noTargets [] }) ∨
        (reason = Finding.noneExists.message ∧
          after = ⟨p.asked ++ config.locations, find (p.missAll config.locations).log .noneExists
            [("checked_locations", .list config.locations)]⟩)) := by
  cases checker with
  | some checker =>
    have hexit := validate_exit config checker check p
    rw [h] at hexit
    cases hexit with
    | empty _ hp hl => exact ⟨rfl, .inl ⟨rfl, hp, hl, rfl⟩⟩
    | missed => exact ⟨rfl, .inr ⟨rfl, rfl⟩⟩
  | none =>
    -- With nobody to ask, only an empty configuration is unusable.
    cases hc : check.isTrue with
    | false =>
      rw [validate_unchecked check p none hc] at h
      cases h
    | true =>
      by_cases hp : config.packages = []
      · by_cases hl : config.locations = []
        · rw [validate_empty check p none hc hp hl] at h
          cases h
          exact ⟨rfl, .inl ⟨rfl, hp, hl, rfl⟩⟩
        · have hplaces : config.hasPlaces = true := by
            simp [Config.hasPlaces, hp, hl]
          simp [validate, hc, hplaces, hp] at h
      · rw [validate_packages check p none hc hp] at h
        cases h

/-- The last event records a finding and what it is about. -/
def EndsWith (log : EventLog) (f : Finding) (extra : List (Text × Value)) : Prop :=
  ∃ earlier time, log.events = earlier ++ [(finding f extra).dated time]

theorem endsWith_find (log : EventLog) (f : Finding) (extra : List (Text × Value)) :
    EndsWith (find log f extra) f extra :=
  ⟨log.events, _, rfl⟩

/-- What is raised and recorded for a finding `f` about a configuration that was validated
from `p` to `after`. These `locations` were asked for on the way. -/
structure Reported (config : Config) (p after : Probing) (reason : Text) (about : Option Config)
    (f : Finding) (e : Refusal) (locations : List Value) : Prop where
  raised : (Outcome.invalid reason about).require = .error (.refused e)
  family : e.family = .configuration
  text : e.text = reason
  report : e.report = Outcome.reportFor reason about
  found : Finding.ofMessage? reason = some f
  code : e.report.code = f.code
  /-- The code is not one for failures of a kind. -/
  cataloged : ∀ family : Refusal.Family, e.report.code ≠ family.code
  final : e.report.retryable = false
  asked : after.asked = p.asked ++ locations
  noneExists : f = .noneExists →
    e.details = [(.text "checked_locations", .list locations)] ∧
      (Outcome.reportFor reason about).details =
        .dict [(.text "checked_locations", .list locations)] ∧
      EndsWith after.log .noneExists [("checked_locations", .list locations)]
  noTargets : f = .noTargets →
    config.packages = [] ∧ config.locations = [] ∧ locations = [] ∧
      e.details = [(.text "packages_to_scan", .list config.packages),
        (.text "locations_to_scan", .list config.locations)] ∧
      EndsWith after.log .noTargets []

/-- **A finding is reported alike everywhere.** Whenever a configuration is found unusable,
what is raised says the reason and reports what the outcome reports, under the code of the
finding and never worth a retry. If no location exists, the details and the last event list
those that were asked for in this decision; if nothing is configured, the details are the two
empty lists of the configuration. -/
theorem validate_reports_alike {config : Config} {checker : Option Checker} {check : Value}
    {p after : Probing} {reason : Text} {about : Option Config}
    (h : validate config checker check p = (.ok (.invalid reason about), after)) :
    ∃ f e locations, Reported config p after reason about f e locations := by
  obtain ⟨rfl, ⟨rfl, hp, hl, rfl⟩ | ⟨rfl, rfl⟩⟩ := validate_invalid h
  · obtain ⟨e, he, hfamily, htext, hcode, hreport⟩ :=
      Outcome.require_finding .noTargets (some config)
    have hdetails : Value.dict e.details = _ := congrArg Report.details hreport
    rw [Outcome.reportFor_noTargets] at hdetails
    refine ⟨.noTargets, e, [], he, hfamily, htext, hreport, Finding.ofMessage?_message _, hcode,
      Refusal.code_ne hcode, rfl, (List.append_nil _).symm, nofun,
      fun _ => ⟨hp, hl, rfl, ?_, endsWith_find _ _ _⟩⟩
    rw [hp, hl]
    exact Value.dict.inj hdetails
  · obtain ⟨e, he, hfamily, htext, hcode, hreport⟩ :=
      Outcome.require_finding .noneExists (some config)
    have hdetails : Value.dict e.details = _ := congrArg Report.details hreport
    rw [Outcome.reportFor_noneExists] at hdetails
    refine ⟨.noneExists, e, config.locations, he, hfamily, htext, hreport,
      Finding.ofMessage?_message _, hcode, Refusal.code_ne hcode, rfl, rfl,
      fun _ => ⟨Value.dict.inj hdetails, ?_, endsWith_find _ _ _⟩, nofun⟩
    rw [Outcome.reportFor_noneExists]
    rfl

/-- Two locations, one answered with nothing and one with zero, behind an earlier question and
an earlier event. -/
theorem validate_reports_alike_two :
    let config : Config := ⟨[], [.text "file:a", .text "b"], .perStatement, .null, .text "deploy"⟩
    let checker : Checker := fun _ l => .ok (if Value.sameKey l (.text "b") then .int 0 else .null)
    let p : Probing := ⟨[.text "file:z"],
      (EventLog.empty fun n => toString n).log "prepare" "INFO" "config resolved" []⟩
    let after := (validate config (some checker) (.int 1) p).2
    validate config (some checker) (.int 1) p =
        (.ok (.invalid Finding.noneExists.message (some config)), after) ∧
      ∃ e, Reported config p after Finding.noneExists.message (some config) .noneExists e
        [.text "file:a", .text "b"] := by
  intro config checker p after
  have h : validate config (some checker) (.int 1) p =
      (.ok (.invalid Finding.noneExists.message (some config)), after) := by
    rfl
  obtain ⟨f, e, locations, hreported⟩ := validate_reports_alike h
  have hnone : f = .noneExists :=
    (Option.some.inj (hreported.found.symm.trans (Finding.ofMessage?_message .noneExists)))
  have hall : locations = [.text "file:a", .text "b"] :=
    (List.cons_eq_cons.1 hreported.asked).2.symm
  subst hnone hall
  exact ⟨h, e, hreported⟩

end Probing
end MigrationSetup
