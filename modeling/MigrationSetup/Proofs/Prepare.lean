import MigrationSetup.Prepare
import MigrationSetup.Proofs.Binding
import MigrationSetup.Proofs.Encoding
import MigrationSetup.Proofs.Reporting

/-! Preparing a run, from end to end.

`run_prepares` follows a preparation whose settings were bound from a value. Switched off,
it gives no configuration and asks nobody. Switched on, it asks for the identity exactly
if none was given, and stops if that fails. Otherwise the configuration has a fingerprint,
since all that the binder lets in is texts, unless one of them holds half of a pair; both are
recorded before any location is asked for, and what the preparation gives is the decision about
that very configuration (`Prepared`). -/
namespace MigrationSetup

namespace Settings

/-- Defaults and an identity that is a text make a configuration of texts. -/
theorem Textual.ofOptions {o : Options} (h : Textual o) {identity : Value}
    (hi : identity.isText = true) : (Config.ofOptions o identity).Textual where
  packages := fun x hx => by
    cases ho : o.packages with
    | none => simp [Config.ofOptions, ho, Config.defaultPackages] at hx
    | some xs => exact h.packages xs ho x (by simpa [Config.ofOptions, ho] using hx)
  locations := fun x hx => by
    cases ho : o.locations with
    | none =>
      simp only [Config.ofOptions, ho, Option.getD_none, Config.defaultLocations,
        List.mem_singleton] at hx
      rw [hx]
      rfl
    | some xs => exact h.locations xs ho x (by simpa [Config.ofOptions, ho] using hx)
  database := h.database
  installedBy := by
    show (if o.installedBy.isNull then identity else o.installedBy).isText = true
    split
    · exact hi
    · next hn => exact h.installedBy.resolve_left hn

end Settings

namespace Preparation

/-- The note that migrations are switched off. -/
def disabled : Note := ⟨component, "INFO", "migrations disabled", []⟩

/-- The note of a configuration and its fingerprint. -/
def resolved (c : Config) (fingerprint : String) : Note :=
  ⟨component, "INFO", "config resolved", [("config", c.record), ("config_hash", .text fingerprint)]⟩

/-- The probing where a configuration and its fingerprint have been recorded. -/
def record (p : Probing) (c : Config) (fingerprint : String) : Probing :=
  { p with log := recordConfig p.log c fingerprint }

/-- The identity that options give, or else the provider's first answer. -/
def identity (o : Options) (provider : Provider) : Except Failure Value :=
  if o.installedBy.isNull then provider 0 else .ok o.installedBy

/-- A preparation is refused for a finding: with its message and under its code. -/
def Refused (r : Preparation) (f : Finding) : Prop :=
  ∃ refusal, r.result = .error (.refused refusal) ∧ refusal.family = .configuration ∧
    refusal.text = f.message ∧ refusal.code = f.code

/-- What the preparation `r` of a configuration comes to, begun with `p`. -/
structure Prepared (check : Bool) (checker : Checker) (p : Probing) (c : Config)
    (fingerprint : String) (r : Preparation) : Prop where
  /-- It is the decision about `c`, taken once `c` was recorded. -/
  decided : ∃ outcome,
    Probing.validate c (some checker) (.bool check) (record p c fingerprint) =
      (outcome, r.probing) ∧ r.result = outcome.bind fun o => o.require.map some
  /-- The record of `c` comes before all that the decision adds. -/
  recorded : ∃ notes warnings,
    p.log.Grows r.probing.log (resolved c fingerprint :: notes) Probing.component warnings
  /-- Of every location a warning can be given. -/
  named : ∀ l ∈ c.locations, l.hasLong = false
  succeeds : r.result = .ok (some c) ↔ check = false ∨ c.packages ≠ [] ∨
    ∃ before l, Probing.FirstFound checker p.asked c.locations before l
  noTargets : check = true → c.packages = [] → c.locations = [] →
    r.Refused .noTargets ∧ r.probing.asked = p.asked
  noneExists : check = true → c.packages = [] → c.locations ≠ [] →
    Probing.Missed checker p.asked c.locations →
    r.Refused .noneExists ∧ r.probing.asked = p.asked ++ c.locations
  fails : check = true → c.packages = [] → ∀ before l e,
    Probing.FirstFailed checker p.asked c.locations before l e →
    r.result = .error e ∧ r.probing.asked = p.asked ++ before ++ [l]
  unasked : check = false ∨ c.packages ≠ [] → r.probing.asked = p.asked
  asked : check = true → c.packages = [] → ∀ before l,
    Probing.FirstFound checker p.asked c.locations before l →
    r.probing.asked = p.asked ++ before ++ [l]

/-! ### The steps of a run -/

section Steps
variable {settings : Settings} {checker : Checker} {provider : Provider} {p : Probing}

theorem run_disabled (h : settings.enabled = false) :
    run settings checker provider p =
      ⟨.ok none, 0, { p with log := p.log.log component "INFO" "migrations disabled" [] }⟩ := by
  simp only [run, h, Bool.not_false, if_true]

/-- Building asks for the identity exactly if none was given. -/
theorem build_new (o : Options) (provider : Provider) : (Builder.new o provider).build =
    ((identity o provider).map (Config.ofOptions o),
      ⟨o, provider, if o.installedBy.isNull then 1 else 0⟩) := by
  cases h : o.installedBy.isNull with
  | true => simp [Builder.build, Builder.new, Config.resolve, identity, h]
  | false =>
    simp [Builder.build, Builder.new, Config.resolve, identity, h, Config.ofOptions, Except.map]

theorem run_unidentified {e : Failure} (h : settings.enabled = true)
    (hi : identity settings.options provider = .error e) :
    run settings checker provider p =
      ⟨.error e, if settings.options.installedBy.isNull then 1 else 0, p⟩ := by
  simp only [run, h, build_new, hi, Except.map, Bool.not_true, Bool.false_eq_true, if_false]

theorem run_unwritten {x : Value} {e : Failure} (h : settings.enabled = true)
    (hi : identity settings.options provider = .ok x)
    (hf : (Config.ofOptions settings.options x).fingerprint = .error e) :
    run settings checker provider p =
      ⟨.error e, if settings.options.installedBy.isNull then 1 else 0, p⟩ := by
  simp only [run, h, build_new, hi, hf, Except.map, Bool.not_true, Bool.false_eq_true, if_false]

theorem run_resolved {x : Value} {fingerprint : String} (h : settings.enabled = true)
    (hi : identity settings.options provider = .ok x)
    (hf : (Config.ofOptions settings.options x).fingerprint = .ok fingerprint) :
    run settings checker provider p =
      let c := Config.ofOptions settings.options x
      let d := Probing.validate c (some checker) (.bool settings.checkLocation)
        (record p c fingerprint)
      ⟨d.1.bind fun o => o.require.map some,
        if settings.options.installedBy.isNull then 1 else 0, d.2⟩ := by
  simp only [run, h, build_new, hi, hf, Except.map, Bool.not_true, Bool.false_eq_true, if_false]
  rfl

end Steps

/-! ### What it comes to -/

/-- A preparation that is a decision begun behind the record of its configuration. -/
theorem prepared_of_decide {check : Bool} {checker : Checker} {p : Probing} {c : Config}
    {fingerprint : String} {r : Preparation} (hl : ∀ l ∈ c.locations, l.hasLong = false)
    (hr : r.result = (Probing.validate c (some checker) (.bool check)
      (record p c fingerprint)).1.bind fun o => o.require.map some)
    (hp : r.probing = (Probing.validate c (some checker) (.bool check)
      (record p c fingerprint)).2) :
    Prepared check checker p c fingerprint r where
  decided := ⟨_, by rw [hp], hr⟩
  recorded := by
    obtain ⟨notes, warnings, h⟩ :=
      Probing.validate_grows c checker (.bool check) (record p c fingerprint)
    rw [hp]
    exact ⟨notes, warnings, (EventLog.Grows.log p.log (resolved c fingerprint) _).trans h⟩
  named := hl
  succeeds := by
    constructor
    · intro h
      have hexit := Probing.validate_exit c checker (.bool check) (record p c fingerprint)
      rw [hr] at h
      generalize Probing.validate c (some checker) (.bool check) _ = d at h hexit
      cases hexit with
      | unchecked hc => exact .inl hc
      | packages _ hpackages => exact .inr (.inl hpackages)
      | found _ _ hf => exact .inr (.inr ⟨_, _, hf⟩)
      | empty => cases h
      | missed => cases h
      | failed => cases h
      | unnamed => cases h
    · intro h
      rw [hr]
      cases check with
      | false =>
        rw [Probing.validate_unchecked _ _ (some checker) rfl]
        rfl
      | true =>
        by_cases hpackages : c.packages = []
        · obtain ⟨before, l, hf⟩ := (h.resolve_left (by simp)).resolve_left
            (not_not_intro hpackages)
          rw [Probing.validate_found (.bool true) (record p c fingerprint) hpackages hf.ne_nil rfl
            hf]
          rfl
        · rw [Probing.validate_packages _ _ (some checker) rfl hpackages]
          rfl
  noTargets := fun hc hpackages hl => by
    rw [Probing.validate_empty (.bool check) _ (some checker) hc hpackages hl] at hr hp
    obtain ⟨refusal, he, hfamily, htext, hcode, -⟩ := Outcome.require_finding .noTargets (some c)
    exact ⟨⟨refusal, by rw [hr]; simp only [Except.bind, he]; rfl, hfamily, htext, hcode⟩,
      by rw [hp]; rfl⟩
  noneExists := fun hc hpackages hl hm => by
    rw [Probing.validate_missed (.bool check) (record p c fingerprint) hpackages hl hc hm] at hr hp
    obtain ⟨refusal, he, hfamily, htext, hcode, -⟩ := Outcome.require_finding .noneExists (some c)
    exact ⟨⟨refusal, by rw [hr]; simp only [Except.bind, he]; rfl, hfamily, htext, hcode⟩,
      by rw [hp]; rfl⟩
  fails := fun hc hpackages before l e hf => by
    rw [Probing.validate_failed (.bool check) (record p c fingerprint) hpackages hf.ne_nil hc
      hf] at hr hp
    exact ⟨hr, by rw [hp]; rfl⟩
  unasked := fun h => by
    rw [hp]
    cases check with
    | false => rw [Probing.validate_unchecked _ _ (some checker) rfl]; rfl
    | true =>
      rw [Probing.validate_packages _ _ (some checker) rfl (h.resolve_left (by simp))]
      rfl
  asked := fun hc hpackages before l hf => by
    rw [hp, Probing.validate_found (.bool check) (record p c fingerprint) hpackages hf.ne_nil hc hf]
    rfl

/-- **Preparing from end to end.** Settings that were bound and are switched off give no
configuration and ask nobody. Otherwise the provider is asked once if no identity was
given, and if it fails nothing is recorded. If it gives a text and no text of the configuration
has half of a pair, the configuration has a fingerprint, both are recorded, and the rest is the
decision about it. A half cannot be written as bytes, and nothing is recorded then. -/
theorem run_prepares {v : Value} {settings : Settings} (hs : Settings.ofValue v = .ok settings)
    (checker : Checker) (provider : Provider)
    (hp : ∀ n x, provider n = .ok x → x.isText = true) (p : Probing) :
    let r := run settings checker provider p
    (settings.enabled = false →
      r.result = .ok none ∧ r.identityAsked = 0 ∧ r.probing.asked = p.asked ∧
        p.log.Grows r.probing.log [disabled] Probing.component []) ∧
    (settings.enabled = true →
      r.identityAsked = (if settings.options.installedBy.isNull then 1 else 0) ∧
      (∀ e, identity settings.options provider = .error e →
        r.result = .error e ∧ r.probing = p) ∧
      ∀ x, identity settings.options provider = .ok x →
        let c := Config.ofOptions settings.options x
        (c.IsWhole → ∃ fingerprint, c.fingerprint = .ok fingerprint ∧
          Prepared settings.checkLocation checker p c fingerprint r) ∧
        (¬c.IsWhole → ∃ fault, r.result = .error (.unencodable fault) ∧
          c.Unencodable fault ∧ r.probing = p)) := by
  have htextual := Settings.textual_of_ofValue hs
  have hconfig (x : Value) (hx : identity settings.options provider = .ok x) :
      (Config.ofOptions settings.options x).Textual := by
    apply htextual.ofOptions
    unfold identity at hx
    split at hx
    · exact hp 0 x hx
    · next hn =>
      cases hx
      exact htextual.installedBy.resolve_left hn
  refine ⟨fun he => ?_, fun he => ⟨?_, fun e hi => ?_, fun x hx => ⟨fun hw => ?_, fun hw => ?_⟩⟩⟩
  · rw [run_disabled he]
    exact ⟨rfl, rfl, rfl, .log p.log disabled Probing.component⟩
  · cases hx : identity settings.options provider with
    | error e => rw [run_unidentified he hx]
    | ok x =>
      cases hf : (Config.ofOptions settings.options x).fingerprint with
      | error e => rw [run_unwritten he hx hf]
      | ok fingerprint => rw [run_resolved he hx hf]
  · rw [run_unidentified he hi]
    exact ⟨rfl, rfl⟩
  · obtain ⟨fingerprint, hf⟩ := (Config.fingerprint_of_textual (hconfig x hx)).2 hw
    rw [run_resolved he hx hf]
    exact ⟨fingerprint, hf, prepared_of_decide
      (fun l hl => Value.hasLong_of_isText ((hconfig x hx).locations l hl)) rfl rfl⟩
  · obtain ⟨fault, hf, hfirst⟩ := Config.fingerprint_unencodable (hconfig x hx) hw
    rw [run_unwritten he hx hf]
    exact ⟨fault, rfl, hfirst, rfl⟩

/-- The identity is not given, the first location exists and the check is on: one question
to the provider, one to the checker, and the configuration is what the preparation gives. -/
theorem run_prepares_first :
    let given := Value.dict [(.text "locations-to-scan", .text " file:a ,, file:b")]
    let settings : Settings :=
      ⟨true, true, ⟨none, some [.text "file:a", .text "file:b"], none, .null, .null⟩⟩
    let checker : Checker := fun asked _ => .ok (.bool asked.isEmpty)
    let provider : Provider := fun _ => .ok (.text "deploy")
    let p : Probing := ⟨[], EventLog.empty fun n => toString n⟩
    let r := run settings checker provider p
    Settings.ofValue given = .ok settings ∧
      (∀ n x, provider n = .ok x → x.isText = true) ∧
      r.identityAsked = 1 ∧ (Config.ofOptions settings.options (.text "deploy")).IsWhole ∧
      ∃ fingerprint, (Config.ofOptions settings.options (.text "deploy")).fingerprint =
          .ok fingerprint ∧
        Prepared true checker p (Config.ofOptions settings.options (.text "deploy"))
          fingerprint r := by
  intro given settings checker provider p r
  have hs : Settings.ofValue given = .ok settings := by
    rfl
  have hp : ∀ n x, provider n = .ok x → x.isText = true := by
    intro n x h
    cases h
    rfl
  have hwhole : (Config.ofOptions settings.options (.text "deploy")).IsWhole := by
    have htext (s : String) : Value.IsWhole (.text s) :=
      (Value.isWhole_of_text? rfl).2 (Text.isWhole_ofString s)
    exact ⟨List.forall_mem_nil _,
      List.forall_mem_cons.2 ⟨htext "file:a", List.forall_mem_singleton.2 (htext "file:b")⟩,
      (fun _ h => nomatch h), htext "deploy"⟩
  have h := (run_prepares hs checker provider hp p).2 rfl
  exact ⟨hs, hp, h.1, hwhole, (h.2.2 (.text "deploy") rfl).1 hwhole⟩

end Preparation
end MigrationSetup
