import MigrationSetup.Proofs.Prepare

/-! What a recorded configuration binds to.

The record of a configuration is itself a dict of settings. What the binder lets into a
scan list is settled: texts without blank ends, none of them empty (`Settled`). Settled
lists bind to themselves, empty ones included, and so does every other field of a resolved
configuration. So the record binds to settings that give all five options
(`ofValue_record`), and resolving these gives the configuration back without asking for
the identity (`record_restores`). A fingerprint it has unless one of its texts holds half of a
pair, which the binder lets in and which cannot be written as bytes. -/
namespace MigrationSetup

/-! ### Scan lists -/

namespace Settings

/-- Texts without blank ends, and none of them empty. -/
def Settled (xs : List Value) : Prop :=
  ∀ x ∈ xs, ∃ cs : Text, x = .text cs ∧ cs.strip = cs ∧ cs ≠ []

theorem settled_keepItems (items : List Text) : Settled (keepItems items) := by
  intro x hx
  obtain ⟨cs, hcs, rfl⟩ := List.mem_map.1 hx
  obtain ⟨hmem, hne⟩ := List.mem_filter.1 hcs
  obtain ⟨item, -, rfl⟩ := List.mem_map.1 hmem
  exact ⟨_, rfl, Text.strip_strip item, of_decide_eq_true hne⟩

theorem settled_defaultLocations : Settled Config.defaultLocations := by
  intro x hx
  obtain rfl := List.mem_singleton.1 hx
  exact ⟨"classpath:neo4j/migrations", rfl, by decide, by decide⟩

/-- Settled items are kept as they are. -/
theorem Settled.scanList {xs : List Value} (h : Settled xs) (s : Setting) :
    scanList s (.list xs) = .ok (some xs) := by
  have hread : ∃ items, texts xs = .ok items ∧ keepItems items = xs := by
    induction xs with
    | nil => exact ⟨[], rfl, rfl⟩
    | cons x xs ih =>
      obtain ⟨cs, rfl, hstrip, hne⟩ := h x List.mem_cons_self
      obtain ⟨items, hitems, hkeep⟩ := ih fun y hy => h y (List.mem_cons_of_mem _ hy)
      refine ⟨cs :: items, ?_, ?_⟩
      · simp only [texts, Value.text?, hitems]
        rfl
      · simp only [keepItems, List.map_cons, hstrip] at hkeep ⊢
        rw [List.filter_cons_of_pos (by simpa using hne), List.map_cons, hkeep]
  obtain ⟨items, hitems, hkeep⟩ := hread
  simp only [Settings.scanList, hitems, hkeep]

theorem settled_of_scanList {s : Setting} {v : Value} {xs : List Value}
    (h : scanList s v = .ok (some xs)) : Settled xs := by
  obtain ⟨items, rfl⟩ := scanList_items h
  exact settled_keepItems items

end Settings

/-! ### Records -/

namespace Config

/-- Options that give all that the configuration says. -/
def given (c : Config) : Options :=
  ⟨some c.packages, some c.locations, some c.mode, c.database, c.installedBy⟩

/-- With all options given nobody is asked for the identity. -/
theorem resolve_given {c : Config} (h : c.installedBy.isText = true) (provider : Provider)
    (asked : Nat) : resolve c.given provider asked = (.ok c, asked) := by
  have hgiven : c.given.installedBy.isNull = false := by
    rcases Value.isText_iff.1 h with ⟨s, hs⟩ | ⟨m, hm⟩
    · simp only [given, hs, Value.isNull]
    · simp only [given, hm, Value.isNull]
  have hback : ofOptions c.given .null = c := by
    simp only [ofOptions, hgiven, Bool.false_eq_true, if_false]
    rfl
  rw [resolve_of_given hgiven, hback]

/-- The entries of a record. -/
def recordEntries (c : Config) : Entries :=
  [(.text Setting.packages.name, .list c.packages),
    (.text Setting.locations.name, .list c.locations),
    (.text Setting.mode.name, .text c.mode.name),
    (.text Setting.database.name, c.database),
    (.text Setting.installedBy.name, c.installedBy)]

theorem record_eq (c : Config) : c.record = .dict c.recordEntries := rfl

/-- The value that a record has for a setting. -/
def recorded (c : Config) : Setting → Value
  | .packages => .list c.packages
  | .locations => .list c.locations
  | .mode => .text c.mode.name
  | .database => c.database
  | .installedBy => c.installedBy
  | .enabled => .null
  | .checkLocation => .null

theorem ofKey?_name (s : Setting) : Setting.ofKey? (.text s.name) = some s :=
  Setting.ofName?_name s

theorem lastOf_record (c : Config) (s : Setting) :
    Settings.lastOf s .null c.recordEntries = c.recorded s := by
  simp only [recordEntries, Settings.lastOf, ofKey?_name]
  cases s <;> rfl

/-- A record gives every option and leaves the switches alone. -/
theorem ofValue_record {c : Config} (hp : Settings.Settled c.packages)
    (hl : Settings.Settled c.locations) (h : c.Textual) :
    Settings.ofValue c.record = .ok ⟨true, true, c.given⟩ := by
  have hbare : Table.get? (.text Settings.sectionKey) c.recordEntries = none := rfl
  have hmode : (Value.text c.mode.name).mode? = .ok (some c.mode) := by
    simp only [Value.mode?, TransactionMode.ofText?_name]
  have hdatabase : (c.database.isNull || c.database.isText) = true :=
    Bool.or_eq_true_iff.2 h.database
  have hinstalledBy : (c.installedBy.isNull || c.installedBy.isText) = true :=
    Bool.or_eq_true_iff.2 (.inr h.installedBy)
  rw [record_eq, Settings.ofValue_bare hbare, Settings.ofEntries_eq_ok]
  refine ⟨rfl, ?_, ?_, ?_, ?_, ?_, ?_, ?_⟩ <;> rw [lastOf_record]
  · exact hp.scanList .packages
  · exact hl.scanList .locations
  · exact hmode
  · exact (Settings.textOrNull_ok _).2 ⟨hdatabase, rfl⟩
  · exact (Settings.textOrNull_ok _).2 ⟨hinstalledBy, rfl⟩
  · rfl
  · rfl

end Config

/-! ### From settings to a record and back -/

namespace Settings

theorem Reads.settled_packages {es : Entries} {s : Settings} (h : Reads es s) (identity : Value) :
    Settled (Config.ofOptions s.options identity).packages := by
  cases ho : s.options.packages with
  | none => simp [Config.ofOptions, ho, Config.defaultPackages, Settled]
  | some xs =>
    simpa [Config.ofOptions, ho] using settled_of_scanList (h.packages.trans (by rw [ho]))

theorem Reads.settled_locations {es : Entries} {s : Settings} (h : Reads es s)
    (identity : Value) : Settled (Config.ofOptions s.options identity).locations := by
  cases ho : s.options.locations with
  | none => simpa [Config.ofOptions, ho] using settled_defaultLocations
  | some xs =>
    simpa [Config.ofOptions, ho] using settled_of_scanList (h.locations.trans (by rw [ho]))

/-- **A recorded configuration can be fed back.** What a value binds to resolves to a
configuration whose record binds again, to settings that give all five options as the
configuration has them. Resolving these gives the same configuration, and with it the same
result of taking a fingerprint, whoever would be asked for the identity: nobody is. There is a
fingerprint exactly if all texts of the configuration are whole; otherwise its canonical text
cannot be written as bytes, for the first half in it. -/
theorem record_restores {m : Value} {s : Settings} (h : ofValue m = .ok s) (provider : Provider)
    (hi : ∀ n, ∃ v, provider n = .ok v ∧ v.isText = true) (asked : Nat) :
    ∃ c,
      Config.resolve s.options provider asked =
        (.ok c, if s.options.installedBy.isNull then asked + 1 else asked) ∧
      ofValue c.record = .ok ⟨true, true, c.given⟩ ∧
      (∀ (other : Provider) (before : Nat),
        Config.resolve c.given other before = (.ok c, before)) ∧
      ((∃ fingerprint, c.fingerprint = .ok fingerprint) ↔ c.IsWhole) ∧
      (¬c.IsWhole → ∃ fault, c.fingerprint = .error (.unencodable fault) ∧
        c.Unencodable fault) := by
  obtain ⟨es, -, hes⟩ := bind_eq_ok.1 h
  have hreads : Reads es s := (ofEntries_eq_ok.1 hes).2
  -- The identity is the provider's answer; where one was given it makes no difference.
  obtain ⟨identity, hanswer, htext⟩ := hi asked
  have hc : (Config.ofOptions s.options identity).Textual := hreads.textual.ofOptions htext
  refine ⟨Config.ofOptions s.options identity, ?_,
    Config.ofValue_record (hreads.settled_packages identity) (hreads.settled_locations identity) hc,
    fun other before => Config.resolve_given hc.installedBy other before,
    Config.fingerprint_of_textual hc, Config.fingerprint_unencodable hc⟩
  cases hn : s.options.installedBy.isNull with
  | true => simp only [Config.resolve, hn, if_true, hanswer, Except.map]
  | false => simp [Config.resolve, hn, Config.ofOptions]

/-- A scan list that is empty on purpose, one with blanks, and an identity that is asked
for once: the record has both lists as they were bound, and binds to them. -/
theorem record_restores_emptied :
    let m : Value := .dict [(.text "locations-to-scan", .text " , "),
      (.text "packages_to_scan", .list [.text " com.example ", .text ""])]
    let s : Settings := ⟨true, true, ⟨some [.text "com.example"], some [], none, .null, .null⟩⟩
    let provider : Provider := fun _ => .ok (.text "deploy")
    ofValue m = .ok s ∧ (∀ n, ∃ v, provider n = .ok v ∧ v.isText = true) ∧
      ∃ c, Config.resolve s.options provider 0 = (.ok c, 1) ∧
        ofValue c.record = .ok ⟨true, true, c.given⟩ ∧
        (∀ (other : Provider) (before : Nat),
          Config.resolve c.given other before = (.ok c, before)) ∧
        ∃ fingerprint, c.fingerprint = .ok fingerprint := by
  intro m s provider
  have h : ofValue m = .ok s := rfl
  have hi : ∀ n, ∃ v, provider n = .ok v ∧ v.isText = true := fun _ => ⟨_, rfl, rfl⟩
  obtain ⟨c, hc, hrecord, hback, hfingerprint, -⟩ := record_restores h provider hi 0
  have hwhole : c.IsWhole := by
    cases hc
    exact ⟨by decide, by decide, by decide, by decide⟩
  exact ⟨h, hi, c, hc, hrecord, hback, hfingerprint.2 hwhole⟩

/-- Half of a pair is bound as a database, and the configuration with it has no fingerprint. -/
theorem half_has_no_fingerprint :
    let database : Value := .text [.half 0]
    let s : Settings := ⟨true, true, ⟨none, none, none, database, .null⟩⟩
    let provider : Provider := fun _ => .ok (.text "deploy")
    ofValue (.dict [(.text "database", database)]) = .ok s ∧
      ∃ c fault, Config.resolve s.options provider 0 = (.ok c, 1) ∧
        c.fingerprint = .error (.unencodable fault) := by
  intro database s provider
  have hc : (Config.ofOptions s.options (.text "deploy")).Textual := by
    exact ⟨by decide, by decide, by decide, by decide⟩
  obtain ⟨fault, hfault, -⟩ :=
    Config.fingerprint_unencodable hc fun h => absurd h.database (by decide)
  exact ⟨rfl, _, fault, rfl, hfault⟩

end Settings
end MigrationSetup
