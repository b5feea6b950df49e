import MigrationSetup.Proofs.Result
import MigrationSetup.Settings.Binding

/-! What the binder takes.

Each setting has its own grammar (`Setting.accepts`), and it is the last value given for
a setting that has to obey it. Entries bind exactly if every key names a setting and
every setting accepts its last value (`binds_iff`); what comes out of them is then given
setting by setting (`Settings.Reads`). Scan lists come out as plain texts, the two texts
and the mode as they were given. -/
namespace MigrationSetup

namespace Value

/-- Nothing, a text, or texts in a row. -/
def isScanList : Value → Bool
  | .null => true
  | .list xs => xs.all isText
  | .tuple xs => xs.all isText
  | v => v.isText

/-- Nothing, a mode or the name of one. -/
def isModeName : Value → Bool
  | .null => true
  | .mode _ => true
  | .text s => (TransactionMode.ofText? s).isSome
  | _ => false

/-- Nothing, a truth value or the name of one. -/
def isSwitch : Value → Bool
  | .null => true
  | .bool _ => true
  | v => (v.text?.bind Settings.switch?).isSome

end Value

/-- The values that a setting may have. -/
def Setting.accepts : Setting → Value → Bool
  | .packages, v => v.isScanList
  | .locations, v => v.isScanList
  | .mode, v => v.isModeName
  | .database, v => v.isNull || v.isText
  | .installedBy, v => v.isNull || v.isText
  | .enabled, v => v.isSwitch
  | .checkLocation, v => v.isSwitch

namespace Settings

/-! ### Single settings -/

theorem texts_ok_iff {xs : List Value} :
    (∃ items, texts xs = .ok items) ↔ xs.all Value.isText = true := by
  induction xs with
  | nil => simp [texts]
  | cons x xs ih =>
    simp only [List.all_cons, Bool.and_eq_true, ← ih]
    cases hx : x.text? with
    | none => simp [texts, hx, Value.isText]
    | some s =>
      have hs : x.isText = true := by simp [Value.isText, hx]
      simp only [texts, hx, hs, true_and, bind_eq_ok]
      constructor
      · rintro ⟨_, items, hitems, -⟩
        exact ⟨items, hitems⟩
      · rintro ⟨items, hitems⟩
        exact ⟨s :: items, items, hitems, rfl⟩

theorem scanList_ok_iff (s : Setting) {v : Value} :
    (∃ o, scanList s v = .ok o) ↔ v.isScanList = true := by
  cases v with
  | list xs =>
    rw [Value.isScanList, ← texts_ok_iff]
    cases hx : texts xs <;> simp [scanList, hx]
  | tuple xs =>
    rw [Value.isScanList, ← texts_ok_iff]
    cases hx : texts xs <;> simp [scanList, hx]
  | _ => simp [scanList, Value.isScanList, Value.isText, Value.text?]

/-- The items of a scan list that was read are texts without blank ends. -/
theorem scanList_items {s : Setting} {v : Value} {xs : List Value}
    (h : scanList s v = .ok (some xs)) : ∃ items, xs = keepItems items := by
  cases v with
  | text t => exact ⟨_, (Option.some.inj (Except.ok.inj h)).symm⟩
  | mode m => exact ⟨_, (Option.some.inj (Except.ok.inj h)).symm⟩
  | list ys =>
    simp only [scanList] at h
    split at h
    · exact ⟨_, (Option.some.inj (Except.ok.inj h)).symm⟩
    · cases h
  | tuple ys =>
    simp only [scanList] at h
    split at h
    · exact ⟨_, (Option.some.inj (Except.ok.inj h)).symm⟩
    · cases h
  | _ => cases h

theorem isText_of_mem_keepItems {items : List Text} {x : Value}
    (h : x ∈ keepItems items) : x.isText = true := by
  obtain ⟨cs, -, rfl⟩ := List.mem_map.1 h
  rfl

theorem mode?_ok_iff {v : Value} : (∃ o, v.mode? = .ok o) ↔ v.isModeName = true := by
  cases v with
  | text s => cases hs : TransactionMode.ofText? s <;> simp [Value.mode?, Value.isModeName, hs]
  | _ => simp [Value.mode?, Value.isModeName]

theorem textOrNull_ok (s : Setting) {v w : Value} :
    textOrNull s v = .ok w ↔ (v.isNull || v.isText) = true ∧ w = v := by
  unfold textOrNull
  cases hv : (v.isNull || v.isText)
  · simp
  · simp [eq_comm]

theorem switch_ok_iff (s : Setting) (standard : Bool) {v : Value} :
    (∃ b, switch s standard v = .ok b) ↔ v.isSwitch = true := by
  cases v with
  | text t => cases ht : switch? t <;> simp [switch, Value.isSwitch, Value.text?, ht]
  | mode m => cases hm : switch? m.name <;> simp [switch, Value.isSwitch, Value.text?, hm]
  | _ => simp [switch, Value.isSwitch, Value.text?]

/-! ### What is refused -/

section Fault
variable {s : Setting} {v : Value} {e : SettingError}

theorem showing_fault (v : Value) (e : SettingError) :
    (SettingError.showing v e).fault = if v.hasLong then .longNumber else e.fault := by
  unfold SettingError.showing
  split <;> rfl

theorem scanList_fault (h : scanList s v = .error e) : e.fault = .invalidSetting := by
  have hrow (xs : List Value) (h : scanList s (.list xs) = .error e) :
      e.fault = .invalidSetting := by
    simp only [scanList] at h
    split at h <;> cases h
    rfl
  cases v with
  | list xs => exact hrow xs h
  | tuple xs => exact hrow xs h
  | _ => cases h <;> rfl

theorem mode?_fault (h : v.mode? = .error e) : e.fault = .invalidSetting := by
  cases v with
  | text t =>
    simp only [Value.mode?] at h
    split at h <;> cases h
    rfl
  | _ => cases h <;> rfl

theorem textOrNull_fault (h : textOrNull s v = .error e) : e.fault = .invalidSetting := by
  unfold textOrNull at h
  split at h <;> cases h
  rfl

/-- A switch shows the value that it does not take. -/
theorem switch_error {standard : Bool} (h : switch s standard v = .error e) :
    e = .showing v (.notBool s v) := by
  unfold switch at h
  split at h
  · cases h
  · cases h
  · split at h <;> cases h
    rfl

end Fault

/-! ### All of them -/

theorem stranger?_eq_none_iff {es : Entries} :
    stranger? es = none ↔ ∀ e ∈ es, (Setting.ofKey? e.1).isSome = true := by
  induction es with
  | nil => simp [stranger?]
  | cons e es ih =>
    obtain ⟨k, v⟩ := e
    cases hk : Setting.ofKey? k <;> simp [stranger?, hk, ih]

/-- The settings that entries give, setting by setting. -/
structure Reads (es : Entries) (s : Settings) : Prop where
  packages : scanList .packages (lastOf .packages .null es) = .ok s.options.packages
  locations : scanList .locations (lastOf .locations .null es) = .ok s.options.locations
  mode : (lastOf .mode .null es).mode? = .ok s.options.mode
  database : textOrNull .database (lastOf .database .null es) = .ok s.options.database
  installedBy : textOrNull .installedBy (lastOf .installedBy .null es) =
    .ok s.options.installedBy
  enabled : switch .enabled true (lastOf .enabled .null es) = .ok s.enabled
  checkLocation : switch .checkLocation true (lastOf .checkLocation .null es) =
    .ok s.checkLocation

theorem ofEntries_eq_ok {es : Entries} {s : Settings} :
    ofEntries es = .ok s ↔ stranger? es = none ∧ Reads es s := by
  constructor
  · intro h
    cases hs : stranger? es with
    | some k => simp only [ofEntries, hs] at h; cases h
    | none =>
      simp only [ofEntries, hs] at h
      obtain ⟨-, -, h⟩ := bind_eq_ok.1 h
      obtain ⟨packages, hp, h⟩ := bind_eq_ok.1 h
      obtain ⟨locations, hl, h⟩ := bind_eq_ok.1 h
      obtain ⟨mode, hm, h⟩ := bind_eq_ok.1 h
      obtain ⟨database, hd, h⟩ := bind_eq_ok.1 h
      obtain ⟨installedBy, hi, h⟩ := bind_eq_ok.1 h
      obtain ⟨enabled, he, h⟩ := bind_eq_ok.1 h
      obtain ⟨checkLocation, hc, h⟩ := bind_eq_ok.1 h
      cases h
      exact ⟨rfl, hp, hl, hm, hd, hi, he, hc⟩
  · rintro ⟨hs, h⟩
    simp only [ofEntries, hs, h.packages, h.locations, h.mode, h.database, h.installedBy,
      h.enabled, h.checkLocation]
    rfl

/-- Entries bind exactly if every key names a setting and every setting accepts the last
value given for it. -/
theorem binds_iff {es : Entries} : (∃ s, ofEntries es = .ok s) ↔
    stranger? es = none ∧ ∀ s : Setting, s.accepts (lastOf s .null es) = true := by
  constructor
  · rintro ⟨s, h⟩
    obtain ⟨hs, h⟩ := ofEntries_eq_ok.1 h
    refine ⟨hs, fun setting => ?_⟩
    cases setting with
    | packages => exact (scanList_ok_iff _).1 ⟨_, h.packages⟩
    | locations => exact (scanList_ok_iff _).1 ⟨_, h.locations⟩
    | mode => exact mode?_ok_iff.1 ⟨_, h.mode⟩
    | database => exact ((textOrNull_ok _).1 h.database).1
    | installedBy => exact ((textOrNull_ok _).1 h.installedBy).1
    | enabled => exact (switch_ok_iff _ _).1 ⟨_, h.enabled⟩
    | checkLocation => exact (switch_ok_iff _ _).1 ⟨_, h.checkLocation⟩
  · rintro ⟨hs, h⟩
    obtain ⟨packages, hp⟩ := (scanList_ok_iff .packages).2 (h .packages)
    obtain ⟨locations, hl⟩ := (scanList_ok_iff .locations).2 (h .locations)
    obtain ⟨mode, hm⟩ := mode?_ok_iff.2 (h .mode)
    obtain ⟨enabled, he⟩ := (switch_ok_iff .enabled true).2 (h .enabled)
    obtain ⟨checkLocation, hc⟩ := (switch_ok_iff .checkLocation true).2 (h .checkLocation)
    have hd := (textOrNull_ok .database).2 ⟨h .database, rfl⟩
    have hi := (textOrNull_ok .installedBy).2 ⟨h .installedBy, rfl⟩
    exact ⟨⟨enabled, checkLocation, ⟨packages, locations, mode, _, _⟩⟩,
      ofEntries_eq_ok.2 ⟨hs, hp, hl, hm, hd, hi, he, hc⟩⟩

/-! ### Where the settings stand -/

theorem ofValue_bare {es : Entries} (h : Table.get? (.text sectionKey) es = none) :
    ofValue (.dict es) = ofEntries es := by
  simp only [ofValue, sectionOf, h]
  rfl

theorem ofValue_section {root es : Entries}
    (h : Table.get? (.text sectionKey) root = some (.dict es)) :
    ofValue (.dict root) = ofEntries es := by
  simp only [ofValue, sectionOf, h]
  rfl

/-- Beside a section nothing else counts. -/
theorem ofValue_congr {root root' : Entries} {v : Value}
    (h : Table.get? (.text sectionKey) root = some v)
    (h' : Table.get? (.text sectionKey) root' = some v) :
    ofValue (.dict root) = ofValue (.dict root') := by
  simp only [ofValue, sectionOf, h, h']
  cases v <;> rfl

/-! ### Options made of texts -/

/-- What is said in options is said in texts. -/
structure Textual (o : Options) : Prop where
  packages : ∀ xs, o.packages = some xs → ∀ x ∈ xs, x.isText = true
  locations : ∀ xs, o.locations = some xs → ∀ x ∈ xs, x.isText = true
  database : o.database.isNull = true ∨ o.database.isText = true
  installedBy : o.installedBy.isNull = true ∨ o.installedBy.isText = true

theorem Reads.textual {es : Entries} {s : Settings} (h : Reads es s) : Textual s.options where
  packages := fun xs hxs x hx => by
    obtain ⟨items, rfl⟩ := scanList_items (hxs ▸ h.packages)
    exact isText_of_mem_keepItems hx
  locations := fun xs hxs x hx => by
    obtain ⟨items, rfl⟩ := scanList_items (hxs ▸ h.locations)
    exact isText_of_mem_keepItems hx
  database := by
    obtain ⟨ht, hv⟩ := (textOrNull_ok _).1 h.database
    rw [hv]
    exact Bool.or_eq_true_iff.1 ht
  installedBy := by
    obtain ⟨ht, hv⟩ := (textOrNull_ok _).1 h.installedBy
    rw [hv]
    exact Bool.or_eq_true_iff.1 ht

theorem textual_of_ofValue {v : Value} {s : Settings} (h : ofValue v = .ok s) :
    Textual s.options := by
  obtain ⟨es, -, h⟩ := bind_eq_ok.1 h
  exact (ofEntries_eq_ok.1 h).2.textual

end Settings
end MigrationSetup
