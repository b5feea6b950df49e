import Mathlib.Data.List.Pairwise
import MigrationSetup.Proofs.Overlay

/-! Settings one by one.

Each of the seven settings is read from one value, the last that is given for it, and from
nothing else (`Settings.ofEntries_eq_ok_iff`). So entries in which each setting is given the
same, or is refused for reasons that go together, bind to results that go together
(`Settings.ofEntries_agree`). With one layer over another a setting is given what the upper
layer says, or else what the lower one does (`Settings.given?_overlay`). -/
namespace MigrationSetup

/-- What settings hold for one setting. -/
inductive Part
  | items (xs : Option (List Value))
  | mode (m : Option TransactionMode)
  | text (v : Value)
  | switch (b : Bool)

/-- What a setting makes of a value. -/
def Setting.read : Setting → Value → Except SettingError Part
  | .packages, v => (Settings.scanList .packages v).map .items
  | .locations, v => (Settings.scanList .locations v).map .items
  | .mode, v => v.mode?.map .mode
  | .database, v => (Settings.textOrNull .database v).map .text
  | .installedBy, v => (Settings.textOrNull .installedBy v).map .text
  | .enabled, v => (Settings.switch .enabled true v).map .switch
  | .checkLocation, v => (Settings.switch .checkLocation true v).map .switch

namespace Settings

def part (l : Settings) : Setting → Part
  | .packages => .items l.options.packages
  | .locations => .items l.options.locations
  | .mode => .mode l.options.mode
  | .database => .text l.options.database
  | .installedBy => .text l.options.installedBy
  | .enabled => .switch l.enabled
  | .checkLocation => .switch l.checkLocation

/-- Where nothing is given a setting is the standard one. -/
theorem read_null (s : Setting) : s.read .null = .ok (standard.part s) := by
  cases s <;> rfl

/-- Only a switch shows the value that it does not take. -/
theorem read_fault {s : Setting} {v : Value} {e : SettingError} (h : s.read v = .error e) :
    (s = .enabled ∨ s = .checkLocation) ∧ v.hasLong = true ∧ e.fault = .longNumber ∨
      ¬((s = .enabled ∨ s = .checkLocation) ∧ v.hasLong = true) ∧ e.fault = .invalidSetting := by
  have hswitch (h : e = .showing v (.notBool s v)) :
      e.fault = if v.hasLong then .longNumber else .invalidSetting := by
    rw [h, showing_fault]
    rfl
  cases s with
  | packages => exact .inr ⟨by simp, scanList_fault (map_eq_error.1 h)⟩
  | locations => exact .inr ⟨by simp, scanList_fault (map_eq_error.1 h)⟩
  | mode => exact .inr ⟨by simp, mode?_fault (map_eq_error.1 h)⟩
  | database => exact .inr ⟨by simp, textOrNull_fault (map_eq_error.1 h)⟩
  | installedBy => exact .inr ⟨by simp, textOrNull_fault (map_eq_error.1 h)⟩
  | enabled =>
    rw [hswitch (switch_error (map_eq_error.1 h))]
    cases v.hasLong <;> simp
  | checkLocation =>
    rw [hswitch (switch_error (map_eq_error.1 h))]
    cases v.hasLong <;> simp

/-! ### What a setting sees -/

end Settings

namespace Setting

/-- What a setting makes of a value that it takes. -/
def seen (s : Setting) (v : Value) : Option Part := (s.read v).toOption

theorem seen_eq_some_iff {s : Setting} {v : Value} {p : Part} :
    s.seen v = some p ↔ s.read v = .ok p := by
  unfold seen
  cases s.read v <;> simp [Except.toOption]

theorem accepts_eq (s : Setting) (v : Value) : s.accepts v = (s.seen v).isSome := by
  have hmap {α : Type} {x : Except SettingError α} (f : α → Part) :
      (∃ a, x = .ok a) ↔ (x.map f).toOption.isSome = true := by
    cases x <;> simp [Except.map, Except.toOption]
  rw [Bool.eq_iff_iff]
  cases s with
  | packages => exact (Settings.scanList_ok_iff .packages).symm.trans (hmap .items)
  | locations => exact (Settings.scanList_ok_iff .locations).symm.trans (hmap .items)
  | mode => exact Settings.mode?_ok_iff.symm.trans (hmap .mode)
  | database =>
    refine Iff.trans ⟨fun h => ⟨v, (Settings.textOrNull_ok .database).2 ⟨h, rfl⟩⟩, ?_⟩ (hmap .text)
    rintro ⟨w, h⟩
    exact ((Settings.textOrNull_ok .database).1 h).1
  | installedBy =>
    refine Iff.trans ⟨fun h => ⟨v, (Settings.textOrNull_ok .installedBy).2 ⟨h, rfl⟩⟩, ?_⟩
      (hmap .text)
    rintro ⟨w, h⟩
    exact ((Settings.textOrNull_ok .installedBy).1 h).1
  | enabled => exact (Settings.switch_ok_iff .enabled true).symm.trans (hmap .switch)
  | checkLocation => exact (Settings.switch_ok_iff .checkLocation true).symm.trans (hmap .switch)

theorem seen_dict (s : Setting) (es : Entries) : s.seen (.dict es) = none := by
  cases s <;> rfl

/-- A setting sees of a list its texts, if it sees anything. -/
theorem seen_list (s : Setting) {xs ys : List Value}
    (h : List.Forall₂ (fun v w => v.text? = w.text?) xs ys) :
    s.seen (.list xs) = s.seen (.list ys) := by
  have htexts : (Settings.texts xs).toOption = (Settings.texts ys).toOption := by
    induction h with
    | nil => rfl
    | @cons v w xs ys hvw _ ih =>
      simp only [Settings.texts, hvw]
      cases w.text? with
      | none => rfl
      | some t =>
        generalize Settings.texts xs = a at ih
        generalize Settings.texts ys = b at ih
        cases a <;> cases b <;> simp_all [Except.toOption, bind, Except.bind, pure, Except.pure]
  have hscan (s : Setting) : (Settings.scanList s (.list xs)).toOption =
      (Settings.scanList s (.list ys)).toOption := by
    simp only [Settings.scanList]
    generalize Settings.texts xs = a at htexts
    generalize Settings.texts ys = b at htexts
    cases a <;> cases b <;> simp_all [Except.toOption]
  have hmap {α : Type} {x y : Except SettingError α} (h : x.toOption = y.toOption) (f : α → Part) :
      (x.map f).toOption = (y.map f).toOption := by
    cases x <;> cases y <;> simp_all [Except.map, Except.toOption]
  cases s with
  | packages => exact hmap (hscan .packages) .items
  | locations => exact hmap (hscan .locations) .items
  | _ => rfl

end Setting

namespace Settings

theorem seen_laid (s : Setting) (c v : Value) : s.seen (Value.laid c v) = s.seen v := by
  rcases Value.laid_eq_or_dicts c v with h | ⟨b, o, rfl, rfl⟩
  · rw [h]
  · obtain ⟨es, hes⟩ := Value.laid_dicts b o
    rw [hes, s.seen_dict, s.seen_dict]

/-- Entries under the same keys, of values that every setting sees alike. -/
def Kindred : Entries → Entries → Prop :=
  List.Forall₂ fun e f => e.1 = f.1 ∧ ∀ s : Setting, s.seen e.2 = s.seen f.2

theorem Kindred.asGood {es fs : Entries} (h : Kindred es fs) : AsGood es fs :=
  h.imp fun _ _ he => ⟨he.1, fun s => by rw [s.accepts_eq, s.accepts_eq, he.2 s]⟩

/-- For every setting one layer lies over another value for value. -/
theorem kindred_layEntries (b o : Entries) :
    Kindred (Value.layEntries Value.laid b o) (overlay b o) := by
  refine List.rel_append ?_ (List.forall₂_same.2 fun _ _ => ⟨rfl, fun _ => rfl⟩)
  refine forall₂_map_same fun e _ => ⟨rfl, fun s => ?_⟩
  cases Table.get? e.1 o with
  | none => rfl
  | some v => exact seen_laid s e.2 v

theorem binds_layEntries_iff (b o : Entries) :
    (∃ s, ofEntries (Value.layEntries Value.laid b o) = .ok s) ↔
      ∃ s, ofEntries (overlay b o) = .ok s :=
  (kindred_layEntries b o).asGood.binds_iff

/-! ### Binding part by part -/

theorem reads_iff {es : Entries} {l : Settings} :
    Reads es l ↔ ∀ s : Setting, s.read (lastOf s .null es) = .ok (l.part s) := by
  constructor
  · intro h s
    cases s with
    | packages => exact congrArg (Except.map Part.items) h.packages
    | locations => exact congrArg (Except.map Part.items) h.locations
    | mode => exact congrArg (Except.map Part.mode) h.mode
    | database => exact congrArg (Except.map Part.text) h.database
    | installedBy => exact congrArg (Except.map Part.text) h.installedBy
    | enabled => exact congrArg (Except.map Part.switch) h.enabled
    | checkLocation => exact congrArg (Except.map Part.switch) h.checkLocation
  · intro h
    have hof {α : Type} {f : α → Part} (hf : Function.Injective f) {x : Except SettingError α}
        {a : α} (hx : x.map f = .ok (f a)) : x = .ok a := by
      obtain ⟨b, hb, hba⟩ := map_eq_ok.1 hx
      rw [hb, hf hba]
    exact ⟨hof (fun _ _ => Part.items.inj) (h .packages),
      hof (fun _ _ => Part.items.inj) (h .locations), hof (fun _ _ => Part.mode.inj) (h .mode),
      hof (fun _ _ => Part.text.inj) (h .database), hof (fun _ _ => Part.text.inj) (h .installedBy),
      hof (fun _ _ => Part.switch.inj) (h .enabled),
      hof (fun _ _ => Part.switch.inj) (h .checkLocation)⟩

/-- Entries bind to settings exactly if no key is strange and each part is what its setting
makes of the last value given for it. -/
theorem ofEntries_eq_ok_iff {es : Entries} {l : Settings} :
    ofEntries es = .ok l ↔
      stranger? es = none ∧ ∀ s : Setting, s.read (lastOf s .null es) = .ok (l.part s) := by
  rw [ofEntries_eq_ok, reads_iff]

/-- Entries whose strangers and whose settings fail for reasons that go together do so as a
whole. -/
theorem ofEntries_agree {E : SettingError → SettingError → Prop} {es fs : Entries}
    (hk : Option.Rel
      (fun k l => E (.showing k (.unknownSetting k)) (.showing l (.unknownSetting l)))
      (stranger? es) (stranger? fs))
    (h : ∀ s : Setting, Agree E (s.read (lastOf s .null es)) (s.read (lastOf s .null fs))) :
    Agree E (ofEntries es) (ofEntries fs) := by
  simp only [ofEntries]
  generalize stranger? es = x at hk
  generalize stranger? fs = y at hk
  cases hk with
  | some hkl => exact .failed hkl
  | none =>
    refine .bind (.of_map (fun _ _ => Part.items.inj) (h .packages)) fun _ => ?_
    refine .bind (.of_map (fun _ _ => Part.items.inj) (h .locations)) fun _ => ?_
    refine .bind (.of_map (fun _ _ => Part.mode.inj) (h .mode)) fun _ => ?_
    refine .bind (.of_map (fun _ _ => Part.text.inj) (h .database)) fun _ => ?_
    refine .bind (.of_map (fun _ _ => Part.text.inj) (h .installedBy)) fun _ => ?_
    refine .bind (.of_map (fun _ _ => Part.switch.inj) (h .enabled)) fun _ => ?_
    exact .bind (.of_map (fun _ _ => Part.switch.inj) (h .checkLocation)) fun _ => .same _

/-- Entries in which the same is strange and each setting has the same last value bind alike. -/
theorem ofEntries_congr {es fs : Entries} (hk : stranger? es = stranger? fs)
    (h : ∀ s, lastOf s .null es = lastOf s .null fs) : ofEntries es = ofEntries fs := by
  simp only [ofEntries, hk, h]

theorem stranger?_congr {es fs : Entries} (h : Table.keys es = Table.keys fs) :
    stranger? es = stranger? fs := by
  induction es generalizing fs with
  | nil =>
    cases fs with
    | nil => rfl
    | cons f fs => cases h
  | cons e es ih =>
    obtain ⟨k, v⟩ := e
    cases fs with
    | nil => cases h
    | cons f fs =>
      obtain ⟨l, w⟩ := f
      obtain ⟨rfl, hrest⟩ := List.cons_eq_cons.1 h
      rw [stranger?, stranger?, ih hrest]

/-! ### What is given for a setting -/

/-- The last value that is given for a setting. -/
def given? (s : Setting) : Entries → Option Value
  | [] => none
  | (k, v) :: rest => (given? s rest).or (if Setting.ofKey? k = some s then some v else none)

theorem lastOf_eq (s : Setting) (last : Value) (es : Entries) :
    lastOf s last es = (given? s es).getD last := by
  induction es generalizing last with
  | nil => rfl
  | cons e es ih =>
    obtain ⟨k, v⟩ := e
    rw [lastOf, ih, given?]
    cases given? s es with
    | some w => rfl
    | none => split <;> rfl

theorem given?_append (s : Setting) (a b : Entries) :
    given? s (a ++ b) = (given? s b).or (given? s a) := by
  induction a with
  | nil => simp [given?]
  | cons e a ih =>
    obtain ⟨k, v⟩ := e
    rw [List.cons_append, given?, given?, ih, Option.or_assoc]

theorem given?_eq_none_iff {s : Setting} {es : Entries} :
    given? s es = none ↔ ∀ e ∈ es, Setting.ofKey? e.1 ≠ some s := by
  induction es with
  | nil => simp [given?]
  | cons e es ih => simp [given?, ih, and_comm]

/-- What is given for a setting stands under the last key that names it. -/
theorem given?_eq_some_iff {s : Setting} {es : Entries} {v : Value} : given? s es = some v ↔
    ∃ before k after, es = before ++ (k, v) :: after ∧ Setting.ofKey? k = some s ∧
      ∀ e ∈ after, Setting.ofKey? e.1 ≠ some s := by
  constructor
  · intro h
    induction es with
    | nil => cases h
    | cons e es ih =>
      obtain ⟨k, w⟩ := e
      rw [given?] at h
      rcases Option.or_eq_some_iff.1 h with h | ⟨hrest, h⟩
      · obtain ⟨before, l, after, rfl, hl, hafter⟩ := ih h
        exact ⟨(k, w) :: before, l, after, rfl, hl, hafter⟩
      · split at h
        · next hk =>
          cases h
          exact ⟨[], k, es, rfl, hk, given?_eq_none_iff.1 hrest⟩
        · cases h
  · rintro ⟨before, k, after, rfl, hk, hafter⟩
    rw [given?_append, given?, given?_eq_none_iff.2 hafter, if_pos hk]
    rfl

theorem mem_of_given? {s : Setting} {es : Entries} {v : Value} (h : given? s es = some v) :
    ∃ k, (k, v) ∈ es ∧ Setting.ofKey? k = some s := by
  obtain ⟨before, k, after, rfl, hk, -⟩ := given?_eq_some_iff.1 h
  exact ⟨k, List.mem_append_right _ List.mem_cons_self, hk⟩

/-- A setting that is given nothing but `v` is given `v`. -/
theorem given?_of_forall {s : Setting} {es : Entries} {k v : Value} (hm : (k, v) ∈ es)
    (hk : Setting.ofKey? k = some s) (h : ∀ e ∈ es, Setting.ofKey? e.1 = some s → e.2 = v) :
    given? s es = some v := by
  cases hg : given? s es with
  | none => exact absurd hk (given?_eq_none_iff.1 hg _ hm)
  | some w =>
    obtain ⟨l, hl, hs⟩ := mem_of_given? hg
    have hw : w = v := h _ hl hs
    rw [hw]

/-- What entries in step with one another give for a setting is related as theirs. -/
theorem given?_rel {R : Value → Value → Prop} {s : Setting} {es fs : Entries}
    (h : List.Forall₂ (fun e f => Setting.ofKey? e.1 = Setting.ofKey? f.1 ∧
      (Setting.ofKey? e.1 = some s → R e.2 f.2)) es fs) :
    Option.Rel R (given? s es) (given? s fs) := by
  induction h with
  | nil => exact .none
  | @cons e f es fs he _ ih =>
    obtain ⟨k, v⟩ := e
    obtain ⟨l, w⟩ := f
    obtain ⟨hkl, hvw⟩ := he
    simp only at hkl hvw
    rw [given?, given?, ← hkl]
    generalize given? s es = x at ih
    generalize given? s fs = y at ih
    cases ih with
    | some h => exact .some h
    | none =>
      by_cases hk : Setting.ofKey? k = some s
      · simp only [hk, if_true, Option.none_or]
        exact .some (hvw hk)
      · simp only [hk, if_false, Option.none_or]
        exact .none

/-- What is given for a setting stays if only other values change. -/
theorem given?_map {s : Setting} {f : Value × Value → Value} {es : Entries}
    (h : ∀ e ∈ es, Setting.ofKey? e.1 = some s → f e = e.2) :
    given? s (es.map fun e => (e.1, f e)) = given? s es := by
  have hstep : List.Forall₂ (fun e f => Setting.ofKey? e.1 = Setting.ofKey? f.1 ∧
      (Setting.ofKey? e.1 = some s → e.2 = f.2)) (es.map fun e => (e.1, f e)) es :=
    List.forall₂_map_left_iff.2 (List.forall₂_same.2 fun e he => ⟨rfl, h e he⟩)
  have hrel := given?_rel hstep
  generalize given? s (es.map fun e => (e.1, f e)) = x at hrel
  generalize given? s es = y at hrel
  cases hrel with
  | none => rfl
  | some h => rw [h]

/-! ### Settings that are named once -/

/-- No setting is named under two keys, whatever other keys there are. -/
def NamedOnce {α : Type} (t : Table α) : Prop :=
  t.Pairwise fun e f => ∀ s, Setting.ofKey? e.1 = some s → Setting.ofKey? f.1 ≠ some s

/-- The settings that the keys name, in their order. -/
def names {α : Type} (t : Table α) : List (Option Setting) := t.map fun e => Setting.ofKey? e.1

theorem names_of_keys {α β : Type} {t : Table α} {u : Table β} (h : Table.keys t = Table.keys u) :
    names t = names u := by
  have hkeys {γ : Type} (t : Table γ) : names t = (Table.keys t).map Setting.ofKey? := by
    rw [Table.keys, List.map_map]
    rfl
  rw [hkeys, hkeys, h]

theorem namedOnce_congr {α β : Type} {t : Table α} {u : Table β} (h : names t = names u) :
    NamedOnce t ↔ NamedOnce u := by
  have hnames {γ : Type} (t : Table γ) : NamedOnce t ↔
      (names t).Pairwise fun x y => ∀ s, x = some s → y ≠ some s := by
    rw [names, List.pairwise_map, NamedOnce]
  rw [hnames, hnames, h]

/-- What names a setting is the one entry that does. -/
theorem NamedOnce.eq_of_mem {α : Type} {t : Table α} (h : NamedOnce t) {e f : Value × α}
    (he : e ∈ t) (hf : f ∈ t) {s : Setting} (hes : Setting.ofKey? e.1 = some s)
    (hfs : Setting.ofKey? f.1 = some s) : e = f := by
  by_contra hne
  have : Std.Symm fun e f : Value × α =>
      ∀ s, Setting.ofKey? e.1 = some s → Setting.ofKey? f.1 ≠ some s :=
    ⟨fun _ _ h s hf he => h s he hf⟩
  exact List.Pairwise.forall h he hf hne s hes hfs

variable {es b o : Entries} {k v : Value} {s : Setting}

theorem NamedOnce.given? (h : NamedOnce es) (hm : (k, v) ∈ es) (hk : Setting.ofKey? k = some s) :
    given? s es = some v :=
  given?_of_forall hm hk fun _ he hs => congrArg Prod.snd (h.eq_of_mem he hm hs hk)

theorem NamedOnce.get? (h : NamedOnce es) (hm : (k, v) ∈ es) (hk : Setting.ofKey? k = some s) :
    Table.get? k es = some v := by
  obtain ⟨t, rfl⟩ := Value.text_of_ofKey? hk
  cases hg : Table.get? (.text t) es with
  | none =>
    have hne := Table.get?_eq_none_iff.1 hg _ hm
    rw [Value.sameKey_self rfl] at hne
    cases hne
  | some w =>
    obtain ⟨l, hl, hs⟩ := Table.mem_of_get? hg
    rw [Value.eq_of_sameKey hs hk] at hl
    cases h.eq_of_mem hl hm hk hk
    rfl

/-- The one entry that names a setting may give it another value. -/
theorem NamedOnce.given?_map (h : NamedOnce es) {f : Value × Value → Value} (hm : (k, v) ∈ es)
    (hk : Setting.ofKey? k = some s) :
    Settings.given? s (es.map fun e => (e.1, f e)) = some (f (k, v)) := by
  refine given?_of_forall (List.mem_map_of_mem hm) hk (List.forall_mem_map.2 fun e he hs => ?_)
  rw [h.eq_of_mem he hm hs hk]

/-- What stands under a setting's key is what is given for it. -/
theorem NamedOnce.given?_of_get? (h : NamedOnce es) (hg : Table.get? k es = some v)
    (hk : Setting.ofKey? k = some s) : Settings.given? s es = some v := by
  obtain ⟨l, hl, hs⟩ := Table.mem_of_get? hg
  rw [Value.eq_of_sameKey hs hk] at hl
  exact h.given? hl hk

/-- With one layer over another a setting is given what the upper one says, or else what the
lower one does. -/
theorem given?_overlay (hb : NamedOnce b) (ho : NamedOnce o) (s : Setting) :
    given? s (overlay b o) = (given? s o).or (given? s b) := by
  rw [overlay, Value.layEntries, given?_append]
  cases hg : given? s o with
  | none =>
    -- The upper layer has no such key, so nothing is added and nothing changes.
    have hno := given?_eq_none_iff.1 hg
    have hfilter : given? s (o.filter fun e => !Table.has e.1 b) = none :=
      given?_eq_none_iff.2 fun e he => hno e (List.mem_filter.1 he).1
    have hkept : ∀ e ∈ b, Setting.ofKey? e.1 = some s →
        ((Table.get? e.1 o).map fun v => v).getD e.2 = e.2 := fun e _ hs => by
      cases hget : Table.get? e.1 o with
      | none => rfl
      | some w =>
        obtain ⟨l, hl, hle⟩ := Table.mem_of_get? hget
        rw [Value.eq_of_sameKey hle hs] at hl
        exact (hno (e.1, w) hl hs).elim
    rw [hfilter, Option.none_or, Option.none_or]
    exact given?_map hkept
  | some v =>
    obtain ⟨k, hm, hk⟩ := mem_of_given? hg
    cases hhas : Table.has k b with
    | false =>
      -- The upper layer's key is added at the end.
      have hmem : (k, v) ∈ o.filter fun e => !Table.has e.1 b :=
        List.mem_filter.2 ⟨hm, by rw [hhas]; rfl⟩
      rw [given?_of_forall hmem hk fun e he hs =>
        congrArg Prod.snd (ho.eq_of_mem (List.mem_filter.1 he).1 hm hs hk)]
      rfl
    | true =>
      -- Its value stands where the lower layer has the key.
      have hfilter : given? s (o.filter fun e => !Table.has e.1 b) = none := by
        refine given?_eq_none_iff.2 fun e he hs => ?_
        obtain ⟨heo, hnot⟩ := List.mem_filter.1 he
        cases ho.eq_of_mem heo hm hs hk
        rw [hhas] at hnot
        cases hnot
      obtain ⟨c, hc⟩ := Option.isSome_iff_exists.1 hhas
      obtain ⟨l, hl, hs⟩ := Table.mem_of_get? hc
      rw [Value.eq_of_sameKey hs hk] at hl
      have hvalue : ((Table.get? k o).map fun v => v).getD c = v := by
        rw [ho.get? hm hk]
        rfl
      rw [hfilter, Option.none_or, hb.given?_map hl hk, hvalue]
      rfl

/-- Where both layers give a setting a dict under one key the two are merged, and else the
value is that of the overlay. -/
theorem given?_merged (b o : Entries) (s : Setting) :
    Option.Rel (fun v w => v = w ∨ ∃ k c d, v = Value.laid (.dict c) (.dict d) ∧ w = .dict d ∧
        Setting.ofKey? k = some s ∧ (k, .dict c) ∈ b ∧ Table.get? k o = some (.dict d))
      (given? s (Value.layEntries Value.laid b o)) (given? s (overlay b o)) := by
  refine given?_rel (List.rel_append (forall₂_map_same fun e he => ⟨rfl, fun hs => ?_⟩)
    (List.forall₂_same.2 fun e _ => ⟨rfl, fun _ => .inl rfl⟩))
  obtain ⟨k, c⟩ := e
  cases hget : Table.get? k o with
  | none => exact .inl rfl
  | some v =>
    rcases Value.laid_eq_or_dicts c v with h | ⟨c, d, rfl, rfl⟩
    · exact .inl h
    · exact .inr ⟨k, c, d, rfl, rfl, hs, he, hget⟩

end Settings
end MigrationSetup
