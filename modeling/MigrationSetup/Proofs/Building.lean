import MigrationSetup.Builder

/-! Runs of a builder.

A builder may be changed, looked at and built any number of times, and some changes may be
refused. `run_holds_last_given` says what it holds after each call: every option has the value
that the last accepted change of it gave, or the one it began with. Refused changes, looking
and building leave all five as they are; building fills in what is missing and asks for the
identity exactly if that is missing. -/
namespace MigrationSetup

/-! ### What a change gives -/

/-- The scan list that items give, if they are accepted: texts make up the list in their
order, and nothing by itself takes the list back. -/
def givenList (items : List Value) : Option (Option (List Value)) :=
  if items.all Value.isText then some (some items)
  else
    match items with
    | [.null] => some none
    | _ => none

/-- The mode that a value gives, if it is accepted. -/
def givenMode : Value → Option (Option TransactionMode)
  | .null => some none
  | .mode m => some (some m)
  | .text s => (TransactionMode.ofText? s).map some
  | _ => none

/-- A scan list is taken back, or taken, or refused for an item that is no text. -/
theorem scanOption_cases (setting : Setting) (items : List Value) :
    (items = [.null] ∧ scanOption setting items = .ok none) ∨
    (items.all Value.isText = true ∧ scanOption setting items = .ok (some items)) ∨
    ∃ v ∈ items, v.isText = false ∧ items ≠ [.null] ∧
      scanOption setting items = .error (.itemKind setting v.kind) := by
  unfold scanOption
  split
  · exact .inl ⟨rfl, rfl⟩
  · next hne =>
    cases ho : firstOther items with
    | none => exact .inr (.inl ⟨by simpa [firstOther] using ho, rfl⟩)
    | some v =>
      have hv : (!v.isText) = true := List.find?_some (p := fun v : Value => !v.isText) ho
      exact .inr (.inr ⟨v, List.mem_of_find?_eq_some ho, by simpa using hv, hne, rfl⟩)

theorem toOption_scanOption (setting : Setting) (items : List Value) :
    (scanOption setting items).toOption = givenList items := by
  rcases scanOption_cases setting items with ⟨rfl, h⟩ | ⟨hall, h⟩ | ⟨v, hv, ht, hne, h⟩
  · rw [h]
    rfl
  · unfold givenList
    rw [h, if_pos hall]
    rfl
  · have hnot : ¬ items.all Value.isText = true := fun hall => by
      rw [List.all_eq_true.1 hall v hv] at ht
      cases ht
    unfold givenList
    rw [h, if_neg hnot]
    split
    · exact absurd rfl hne
    · rfl

theorem toOption_mode? (v : Value) : v.mode?.toOption = givenMode v := by
  cases v with
  | text s =>
    simp only [Value.mode?, givenMode]
    cases TransactionMode.ofText? s <;> rfl
  | _ => rfl

namespace Change

/-- Whether a change is accepted. -/
def isAccepted : Change → Bool
  | .packages items => (givenList items).isSome
  | .locations items => (givenList items).isSome
  | .mode v => (givenMode v).isSome
  | .database _ => true
  | .installedBy _ => true

/-- Why a change is refused: an item that is no text, a text that names no mode, or a mode that
is no text. -/
inductive Refused : Change → SettingError → Prop
  | package {items : List Value} {v : Value} (mem : v ∈ items) (other : v.isText = false) :
      Refused (.packages items) (.itemKind .packages v.kind)
  | location {items : List Value} {v : Value} (mem : v ∈ items) (other : v.isText = false) :
      Refused (.locations items) (.itemKind .locations v.kind)
  | unknown {s : Text} (unnamed : TransactionMode.ofText? s = none) :
      Refused (.mode (.text s)) (.unknownMode s)
  | kind {v : Value} (given : v.isNull = false) (other : v.isText = false) :
      Refused (.mode v) (.modeKind v.kind)

theorem Refused.fault {c : Change} {e : SettingError} (h : Refused c e) :
    e.fault = .invalidSetting := by
  cases h <;> rfl

end Change

theorem scanOption_refused {setting : Setting} {items : List Value} {e : SettingError}
    (h : scanOption setting items = .error e) :
    ∃ v ∈ items, v.isText = false ∧ e = .itemKind setting v.kind := by
  rcases scanOption_cases setting items with ⟨-, h'⟩ | ⟨-, h'⟩ | ⟨v, hv, ht, -, h'⟩
  · cases h.symm.trans h'
  · cases h.symm.trans h'
  · exact ⟨v, hv, ht, Except.error.inj (h.symm.trans h')⟩

theorem mode?_refused {v : Value} {e : SettingError} (h : v.mode? = .error e) :
    Change.Refused (.mode v) e := by
  cases v with
  | null => cases h
  | mode m => cases h
  | text s =>
    simp only [Value.mode?] at h
    cases hs : TransactionMode.ofText? s with
    | none =>
      rw [hs] at h
      cases h
      exact .unknown hs
    | some m =>
      rw [hs] at h
      cases h
  | _ =>
    cases h
    exact .kind rfl rfl

namespace Options

theorem scanList_orNull (xs : Option (List Value)) :
    scanList (Value.orNull (xs.map .tuple)) = .ok xs := by
  cases xs <;> rfl

/-- Making options again changes no field, so a change shows in its own field only. -/
theorem renew_eq (o : Options) : o.renew = .ok o := by
  have hmode : (Value.orNull (o.mode.map .mode)).mode? = .ok o.mode := by
    cases o.mode <;> rfl
  simp only [renew, ofValues, scanList_orNull, hmode]
  rfl

/-- A change puts its value in place, and what follows changes nothing more. -/
theorem change_eq (o : Options) (c : Change) : o.change c = (o.replace c).mapError .setting := by
  unfold change
  cases o.replace c with
  | error e => rfl
  | ok p => exact p.renew_eq

/-- A change that is refused is refused for a reason. -/
theorem replace_refused {o : Options} {c : Change} {e : SettingError}
    (h : o.replace c = .error e) : c.Refused e := by
  have herror {α : Type} {x : Except SettingError α} {f : α → Options}
      (hx : (do return f (← x)) = Except.error e) : x = .error e := by
    cases x with
    | error e' =>
      cases hx
      rfl
    | ok a => cases hx
  cases c with
  | packages items =>
    obtain ⟨v, hv, ht, rfl⟩ := scanOption_refused (herror h)
    exact .package hv ht
  | locations items =>
    obtain ⟨v, hv, ht, rfl⟩ := scanOption_refused (herror h)
    exact .location hv ht
  | mode v => exact mode?_refused (herror h)
  | database v => cases h
  | installedBy v => cases h

/-- The options after a change that is accepted. -/
theorem toOption_replace (o : Options) (c : Change) :
    (o.replace c).toOption =
      match c with
      | .packages items => (givenList items).map fun xs => { o with packages := xs }
      | .locations items => (givenList items).map fun xs => { o with locations := xs }
      | .mode v => (givenMode v).map fun m => { o with mode := m }
      | .database v => some { o with database := v }
      | .installedBy v => some { o with installedBy := v } := by
  have hmap {α : Type} (x : Except SettingError α) (f : α → Options) :
      (do return f (← x) : Except SettingError Options).toOption = x.toOption.map f := by
    cases x <;> rfl
  cases c with
  | packages items => exact (hmap _ _).trans (toOption_scanOption _ items ▸ rfl)
  | locations items => exact (hmap _ _).trans (toOption_scanOption _ items ▸ rfl)
  | mode v => exact (hmap _ _).trans (toOption_mode? v ▸ rfl)
  | database v => rfl
  | installedBy v => rfl

end Options

namespace Builder

/-! ### Calls -/

/-- What can be asked of a builder. -/
inductive Call
  | change (c : Change)
  /-- Looks at the options. -/
  | options
  | build

/-- The builder after a call. -/
def step (b : Builder) : Call → Builder
  | .change c => (b.apply c).2
  | .options => b
  | .build => b.build.2

/-- The builder after calls. -/
def run (b : Builder) : List Call → Builder
  | [] => b
  | c :: calls => run (b.step c) calls

namespace Call

/-! What a call gives an option, if it is an accepted change of that option. -/

def packages? : Call → Option (Option (List Value))
  | .change (.packages items) => givenList items
  | _ => none

def locations? : Call → Option (Option (List Value))
  | .change (.locations items) => givenList items
  | _ => none

def mode? : Call → Option (Option TransactionMode)
  | .change (.mode v) => givenMode v
  | _ => none

def database? : Call → Option Value
  | .change (.database v) => some v
  | _ => none

def installedBy? : Call → Option Value
  | .change (.installedBy v) => some v
  | _ => none

end Call

/-- The last value that calls give, or the one before them. -/
def lastGiven {α : Type} (given? : Call → Option α) (before : α) (calls : List Call) : α :=
  (calls.filterMap given?).getLast?.getD before

/-- How often calls build while no identity is given. -/
def builtUnnamed : Value → List Call → Nat
  | _, [] => 0
  | identity, .build :: calls =>
    (if identity.isNull then 1 else 0) + builtUnnamed identity calls
  | identity, c :: calls => builtUnnamed (c.installedBy?.getD identity) calls

theorem lastGiven_cons {α : Type} (given? : Call → Option α) (before : α) (c : Call)
    (calls : List Call) :
    lastGiven given? before (c :: calls) = lastGiven given? ((given? c).getD before) calls := by
  unfold lastGiven
  cases hc : given? c with
  | none => rw [List.filterMap_cons_none hc, Option.getD_none]
  | some a =>
    rw [List.filterMap_cons_some hc, List.getLast?_cons, Option.getD_some, Option.getD_some]

/-! ### Changing -/

theorem apply_eq (b : Builder) (c : Change) :
    b.apply c =
      match b.options.replace c with
      | .ok o => (.ok (), { b with options := o })
      | .error e => (.error (.setting e), b) := by
  unfold apply
  rw [Options.change_eq]
  cases b.options.replace c <;> rfl

/-- A change is accepted, or refused for a reason and without effect. -/
theorem apply_cases (b : Builder) (c : Change) :
    (c.isAccepted = true ∧ (b.apply c).1 = .ok ()) ∨
      (c.isAccepted = false ∧ ∃ e, b.apply c = (.error (.setting e), b) ∧ c.Refused e) := by
  have hoption := b.options.toOption_replace c
  have haccepted : c.isAccepted = (b.options.replace c).toOption.isSome := by
    rw [hoption]
    cases c <;> simp [Change.isAccepted]
  rw [apply_eq]
  cases hc : b.options.replace c with
  | ok o => exact .inl ⟨by rw [haccepted, hc]; rfl, rfl⟩
  | error e => exact .inr ⟨by rw [haccepted, hc]; rfl, e, rfl, Options.replace_refused hc⟩

theorem options_apply (b : Builder) (c : Change) :
    (b.apply c).2.options = (b.options.replace c).toOption.getD b.options := by
  rw [apply_eq]
  cases b.options.replace c <;> rfl

/-- Every option is what the call gives it, or what it was. -/
theorem options_step (b : Builder) (c : Call) : (b.step c).options =
    ⟨c.packages?.getD b.options.packages, c.locations?.getD b.options.locations,
      c.mode?.getD b.options.mode, c.database?.getD b.options.database,
      c.installedBy?.getD b.options.installedBy⟩ := by
  cases c with
  | change c =>
    show (b.apply c).2.options = _
    rw [options_apply, Options.toOption_replace]
    cases c with
    | packages items =>
      show ((givenList items).map _).getD _ = Options.mk ((givenList items).getD _) _ _ _ _
      cases givenList items <;> rfl
    | locations items =>
      show ((givenList items).map _).getD _ = Options.mk _ ((givenList items).getD _) _ _ _
      cases givenList items <;> rfl
    | mode v =>
      show ((givenMode v).map _).getD _ = Options.mk _ _ ((givenMode v).getD _) _ _
      cases givenMode v <;> rfl
    | database v => rfl
    | installedBy v => rfl
  | options => rfl
  | build => rfl

theorem options_run (b : Builder) (calls : List Call) : (b.run calls).options =
    ⟨lastGiven Call.packages? b.options.packages calls,
      lastGiven Call.locations? b.options.locations calls,
      lastGiven Call.mode? b.options.mode calls,
      lastGiven Call.database? b.options.database calls,
      lastGiven Call.installedBy? b.options.installedBy calls⟩ := by
  induction calls generalizing b with
  | nil => rfl
  | cons c calls ih =>
    rw [run, ih, options_step]
    simp only [lastGiven_cons]

/-! ### Building -/

/-- The configuration that options give: what is set stays as it is, and what is not gets its
default, or this identity. -/
structure Filled (o : Options) (identity : Except Failure Value) (c : Config) : Prop where
  packages : c.packages = o.packages.getD []
  locations : c.locations = o.locations.getD [.text "classpath:neo4j/migrations"]
  mode : c.mode = o.mode.getD .perMigration
  database : c.database = o.database
  named : o.installedBy.isNull = false → c.installedBy = o.installedBy
  unnamed : o.installedBy.isNull = true → identity = .ok c.installedBy

/-- Building fills in what is missing. It fails only if the identity is missing and cannot be
had. -/
theorem build_cases (b : Builder) :
    (∃ c, b.build.1 = .ok c ∧ Filled b.options (b.provider b.asked) c) ∨
      ∃ e, b.build.1 = .error e ∧ b.options.installedBy.isNull = true ∧
        b.provider b.asked = .error e := by
  cases hn : b.options.installedBy.isNull with
  | false =>
    refine .inl ⟨Config.ofOptions b.options .null, ?_, rfl, rfl, rfl, rfl, fun _ => ?_, ?_⟩
    · simp [build, Config.resolve, hn]
    · simp [Config.ofOptions, hn]
    · intro h
      cases hn.symm.trans h
  | true =>
    have hbuild : b.build.1 = (b.provider b.asked).map (Config.ofOptions b.options) := by
      simp [build, Config.resolve, hn]
    rw [hbuild]
    cases hp : b.provider b.asked with
    | error e => exact .inr ⟨e, rfl, rfl, rfl⟩
    | ok x =>
      refine .inl ⟨_, rfl, rfl, rfl, rfl, rfl, fun h => ?_, fun _ => ?_⟩
      · cases hn.symm.trans h
      · simp [Config.ofOptions, hn]

theorem asked_build (b : Builder) :
    b.build.2.asked = b.asked + if b.options.installedBy.isNull then 1 else 0 := by
  cases hn : b.options.installedBy.isNull <;> simp [build, Config.resolve, hn]

theorem asked_run (b : Builder) (calls : List Call) :
    (b.run calls).asked = b.asked + builtUnnamed b.options.installedBy calls := by
  induction calls generalizing b with
  | nil => rfl
  | cons c calls ih =>
    have hidentity : (b.step c).options.installedBy =
        c.installedBy?.getD b.options.installedBy := by
      rw [options_step]
    rw [run, ih, hidentity]
    cases c with
    | change c =>
      have hasked : (b.apply c).2.asked = b.asked := by
        rw [apply_eq]
        cases b.options.replace c <;> rfl
      show (b.apply c).2.asked + _ = _
      rw [hasked]
      rfl
    | options => rfl
    | build =>
      show b.build.2.asked + _ = _
      rw [asked_build, Nat.add_assoc]
      rfl

theorem provider_run (b : Builder) (calls : List Call) : (b.run calls).provider = b.provider := by
  induction calls generalizing b with
  | nil => rfl
  | cons c calls ih =>
    rw [run, ih]
    cases c with
    | change c =>
      show (b.apply c).2.provider = _
      rw [apply_eq]
      cases b.options.replace c <;> rfl
    | options => rfl
    | build => rfl

/-- A build after any calls asks the provider that the builder began with. -/
theorem build_run_cases (o : Options) (provider : Provider) (calls : List Call) :
    let b := (new o provider).run calls
    (∃ c, b.build.1 = .ok c ∧ Filled b.options (provider b.asked) c) ∨
      ∃ e, b.build.1 = .error e ∧ b.options.installedBy.isNull = true ∧
        provider b.asked = .error e := by
  intro b
  have hprovider : b.provider = provider := provider_run _ calls
  exact hprovider ▸ build_cases b

/-- **What a builder holds.** After any calls each option has the value of the last accepted
change of it, or the one from the beginning, and making the options again would change none.
The next change is accepted, or refused for a reason and without effect. The next build keeps
the options and what is set among them, fills in the rest, and fails only if the provider does,
which was asked once for each build without an identity. -/
theorem run_holds_last_given (o : Options) (provider : Provider) (calls : List Call) :
    let b := (new o provider).run calls
    b.options =
        ⟨lastGiven Call.packages? o.packages calls, lastGiven Call.locations? o.locations calls,
          lastGiven Call.mode? o.mode calls, lastGiven Call.database? o.database calls,
          lastGiven Call.installedBy? o.installedBy calls⟩ ∧
      b.options.renew = .ok b.options ∧
      (∀ c : Change, (c.isAccepted = true ∧ (b.apply c).1 = .ok ()) ∨
        (c.isAccepted = false ∧
          ∃ e, b.apply c = (.error (.setting e), b) ∧ c.Refused e ∧
            e.fault = .invalidSetting)) ∧
      b.build.2.options = b.options ∧
      ((∃ c, b.build.1 = .ok c ∧ Filled b.options (provider b.asked) c) ∨
        ∃ e, b.build.1 = .error e ∧ b.options.installedBy.isNull = true ∧
          provider b.asked = .error e) ∧
      b.asked = builtUnnamed o.installedBy calls := by
  intro b
  have hasked : b.asked = builtUnnamed o.installedBy calls :=
    (asked_run _ calls).trans (Nat.zero_add _)
  refine ⟨options_run _ calls, b.options.renew_eq, fun c => ?_, options_build b,
    build_run_cases o provider calls, hasked⟩
  rcases apply_cases b c with haccepted | ⟨hnot, e, happly, hrefused⟩
  · exact .inl haccepted
  · exact .inr ⟨hnot, e, happly, hrefused, hrefused.fault⟩

end Builder
end MigrationSetup
