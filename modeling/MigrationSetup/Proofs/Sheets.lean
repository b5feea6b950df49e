import MigrationSetup.Proofs.Uniting

/-! What the binder sees.

Of entries the binder sees whether a key is strange and what each setting makes of what is
given for it (`Sheet`). Whatever is seen alike gives the same settings, or is refused alike but
for what cannot be shown (`Sheet.gives_of`), and of one layer over another the binder sees one
sheet over the other (`Sheet.of_overlay`). -/
namespace MigrationSetup

/-! ### Rough classes -/

namespace SettingError

/-- The class of an error. One that cannot be shown counts among those of single settings. -/
def rough (e : SettingError) : Fault :=
  if e.fault = .longNumber then .invalidSetting else e.fault

theorem rough_of_fault {e : SettingError} (h : e.fault = .invalidSetting) :
    e.rough = .invalidSetting := by
  simp [rough, h]

theorem rough_showing (v : Value) {e : SettingError} (h : e.fault = .invalidSetting) :
    (showing v e).rough = .invalidSetting := by
  unfold showing
  split
  · rfl
  · exact rough_of_fault h

end SettingError

theorem Settings.scanList_rough {s : Setting} {v : Value} {e : SettingError}
    (h : scanList s v = .error e) : e.rough = .invalidSetting := by
  cases v with
  | list xs =>
    simp only [scanList] at h
    split at h <;> cases h
    rfl
  | tuple xs =>
    simp only [scanList] at h
    split at h <;> cases h
    rfl
  | _ => cases h <;> rfl

/-- What a setting refuses is refused for that setting. -/
theorem Setting.read_rough {s : Setting} {v : Value} {e : SettingError}
    (h : s.read v = .error e) : e.rough = .invalidSetting := by
  have hof {α : Type} {x : Except SettingError α} {f : α → Part} (hx : x.map f = .error e) :
      x = .error e := by
    cases x with
    | error e' => exact congrArg Except.error (Except.error.inj hx)
    | ok a => cases hx
  have htext {s : Setting} (hx : Settings.textOrNull s v = .error e) :
      e.rough = .invalidSetting := by
    unfold Settings.textOrNull at hx
    split at hx <;> cases hx
    rfl
  have hswitch {s : Setting} (hx : Settings.switch s true v = .error e) :
      e.rough = .invalidSetting := by
    unfold Settings.switch at hx
    split at hx
    · cases hx
    · cases hx
    · split at hx <;> cases hx
      exact SettingError.rough_showing _ rfl
  cases s with
  | packages => exact Settings.scanList_rough (hof h)
  | locations => exact Settings.scanList_rough (hof h)
  | mode =>
    have hx : v.mode? = .error e := hof h
    unfold Value.mode? at hx
    split at hx
    · cases hx
    · cases hx
    · split at hx <;> cases hx
      rfl
    · cases hx
      rfl
  | database => exact htext (hof h)
  | installedBy => exact htext (hof h)
  | enabled => exact hswitch (hof h)
  | checkLocation => exact hswitch (hof h)

namespace Settings

theorem ofEntries_rough {es : Entries} {e : SettingError} (h : ofEntries es = .error e) :
    e.rough = .invalidSetting := by
  have hself {α : Type} {x : Except SettingError α} (hx : ∀ e, x = .error e →
      e.rough = .invalidSetting) : Agree (fun e _ => e.rough = .invalidSetting) x x := by
    cases x with
    | error e => exact .failed (hx e rfl)
    | ok a => exact .same a
  have hagree : Agree (fun e _ => e.rough = .invalidSetting) (ofEntries es) (ofEntries es) := by
    refine ofEntries_agree ?_ fun s => hself fun e => Setting.read_rough
    cases stranger? es with
    | none => exact .none
    | some k => exact .some (SettingError.rough_showing k rfl)
  rw [h] at hagree
  cases hagree with
  | failed h => exact h

/-- The same settings, or rejections of one rough class. -/
inductive Near : Except Failure Settings → Except Failure Settings → Prop
  | same (r : Except Failure Settings) : Near r r
  | rejected {e f : SettingError} (rough : e.rough = f.rough) :
      Near (.error (.setting e)) (.error (.setting f))

theorem Alike.near {x y : Except Failure Settings} (h : Alike x y) : Near x y := by
  cases h with
  | same => exact .same _
  | rejected fault =>
    refine .rejected ?_
    rw [SettingError.rough, SettingError.rough, fault]

end Settings

/-! ### Sheets -/

/-- What the binder sees of entries: whether a key is strange, and for each setting that is
given something what it makes of this, if it takes it. -/
@[ext]
structure Sheet where
  strange : Bool
  seen : Setting → Option (Option Part)

namespace Sheet
open Settings

def of (es : Entries) : Sheet where
  strange := (stranger? es).isSome
  seen s := (given? s es).map s.seen

theorem of_strange_iff {es : Entries} : (of es).strange = false ↔ stranger? es = none := by
  simp [of]

theorem of_seen (es : Entries) (s : Setting) : (of es).seen s = (given? s es).map s.seen := rfl

/-- One sheet with another over it. -/
def beneath (low high : Sheet) : Sheet where
  strange := low.strange || high.strange
  seen s := (high.seen s).or (low.seen s)

/-- What a result is that comes of entries seen so. -/
structure Gives (x : Sheet) (r : Except SettingError Settings) : Prop where
  ok_iff : ∀ l, r = .ok l ↔ x.strange = false ∧
    ∀ s, (x.seen s).getD (some (standard.part s)) = some (l.part s)
  rough : ∀ e, r = .error e → e.rough = .invalidSetting

theorem gives_of (es : Entries) : (of es).Gives (ofEntries es) := by
  refine ⟨fun l => ?_, fun e => ofEntries_rough⟩
  rw [ofEntries_eq_ok_iff]
  refine and_congr of_strange_iff.symm (forall_congr' fun s => ?_)
  rw [lastOf_eq, of_seen]
  cases given? s es with
  | none =>
    rw [Option.getD_none, read_null]
    exact ⟨fun h => congrArg some (Except.ok.inj h), fun h => congrArg _ (Option.some.inj h)⟩
  | some v => exact Setting.seen_eq_some_iff.symm

/-- Entries that name the same settings, with values that these see alike, are seen alike. -/
theorem of_congr {es fs : Entries} (h : List.Forall₂ (fun e f =>
      Setting.ofKey? e.1 = Setting.ofKey? f.1 ∧ ∀ s : Setting, s.seen e.2 = s.seen f.2) es fs) :
    of es = of fs := by
  have hstrange : (stranger? es).isSome = (stranger? fs).isSome := by
    induction h with
    | nil => rfl
    | @cons e f es fs he _ ih =>
      simp only [stranger?, he.1]
      split
      · rfl
      · exact ih
  have hseen : (fun s => (given? s es).map s.seen) = fun s => (given? s fs).map s.seen := by
    funext s
    have hrel : Option.Rel (fun v w => s.seen v = s.seen w) (given? s es) (given? s fs) :=
      given?_rel (h.imp fun e f he => ⟨he.1, fun _ => he.2 s⟩)
    generalize given? s es = x at hrel
    generalize given? s fs = y at hrel
    cases hrel with
    | none => rfl
    | some h => exact congrArg some h
  rw [of, of, hstrange, hseen]

/-- Of one layer over another the binder sees one sheet over the other. -/
theorem of_overlay {b o : Entries} (hb : NamedOnce b) (ho : NamedOnce o) :
    of (overlay b o) = (of b).beneath (of o) := by
  have hstrange : stranger? (overlay b o) = none ↔ stranger? b = none ∧ stranger? o = none := by
    rw [overlay, stranger?_layEntries]
    refine and_congr_right fun hb => ?_
    simp only [stranger?_eq_none_iff, List.mem_filter, and_imp] at hb ⊢
    refine ⟨fun h e he => ?_, fun h e he _ => h e he⟩
    cases hget : Table.get? e.1 b with
    | none =>
      refine h e he ?_
      rw [Table.has_eq_false_iff.2 hget]
      rfl
    | some c =>
      -- A key that both have names a setting, as it does below.
      obtain ⟨k, hk, hke⟩ := Table.mem_of_get? hget
      obtain ⟨s, hs⟩ := Option.isSome_iff_exists.1 (hb _ hk)
      rw [Value.eq_of_sameKey ((Value.sameKey_comm e.1 k).trans hke) hs, hs]
      rfl
  refine Sheet.ext ?_ (funext fun s => ?_)
  · rw [Bool.eq_iff_iff, ← not_iff_not, Bool.not_eq_true, Bool.not_eq_true, of_strange_iff,
      hstrange]
    simp only [beneath, Bool.or_eq_false_iff, of_strange_iff]
  · simp only [beneath, of_seen, given?_overlay hb ho]
    cases given? s o with
    | none => rfl
    | some v => rfl

end Sheet

theorem Settings.Kindred.sheet {es fs : Entries} (h : Kindred es fs) :
    Sheet.of es = Sheet.of fs :=
  Sheet.of_congr (h.imp fun _ _ he => ⟨congrArg Setting.ofKey? he.1, he.2⟩)

end MigrationSetup
