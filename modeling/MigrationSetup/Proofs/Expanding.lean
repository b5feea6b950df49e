import MigrationSetup.Proofs.Meaning
import MigrationSetup.Proofs.Parts
import MigrationSetup.Proofs.Sectioning

/-! Documents in which nothing is shared.

With a copy of an object in each place where it stands, a document is the plain value that it
means (`Document.expanded`). It still binds to the same settings, or it fails in the same way
(`Settings.ofDocument_expanded`). For the binder unfolds each entry by itself, and that is what
the entry means but for names (`Graph.nameless_unfoldEntries`), which say nothing
(`Settings.ofValue_nameless`). -/
namespace MigrationSetup

/-! ### Names say nothing -/

namespace Value

theorem namelessAll_eq_map (xs : List Value) : namelessAll xs = xs.map nameless := by
  induction xs with
  | nil => rfl
  | cons v vs ih => rw [namelessAll, ih, List.map_cons]

mutual

theorem shown_nameless : ∀ v : Value, v.nameless.shown = v.shown
  | .list xs => by simp only [nameless, shown, shownAll_nameless xs]
  | .tuple xs => by
    have hlength : (namelessAll xs).length = xs.length := by
      rw [namelessAll_eq_map, List.length_map]
    simp only [nameless, shown, shownAll_nameless xs, hlength]
  | .dict es => by simp only [nameless, shown, shownEntries_nameless es]
  | .set xs => by
    simp only [nameless, shown, shownAll_nameless xs]
    cases xs <;> rfl
  | .null => rfl
  | .bool _ => rfl
  | .int _ => rfl
  | .float _ => rfl
  | .nan _ => rfl
  | .text _ => rfl
  | .mode _ => rfl
  | .bytes _ => rfl
  | .date _ => rfl
  | .moment _ => rfl
  | .loop _ => rfl

theorem shownAll_nameless : ∀ xs : List Value, shownAll (namelessAll xs) = shownAll xs
  | [] => rfl
  | v :: vs => by simp only [namelessAll, shownAll, shown_nameless v, shownAll_nameless vs]

theorem shownEntries_nameless :
    ∀ es : List (Value × Value), shownEntries (namelessEntries es) = shownEntries es
  | [] => rfl
  | (k, v) :: rest => by
    simp only [namelessEntries, shownEntries, shown_nameless k, shown_nameless v,
      shownEntries_nameless rest]

end

theorem spelled_nameless (v : Value) : v.nameless.spelled = v.spelled := by
  have hshown := congrArg Text.ofString v.shown_nameless
  cases v <;> first | rfl | exact hshown

/-- Under a text stands what stood there. -/
theorem get?_nameless (s : Text) (es : Entries) :
    Table.get? (.text s) (namelessEntries es) = (Table.get? (.text s) es).map nameless := by
  have hkey (k : Value) : sameKey k.nameless (.text s) = sameKey k (.text s) := by
    have htuple (xs : List Value) : sameKey (.tuple xs) (.text s) = false := by
      rw [← Bool.not_eq_true, sameKey_iff]
      rintro ⟨x, hx, hs⟩
      obtain ⟨y, -, rfl⟩ := Option.map_eq_some_iff.1 hx
      cases hs
    cases k with
    | tuple xs => rw [nameless, htuple, htuple]
    | _ => rfl
  induction es with
  | nil => rfl
  | cons e es ih =>
    obtain ⟨k, v⟩ := e
    simp only [namelessEntries, Table.get?, hkey, ih]
    split <;> rfl

end Value

theorem Setting.ofKey?_nameless (k : Value) : ofKey? k.nameless = ofKey? k := by
  rw [ofKey?, ofKey?, k.spelled_nameless]

/-- A setting takes a value or refuses it in one way with names and without. -/
theorem Setting.read_nameless (s : Setting) (v : Value) :
    Agree (fun e f : SettingError => e.fault = f.fault) (s.read v.nameless) (s.read v) := by
  have hfault {α : Type} {x y : Except SettingError α} {f : α → Part}
      (h : x.mapError (·.fault) = y.mapError (·.fault)) :
      Agree (fun e f : SettingError => e.fault = f.fault) (x.map f) (y.map f) := by
    cases x with
    | error e =>
      cases y with
      | error e' => exact .failed (Except.error.inj h)
      | ok b => cases h
    | ok a =>
      cases y with
      | error e' => cases h
      | ok b =>
        cases h
        exact .same _
  cases s with
  | packages => exact hfault (congrArg _ (Settings.scanList_nameless .packages v))
  | locations => exact hfault (congrArg _ (Settings.scanList_nameless .locations v))
  | mode => exact hfault (congrArg _ (Settings.mode?_nameless v))
  | database => exact hfault (congrArg _ (Settings.textOrNull_nameless .database v))
  | installedBy => exact hfault (congrArg _ (Settings.textOrNull_nameless .installedBy v))
  | enabled => exact hfault (Settings.switch_nameless .enabled true v)
  | checkLocation => exact hfault (Settings.switch_nameless .checkLocation true v)

namespace Settings

theorem lastOf_nameless (s : Setting) (last : Value) (es : Entries) :
    lastOf s last.nameless (Value.namelessEntries es) = (lastOf s last es).nameless := by
  induction es generalizing last with
  | nil => rfl
  | cons e es ih =>
    obtain ⟨k, v⟩ := e
    rw [Value.namelessEntries, lastOf, lastOf, Setting.ofKey?_nameless, ← ih]
    split <;> rfl

theorem stranger?_nameless (es : Entries) :
    stranger? (Value.namelessEntries es) = (stranger? es).map Value.nameless := by
  induction es with
  | nil => rfl
  | cons e es ih =>
    obtain ⟨k, v⟩ := e
    rw [Value.namelessEntries, stranger?, stranger?, Setting.ofKey?_nameless, ih]
    split <;> rfl

theorem ofEntries_nameless (es : Entries) :
    (ofEntries (Value.namelessEntries es)).mapError (·.fault) =
      (ofEntries es).mapError (·.fault) := by
  have hagree : Agree (fun e f : SettingError => e.fault = f.fault)
      (ofEntries (Value.namelessEntries es)) (ofEntries es) := by
    refine ofEntries_agree ?_ fun s => ?_
    · rw [stranger?_nameless]
      cases stranger? es with
      | none => exact .none
      | some k =>
        refine .some ?_
        simp only [SettingError.showing, k.hasLong_nameless]
        split <;> rfl
    · have hlast : lastOf s .null (Value.namelessEntries es) = (lastOf s .null es).nameless :=
        lastOf_nameless s .null es
      rw [hlast]
      exact s.read_nameless _
  generalize ofEntries (Value.namelessEntries es) = x at hagree ⊢
  generalize ofEntries es = y at hagree ⊢
  cases hagree with
  | same => rfl
  | failed h => exact congrArg Except.error h

/-- A value binds in one way with names and without. -/
theorem ofValue_nameless (v : Value) :
    (ofValue v.nameless).mapError (·.fault) = (ofValue v).mapError (·.fault) := by
  cases v with
  | dict root =>
    have hget := Value.get?_nameless sectionKey root
    rw [Value.nameless]
    cases h : Table.get? (.text sectionKey) root with
    | none =>
      rw [h] at hget
      rw [ofValue_bare hget, ofValue_bare h]
      exact ofEntries_nameless root
    | some v =>
      rw [h] at hget
      cases v with
      | dict es =>
        rw [ofValue_section hget, ofValue_section h]
        exact ofEntries_nameless es
      | _ =>
        simp only [ofValue, sectionOf, hget, h]
        rfl
  | _ => rfl

end Settings

/-! ### Documents with copies -/

/-- The document with a copy of an object in each place where the object stands. -/
def Document.expanded : Document → Document
  | .plain v => .plain v
  | .shared g => .plain g.anonymous.unfold

/-- No object of a document holds itself. -/
def Document.Grounded : Document → Prop
  | .plain _ => True
  | .shared g => g.root.Grounded g.objects

/-- What the binder looks at is what a graph means, but for names. -/
theorem Graph.nameless_unfoldEntries {g : Graph} (h : g.root.Grounded g.objects) (key : Value) :
    (g.unfoldEntries key).nameless = (g.root.meaning g.objects).nameless := by
  cases hi : g.root.dict? g.objects with
  | none =>
    simp only [unfoldEntries, hi]
    exact (Ref.nameless_meaning _ _).symm
  | some i =>
    rw [Ref.meaning_dict h hi]
    simp only [unfoldEntries, hi]
    refine congrArg Value.dict (Value.namelessEntries_eq (forall₂_map_same fun e he => ?_))
    obtain ⟨k, r⟩ := e
    have hk : k.nameless = k.anonymous.nameless := k.nameless_anonymous.symm
    have hr : (r.unfold g.objects).nameless = (r.meaning g.objects).nameless :=
      (Ref.nameless_meaning _ r).symm
    cases hc : r.dict? g.objects with
    | none => exact ⟨hk, hr⟩
    | some c =>
      simp only
      split
      · refine ⟨hk, ?_⟩
        rw [Ref.meaning_dict (((Ref.dict?_eq_some_iff.1 hi).1 ▸ h).entry he) hc]
        exact congrArg Value.dict (Value.namelessEntries_eq (forall₂_map_same fun e _ =>
          ⟨e.1.nameless_anonymous.symm, (Ref.nameless_meaning _ e.2).symm⟩))
      · exact ⟨hk, hr⟩

namespace Settings

/-- A document binds as it does with copies in all places. -/
theorem ofDocument_expanded {d : Document} (h : d.Grounded) :
    Alike ((ofDocument d).mapError .setting) ((ofDocument d.expanded).mapError .setting) := by
  cases d with
  | plain v => exact .same _
  | shared g =>
    refine .of_fault ?_
    show (ofValue (g.unfoldEntries _)).mapError _ = (ofValue (g.root.meaning g.objects)).mapError _
    rw [← ofValue_nameless, g.nameless_unfoldEntries h, ofValue_nameless]

end Settings
end MigrationSetup
