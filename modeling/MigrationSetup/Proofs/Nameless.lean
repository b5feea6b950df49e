import MigrationSetup.Proofs.Result
import MigrationSetup.Proofs.Twin
import MigrationSetup.Settings.Binding

/-! Names say nothing.

No setting depends on the name of a result that is no number. So entries that are the same
but for names bind to the same settings, or fail in the same way (`Settings.ofEntries_same`). -/
namespace MigrationSetup

namespace Value

mutual

/-- A value in which no result that is no number has a name. -/
def nameless : Value → Value
  | .nan _ => .float .nan
  | .list xs => .list (namelessAll xs)
  | .tuple xs => .tuple (namelessAll xs)
  | .dict es => .dict (namelessEntries es)
  | .set xs => .set (namelessAll xs)
  | v => v

def namelessAll : List Value → List Value
  | [] => []
  | v :: vs => nameless v :: namelessAll vs

def namelessEntries : List (Value × Value) → List (Value × Value)
  | [] => []
  | (k, v) :: rest => (nameless k, nameless v) :: namelessEntries rest

end

theorem kind_nameless (v : Value) : v.nameless.kind = v.kind := by
  cases v <;> rfl

theorem text?_nameless (v : Value) : v.nameless.text? = v.text? := by
  cases v <;> rfl

mutual

theorem hasLong_nameless : ∀ v : Value, v.nameless.hasLong = v.hasLong
  | .list xs => hasLongIn_nameless xs
  | .tuple xs => hasLongIn_nameless xs
  | .dict es => hasLongUnder_nameless es
  | .set xs => hasLongIn_nameless xs
  | .null => rfl
  | .bool _ => rfl
  | .int _ => rfl
  | .float _ => rfl
  | .nan _ => rfl
  | .text _ => rfl
  | .mode _ => rfl
  | .bytes _ => rfl
  | .date _ => rfl
  | .moment _ => rfl
  | .loop _ => rfl

theorem hasLongIn_nameless : ∀ xs : List Value, hasLongIn (namelessAll xs) = hasLongIn xs
  | [] => rfl
  | v :: vs => by
    simp only [namelessAll, hasLongIn, hasLong_nameless v, hasLongIn_nameless vs]

theorem hasLongUnder_nameless :
    ∀ es : List (Value × Value), hasLongUnder (namelessEntries es) = hasLongUnder es
  | [] => rfl
  | (k, v) :: rest => by
    simp only [namelessEntries, hasLongUnder, hasLong_nameless k, hasLong_nameless v,
      hasLongUnder_nameless rest]

end

/-- Twins are the same but for a name. -/
theorem Twin.nameless {N : Nat → Nat → Prop} {v w : Value} (h : Twin N v w) :
    v.nameless = w.nameless := by
  cases h <;> rfl

theorem namelessAll_eq {xs ys : List Value}
    (h : List.Forall₂ (fun v w => v.nameless = w.nameless) xs ys) :
    namelessAll xs = namelessAll ys := by
  induction h with
  | nil => rfl
  | cons hv _ ih => simp only [namelessAll, hv, ih]

theorem namelessEntries_eq {es fs : Entries}
    (h : List.Forall₂ (fun e f => e.1.nameless = f.1.nameless ∧ e.2.nameless = f.2.nameless)
      es fs) :
    namelessEntries es = namelessEntries fs := by
  induction h with
  | nil => rfl
  | cons he _ ih => simp only [namelessEntries, he, ih]

end Value

/-! ### Binding -/

namespace Settings

/-- Entries under keys that are twins, of values that are the same but for names. -/
abbrev Same (N : Nat → Nat → Prop) : Entries → Entries → Prop :=
  Table.Twin N fun v w => v.nameless = w.nameless

theorem texts_nameless (xs : List Value) : texts (Value.namelessAll xs) = texts xs := by
  induction xs with
  | nil => rfl
  | cons x xs ih =>
    simp only [Value.namelessAll, texts, Value.text?_nameless, Value.kind_nameless, ih]

theorem scanList_nameless (s : Setting) (v : Value) : scanList s v.nameless = scanList s v := by
  cases v with
  | list xs => simp only [Value.nameless, scanList, texts_nameless]
  | tuple xs => simp only [Value.nameless, scanList, texts_nameless]
  | _ => rfl

theorem mode?_nameless (v : Value) : v.nameless.mode? = v.mode? := by
  cases v <;> rfl

theorem textOrNull_nameless (s : Setting) (v : Value) :
    textOrNull s v.nameless = textOrNull s v := by
  cases v <;> rfl

theorem switch_nameless (s : Setting) (standard : Bool) (v : Value) :
    (switch s standard v.nameless).mapError (·.fault) =
      (switch s standard v).mapError (·.fault) := by
  have hshowing (v : Value) : (SettingError.showing v.nameless (.notBool s v.nameless)).fault =
      (SettingError.showing v (.notBool s v)).fault := by
    simp only [SettingError.showing, Value.hasLong_nameless]
    split <;> rfl
  cases v with
  | null => rfl
  | bool b => rfl
  | text t => rfl
  | mode m => rfl
  | _ => exact congrArg Except.error (hshowing _)

theorem lastOf_same {N : Nat → Nat → Prop} (s : Setting) {es fs : Entries} (h : Same N es fs)
    {v w : Value} (hv : v.nameless = w.nameless) :
    (lastOf s v es).nameless = (lastOf s w fs).nameless := by
  induction h generalizing v w with
  | nil => exact hv
  | @cons e f es fs he _ ih =>
    obtain ⟨k, x⟩ := e
    obtain ⟨l, y⟩ := f
    have hk : Setting.ofKey? k = Setting.ofKey? l := congrArg Setting.ofName? he.1.spelled
    simp only [lastOf, hk]
    refine ih ?_
    by_cases hs : Setting.ofKey? l = some s
    · rw [if_pos hs, if_pos hs]
      exact he.2
    · rw [if_neg hs, if_neg hs]
      exact hv

theorem stranger?_same {N : Nat → Nat → Prop} {es fs : Entries} (h : Same N es fs) :
    Option.Rel (Value.Twin N) (stranger? es) (stranger? fs) := by
  induction h with
  | nil => exact .none
  | @cons e f es fs he _ ih =>
    obtain ⟨k, x⟩ := e
    obtain ⟨l, y⟩ := f
    have hk : Setting.ofKey? k = Setting.ofKey? l := congrArg Setting.ofName? he.1.spelled
    simp only [stranger?, hk]
    split
    · exact .some he.1
    · exact ih

/-- Entries bind alike if they are the same but for names: to the same settings, or to an
error of the same class. -/
theorem ofEntries_same {N : Nat → Nat → Prop} {es fs : Entries} (h : Same N es fs) :
    (ofEntries es).mapError (·.fault) = (ofEntries fs).mapError (·.fault) := by
  have hsame {α : Type} {f : Value → Except SettingError α}
      (hf : ∀ v, (f v.nameless).mapError (·.fault) = (f v).mapError (·.fault)) (s : Setting) :
      (f (lastOf s .null es)).mapError (·.fault) = (f (lastOf s .null fs)).mapError (·.fault) := by
    have hlast : (lastOf s .null es).nameless = (lastOf s .null fs).nameless := lastOf_same s h rfl
    rw [← hf, hlast, hf]
  have hstranger := stranger?_same h
  simp only [ofEntries]
  generalize stranger? es = x at hstranger
  generalize stranger? fs = y at hstranger
  cases hstranger with
  | @some k l hkl =>
    have hfault : (SettingError.showing k (.unknownSetting k)).fault =
        (SettingError.showing l (.unknownSetting l)).fault := by
      simp only [SettingError.showing, hkl.hasLong]
      split <;> rfl
    exact congrArg Except.error hfault
  | none =>
    refine bind_mapError (hsame (fun v => by rw [scanList_nameless]) .packages) fun _ => ?_
    refine bind_mapError (hsame (fun v => by rw [scanList_nameless]) .locations) fun _ => ?_
    refine bind_mapError (hsame (fun v => by rw [mode?_nameless]) .mode) fun _ => ?_
    refine bind_mapError (hsame (fun v => by rw [textOrNull_nameless]) .database) fun _ => ?_
    refine bind_mapError (hsame (fun v => by rw [textOrNull_nameless]) .installedBy) fun _ => ?_
    refine bind_mapError (hsame (switch_nameless .enabled true) .enabled) fun _ => ?_
    exact bind_mapError (hsame (switch_nameless .checkLocation true) .checkLocation) fun _ => rfl

end Settings
end MigrationSetup
