import Mathlib.Data.List.Forall2
import MigrationSetup.Canonical
import MigrationSetup.Proofs.Table

/-! Values that are one tree.

Values made of nothing, truth values, whole numbers, texts, rows and dicts under texts are
plain (`Value.Plain`). Two of them are one tree if they differ in the order of entries only,
at any depth, and in what is a list and what is a tuple (`Value.SameTree`). The form of a
value is what its canonical text begins with (`Value.form?`). -/
namespace MigrationSetup

/-- What is told apart by the first character of a canonical text. -/
inductive Form
  | null
  | bool (b : Bool)
  | whole
  | text
  | row
  | dict
deriving DecidableEq, Repr

namespace Value

/-- The items of a list or a tuple. -/
def row? : Value → Option (List Value)
  | .list xs => some xs
  | .tuple xs => some xs
  | _ => none

def form? : Value → Option Form
  | .null => some .null
  | .bool b => some (.bool b)
  | .int _ => some .whole
  | .text _ => some .text
  | .mode _ => some .text
  | .list _ => some .row
  | .tuple _ => some .row
  | .dict _ => some .dict
  | _ => none

/-- Nothing, truth values, whole numbers, texts, rows of such values, and dicts of them
under texts. -/
inductive Plain : Value → Prop
  | null : Plain .null
  | bool (b : Bool) : Plain (.bool b)
  | int (n : Int) : Plain (.int n)
  | text {v : Value} (h : v.isText = true) : Plain v
  | row {v : Value} {xs : List Value} (h : v.row? = some xs) (parts : ∀ x ∈ xs, Plain x) : Plain v
  | dict {es : Entries} (keys : ∀ e ∈ es, e.1.isText = true) (distinct : Table.Distinct es)
      (parts : ∀ e ∈ es, Plain e.2) : Plain (.dict es)

/-- One tree, but for the order of entries at any depth and for list against tuple. -/
inductive SameTree : Value → Value → Prop
  | null : SameTree .null .null
  | bool (b : Bool) : SameTree (.bool b) (.bool b)
  | int (n : Int) : SameTree (.int n) (.int n)
  | text {v w : Value} {s : Text} (left : v.text? = some s) (right : w.text? = some s) :
      SameTree v w
  | row {v w : Value} {xs ys : List Value} (left : v.row? = some xs) (right : w.row? = some ys)
      (parts : List.Forall₂ SameTree xs ys) : SameTree v w
  | dict {es gs fs : Entries} (order : es.Perm gs)
      (keys : gs.map (fun e => e.1.text?) = fs.map fun e => e.1.text?)
      (parts : List.Forall₂ SameTree (gs.map Prod.snd) (fs.map Prod.snd)) :
      SameTree (.dict es) (.dict fs)

/-- Entries under one key with one tree. -/
def SameEntry (e f : Value × Value) : Prop := e.1.text? = f.1.text? ∧ SameTree e.2 f.2

theorem forall₂_sameEntry_iff {gs fs : Entries} : List.Forall₂ SameEntry gs fs ↔
    gs.map (fun e => e.1.text?) = fs.map (fun e => e.1.text?) ∧
      List.Forall₂ SameTree (gs.map Prod.snd) (fs.map Prod.snd) := by
  rw [← List.forall₂_eq_eq_eq, List.forall₂_map_left_iff, List.forall₂_map_right_iff,
    List.forall₂_map_left_iff, List.forall₂_map_right_iff]
  constructor
  · intro h
    exact ⟨h.imp fun _ _ h => h.1, h.imp fun _ _ h => h.2⟩
  · rintro ⟨hk, ht⟩
    induction hk with
    | nil => exact .nil
    | cons hk _ ih =>
      cases ht with
      | cons ht hts => exact .cons ⟨hk, ht⟩ (ih hts)

/-! ### Texts and rows -/

theorem row?_of_isText {v : Value} (h : v.isText = true) : v.row? = none := by
  rcases isText_iff.1 h with ⟨s, rfl⟩ | ⟨m, rfl⟩
  · rfl
  · rfl

theorem isText_of_text? {v : Value} {s : Text} (h : v.text? = some s) : v.isText = true := by
  rw [isText, h, Option.isSome_some]

theorem atoms?_of_text? {v : Value} {s : Text} (h : v.text? = some s) :
    v.atoms? = some [.text s] := by
  rcases text?_iff.1 h with rfl | ⟨m, rfl, rfl⟩
  · rfl
  · rfl

theorem form?_of_isText {v : Value} (h : v.isText = true) : v.form? = some .text := by
  rcases isText_iff.1 h with ⟨s, rfl⟩ | ⟨m, rfl⟩
  · rfl
  · rfl

theorem row?_iff {v : Value} {xs : List Value} :
    v.row? = some xs ↔ v = .list xs ∨ v = .tuple xs := by
  cases v <;> simp [row?]

theorem form?_of_row {v : Value} {xs : List Value} (h : v.row? = some xs) :
    v.form? = some .row := by
  rcases row?_iff.1 h with rfl | rfl
  · rfl
  · rfl

theorem row_of_form? {v : Value} (h : v.form? = some .row) : ∃ xs, v.row? = some xs := by
  cases v <;> first | exact ⟨_, rfl⟩ | cases h

theorem isText_of_form? {v : Value} (h : v.form? = some .text) : v.isText = true := by
  cases v <;> first | rfl | cases h

theorem null_of_form? {v : Value} (h : v.form? = some .null) : v = .null := by
  cases v <;> first | rfl | cases h

theorem bool_of_form? {v : Value} {b : Bool} (h : v.form? = some (.bool b)) : v = .bool b := by
  cases v <;> cases h
  rfl

theorem int_of_form? {v : Value} (h : v.form? = some .whole) : ∃ n, v = .int n := by
  cases v <;> first | exact ⟨_, rfl⟩ | cases h

theorem dict_of_form? {v : Value} (h : v.form? = some .dict) : ∃ es, v = .dict es := by
  cases v <;> first | exact ⟨_, rfl⟩ | cases h

/-! ### Plain values -/

namespace Plain
variable {v : Value}

theorem isSome_form? (h : Plain v) : v.form?.isSome = true := by
  cases h with
  | null => rfl
  | bool => rfl
  | int => rfl
  | text ht => rw [form?_of_isText ht]; rfl
  | row hrow => rw [form?_of_row hrow]; rfl
  | dict => rfl

theorem of_row (h : Plain v) {xs : List Value} (hv : v.row? = some xs) : ∀ x ∈ xs, Plain x := by
  cases h with
  | null => cases hv
  | bool => cases hv
  | int => cases hv
  | text ht => rw [row?_of_isText ht] at hv; cases hv
  | row h parts =>
    obtain rfl := Option.some.inj (h.symm.trans hv)
    exact parts
  | dict => cases hv

theorem of_dict {es : Entries} (h : Plain (.dict es)) :
    (∀ e ∈ es, e.1.isText = true) ∧ Table.Distinct es ∧ ∀ e ∈ es, Plain e.2 := by
  cases h with
  | text h => cases h
  | row h => cases h
  | dict keys distinct parts => exact ⟨keys, distinct, parts⟩

end Plain

/-! ### One tree -/

namespace SameTree
variable {v w : Value}

/-- Only a text with the same letters is one tree with a text. -/
theorem of_text {s : Text} (h : SameTree v w) (hv : v.text? = some s) : w.text? = some s := by
  cases h with
  | null => cases hv
  | bool => cases hv
  | int => cases hv
  | text left right => rw [right, ← left, hv]
  | row left => rw [row?_of_isText (isText_of_text? hv)] at left; cases left
  | dict => cases hv

theorem of_row {xs : List Value} (h : SameTree v w) (hv : v.row? = some xs) :
    ∃ ys, w.row? = some ys ∧ List.Forall₂ SameTree xs ys := by
  cases h with
  | null => cases hv
  | bool => cases hv
  | int => cases hv
  | text left => rw [row?_of_isText (isText_of_text? left)] at hv; cases hv
  | row left right parts =>
    obtain rfl := Option.some.inj (left.symm.trans hv)
    exact ⟨_, right, parts⟩
  | dict => cases hv

theorem of_dict {es : Entries} (h : SameTree (.dict es) w) :
    ∃ gs fs, w = .dict fs ∧ es.Perm gs ∧ List.Forall₂ SameEntry gs fs := by
  cases h with
  | text left => cases left
  | row left => cases left
  | dict order keys parts => exact ⟨_, _, rfl, order, forall₂_sameEntry_iff.2 ⟨keys, parts⟩⟩

end SameTree
end Value
end MigrationSetup
