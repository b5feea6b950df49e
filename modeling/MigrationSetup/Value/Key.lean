import MigrationSetup.Value.Basic

/-! Values as keys.

Two keys are one key if they mean the same: yes is the number one, no is zero, a
whole float is its integer, a mode is its name. `atoms?` writes a key as a sequence of
atoms so that keys are the same exactly if their sequences are (`sameKey_iff`); a value
that can change is no key, and a result that is no number is the same key as itself
only if it has a name. `Table` holds entries under such keys. The first spelling of a
key stays and the last value wins. -/
namespace MigrationSetup

/-- What a key is made of. Numbers are counted in units of 2^-1074. -/
inductive Atom
  | null
  | number (units : Int)
  | infinite (negative : Bool)
  | nan (name : Nat)
  | text (s : Text)
  | bytes (bs : List UInt8)
  | date (d : Date)
  | clock (t : Int)
  | instant (t : Int)
  | tuple (length : Nat)
deriving DecidableEq, Repr

namespace Value

/-- The atom of a whole number. -/
def intAtom (n : Int) : Atom := .number (n * Int.pow 2 1074)

/-- The atom of a float, if it is a number. -/
def floatAtom? : Binary64 → Option Atom
  | .nan => none
  | .infinite s => some (.infinite s)
  | x => x.units.map .number

mutual

/-- The atoms of a value that can be a key. -/
def atoms? : Value → Option (List Atom)
  | .null => some [.null]
  | .bool b => some [intAtom (if b then 1 else 0)]
  | .int n => some [intAtom n]
  | .float x => (floatAtom? x).map ([·])
  | .nan name => some [.nan name]
  | .text s => some [.text s]
  | .mode m => some [.text m.name]
  | .bytes bs => some [.bytes bs]
  | .date d => some [.date d]
  | .moment t =>
    some [match t.instant? with | some i => .instant i | none => .clock t.wallClock]
  | .tuple xs => (atomsAll? xs).map (.tuple xs.length :: ·)
  | .list _ => none
  | .dict _ => none
  | .set _ => none
  | .loop _ => none

/-- The atoms of several values, one after the other. -/
def atomsAll? : List Value → Option (List Atom)
  | [] => some []
  | v :: vs =>
    match atoms? v, atomsAll? vs with
    | some a, some b => some (a ++ b)
    | _, _ => none

end

/-- Whether two values are the same key. -/
def sameKey (a b : Value) : Bool :=
  match a.atoms?, b.atoms? with
  | some x, some y => x == y
  | _, _ => false

theorem sameKey_iff {a b : Value} :
    sameKey a b = true ↔ ∃ x, a.atoms? = some x ∧ b.atoms? = some x := by
  unfold sameKey
  split
  · next x y hx hy =>
    constructor
    · intro h
      exact ⟨x, hx, by rw [hy, eq_of_beq h]⟩
    · rintro ⟨z, hz, hw⟩
      rw [hx] at hz
      rw [hy] at hw
      simp_all
  · next h =>
    simp only [Bool.false_eq_true, false_iff, not_exists, not_and]
    intro x hx hy
    exact h x x hx hy

theorem sameKey_comm (a b : Value) : sameKey a b = sameKey b a := by
  rw [Bool.eq_iff_iff, sameKey_iff, sameKey_iff]
  constructor <;> rintro ⟨x, h, h'⟩ <;> exact ⟨x, h', h⟩

theorem sameKey_trans {a b c : Value} (h : sameKey a b = true) (h' : sameKey b c = true) :
    sameKey a c = true := by
  rw [sameKey_iff] at *
  obtain ⟨x, hx, hy⟩ := h
  obtain ⟨y, hz, hw⟩ := h'
  exact ⟨x, hx, by rw [hw, ← hz, hy]⟩

/-- A value is the same key as itself if it can be a key at all. -/
theorem sameKey_self {a : Value} (h : a.atoms?.isSome = true) : sameKey a a = true := by
  obtain ⟨x, hx⟩ := Option.isSome_iff_exists.1 h
  exact sameKey_iff.2 ⟨x, hx, hx⟩

mutual

/-- The first part of a value that may change, which keeps it from being a key. -/
def changeable? : Value → Option Kind
  | .list _ => some .list
  | .dict _ => some .dict
  | .set _ => some .set
  | .loop isList => some (if isList then .list else .dict)
  | .tuple xs => changeableIn? xs
  | .null => none
  | .bool _ => none
  | .int _ => none
  | .float _ => none
  | .nan _ => none
  | .text _ => none
  | .mode _ => none
  | .bytes _ => none
  | .date _ => none
  | .moment _ => none

def changeableIn? : List Value → Option Kind
  | [] => none
  | v :: vs => (changeable? v).or (changeableIn? vs)

end

end Value

/-! ### Entries under keys -/

/-- Entries under keys of any value. -/
abbrev Table (α : Type) := List (Value × α)

namespace Table
variable {α : Type}

/-- What stands under a key. -/
def get? (k : Value) : Table α → Option α
  | [] => none
  | (k', a) :: rest => if Value.sameKey k' k then some a else get? k rest

/-- Puts `a` under `k`: in place of what stands there, or else at the end. -/
def put (k : Value) (a : α) : Table α → Table α
  | [] => [(k, a)]
  | (k', b) :: rest => if Value.sameKey k' k then (k', a) :: rest else (k', b) :: put k a rest

/-- Enters all of `es` in their order. -/
def ofList (es : List (Value × α)) : Table α := es.foldl (fun t e => put e.1 e.2 t) []

def has (k : Value) (t : Table α) : Bool := (t.get? k).isSome

def keys (t : Table α) : List Value := t.map Prod.fst

@[simp] theorem get?_nil (k : Value) : get? k ([] : Table α) = none := rfl

theorem get?_put_self {k : Value} (h : k.atoms?.isSome = true) (a : α) (t : Table α) :
    (t.put k a).get? k = some a := by
  induction t with
  | nil => simp [put, get?, Value.sameKey_self h]
  | cons e t ih =>
    obtain ⟨k', b⟩ := e
    by_cases hk : Value.sameKey k' k = true <;> simp [put, get?, hk, ih]

theorem get?_put_of_ne {k l : Value} (h : Value.sameKey k l = false) (a : α) (t : Table α) :
    (t.put k a).get? l = t.get? l := by
  induction t with
  | nil => simp [put, get?, h]
  | cons e t ih =>
    obtain ⟨k', b⟩ := e
    by_cases hk : Value.sameKey k' k = true
    · have hl : Value.sameKey k' l = false := by
        rw [← Bool.not_eq_true] at h ⊢
        exact fun hl => h (Value.sameKey_trans ((Value.sameKey_comm k k').trans hk) hl)
      simp [put, get?, hk, hl]
    · simp [put, get?, hk, ih]

/-- Putting a value under a key keeps the keys, or adds the key at the end. -/
theorem keys_put (k : Value) (a : α) (t : Table α) :
    (t.put k a).keys = if t.has k then t.keys else t.keys ++ [k] := by
  induction t with
  | nil => rfl
  | cons e t ih =>
    obtain ⟨k', b⟩ := e
    by_cases hk : Value.sameKey k' k = true
    · simp [put, has, get?, hk, keys]
    · simp only [put, hk, has, get?, keys] at ih ⊢
      simp only [Bool.false_eq_true, if_false, List.map_cons, ih]
      by_cases hg : (get? k t).isSome = true <;> simp [hg]

end Table
end MigrationSetup
