import Mathlib.Data.List.Forall2
import MigrationSetup.Graph.Basic
import MigrationSetup.Proofs.Layering

/-! Graphs that are the same but for their numbers.

Which number an object has and which name a result that is no number has says nothing. Two
tables of objects are twins if the objects that belong together hold the same but for numbers
and names, and if numbers and names belong together one to one (`Objects.Twin`). Keys that
are twins are the same keys on both sides (`Value.Twin.sameKey`), so that tables of twins are
read and written alike. -/
namespace MigrationSetup

/-- No number on one side stands for two on the other. -/
def OneToOne (R : Nat → Nat → Prop) : Prop :=
  ∀ ⦃i j i' j' : Nat⦄, R i j → R i' j' → (i = i' ↔ j = j')

/-- `R`, and beyond the first `n` and `m` numbers `S`. -/
def Beside (n m : Nat) (R S : Nat → Nat → Prop) (i j : Nat) : Prop :=
  R i j ∨ ∃ a b, S a b ∧ i = n + a ∧ j = m + b

theorem OneToOne.beside {R S : Nat → Nat → Prop} {n m : Nat} (hR : OneToOne R)
    (hS : OneToOne S) (hn : ∀ {i j}, R i j → i < n ∧ j < m) : OneToOne (Beside n m R S) := by
  rintro i j i' j' (h | ⟨a, b, h, rfl, rfl⟩) (h' | ⟨a', b', h', rfl, rfl⟩)
  · exact hR h h'
  · have hb := hn h
    omega
  · have hb := hn h'
    omega
  · have hab := hS h h'
    omega

/-- Lists that go in step still do so once both are mapped. -/
theorem forall₂_map {α β γ δ : Type} {A : α → β → Prop} {B : γ → δ → Prop} {f : α → γ}
    {g : β → δ} {xs : List α} {ys : List β} (h : List.Forall₂ A xs ys)
    (hab : ∀ {x y}, A x y → B (f x) (g y)) : List.Forall₂ B (xs.map f) (ys.map g) :=
  List.forall₂_map_left_iff.2 (List.forall₂_map_right_iff.2 (h.imp fun _ _ => hab))

theorem forall₂_of_mem {α β : Type} {A B : α → β → Prop} {xs : List α} {ys : List β}
    (h : List.Forall₂ A xs ys) (hab : ∀ x ∈ xs, ∀ y ∈ ys, A x y → B x y) :
    List.Forall₂ B xs ys := by
  induction h with
  | nil => exact .nil
  | cons hxy _ ih =>
    exact .cons (hab _ List.mem_cons_self _ List.mem_cons_self hxy)
      (ih fun x hx y hy => hab x (List.mem_cons_of_mem _ hx) y (List.mem_cons_of_mem _ hy))

theorem exists_of_forall₂ {α β : Type} {A : α → β → Prop} {xs : List α} {ys : List β}
    (h : List.Forall₂ A xs ys) {y : β} (hy : y ∈ ys) : ∃ x ∈ xs, A x y := by
  induction h with
  | nil => cases hy
  | cons hxy _ ih =>
    rcases List.mem_cons.1 hy with rfl | hy
    · exact ⟨_, List.mem_cons_self, hxy⟩
    · obtain ⟨x, hx, ha⟩ := ih hy
      exact ⟨x, List.mem_cons_of_mem _ hx, ha⟩

namespace Value

/-- The same value, or results that are no numbers under names that `N` relates. -/
inductive Twin (N : Nat → Nat → Prop) : Value → Value → Prop
  | same {v : Value} (unnamed : v.name = 0) : Twin N v v
  | named {m n : Nat} (names : N m n) : Twin N (.nan (m + 1)) (.nan (n + 1))

theorem eq_of_sameKey_nan {n : Nat} {v : Value} (h : sameKey (.nan n) v = true) : v = .nan n := by
  obtain ⟨x, hx, hv⟩ := sameKey_iff.1 h
  cases hx
  cases v with
  | nan m =>
    cases hv
    rfl
  | float x =>
    obtain ⟨a, ha, h⟩ := Option.map_eq_some_iff.1 hv
    cases h
    cases x <;> cases ha
  | tuple xs =>
    obtain ⟨a, ha, h⟩ := Option.map_eq_some_iff.1 hv
    cases h
  | moment t =>
    simp only [atoms?] at hv
    split at hv <;> cases hv
  | _ => cases hv

namespace Twin
variable {N : Nat → Nat → Prop} {v w v' w' : Value}

theorem mono {M : Nat → Nat → Prop} (h : ∀ m n, N m n → M m n) (hv : Twin N v w) :
    Twin M v w := by
  cases hv with
  | same unnamed => exact .same unnamed
  | named names => exact .named (h _ _ names)

theorem hasLong (h : Twin N v w) : v.hasLong = w.hasLong := by
  cases h <;> rfl

theorem spelled (h : Twin N v w) : v.spelled = w.spelled := by
  cases h <;> rfl

theorem kind (h : Twin N v w) : v.kind = w.kind := by
  cases h <;> rfl

theorem yieldsTo (h : Twin N v w) (h' : Twin N v' w') : v.yieldsTo v' = w.yieldsTo w' := by
  cases h <;> cases h' <;> rfl

/-- Twins are the same key as twins of it. -/
theorem sameKey (hN : OneToOne N) (h : Twin N v w) (h' : Twin N v' w') :
    Value.sameKey v v' = Value.sameKey w w' := by
  have hnew {n : Nat} {u : Value} (hu : u.name = 0) :
      Value.sameKey (.nan (n + 1)) u = false := by
    rw [← Bool.not_eq_true]
    intro hs
    rw [eq_of_sameKey_nan hs] at hu
    cases hu
  cases h with
  | same hv =>
    cases h' with
    | same hv' => rfl
    | named names => rw [sameKey_comm, hnew hv, sameKey_comm, hnew hv]
  | named names =>
    cases h' with
    | same hv' => rw [hnew hv', hnew hv']
    | @named m' n' names' =>
      have hiff := hN names names'
      rw [Bool.eq_iff_iff]
      constructor
      · intro hs
        cases eq_of_sameKey_nan hs
        rw [hiff.1 rfl]
        exact sameKey_self rfl
      · intro hs
        cases eq_of_sameKey_nan hs
        rw [hiff.2 rfl]
        exact sameKey_self rfl

end Twin
end Value

/-! ### Tables -/

/-- Entries under keys that are twins, of things that `A` relates. -/
def Table.Twin {α β : Type} (N : Nat → Nat → Prop) (A : α → β → Prop) (t : Table α)
    (u : Table β) : Prop :=
  List.Forall₂ (fun e f => e.1.Twin N f.1 ∧ A e.2 f.2) t u

namespace Table.Twin
variable {α β : Type} {N : Nat → Nat → Prop} {A : α → β → Prop} {t : Table α} {u : Table β}
  {k l : Value}

theorem get? (hN : OneToOne N) (hk : k.Twin N l) (h : Twin N A t u) :
    Option.Rel A (t.get? k) (u.get? l) := by
  induction h with
  | nil => exact .none
  | @cons e f t u hef _ ih =>
    obtain ⟨e, a⟩ := e
    obtain ⟨f, b⟩ := f
    simp only [Table.get?, hef.1.sameKey hN hk]
    split
    · exact .some hef.2
    · exact ih

/-- What one table lacks the other lacks too. -/
theorem get?_none (hN : OneToOne N) (hk : k.Twin N l) (h : Twin N A t u)
    (ht : t.get? k = none) : u.get? l = none := by
  have hrel := h.get? hN hk
  rw [ht] at hrel
  generalize u.get? l = x at hrel
  cases hrel
  rfl

theorem put (hN : OneToOne N) (hk : k.Twin N l) {a : α} {b : β} (ha : A a b)
    (h : Twin N A t u) : Twin N A (t.put k a) (u.put l b) := by
  induction h with
  | nil => exact .cons ⟨hk, ha⟩ .nil
  | @cons e f t u hef hrest ih =>
    obtain ⟨e, a⟩ := e
    obtain ⟨f, b⟩ := f
    simp only [Table.put, hef.1.sameKey hN hk]
    split
    · exact .cons ⟨hef.1, ha⟩ hrest
    · exact .cons hef ih

theorem distinct (hN : OneToOne N) (h : Twin N A t u) (hd : t.Distinct) : u.Distinct := by
  induction h with
  | nil => exact .nil
  | @cons e f t u hef hrest ih =>
    have hnew := Table.Twin.get?_none hN hef.1 hrest hd.head_new
    refine List.pairwise_cons.2 ⟨fun g hg => ?_, ih hd.tail⟩
    rw [Value.sameKey_comm]
    exact Table.get?_eq_none_iff.1 hnew g hg

theorem exists_of_mem {f : Value × β} (h : Twin N A t u) (hf : f ∈ u) :
    ∃ e ∈ t, A e.2 f.2 := by
  obtain ⟨e, he, -, ha⟩ := exists_of_forall₂ h hf
  exact ⟨e, he, ha⟩

theorem any_hasLong (h : Twin N A t u) :
    (t.any fun e => e.1.hasLong) = u.any fun e => e.1.hasLong := by
  induction h with
  | nil => rfl
  | cons hef _ ih => rw [List.any_cons, List.any_cons, hef.1.hasLong, ih]

end Table.Twin

/-! ### Dicts among objects -/

theorem Ref.dict?_eq_some_iff {a : Objects} {r : Ref} {i : Nat} :
    r.dict? a = some i ↔ r = .object i ∧ a.shape i = .dict (a.entries i) := by
  cases r with
  | value v => simp [dict?]
  | object j =>
    simp only [dict?, Objects.entries]
    constructor
    · intro h
      split at h
      · next es hs =>
        cases h
        rw [hs]
        exact ⟨rfl, rfl⟩
      · cases h
    · rintro ⟨hj, hs⟩
      cases hj
      rw [hs]

theorem Ref.dict?_object {a : Objects} {r : Ref} {i : Nat} (h : r.dict? a = some i) :
    (Ref.object i).dict? a = some i := by
  rwa [(dict?_eq_some_iff.1 h).1] at h

theorem Ref.lt_size_of_dict? {a : Objects} {r : Ref} {i : Nat} (h : r.dict? a = some i) :
    i < a.size := by
  refine Nat.lt_of_not_ge fun hle => ?_
  have hs := (dict?_eq_some_iff.1 h).2
  rw [Objects.shape, Array.getElem?_eq_none hle] at hs
  cases hs

namespace Objects

/-- An object with entries is a dict. -/
theorem shape_of_get? {a : Objects} {i : Nat} {k : Value} {r : Ref}
    (h : Table.get? k (a.entries i) = some r) : a.shape i = .dict (a.entries i) := by
  rw [entries] at h ⊢
  cases hs : a.shape i with
  | dict es => rfl
  | _ =>
    rw [hs] at h
    cases h

theorem entries_congr {a b : Objects} {i j : Nat} (h : a.shape i = b.shape j) :
    a.entries i = b.entries j := by
  rw [entries, entries, h]

end Objects

/-! ### Objects -/

/-- Values that are twins, or objects whose numbers `R` relates. -/
inductive Ref.Twin (R N : Nat → Nat → Prop) : Ref → Ref → Prop
  | value {v w : Value} (twin : v.Twin N w) : Twin R N (.value v) (.value w)
  | object {i j : Nat} (numbers : R i j) : Twin R N (.object i) (.object j)

/-- Shapes that are the same but for names and numbers. -/
inductive Shape.Twin (R N : Nat → Nat → Prop) : Shape → Shape → Prop
  | list {xs ys : List Ref} (items : List.Forall₂ (Ref.Twin R N) xs ys) :
      Twin R N (.list xs) (.list ys)
  | pairs {xs ys : List (Ref × Ref)}
      (items : List.Forall₂ (fun p q => p.1.Twin R N q.1 ∧ p.2.Twin R N q.2) xs ys) :
      Twin R N (.pairs xs) (.pairs ys)
  | dict {es fs : Table Ref} (entries : Table.Twin N (Ref.Twin R N) es fs) :
      Twin R N (.dict es) (.dict fs)
  | set {xs ys : List Value} (items : List.Forall₂ (Value.Twin N) xs ys) :
      Twin R N (.set xs) (.set ys)

/-- Objects of which those that `R` relates are the same but for names and numbers. -/
structure Objects.Twin (R N : Nat → Nat → Prop) (a b : Objects) : Prop where
  numbers : OneToOne R
  names : OneToOne N
  bounds : ∀ {i j}, R i j → i < a.size ∧ j < b.size
  shapes : ∀ {i j}, R i j → (a.shape i).Twin R N (b.shape j)

section
variable {R S N M : Nat → Nat → Prop} {a b : Objects}

theorem Ref.Twin.mono {r s : Ref} (h : ∀ i j, R i j → S i j) (h' : ∀ m n, N m n → M m n)
    (hr : r.Twin R N s) : r.Twin S M s := by
  cases hr with
  | value twin => exact .value (twin.mono h')
  | object numbers => exact .object (h _ _ numbers)

theorem Shape.Twin.mono {x y : Shape} (h : ∀ i j, R i j → S i j) (h' : ∀ m n, N m n → M m n)
    (hx : x.Twin R N y) : x.Twin S M y := by
  cases hx with
  | list items => exact .list (items.imp fun _ _ hr => hr.mono h h')
  | pairs items => exact .pairs (items.imp fun _ _ hp => ⟨hp.1.mono h h', hp.2.mono h h'⟩)
  | dict entries => exact .dict (entries.imp fun _ _ he => ⟨he.1.mono h', he.2.mono h h'⟩)
  | set items => exact .set (items.imp fun _ _ hv => hv.mono h')

theorem Shape.Twin.face {x y : Shape} (h : x.Twin R N y) : x.face = y.face := by
  cases h <;> rfl

theorem Ref.Twin.face {r s : Ref} (h : Objects.Twin R N a b) (hr : r.Twin R N s) :
    (r.face a).Twin N (s.face b) := by
  cases hr with
  | value twin => exact twin
  | @object i j hij =>
    have hb : (b.shape j).face.name = 0 := by
      cases b.shape j <;> rfl
    simp only [Ref.face, (h.shapes hij).face]
    exact .same hb

theorem Ref.Twin.dict? {r s : Ref} (h : Objects.Twin R N a b) (hr : r.Twin R N s) :
    Option.Rel R (r.dict? a) (s.dict? b) := by
  cases hr with
  | value twin => exact .none
  | object numbers =>
    have hs := h.shapes numbers
    simp only [Ref.dict?]
    generalize a.shape _ = x at hs ⊢
    generalize b.shape _ = y at hs ⊢
    cases hs with
    | dict entries => exact .some numbers
    | _ => exact .none

namespace Objects.Twin

theorem entries (h : Objects.Twin R N a b) {i j : Nat} (hij : R i j) :
    Table.Twin N (Ref.Twin R N) (a.entries i) (b.entries j) := by
  have hs := h.shapes hij
  simp only [Objects.entries]
  generalize a.shape _ = x at hs ⊢
  generalize b.shape _ = y at hs ⊢
  cases hs with
  | dict entries => exact entries
  | _ => exact .nil

theorem dict? (h : Objects.Twin R N a b) {i j : Nat} (hij : R i j)
    (hi : (Ref.object i).dict? a = some i) : (Ref.object j).dict? b = some j := by
  have hs := h.shapes hij
  rw [(Ref.dict?_eq_some_iff.1 hi).2] at hs
  have hj : b.shape j = .dict (b.entries j) := by
    rw [Objects.entries]
    generalize b.shape j = y at hs
    cases hs
    rfl
  exact Ref.dict?_eq_some_iff.2 ⟨rfl, hj⟩

/-- Objects of which those that count are what they were. -/
theorem congr {b' : Objects} (h : Objects.Twin R N a b) (hsize : b.size ≤ b'.size)
    (hshape : ∀ {i j}, R i j → b'.shape j = b.shape j) : Objects.Twin R N a b' where
  numbers := h.numbers
  names := h.names
  bounds := fun hij => ⟨(h.bounds hij).1, Nat.lt_of_lt_of_le (h.bounds hij).2 hsize⟩
  shapes := by
    intro i j hij
    rw [hshape hij]
    exact h.shapes hij

end Objects.Twin
end

end MigrationSetup
