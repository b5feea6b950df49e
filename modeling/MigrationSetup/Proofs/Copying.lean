import MigrationSetup.Graph.Merge
import MigrationSetup.Proofs.Twin

/-! Copies of objects.

What a copy brings stands apart from what is there: its numbers come behind those of the
objects there, and its names behind theirs. So copies of twins behind twins leave twins
(`Objects.Twin.append`), and names that are set apart on both sides still belong together one
to one (`Objects.Twin.apart`). Putting a copy under a key changes the one dict and adds
objects, and nothing else (`shape_putCopy`). -/
namespace MigrationSetup

/-! ### Numbers apart -/

namespace Objects

theorem shape_append_left {a : Objects} {i : Nat} (h : i < a.size) (b : Objects) :
    (a ++ b).shape i = a.shape i := by
  rw [shape, shape, Array.getElem?_append_left h]

theorem shape_append_right (a source : Objects) (i : Nat) :
    (a ++ source.map (Shape.shift a.size)).shape (a.size + i) =
      (source.shape i).shift a.size := by
  rw [shape, shape, Array.getElem?_append_right (Nat.le_add_right _ _), Nat.add_sub_cancel_left,
    Array.getElem?_map]
  cases source[i]? <;> rfl

theorem shape_set_self {a : Objects} {i : Nat} (h : i < a.size) (x : Shape) :
    shape (a.setIfInBounds i x) i = x := by
  rw [shape, Array.getElem?_setIfInBounds_self_of_lt h]
  rfl

theorem shape_set_of_ne {a : Objects} {i j : Nat} (h : j ≠ i) (x : Shape) :
    shape (a.setIfInBounds i x) j = a.shape j := by
  rw [shape, shape, Array.getElem?_setIfInBounds_ne h.symm]

end Objects

section
variable {R S N : Nat → Nat → Prop} {a b o p : Objects} {n m : Nat}

theorem Ref.Twin.shift {r s : Ref} (h : r.Twin S N s) :
    (r.shift n).Twin (Beside n m R S) N (s.shift m) := by
  cases h with
  | value twin => exact .value twin
  | object numbers => exact .object (.inr ⟨_, _, numbers, rfl, rfl⟩)

theorem Shape.Twin.shift {x y : Shape} (h : x.Twin S N y) :
    (x.shift n).Twin (Beside n m R S) N (y.shift m) := by
  cases h with
  | list items =>
    exact .list (forall₂_map items Ref.Twin.shift)
  | pairs items =>
    exact .pairs (forall₂_map items fun hp => ⟨hp.1.shift, hp.2.shift⟩)
  | dict entries =>
    exact .dict (forall₂_map entries fun he => ⟨he.1, he.2.shift⟩)
  | set items => exact .set items

namespace Objects.Twin

/-- Objects behind which copies of twins stand. -/
theorem append (h : Objects.Twin R N a b) (ho : Objects.Twin S N o p) :
    Objects.Twin (Beside a.size b.size R S) N (a ++ o.map (Shape.shift a.size))
      (b ++ p.map (Shape.shift b.size)) where
  numbers := h.numbers.beside ho.numbers h.bounds
  names := h.names
  bounds := by
    rintro i j (hij | ⟨i, j, hij, rfl, rfl⟩)
    · have hb := h.bounds hij
      simp only [Array.size_append]
      omega
    · have hb := ho.bounds hij
      simp only [Array.size_append, Array.size_map]
      omega
  shapes := by
    rintro i j (hij | ⟨i, j, hij, rfl, rfl⟩)
    · rw [shape_append_left (h.bounds hij).1, shape_append_left (h.bounds hij).2]
      exact (h.shapes hij).mono (fun _ _ => .inl) fun _ _ => id
    · rw [shape_append_right, shape_append_right]
      exact (ho.shapes hij).shift

/-- Objects of which one was changed, and its twin alike. -/
theorem set (h : Objects.Twin R N a b) {i j : Nat} (hij : R i j) {x y : Shape}
    (hx : x.Twin R N y) :
    Objects.Twin R N (a.setIfInBounds i x) (b.setIfInBounds j y) where
  numbers := h.numbers
  names := h.names
  bounds := by
    intro k l hkl
    rw [Array.size_setIfInBounds, Array.size_setIfInBounds]
    exact h.bounds hkl
  shapes := by
    intro k l hkl
    by_cases hik : k = i
    · have hjl : l = j := (h.numbers hkl hij).1 hik
      rw [hik, hjl, shape_set_self (h.bounds hij).1, shape_set_self (h.bounds hij).2]
      exact hx
    · have hjl : l ≠ j := fun hjl => hik ((h.numbers hkl hij).2 hjl)
      rw [shape_set_of_ne hik, shape_set_of_ne hjl]
      exact h.shapes hkl

end Objects.Twin
end

theorem Ref.shift_zero (r : Ref) : r.shift 0 = r := by
  cases r with
  | object i => exact congrArg Ref.object (Nat.zero_add i)
  | value v => rfl

theorem Shape.shift_zero (x : Shape) : x.shift 0 = x := by
  have hr : Ref.shift 0 = id := funext Ref.shift_zero
  cases x <;> simp [Shape.shift, hr]

theorem Objects.map_shift_zero (a : Objects) : a.map (Shape.shift 0) = a := by
  have hx : Shape.shift 0 = id := funext Shape.shift_zero
  simp only [hx, Array.map_id_fun, id]

/-! ### Names apart -/

section
variable {R N M : Nat → Nat → Prop} {n m : Nat}

theorem Value.Twin.apart {v w : Value} (h : Value.Twin M v w) :
    Value.Twin (Beside n m N M) (v.renamed fun k => .nan (k + 1 + n))
      (w.renamed fun k => .nan (k + 1 + m)) := by
  cases h with
  | same unnamed =>
    cases v with
    | nan k =>
      cases unnamed
      exact .same rfl
    | _ => exact .same rfl
  | @named k l names =>
    show Value.Twin _ (.nan (k + 1 + n)) (.nan (l + 1 + m))
    rw [show k + 1 + n = n + k + 1 by omega, show l + 1 + m = m + l + 1 by omega]
    exact .named (.inr ⟨k, l, names, rfl, rfl⟩)

theorem Ref.Twin.apart {r s : Ref} (h : r.Twin R M s) :
    (r.renamed fun k => .nan (k + 1 + n)).Twin R (Beside n m N M)
      (s.renamed fun k => .nan (k + 1 + m)) := by
  cases h with
  | value twin => exact .value twin.apart
  | object numbers => exact .object numbers

theorem Shape.Twin.apart {x y : Shape} (h : x.Twin R M y) :
    (x.renamed fun k => .nan (k + 1 + n)).Twin R (Beside n m N M)
      (y.renamed fun k => .nan (k + 1 + m)) := by
  cases h with
  | list items =>
    exact .list (forall₂_map items Ref.Twin.apart)
  | pairs items =>
    exact .pairs (forall₂_map items fun hp => ⟨hp.1.apart, hp.2.apart⟩)
  | dict entries =>
    exact .dict (forall₂_map entries fun he => ⟨he.1.apart, he.2.apart⟩)
  | set items =>
    exact .set (forall₂_map items Value.Twin.apart)

theorem Objects.shape_renamed (a : Objects) (name : Nat → Value) (i : Nat) :
    shape (a.map (Shape.renamed name)) i = (a.shape i).renamed name := by
  rw [shape, shape, Array.getElem?_map]
  cases a[i]? <;> rfl

/-- Twins whose names were set apart are twins of one another still. -/
theorem Objects.Twin.apart {g g' : Graph} (h : Objects.Twin R M g.objects g'.objects)
    (hN : OneToOne N) (hb : ∀ {i j}, N i j → i < n ∧ j < m) :
    Objects.Twin R (Beside n m N M) (g.apart n).objects (g'.apart m).objects where
  numbers := h.numbers
  names := hN.beside h.names hb
  bounds := by
    intro i j hij
    simp only [Graph.apart, Graph.renamed, Array.size_map]
    exact h.bounds hij
  shapes := by
    intro i j hij
    simp only [Graph.apart, Graph.renamed, shape_renamed]
    exact (h.shapes hij).apart

end

theorem Value.renamed_zero (v : Value) : (v.renamed fun k => .nan (k + 1 + 0)) = v := by
  cases v with
  | nan n => cases n <;> rfl
  | _ => rfl

theorem Ref.renamed_zero (r : Ref) : (r.renamed fun k => .nan (k + 1 + 0)) = r := by
  cases r with
  | object i => rfl
  | value v => exact congrArg Ref.value v.renamed_zero

theorem Shape.renamed_zero (x : Shape) : (x.renamed fun k => .nan (k + 1 + 0)) = x := by
  have hr : (Ref.renamed fun k => .nan (k + 1 + 0)) = id := funext Ref.renamed_zero
  have hv : (Value.renamed fun k => .nan (k + 1 + 0)) = id := funext Value.renamed_zero
  cases x <;> simp [Shape.renamed, hr, hv]

namespace Graph

theorem objects_apart_zero (g : Graph) : (g.apart 0).objects = g.objects := by
  have hx : (Shape.renamed fun k => .nan (k + 1 + 0)) = id := funext Shape.renamed_zero
  simp only [Graph.apart, Graph.renamed, hx, Array.map_id_fun, id]

theorem entries_apart (g : Graph) (n i : Nat) :
    (g.apart n).objects.entries i = (g.objects.entries i).map fun e =>
      (e.1.renamed fun k => .nan (k + 1 + n), e.2.renamed fun k => .nan (k + 1 + n)) := by
  simp only [apart, renamed, Objects.entries, Objects.shape_renamed]
  cases g.objects.shape i <;> rfl

theorem dict?_apart (g : Graph) (n : Nat) (name : Nat → Value) (r : Ref) :
    (r.renamed name).dict? (g.apart n).objects = r.dict? g.objects := by
  cases r with
  | value v => rfl
  | object i =>
    simp only [Ref.renamed, Ref.dict?, apart, renamed, Objects.shape_renamed]
    cases g.objects.shape i <;> rfl

theorem root_apart {g : Graph} {i : Nat} (h : g.root.dict? g.objects = some i) (n : Nat) :
    (g.apart n).root.dict? (g.apart n).objects = some i :=
  (dict?_apart g n _ g.root).trans h

/-- Keys whose names were set apart are twins of the keys themselves. -/
theorem twin_apart (g : Graph) (n i : Nat) :
    Table.Twin (fun k l => l = n + k) (fun _ _ => True) (g.objects.entries i)
      ((g.apart n).objects.entries i) := by
  have hkey (k : Value) : Value.Twin (fun k l => l = n + k) k
      (k.renamed fun k => .nan (k + 1 + n)) := by
    cases k with
    | nan k =>
      cases k with
      | zero => exact .same rfl
      | succ k =>
        show Value.Twin _ (.nan (k + 1)) (.nan (k + 1 + n))
        rw [show k + 1 + n = n + k + 1 by omega]
        exact .named rfl
    | _ => exact .same rfl
  rw [entries_apart]
  exact List.forall₂_map_right_iff.2 (List.forall₂_same.2 fun e _ => ⟨hkey e.1, trivial⟩)

theorem oneToOne_apart (n : Nat) : OneToOne fun k l => l = n + k := by
  intro i j i' j' h h'
  omega

theorem get?_apart (g : Graph) (s : Text) (n i : Nat) :
    Table.get? (.text s) ((g.apart n).objects.entries i) =
      (Table.get? (.text s) (g.objects.entries i)).map (Ref.renamed fun k => .nan (k + 1 + n)) := by
  have hkey (k : Value) : Value.sameKey (k.renamed fun k => .nan (k + 1 + n)) (.text s) =
      Value.sameKey k (.text s) := by
    cases k with
    | nan m => cases m <;> rfl
    | _ => rfl
  rw [entries_apart]
  induction g.objects.entries i with
  | nil => rfl
  | cons e es ih =>
    simp only [List.map_cons, Table.get?, hkey, ih]
    split <;> rfl

theorem get?_apart_none {g : Graph} {s : Text} {i : Nat}
    (h : Table.get? (.text s) (g.objects.entries i) = none) (n : Nat) :
    Table.get? (.text s) ((g.apart n).objects.entries i) = none := by
  rw [get?_apart, h, Option.map_none]

/-! ### Copies under keys -/

variable {R S N : Nat → Nat → Prop} {a b o p : Objects}

theorem copyIn_twin (h : Objects.Twin R N a b) (ho : Objects.Twin S N o p) {r s : Ref}
    (hr : r.Twin S N s) :
    ∃ R' : Nat → Nat → Prop, (∀ i j, R i j → R' i j) ∧
      (copyIn o r a).1.Twin R' N (copyIn p s b).1 ∧
      Objects.Twin R' N (copyIn o r a).2 (copyIn p s b).2 := by
  cases hr with
  | value twin => exact ⟨R, fun _ _ => id, .value twin, h⟩
  | object numbers =>
    exact ⟨_, fun _ _ => .inl, .object (.inr ⟨_, _, numbers, rfl, rfl⟩), h.append ho⟩

theorem putCopy_eq (o : Objects) (i : Nat) (k : Value) (r : Ref) (a : Objects) :
    putCopy o i k r a = Array.setIfInBounds (copyIn o r a).2 i
      (.dict (((copyIn o r a).2.entries i).put k (copyIn o r a).1)) := rfl

/-- Copies of twins under keys that are twins leave twins. -/
theorem putCopy_twin (h : Objects.Twin R N a b) (ho : Objects.Twin S N o p) {i j : Nat}
    (hij : R i j) {k l : Value} (hk : k.Twin N l) {r s : Ref} (hr : r.Twin S N s) :
    ∃ R' : Nat → Nat → Prop, (∀ i j, R i j → R' i j) ∧
      Objects.Twin R' N (putCopy o i k r a) (putCopy p j l s b) := by
  obtain ⟨R', hmore, href, hobjects⟩ := copyIn_twin h ho hr
  exact ⟨R', hmore, hobjects.set (hmore _ _ hij)
    (.dict ((hobjects.entries (hmore _ _ hij)).put h.names hk href))⟩

theorem size_putCopy_le (o : Objects) (i : Nat) (k : Value) (r : Ref) (a : Objects) :
    a.size ≤ (putCopy o i k r a).size := by
  cases r with
  | value v => exact Nat.le_of_eq Array.size_setIfInBounds.symm
  | object j =>
    simp only [putCopy, copyIn, Array.size_setIfInBounds, Array.size_append]
    omega

/-- Nothing but the dict changes where a copy is put. -/
theorem shape_putCopy {i j : Nat} (hj : j < a.size) (hij : j ≠ i) (k : Value) (r : Ref) :
    (putCopy o i k r a).shape j = a.shape j := by
  rw [putCopy_eq, Objects.shape_set_of_ne hij]
  cases r with
  | value v => rfl
  | object l => exact Objects.shape_append_left hj _

theorem shape_putCopy_self {i : Nat} (hi : i < a.size) (k : Value) (r : Ref) :
    (putCopy o i k r a).shape i = .dict ((a.entries i).put k (copyIn o r a).1) := by
  have hsize : i < (copyIn o r a).2.size := by
    cases r with
    | value v => exact hi
    | object l =>
      simp only [copyIn, Array.size_append]
      omega
  have hentries : (copyIn o r a).2.entries i = a.entries i := by
    cases r with
    | value v => rfl
    | object l => exact Objects.entries_congr (Objects.shape_append_left hi _)
  rw [putCopy_eq, Objects.shape_set_self hsize, hentries]

theorem entries_putCopy {i : Nat} (hi : i < a.size) (k : Value) (r : Ref) :
    (putCopy o i k r a).entries i = (a.entries i).put k (copyIn o r a).1 := by
  rw [Objects.entries, shape_putCopy_self hi]

end Graph
end MigrationSetup
