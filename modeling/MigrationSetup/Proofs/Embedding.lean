import MigrationSetup.Proofs.Merging
import MigrationSetup.Proofs.Tidy
import MigrationSetup.Proofs.Unfolding

/-! Plain values as graphs.

The objects of a plain dict are its dicts, each behind whatever it holds (`Graph.Grown`). So
no dict comes again below itself, and unfolding gives the value back (`Graph.unfolds`).
Nothing in such a graph holds its root (`Graph.unheld_ofValue`). -/
namespace MigrationSetup

/-- The objects of `a`, and perhaps more behind them. -/
structure Objects.Before (a b : Objects) : Prop where
  size : a.size ≤ b.size
  shape : ∀ {i}, i < a.size → b.shape i = a.shape i

namespace Objects.Before
variable {a b c : Objects}

theorem refl (a : Objects) : Before a a := ⟨Nat.le_refl _, fun _ => rfl⟩

theorem trans (h : Before a b) (h' : Before b c) : Before a c :=
  ⟨Nat.le_trans h.size h'.size, fun hi =>
    (h'.shape (Nat.lt_of_lt_of_le hi h.size)).trans (h.shape hi)⟩

theorem push (a : Objects) (x : Shape) : Before a (a.push x) where
  size := by
    rw [Array.size_push]
    exact Nat.le_succ _
  shape := by
    intro i hi
    rw [Objects.shape, Objects.shape, Array.getElem?_push, if_neg (Nat.ne_of_lt hi)]

end Objects.Before

theorem Objects.shape_push (a : Objects) (x : Shape) : shape (a.push x) a.size = x := by
  rw [shape, Array.getElem?_push_size]
  rfl

namespace Graph

theorem addValue_plain (a : Objects) {v : Value} (h : ∀ es, v ≠ .dict es) :
    addValue a v = (.value v, a) := by
  cases v with
  | dict es => exact absurd rfl (h es)
  | _ => rfl

theorem addValue_dict (a : Objects) (es : Entries) :
    addValue a (.dict es) = (.object (addEntries a es).2.size,
      (addEntries a es).2.push (.dict (addEntries a es).1)) := rfl

theorem addEntries_cons (a : Objects) (k v : Value) (es : Entries) :
    addEntries a ((k, v) :: es) =
      ((k, (addValue a v).1) :: (addEntries (addValue a v).2 es).1,
        (addEntries (addValue a v).2 es).2) := rfl

theorem addEntries_before_of {es : Entries}
    (h : ∀ e ∈ es, ∀ a, Objects.Before a (addValue a e.2).2) (a : Objects) :
    Objects.Before a (addEntries a es).2 := by
  induction es generalizing a with
  | nil => exact .refl a
  | cons e es ih =>
    obtain ⟨k, v⟩ := e
    rw [addEntries_cons]
    exact (h _ List.mem_cons_self a).trans (ih (fun e he => h e (List.mem_cons_of_mem _ he)) _)

theorem addValue_before (v : Value) (a : Objects) : Objects.Before a (addValue a v).2 := by
  induction v using Value.dictInduction generalizing a with
  | other v hv =>
    rw [addValue_plain a hv]
    exact .refl a
  | whole es ih => exact (addEntries_before_of ih a).trans (.push _ _)

theorem addEntries_before (es : Entries) (a : Objects) : Objects.Before a (addEntries a es).2 :=
  addEntries_before_of (fun e _ => addValue_before e.2) a

/-! ### Unfolding gives the value back -/

/-- What was added unfolds to what it was: its objects lie before those that hold it, so
that none comes again, and as many steps as objects are enough. -/
def Unfolds (v : Value) : Prop :=
  ∀ {a objects : Objects}, Objects.Before (addValue a v).2 objects → ∀ {fuel : Nat}
    {path : List Nat}, (addValue a v).2.size ≤ fuel → (∀ i ∈ path, (addValue a v).2.size ≤ i) →
      (addValue a v).1.unfoldIn objects fuel path = v

theorem unfolds_entries {es : Entries} (h : ∀ e ∈ es, Unfolds e.2) {a objects : Objects}
    (hb : Objects.Before (addEntries a es).2 objects) {fuel : Nat} {path : List Nat}
    (hf : (addEntries a es).2.size ≤ fuel) (hp : ∀ i ∈ path, (addEntries a es).2.size ≤ i) :
    ((addEntries a es).1.map fun e => (e.1, e.2.unfoldIn objects fuel path)) = es := by
  induction es generalizing a with
  | nil => rfl
  | cons e es ih =>
    obtain ⟨k, v⟩ := e
    rw [addEntries_cons] at hb hf hp ⊢
    have hmid := addEntries_before es (addValue a v).2
    have hv : (addValue a v).1.unfoldIn objects fuel path = v :=
      h _ List.mem_cons_self (hmid.trans hb) (Nat.le_trans hmid.size hf)
        fun i hi => Nat.le_trans hmid.size (hp i hi)
    rw [List.map_cons, hv, ih (fun e he => h e (List.mem_cons_of_mem _ he)) hb hf hp]

theorem unfolds (v : Value) : Unfolds v := by
  induction v using Value.dictInduction with
  | other v hv =>
    intro a objects _ fuel path _ _
    rw [addValue_plain a hv]
    cases fuel <;> rfl
  | whole es ih =>
    intro a objects hb fuel path hf hp
    rw [addValue_dict] at hb hf hp ⊢
    simp only [Array.size_push] at hf hp
    obtain ⟨fuel, rfl⟩ : ∃ n, fuel = n + 1 := ⟨fuel - 1, by omega⟩
    have hshape : objects.shape (addEntries a es).2.size = .dict (addEntries a es).1 := by
      rw [hb.shape (by simp), Objects.shape_push]
    have hnew : path.contains (addEntries a es).2.size = false := by
      rw [← Bool.not_eq_true, List.contains_iff_mem]
      intro hm
      have hle := hp _ hm
      omega
    have hpart := unfolds_entries ih (Objects.Before.trans (.push _ _) hb)
      (show (addEntries a es).2.size ≤ fuel by omega)
      (List.forall_mem_cons.2 ⟨Nat.le_refl _, fun i hi => Nat.le_of_succ_le (hp i hi)⟩)
    rw [Ref.unfoldIn]
    simp only [hnew, hshape, Bool.false_eq_true, if_false, hpart]

/-! ### What stands in the graph -/

theorem addEntries_keys (a : Objects) (es : Entries) :
    (addEntries a es).1.keys = Table.keys es := by
  induction es generalizing a with
  | nil => rfl
  | cons e es ih =>
    obtain ⟨k, v⟩ := e
    rw [addEntries_cons]
    exact List.cons_eq_cons.2 ⟨rfl, ih _⟩

/-- All objects are tidy dicts without names, each behind whatever it holds. -/
def Grown (a : Objects) : Prop :=
  ∀ i, i < a.size → a.shape i = .dict (a.entries i) ∧ (a.shape i).Tidy i 0

theorem Grown.push {a : Objects} (h : Grown a) {es : Table Ref}
    (hes : (Shape.dict es).Tidy a.size 0) : Grown (a.push (.dict es)) := by
  intro i hi
  rw [Array.size_push] at hi
  rcases Nat.lt_or_eq_of_le (Nat.le_of_lt_succ hi) with hi | rfl
  · have hshape := (Objects.Before.push a (.dict es)).shape hi
    rw [Objects.entries_congr hshape, hshape]
    exact h i hi
  · rw [Objects.entries, Objects.shape_push]
    exact ⟨rfl, hes⟩

theorem addEntries_grown_of {es : Entries} (hk : ∀ e ∈ es, e.1.name = 0)
    (h : ∀ e ∈ es, ∀ {a : Objects}, Grown a →
      Grown (addValue a e.2).2 ∧ (addValue a e.2).1.Tidy (addValue a e.2).2.size 0)
    {a : Objects} (ha : Grown a) :
    Grown (addEntries a es).2 ∧
      ∀ e ∈ (addEntries a es).1, e.1.name ≤ 0 ∧ e.2.Tidy (addEntries a es).2.size 0 := by
  induction es generalizing a with
  | nil => exact ⟨ha, nofun⟩
  | cons e es ih =>
    obtain ⟨k, v⟩ := e
    rw [addEntries_cons]
    obtain ⟨hgrown, hpart⟩ := h _ List.mem_cons_self ha
    obtain ⟨hgrown', hrest⟩ := ih (fun e he => hk e (List.mem_cons_of_mem _ he))
      (fun e he => h e (List.mem_cons_of_mem _ he)) hgrown
    have hname : k.name ≤ 0 := Nat.le_of_eq (hk _ List.mem_cons_self)
    refine ⟨hgrown', List.forall_mem_cons.2 ⟨⟨hname, hpart.value, fun i hi => ?_⟩, hrest⟩⟩
    exact Nat.lt_of_lt_of_le (hpart.object i hi) (addEntries_before es _).size

theorem addValue_grown {v : Value} (hv : v.Tidy) {a : Objects} (ha : Grown a) :
    Grown (addValue a v).2 ∧ (addValue a v).1.Tidy (addValue a v).2.size 0 := by
  induction v using Value.dictInduction generalizing a with
  | other v hplain =>
    rw [addValue_plain a hplain]
    refine ⟨ha, Ref.tidy_value ⟨hplain, ?_⟩⟩
    cases hv with
    | dict => exact absurd rfl (hplain _)
    | other _ unnamed => exact Nat.le_of_eq unnamed
  | whole es ih =>
    obtain ⟨hgrown, hparts⟩ := addEntries_grown_of (fun e he => hv.key he)
      (fun e he a ha => ih e he (hv.part he) ha) ha
    have hdistinct : (addEntries a es).1.Distinct := by
      rw [Table.distinct_iff_keys, addEntries_keys, ← Table.distinct_iff_keys]
      exact hv.distinct
    refine ⟨hgrown.push ⟨hdistinct, hparts⟩, nofun, fun i hi => ?_⟩
    rw [addValue_dict, Array.size_push, ← Ref.object.inj hi]
    exact Nat.lt_succ_self _

theorem ofValue_dict (es : Entries) :
    ofValue (.dict es) = ⟨(addEntries #[] es).2.push (.dict (addEntries #[] es).1),
      .object (addEntries #[] es).2.size, false⟩ := rfl

theorem ofValue_grown {v : Value} (hv : v.Tidy) : Grown (ofValue v).objects :=
  (addValue_grown hv (fun _ hi => absurd hi (Nat.not_lt_zero _))).1

/-! ### Plain dicts as graphs -/

variable {es : Entries}

/-- The number of the root of a plain dict as a graph. -/
def rootOf (es : Entries) : Nat := (addEntries #[] es).2.size

theorem entries_ofValue (es : Entries) :
    (ofValue (.dict es)).objects.entries (rootOf es) = (addEntries #[] es).1 := by
  rw [ofValue_dict, Objects.entries, rootOf, Objects.shape_push]

theorem size_ofValue (es : Entries) : (ofValue (.dict es)).objects.size = rootOf es + 1 := by
  rw [ofValue_dict, Array.size_push, rootOf]

theorem root_ofValue (es : Entries) :
    (ofValue (.dict es)).root.dict? (ofValue (.dict es)).objects = some (rootOf es) := by
  refine Ref.dict?_eq_some_iff.2 ⟨rfl, ?_⟩
  rw [entries_ofValue, ofValue_dict, rootOf, Objects.shape_push]

theorem values_ofValue (es : Entries) :
    (ofValue (.dict es)).objects.values ((ofValue (.dict es)).objects.entries (rootOf es)) =
      es := by
  have hsize := size_ofValue es
  rw [entries_ofValue]
  exact unfolds_entries (fun e _ => unfolds e.2) (.push _ _)
    (show rootOf es ≤ (ofValue (.dict es)).objects.size + 1 by omega) nofun

theorem keys_ofValue (es : Entries) :
    ((ofValue (.dict es)).objects.entries (rootOf es)).keys = Table.keys es := by
  rw [entries_ofValue, addEntries_keys]

theorem bare_ofValue {k : Value} (hk : Table.get? k es = none) :
    Table.get? k ((ofValue (.dict es)).objects.entries (rootOf es)) = none := by
  rw [← values_ofValue es, Objects.values, Table.get?_map] at hk
  exact Option.map_eq_none_iff.1 hk

theorem unheld_ofValue (h : Value.Tidy (.dict es)) :
    Unheld (rootOf es) (ofValue (.dict es)).objects := by
  have hsize := size_ofValue es
  refine ⟨by omega, fun j e he hei => ?_⟩
  by_cases hj : j < (ofValue (.dict es)).objects.size
  · obtain ⟨hdict, hparts⟩ := ofValue_grown h j hj
    rw [hdict] at hparts
    have hlt := (hparts.2 e he).2.object _ hei
    omega
  · rw [Objects.entries, Objects.shape, Array.getElem?_eq_none (Nat.le_of_not_lt hj)] at he
    cases he

end Graph
end MigrationSetup
