import MigrationSetup.Proofs.Embedding

/-! Ways down a graph.

Keys lead from one dict down to another (`Objects.Leads`). In the graph of a plain value no
dict stands in two places, so one way alone leads from its root to each
(`Graph.leads_ofValue`). -/
namespace MigrationSetup

namespace Objects

/-- Keys that lead from one dict down to another. -/
inductive Leads (a : Objects) : Nat → List Value → Nat → Prop
  | here (i : Nat) : Leads a i [] i
  | within {i c j : Nat} {k : Value} {r : Ref} {path : List Value} (mem : (k, r) ∈ a.entries i)
      (dict : r.dict? a = some c) (below : Leads a c path j) : Leads a i (k :: path) j

/-- The dict `c` stands under a key of the dict `i`. -/
def Child (a : Objects) (i : Nat) (k : Value) (c : Nat) : Prop :=
  ∃ r, Table.get? k (a.entries i) = some r ∧ r.dict? a = some c

variable {a : Objects} {i c d : Nat} {k l : Value}

theorem Child.leads (h : a.Child i k c) :
    ∃ l, Value.sameKey l k = true ∧ ∀ {path j}, a.Leads c path j → a.Leads i (l :: path) j := by
  obtain ⟨r, hk, hc⟩ := h
  obtain ⟨l, hm, hl⟩ := Table.mem_of_get? hk
  exact ⟨l, hl, .within hm hc⟩

theorem Child.dict (h : a.Child i k c) : (Ref.object c).dict? a = some c := by
  obtain ⟨r, -, hc⟩ := h
  exact Ref.dict?_object hc

theorem Child.congr (h : a.Child i k c) (hkl : Value.sameKey l k = true) : a.Child i l c := by
  obtain ⟨r, hr, hc⟩ := h
  exact ⟨r, (Table.get?_congr hkl _).trans hr, hc⟩

end Objects

/-! ### Plain values -/

namespace Graph

/-- All that was added for a value is new, and one way alone leads to each part of it. -/
def Branches (v : Value) : Prop :=
  ∀ {a objects : Objects}, Objects.Before (addValue a v).2 objects → ∀ {i j : Nat},
    (addValue a v).1 = .object i → ∀ {path : List Value}, objects.Leads i path j →
      a.size ≤ j ∧ j < (addValue a v).2.size ∧
        ∀ {path'}, objects.Leads i path' j → path = path'

theorem branches_entries {es : Entries} (h : ∀ e ∈ es, Branches e.2) {a objects : Objects}
    (hb : Objects.Before (addEntries a es).2 objects) {k : Value} {c j : Nat} {path : List Value}
    (hk : (k, .object c) ∈ (addEntries a es).1) (hj : objects.Leads c path j) :
    a.size ≤ j ∧ j < (addEntries a es).2.size ∧ ∀ {l d path'},
      (l, .object d) ∈ (addEntries a es).1 → objects.Leads d path' j → k :: path = l :: path' := by
  induction es generalizing a k c j path with
  | nil => cases hk
  | cons e es ih =>
    obtain ⟨l₀, v⟩ := e
    rw [addEntries_cons] at hb hk ⊢
    have hfirst := addValue_before v a
    have hrest := addEntries_before es (addValue a v).2
    have hv : Branches v := h _ List.mem_cons_self
    have hhead {c j path} (hc : (addValue a v).1 = .object c) (hj : objects.Leads c path j) :=
      hv (hrest.trans hb) hc hj
    have htail {k c j path} (hk : (k, Ref.object c) ∈ (addEntries (addValue a v).2 es).1)
        (hj : objects.Leads c path j) :=
      ih (fun e he => h e (List.mem_cons_of_mem _ he)) hb hk hj
    have hsize := hfirst.size
    have hsize' := hrest.size
    rcases List.mem_cons.1 hk with hk | hk
    · obtain ⟨rfl, hc⟩ := Prod.mk.inj hk
      obtain ⟨hlow, hhigh, honly⟩ := hhead hc.symm hj
      refine ⟨hlow, Nat.lt_of_lt_of_le hhigh hsize', fun hl hj' => ?_⟩
      rcases List.mem_cons.1 hl with hl | hl
      · obtain ⟨rfl, hd⟩ := Prod.mk.inj hl
        cases hc.trans hd.symm
        rw [honly hj']
      · have hlow' := (htail hl hj').1
        omega
    · obtain ⟨hlow, hhigh, honly⟩ := htail hk hj
      refine ⟨by omega, hhigh, fun hl hj' => ?_⟩
      rcases List.mem_cons.1 hl with hl | hl
      · have hhigh' := (hhead (Prod.mk.inj hl).2.symm hj').2.1
        omega
      · exact honly hl hj'

theorem branches (v : Value) : Branches v := by
  induction v using Value.dictInduction with
  | other v hv =>
    intro a objects _ i j hi
    rw [addValue_plain a hv] at hi
    cases hi
  | whole es ih =>
    intro a objects hb i j hi path hj
    rw [addValue_dict] at hb hi ⊢
    cases hi
    have hbefore : Objects.Before (addEntries a es).2 objects := .trans (.push _ _) hb
    have hsize := (addEntries_before es a).size
    have hentries : objects.entries (addEntries a es).2.size = (addEntries a es).1 := by
      rw [Objects.entries, hb.shape (by simp), Objects.shape_push]
    have hbelow {k r c j path} (hm : (k, r) ∈ objects.entries (addEntries a es).2.size)
        (hc : r.dict? objects = some c) (hj : objects.Leads c path j) := by
      rw [hentries, (Ref.dict?_eq_some_iff.1 hc).1] at hm
      exact And.intro hm (branches_entries ih hbefore hm hj)
    rw [Array.size_push]
    cases hj with
    | here =>
      refine ⟨hsize, Nat.lt_succ_self _, fun hj' => ?_⟩
      cases hj' with
      | here => rfl
      | within mem dict below =>
        have hlt := (hbelow mem dict below).2.2.1
        omega
    | within mem dict below =>
      obtain ⟨hm, hlow, hhigh, honly⟩ := hbelow mem dict below
      refine ⟨hlow, by omega, fun hj' => ?_⟩
      cases hj' with
      | here => omega
      | within mem' dict' below' => exact honly (hbelow mem' dict' below').1 below'

/-- No dict of a plain value stands in two places. -/
theorem leads_ofValue {es : Entries} {path path' : List Value} {j : Nat}
    (h : (ofValue (.dict es)).objects.Leads (rootOf es) path j)
    (h' : (ofValue (.dict es)).objects.Leads (rootOf es) path' j) : path = path' :=
  (branches (.dict es) (.refl _) rfl h).2.2 h'

end Graph
end MigrationSetup
