import Mathlib.Data.List.Perm.Subperm
import MigrationSetup.Load
import MigrationSetup.Proofs.Binding
import MigrationSetup.Proofs.Nameless

/-! What graphs unfold to.

Twins unfold to the same but for names, whatever numbers their objects have
(`Ref.Twin.unfold`): as no object comes twice on a path the fuel always lasts. A graph binds
to what the entries of its root unfold to, or those of the dict under the section's key
(`Settings.ofDocument_bare`, `Settings.ofDocument_section`). -/
namespace MigrationSetup

/-- The numbers of objects that lie one in the other, out of `n` objects. -/
structure Trail (n : Nat) (path : List Nat) : Prop where
  nodup : path.Nodup
  bound : ∀ i ∈ path, i < n

theorem Trail.length_le {n : Nat} {path : List Nat} (h : Trail n path) : path.length ≤ n := by
  have hsub : path ⊆ List.range n := fun i hi => List.mem_range.2 (h.bound i hi)
  have hlen := (List.Nodup.subperm h.nodup hsub).length_le
  rwa [List.length_range] at hlen

theorem Trail.cons {n i : Nat} {path : List Nat} (h : Trail n path) (hi : i < n)
    (hnew : path.contains i = false) : Trail n (i :: path) where
  nodup := List.nodup_cons.2 ⟨fun hm => by simp [hm] at hnew, h.nodup⟩
  bound := List.forall_mem_cons.2 ⟨hi, h.bound⟩

section
variable {R N : Nat → Nat → Prop} {a b : Objects}

theorem Objects.Twin.contains (h : Objects.Twin R N a b) {path path' : List Nat} {i j : Nat}
    (hp : List.Forall₂ R path path') (hij : R i j) :
    path.contains i = path'.contains j := by
  induction hp with
  | nil => rfl
  | cons hkl _ ih =>
    have hiff := h.numbers hij hkl
    rw [List.contains_cons, List.contains_cons, ih]
    exact congrArg (· || _) (Bool.eq_iff_iff.2 (by simpa using hiff))

/-- Twins unfold to the same but for names. Neither comes to the end of its fuel, since the
objects of a path are all different and so no more than there are. -/
theorem Ref.Twin.unfoldIn (h : Objects.Twin R N a b) {fuel fuel' : Nat}
    {path path' : List Nat} (hp : List.Forall₂ R path path') (ht : Trail a.size path)
    (ht' : Trail b.size path') (hf : a.size < fuel + path.length)
    (hf' : b.size < fuel' + path'.length) {r s : Ref} (hr : r.Twin R N s) :
    (r.unfoldIn a fuel path).nameless = (s.unfoldIn b fuel' path').nameless := by
  induction fuel generalizing fuel' path path' r s with
  | zero =>
    have hlen := ht.length_le
    omega
  | succ fuel ih =>
    have hlen' := ht'.length_le
    obtain ⟨fuel', rfl⟩ : ∃ n, fuel' = n + 1 := ⟨fuel' - 1, by omega⟩
    cases hr with
    | value twin =>
      simp only [Ref.unfoldIn]
      exact twin.nameless
    | @object i j hij =>
      have hshape := h.shapes hij
      have hbound := h.bounds hij
      simp only [Ref.unfoldIn, h.contains hp hij]
      split
      · rw [hshape.face]
      · next hnew =>
        have hnew : path'.contains j = false := by simpa using hnew
        have hpart {r s : Ref} (hr : r.Twin R N s) :
            (r.unfoldIn a fuel (i :: path)).nameless =
              (s.unfoldIn b fuel' (j :: path')).nameless := by
          refine ih (.cons hij hp) (ht.cons hbound.1 ((h.contains hp hij).trans hnew))
            (ht'.cons hbound.2 hnew) ?_ ?_ hr
          · simp only [List.length_cons]
            omega
          · simp only [List.length_cons]
            omega
        generalize a.shape i = x at hshape
        generalize b.shape j = y at hshape
        cases hshape with
        | list items =>
          simp only [Value.nameless]
          refine congrArg _ (Value.namelessAll_eq ?_)
          exact forall₂_map items hpart
        | pairs items =>
          simp only [Value.nameless]
          refine congrArg _ (Value.namelessAll_eq ?_)
          refine forall₂_map items fun hp => ?_
          simp only [Value.nameless, Value.namelessAll, hpart hp.1, hpart hp.2]
        | dict entries =>
          simp only [Value.nameless]
          refine congrArg _ (Value.namelessEntries_eq ?_)
          exact forall₂_map entries fun he => ⟨he.1.nameless, hpart he.2⟩
        | set items =>
          simp only [Value.nameless]
          exact congrArg _ (Value.namelessAll_eq (items.imp fun _ _ hv => hv.nameless))

theorem Ref.Twin.unfold (h : Objects.Twin R N a b) {r s : Ref} (hr : r.Twin R N s) :
    (r.unfold a).nameless = (s.unfold b).nameless :=
  Ref.Twin.unfoldIn h .nil ⟨.nil, nofun⟩ ⟨.nil, nofun⟩ (Nat.lt_succ_self _)
    (Nat.lt_succ_self _) hr

/-- The values that entries unfold to. -/
def Objects.values (a : Objects) (es : Table Ref) : Entries :=
  es.map fun e => (e.1, e.2.unfold a)

theorem Objects.Twin.values (h : Objects.Twin R N a b) {i j : Nat} (hij : R i j) :
    Settings.Same N (a.values (a.entries i)) (b.values (b.entries j)) :=
  forall₂_map (h.entries hij) fun he => ⟨he.1, Ref.Twin.unfold h he.2⟩

end

/-! ### What a graph binds to -/

theorem Table.get?_map {α β : Type} (k : Value) (f : α → β) (t : Table α) :
    Table.get? k (t.map fun e => (e.1, f e.2)) = (t.get? k).map f := by
  induction t with
  | nil => rfl
  | cons e t ih =>
    obtain ⟨l, a⟩ := e
    simp only [List.map_cons, get?, ih]
    split <;> rfl

/-- What stands under a key once every entry was changed but for its key. -/
theorem Table.get?_map_of {α β : Type} {k : Value} {t : Table α} {a : α} {b : β}
    {f : Value × α → Value × β} (hf : ∀ e, (f e).1 = e.1) (h : t.get? k = some a)
    (ha : ∀ l, Value.sameKey l k = true → (f (l, a)).2 = b) :
    Table.get? k (t.map f) = some b := by
  induction t with
  | nil => cases h
  | cons e t ih =>
    obtain ⟨l, c⟩ := e
    have hl := hf (l, c)
    rw [List.map_cons]
    by_cases hs : Value.sameKey l k = true
    · simp only [get?, hs, if_true, Option.some.injEq] at h
      subst h
      simp only [get?, hl, hs, if_true, ha l hs]
    · simp only [get?, hs] at h
      simp only [get?, hl, hs]
      exact ih h

namespace Settings

theorem ofDocument_bare {g : Graph} {i : Nat} (hi : g.root.dict? g.objects = some i)
    (hk : Table.get? (.text sectionKey) (g.objects.entries i) = none) :
    ofDocument (.shared g) = ofEntries (g.objects.values (g.objects.entries i)) := by
  have hvalues : g.unfoldEntries (.text sectionKey) =
      .dict (g.objects.values (g.objects.entries i)) := by
    simp only [Graph.unfoldEntries, hi, Objects.values]
    refine congrArg _ (List.map_congr_left fun e he => ?_)
    have hne := Table.get?_eq_none_iff.1 hk e he
    split
    · simp [hne]
    · rfl
  rw [ofDocument, hvalues, ofValue_bare]
  rw [Objects.values, Table.get?_map, hk]
  rfl

theorem ofDocument_section {g : Graph} {i j : Nat} {r : Ref}
    (hi : g.root.dict? g.objects = some i)
    (hk : Table.get? (.text sectionKey) (g.objects.entries i) = some r)
    (hj : r.dict? g.objects = some j) :
    ofDocument (.shared g) = ofEntries (g.objects.values (g.objects.entries j)) := by
  simp only [ofDocument, Graph.unfoldEntries, hi]
  refine ofValue_section (Table.get?_map_of (fun e => ?_) hk fun l hl => ?_)
  · split
    · split <;> rfl
    · rfl
  · simp only [hj, hl, if_true]
    rfl

end Settings
end MigrationSetup
