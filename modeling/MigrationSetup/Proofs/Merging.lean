import MigrationSetup.Proofs.Copying

/-! Laying one graph over another.

An entry of the override is copied under its key, or it is merged into a dict that stands
there (`mergeEntry_cases`). From this follows what a merge leaves alone: all that lies
outside of a region that holds itself together (`Region.mergeInto`), and at the root every
key that neither side has, unless something in the base holds its root (`mergeInto_unheld`).
Twins merge alike (`mergeInto_twin`), so numbers, names and paths show in no result. -/
namespace MigrationSetup.Graph

variable {R S N : Nat → Nat → Prop} {a b o p : Objects}

/-- An entry is merged into the dict that stands there if it is one itself, or else it is put
in place. -/
theorem mergeEntry_cases
    {below : List Text → Nat → Table Ref → Objects → Except Failure Objects}
    {path : List Text} {i : Nat} {k : Value} {r : Ref} {a' : Objects}
    (hm : mergeEntry o below path i a (k, r) = .ok a') :
    (a' = putCopy o i k r a ∧ ∀ x c d, Table.get? k (a.entries i) = some x →
      x.dict? a = some c → r.dict? o ≠ some d) ∨
    ∃ x c d, Table.get? k (a.entries i) = some x ∧ x.dict? a = some c ∧ r.dict? o = some d ∧
      below (path ++ [k.spelled]) c (o.entries d) a = .ok a' := by
  simp only [mergeEntry] at hm
  split at hm
  · cases hm
  · split at hm
    · next hget => exact .inl ⟨(Except.ok.inj hm).symm, fun x _ _ hx => by simp [hget] at hx⟩
    · next current hget =>
      split at hm
      · next d c hd hc => exact .inr ⟨current, c, d, hget, hc, hd, hm⟩
      · next hnot =>
        split at hm
        · refine .inl ⟨(Except.ok.inj hm).symm, fun x c d hx hc hd => ?_⟩
          cases hget.symm.trans hx
          exact hnot d c hd hc
        · cases hm

/-- What no copy takes away a merge does not take away. -/
theorem mergeInto_keeps {P : Objects → Prop}
    (hput : ∀ {a : Objects} (i : Nat) (k : Value) (r : Ref), P a → P (putCopy o i k r a))
    (h : P a) {fuel : Nat} {path : List Text} {i : Nat} {es : Table Ref} {a' : Objects}
    (hm : mergeInto o fuel path i es a = .ok a') : P a' := by
  induction fuel generalizing path i es a a' with
  | zero => cases hm
  | succ fuel ih =>
    rw [mergeInto] at hm
    induction es generalizing a with
    | nil =>
      cases hm
      exact h
    | cons e es ihes =>
      rw [List.foldlM_cons] at hm
      obtain ⟨a₁, hstep, hm⟩ := bind_eq_ok.1 hm
      refine ihes ?_ hm
      rcases mergeEntry_cases hstep with ⟨rfl, -⟩ | ⟨x, c, d, -, -, -, hbelow⟩
      · exact hput i e.1 e.2 h
      · exact ih h hbelow

/-- A dict stays a dict. -/
theorem mergeInto_dict {j : Nat} (h : (Ref.object j).dict? a = some j) {fuel : Nat}
    {path : List Text} {i : Nat} {es : Table Ref} {a' : Objects}
    (hm : mergeInto o fuel path i es a = .ok a') : (Ref.object j).dict? a' = some j := by
  refine mergeInto_keeps (P := fun a => (Ref.object j).dict? a = some j)
    (fun {a} i k r h => ?_) h hm
  have hj := Ref.lt_size_of_dict? h
  have hs := (Ref.dict?_eq_some_iff.1 h).2
  refine Ref.dict?_eq_some_iff.2 ⟨rfl, ?_⟩
  by_cases hji : j = i
  · subst hji
    rw [entries_putCopy hj]
    exact shape_putCopy_self hj k r
  · have hsame := shape_putCopy (o := o) hj hji k r
    rw [Objects.entries_congr hsame, hsame]
    exact hs

/-! ### Regions -/

/-- What the dicts in `Q` hold is in `Q`, and whatever comes new will be. -/
structure Region (Q : Nat → Prop) (a : Objects) : Prop where
  closed : ∀ {i}, Q i → ∀ e ∈ a.entries i, ∀ j, e.2 = .object j → Q j
  beyond : ∀ {i}, a.size ≤ i → Q i

/-- The objects outside of `Q` are what they were. -/
def Kept (Q : Nat → Prop) (a a' : Objects) : Prop := ∀ i, ¬ Q i → a'.shape i = a.shape i

namespace Region
variable {Q : Nat → Prop}

theorem lt_size (h : Region Q a) {i : Nat} (hi : ¬ Q i) : i < a.size :=
  Nat.lt_of_not_ge fun hle => hi (h.beyond hle)

theorem append (h : Region Q a) (source : Objects) :
    Region Q (a ++ source.map (Shape.shift a.size)) where
  closed := by
    intro i hi e he j hj
    by_cases hlt : i < a.size
    · rw [Objects.entries_congr (Objects.shape_append_left hlt _)] at he
      exact h.closed hi e he j hj
    · obtain ⟨m, rfl⟩ : ∃ m, i = a.size + m := ⟨i - a.size, by omega⟩
      rw [Objects.entries, Objects.shape_append_right] at he
      cases hs : source.shape m with
      | dict es =>
        rw [hs] at he
        obtain ⟨f, -, rfl⟩ := List.mem_map.1 he
        obtain ⟨k, r⟩ := f
        cases r with
        | value v => cases hj
        | object l =>
          cases hj
          exact h.beyond (Nat.le_add_right _ _)
      | _ =>
        rw [hs] at he
        cases he
  beyond := by
    intro i hi
    rw [Array.size_append] at hi
    exact h.beyond (by omega)

theorem copyIn (h : Region Q a) {r : Ref} {j : Nat} (hj : (copyIn o r a).1 = .object j) :
    Q j := by
  cases r with
  | value v => cases hj
  | object l =>
    cases hj
    exact h.beyond (Nat.le_add_right _ _)

theorem putCopy (h : Region Q a) (i : Nat) (k : Value) (r : Ref) :
    Region Q (putCopy o i k r a) := by
  have hcopied : Region Q (Graph.copyIn o r a).2 := by
    cases r with
    | value v => exact h
    | object l => exact h.append o
  constructor
  · intro l hl e he j hj
    by_cases hin : l = i ∧ i < (Graph.copyIn o r a).2.size
    · obtain ⟨rfl, hlt⟩ := hin
      rw [putCopy_eq, Objects.entries, Objects.shape_set_self hlt] at he
      rcases Table.mem_put he with he | ⟨he, -⟩
      · exact hcopied.closed hl e he j hj
      · exact h.copyIn (he ▸ hj)
    · have hsame : (Graph.putCopy o i k r a).shape l = (Graph.copyIn o r a).2.shape l := by
        rw [putCopy_eq]
        by_cases hli : l = i
        · rw [Array.setIfInBounds_eq_of_size_le (Nat.le_of_not_lt fun hlt => hin ⟨hli, hlt⟩)]
        · rw [Objects.shape_set_of_ne hli]
      rw [Objects.entries_congr hsame] at he
      exact hcopied.closed hl e he j hj
  · intro l hl
    rw [putCopy_eq, Array.size_setIfInBounds] at hl
    exact hcopied.beyond hl

/-- Merging into a dict of `Q` changes no object outside. -/
theorem mergeInto (h : Region Q a) {fuel : Nat} {path : List Text} {i : Nat}
    (hi : Q i) {es : Table Ref} {a' : Objects}
    (hm : Graph.mergeInto o fuel path i es a = .ok a') : Region Q a' ∧ Kept Q a a' := by
  induction fuel generalizing path i es a a' with
  | zero => cases hm
  | succ fuel ih =>
    rw [Graph.mergeInto] at hm
    induction es generalizing a with
    | nil =>
      cases hm
      exact ⟨h, fun _ _ => rfl⟩
    | cons e es ihes =>
      rw [List.foldlM_cons] at hm
      obtain ⟨a₁, hstep, hm⟩ := bind_eq_ok.1 hm
      have h₁ : Region Q a₁ ∧ Kept Q a a₁ := by
        rcases mergeEntry_cases hstep with ⟨rfl, -⟩ | ⟨x, c, d, hget, hc, -, hbelow⟩
        · exact ⟨h.putCopy i e.1 e.2, fun j hj =>
            shape_putCopy (h.lt_size hj) (fun hji => hj (hji ▸ hi)) e.1 e.2⟩
        · obtain ⟨l, hmem, -⟩ := Table.mem_of_get? hget
          exact ih h (h.closed hi _ hmem c (Ref.dict?_eq_some_iff.1 hc).1) hbelow
      obtain ⟨h', hkept⟩ := ihes h₁.1 hm
      exact ⟨h', fun j hj => (hkept j hj).trans (h₁.2 j hj)⟩

end Region

/-! ### Keys at the root -/

/-- No dict holds the object. -/
structure Unheld (i : Nat) (a : Objects) : Prop where
  lt_size : i < a.size
  not_held : ∀ j, ∀ e ∈ a.entries j, e.2 ≠ .object i

namespace Unheld
variable {i : Nat}

theorem region (h : Unheld i a) : Region (· ≠ i) a where
  closed := fun _ e he _ hj hji => h.not_held _ e he (hji ▸ hj)
  beyond := fun hle => Nat.ne_of_gt (Nat.lt_of_lt_of_le h.lt_size hle)

theorem of_region (h : Region (· ≠ i) a) (hi : ∀ e ∈ a.entries i, e.2 ≠ .object i) :
    Unheld i a where
  lt_size := h.lt_size fun hne => hne rfl
  not_held := by
    intro j e he hei
    by_cases hji : j = i
    · exact hi e (hji ▸ he) hei
    · exact h.closed hji e he i hei rfl

theorem putCopy (h : Unheld i a) (k : Value) (r : Ref) : Unheld i (putCopy o i k r a) := by
  refine of_region (h.region.putCopy i k r) fun e he hei => ?_
  rw [entries_putCopy h.lt_size] at he
  rcases Table.mem_put he with he | ⟨he, -⟩
  · exact h.not_held i e he hei
  · exact h.region.copyIn (he ▸ hei) rfl

end Unheld

/-- If nothing in the base holds its root, no key comes to the root that it lacks and the
override lacks too. -/
theorem mergeInto_unheld {fuel : Nat} {path : List Text} {i : Nat} (h : Unheld i a)
    {es : Table Ref} {a' : Objects} (hm : mergeInto o fuel path i es a = .ok a') {k : Value}
    (hes : Table.get? k es = none) (hk : Table.get? k (a.entries i) = none) :
    Table.get? k (a'.entries i) = none := by
  cases fuel with
  | zero => cases hm
  | succ fuel =>
    rw [mergeInto] at hm
    induction es generalizing a with
    | nil =>
      cases hm
      exact hk
    | cons e es ih =>
      obtain ⟨l, r⟩ := e
      have hl : Value.sameKey l k = false := Table.get?_eq_none_iff.1 hes _ List.mem_cons_self
      have hrest : Table.get? k es = none := Table.get?_eq_none_iff.2 fun e he =>
        Table.get?_eq_none_iff.1 hes e (List.mem_cons_of_mem _ he)
      rw [List.foldlM_cons] at hm
      obtain ⟨a₁, hstep, hm⟩ := bind_eq_ok.1 hm
      rcases mergeEntry_cases hstep with ⟨rfl, -⟩ | ⟨x, c, d, hget, hc, -, hbelow⟩
      · refine ih (h.putCopy l r) hrest ?_ hm
        rw [entries_putCopy h.lt_size, Table.get?_put_of_ne hl, hk]
      · obtain ⟨l', hmem, -⟩ := Table.mem_of_get? hget
        have hci : c ≠ i := by
          rintro rfl
          exact h.not_held c _ hmem (Ref.dict?_eq_some_iff.1 hc).1
        obtain ⟨h', hkept⟩ := h.region.mergeInto hci hbelow
        have hentries : a₁.entries i = a.entries i :=
          Objects.entries_congr (hkept i fun hne => hne rfl)
        refine ih (.of_region h' fun e he => ?_) hrest (hentries ▸ hk) hm
        exact h.not_held i e (hentries ▸ he)

/-- Entries under keys of their own are all put in place, if their keys can be named. -/
theorem mergeInto_apart (fuel : Nat) (path : List Text) {i : Nat} (hi : i < a.size)
    {es : Table Ref} (hd : Table.Distinct es)
    (hnew : ∀ e ∈ es, Table.get? e.1 (a.entries i) = none) :
    (es.any (fun e => e.1.hasLong) = true ∧
      mergeInto o (fuel + 1) path i es a = .error (.setting .longNumber)) ∨
    (es.any (fun e => e.1.hasLong) = false ∧ ∃ a', mergeInto o (fuel + 1) path i es a = .ok a' ∧
      a.size ≤ a'.size ∧ (∀ j, j < a.size → j ≠ i → a'.shape j = a.shape j) ∧
      ∀ k, Table.get? k es = none → Table.get? k (a'.entries i) = Table.get? k (a.entries i)) := by
  rw [mergeInto]
  induction es generalizing a with
  | nil => exact .inr ⟨rfl, a, rfl, Nat.le_refl _, fun _ _ _ => rfl, fun _ _ => rfl⟩
  | cons e es ih =>
    obtain ⟨l, r⟩ := e
    have hget : Table.get? l (a.entries i) = none := hnew _ List.mem_cons_self
    rw [List.foldlM_cons]
    cases hn : l.hasLong with
    | true =>
      refine .inl ⟨by simp [hn], ?_⟩
      simp only [mergeEntry, hn]
      rfl
    | false =>
      have hstep : mergeEntry o (mergeInto o fuel) path i a (l, r) =
          .ok (putCopy o i l r a) := by
        simp only [mergeEntry, hn, hget]
        rfl
      have hsize := size_putCopy_le o i l r a
      have hentries := entries_putCopy (o := o) hi l r
      have hnew' : ∀ e ∈ es, Table.get? e.1 ((putCopy o i l r a).entries i) = none := by
        intro e he
        rw [hentries, Table.get?_put_of_ne ((List.pairwise_cons.1 hd).1 e he)]
        exact hnew e (List.mem_cons_of_mem _ he)
      rw [hstep]
      simp only [List.any_cons, hn, Bool.false_or]
      refine (ih (Nat.lt_of_lt_of_le hi hsize) hd.tail hnew').imp_right ?_
      rintro ⟨hshort, a', hm, hle, hshape, hkeys⟩
      refine ⟨hshort, a', hm, Nat.le_trans hsize hle, fun j hj hji => ?_, fun k hk => ?_⟩
      · rw [hshape j (Nat.lt_of_lt_of_le hj hsize) hji, shape_putCopy hj hji]
      · have hl : Value.sameKey l k = false := Table.get?_eq_none_iff.1 hk _ List.mem_cons_self
        have hrest : Table.get? k es = none := Table.get?_eq_none_iff.2 fun e he =>
          Table.get?_eq_none_iff.1 hk e (List.mem_cons_of_mem _ he)
        rw [hkeys k hrest, hentries, Table.get?_put_of_ne hl]

/-! ### Twins -/

/-- What two merges come to if the second one ends: twins that relate what was related
before, or rejections of one class. -/
inductive Merges (R N : Nat → Nat → Prop) :
    Except Failure Objects → Except Failure Objects → Prop
  | done {R' : Nat → Nat → Prop} {a b : Objects} (more : ∀ i j, R i j → R' i j)
      (twin : Objects.Twin R' N a b) : Merges R N (.ok a) (.ok b)
  | rejected {e f : SettingError} (fault : e.fault = f.fault) :
      Merges R N (.error (.setting e)) (.error (.setting f))
  | endless (x : Except Failure Objects) : Merges R N x (.error .endlessMerge)

theorem Merges.of_more {R R' : Nat → Nat → Prop} {x y : Except Failure Objects}
    (h : ∀ i j, R i j → R' i j) (hx : Merges R' N x y) : Merges R N x y := by
  cases hx with
  | done more twin => exact .done (fun i j hij => more i j (h i j hij)) twin
  | rejected fault => exact .rejected fault
  | endless => exact .endless _

theorem mergeEntry_twin
    {below below' : List Text → Nat → Table Ref → Objects → Except Failure Objects}
    (hbelow : ∀ {R a b i j es fs} (path path' : List Text), Objects.Twin R N a b → R i j →
      Table.Twin N (Ref.Twin S N) es fs → Merges R N (below path i es a) (below' path' j fs b))
    (h : Objects.Twin R N a b) (ho : Objects.Twin S N o p) (path path' : List Text)
    {i j : Nat} (hij : R i j) {e f : Value × Ref} (he : e.1.Twin N f.1 ∧ e.2.Twin S N f.2) :
    Merges R N (mergeEntry o below path i a e) (mergeEntry p below' path' j b f) := by
  obtain ⟨k, r⟩ := e
  obtain ⟨l, s⟩ := f
  obtain ⟨hk, hr⟩ := he
  have hput : Merges R N (.ok (putCopy o i k r a)) (.ok (putCopy p j l s b)) := by
    obtain ⟨R', hmore, htwin⟩ := putCopy_twin h ho hij hk hr
    exact .done hmore htwin
  have hget := (h.entries hij).get? h.names hk
  simp only [mergeEntry, hk.hasLong]
  split
  · exact .rejected rfl
  · generalize Table.get? k (a.entries i) = x at hget
    generalize Table.get? l (b.entries j) = y at hget
    cases hget with
    | none => exact hput
    | @some c d hc =>
      have hface := hr.face ho
      have hunder := hc.face h
      have hyields := hunder.yieldsTo hface
      -- Unless both are dicts, the value is put in place or refused.
      have hplain : Merges R N
          (if (c.face a).yieldsTo (r.face o) then .ok (putCopy o i k r a)
            else .error (.setting
              (.conflict (path ++ [k.spelled]) (c.face a).kind (r.face o).kind)))
          (if (d.face b).yieldsTo (s.face p) then .ok (putCopy p j l s b)
            else .error (.setting
              (.conflict (path' ++ [l.spelled]) (d.face b).kind (s.face p).kind))) := by
        rw [hyields]
        split
        · exact hput
        · exact .rejected rfl
      have hrd := hr.dict? ho
      have hcd := hc.dict? h
      simp only
      generalize r.dict? o = x at hrd
      generalize s.dict? p = y at hrd
      generalize c.dict? a = x' at hcd
      generalize d.dict? b = y' at hcd
      cases hrd with
      | none => exact hplain
      | some hrs =>
        cases hcd with
        | none => exact hplain
        | some hcd => exact hbelow _ _ h hcd (ho.entries hrs)

/-- Twins merge alike, whatever paths lead to them, if the second merge ends. -/
theorem mergeInto_twin (ho : Objects.Twin S N o p) {fuel fuel' : Nat} (hf : fuel' ≤ fuel)
    (h : Objects.Twin R N a b) (path path' : List Text) {i j : Nat} (hij : R i j)
    {es fs : Table Ref} (hes : Table.Twin N (Ref.Twin S N) es fs) :
    Merges R N (mergeInto o fuel path i es a) (mergeInto p fuel' path' j fs b) := by
  induction fuel' generalizing fuel R path path' i j es fs a b with
  | zero => exact .endless _
  | succ fuel' ih =>
    obtain ⟨fuel, rfl⟩ : ∃ n, fuel = n + 1 := ⟨fuel - 1, by omega⟩
    rw [mergeInto, mergeInto]
    have hf' : fuel' ≤ fuel := Nat.le_of_succ_le_succ hf
    induction hes generalizing R a b with
    | nil => exact .done (fun _ _ => id) h
    | @cons e f es fs he _ ihes =>
      have hstep := mergeEntry_twin
        (fun path path' h hij hes => ih hf' h path path' hij hes) h ho path path' hij he
      rw [List.foldlM_cons, List.foldlM_cons]
      generalize mergeEntry o (mergeInto o fuel) path i a e = x at hstep
      generalize mergeEntry p (mergeInto p fuel') path' j b f = y at hstep
      cases hstep with
      | done more twin => exact (ihes twin (more _ _ hij)).of_more more
      | rejected fault => exact .rejected fault
      | endless => exact .endless _

/-! ### Whole graphs -/

theorem merge_eq {g o : Graph} {b c : Nat} (hb : g.root.dict? g.objects = some b)
    (hc : o.root.dict? o.objects = some c) :
    g.merge o = (mergeInto (o.apart g.objects.size).objects maxDepth [] b
      ((o.apart g.objects.size).objects.entries c) g.objects).map fun a =>
        ⟨a, .object b, true⟩ := by
  simp only [merge, hb, root_apart hc]
  cases mergeInto (o.apart g.objects.size).objects maxDepth [] b
    ((o.apart g.objects.size).objects.entries c) g.objects <;> rfl

end MigrationSetup.Graph
