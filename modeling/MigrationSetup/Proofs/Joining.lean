import MigrationSetup.Proofs.Branching
import MigrationSetup.Proofs.Glance

/-! Laying a graph over dicts that stand in one place each.

If no dict that meets one of the override stands in two places (`Graph.Unshared`), no entry of
the override shows where another one is laid, and two graphs fit or not as they are before the
merge (`Graph.Fits`). Each entry is laid over the dict on its own (`Graph.mergeEntry_joins`),
and so are all entries one after the other (`Graph.mergeInto_joins`): the merge comes to an
end exactly if the graphs fit, and then the dict is at a glance the overlay of what it was and
of the override. -/
namespace MigrationSetup

/-! ### Tables -/

namespace Table
variable {α β : Type}

theorem map_put (f : α → β) (k : Value) (x : α) (t : Table α) :
    (t.put k x).map (fun e => (e.1, f e.2)) = Table.put k (f x) (t.map fun e => (e.1, f e.2)) := by
  induction t with
  | nil => rfl
  | cons e t ih =>
    obtain ⟨l, y⟩ := e
    simp only [put, List.map_cons]
    split
    · rfl
    · rw [List.map_cons, ih]

/-- What is there already may be put there again. -/
theorem put_get? {k : Value} {t : Table α} {x : α} (h : t.get? k = some x) : t.put k x = t := by
  induction t with
  | nil => cases h
  | cons e t ih =>
    obtain ⟨l, y⟩ := e
    rw [get?] at h
    rw [put]
    split at h
    · next hs => rw [if_pos hs, Option.some.inj h]
    · next hs => rw [if_neg hs, ih h]

theorem Distinct.glances {t : Table Ref} (h : t.Distinct) (a : Objects) :
    Table.Distinct (a.glances t) :=
  List.pairwise_map.2 h

end Table

namespace Settings

theorem overlay_nil (b : Entries) : overlay b [] = b := Value.layEntries_nil _ b

/-- Entries may be laid over others one by one. -/
theorem overlay_cons {b o : Entries} {k v : Value} (hb : Table.Distinct b)
    (ho : Table.Distinct ((k, v) :: o)) :
    overlay b ((k, v) :: o) = overlay (Table.put k v b) o := by
  cases hk : Table.get? k b with
  | none =>
    rw [Table.put_of_new hk]
    exact (Value.layEntries_new hk ho).symm
  | some c => exact (Value.layEntries_held hb hk ho).symm

theorem overlay_single {b : Entries} (hb : Table.Distinct b) (k v : Value) :
    overlay b [(k, v)] = Table.put k v b := by
  rw [overlay_cons hb (List.pairwise_singleton _ _), overlay_nil]

end Settings

/-- No dict holds a key twice, or an object that is not there. -/
structure Objects.Proper (a : Objects) : Prop where
  distinct : ∀ i, Table.Distinct (a.entries i)
  bounds : ∀ i, ∀ e ∈ a.entries i, e.2.InBounds a.size

theorem Objects.Proper.of_get? {a : Objects} (h : a.Proper) {i : Nat} {k : Value} {r : Ref}
    (hr : Table.get? k (a.entries i) = some r) : r.InBounds a.size := by
  obtain ⟨l, hm, -⟩ := Table.mem_of_get? hr
  exact h.bounds i _ hm

namespace Graph

/-! ### Which graphs fit -/

/-- So many keys down from two dicts a dict of the base and one of the override meet. -/
inductive Meets (a o : Objects) : Nat → Nat → Nat → Nat → Nat → Prop
  | here (i j : Nat) : Meets a o i j 0 i j
  | within {i j c d i' j' n : Nat} {k : Value} {r : Ref} (mem : (k, r) ∈ o.entries j)
      (dict : r.dict? o = some d) (child : a.Child i k c) (below : Meets a o c d n i' j') :
      Meets a o i j (n + 1) i' j'

/-- Wherever dicts meet below `i` and `j` what the base holds gives way, and all keys there
can be named. Dicts meet less than `depth` keys down. -/
structure Fits (a o : Objects) (depth i j : Nat) : Prop where
  shallow : ∀ {n i' j'}, Meets a o i j n i' j' → n < depth
  named : ∀ {n i' j'}, Meets a o i j n i' j' → ∀ e ∈ o.entries j', e.1.hasLong = false
  yields : ∀ {n i' j'}, Meets a o i j n i' j' → ∀ e ∈ o.entries j', ∀ r,
    Table.get? e.1 (a.entries i') = some r → (r.face a).yieldsTo (e.2.face o) = true

/-- An entry can be laid over a dict. -/
structure EntryFits (a o : Objects) (depth i : Nat) (e : Value × Ref) : Prop where
  named : e.1.hasLong = false
  yields : ∀ r, Table.get? e.1 (a.entries i) = some r → (r.face a).yieldsTo (e.2.face o) = true
  below : ∀ {c d}, a.Child i e.1 c → e.2.dict? o = some d → Fits a o depth c d

section
variable {a o : Objects} {depth i j : Nat}

theorem not_fits_zero : ¬ Fits a o 0 i j :=
  fun h => Nat.not_lt_zero _ (h.shallow (.here i j))

/-- Dicts fit exactly if each entry does. -/
theorem fits_succ_iff :
    Fits a o (depth + 1) i j ↔ ∀ e ∈ o.entries j, EntryFits a o depth i e := by
  constructor
  · intro h e he
    refine ⟨h.named (.here i j) e he, h.yields (.here i j) e he, fun hc hd => ?_⟩
    have hdown {n i' j'} : Meets a o _ _ n i' j' → Meets a o i j (n + 1) i' j' :=
      .within he hd hc
    exact ⟨fun hm => Nat.lt_of_succ_lt_succ (h.shallow (hdown hm)), fun hm => h.named (hdown hm),
      fun hm => h.yields (hdown hm)⟩
  · intro h
    constructor
    · intro n i' j' hm
      cases hm with
      | here => exact Nat.succ_pos depth
      | within mem dict child below =>
        exact Nat.succ_lt_succ (((h _ mem).below child dict).shallow below)
    · intro n i' j' hm
      cases hm with
      | here => exact fun e he => (h e he).named
      | within mem dict child below => exact ((h _ mem).below child dict).named below
    · intro n i' j' hm
      cases hm with
      | here => exact fun e he => (h e he).yields
      | within mem dict child below => exact ((h _ mem).below child dict).yields below

end

/-! ### Dicts that stand in one place -/

/-- No dict below `i` that meets one below `j` stands in two places. -/
def Unshared (a o : Objects) (i j : Nat) : Prop :=
  ∀ ⦃n m m' : Nat⦄, Meets a o i j n m m' → ∀ ⦃path path' : List Value⦄,
    a.Leads i path m → a.Leads i path' m → path = path'

namespace Meets
variable {a o : Objects} {i j n m m' : Nat}

theorem leads (h : Meets a o i j n m m') : ∃ path, a.Leads i path m := by
  induction h with
  | here i => exact ⟨[], .here i⟩
  | within _ _ child _ ih =>
    obtain ⟨path, hm⟩ := ih
    obtain ⟨l, -, hleads⟩ := child.leads
    exact ⟨l :: path, hleads hm⟩

theorem dict (h : Meets a o i j n m m') (hi : (Ref.object i).dict? a = some i) :
    (Ref.object m).dict? a = some m := by
  induction h with
  | here => exact hi
  | within _ _ child _ ih => exact ih child.dict

end Meets

namespace Unshared
variable {a o : Objects} {i j c d n m m' : Nat} {e : Value × Ref} (h : Unshared a o i j)
include h

/-- Nothing below a dict leads back to it. -/
theorem not_back {k : Value} (hc : a.Child i k c) : ¬ Meets a o c d n i m' := by
  intro hm
  obtain ⟨l, -, hleads⟩ := hc.leads
  obtain ⟨path, hp⟩ := hm.leads
  cases h (.here i j) (hleads hp) (.here i)

variable (he : e ∈ o.entries j) (hc : a.Child i e.1 c) (hd : e.2.dict? o = some d)
include he hc hd

theorem child : Unshared a o c d := by
  obtain ⟨l, -, hleads⟩ := hc.leads
  intro n m m' hm path path' hp hp'
  exact (List.cons_eq_cons.1 (h (.within he hd hc hm) (hleads hp) (hleads hp'))).2

/-- What meets below one key does not stand below another. -/
theorem apart (hm : Meets a o c d n m m') {k : Value} {c' : Nat} (hc' : a.Child i k c')
    (hk : Value.sameKey e.1 k = false) {path : List Value} : ¬ a.Leads c' path m := by
  obtain ⟨l, hl, hleads⟩ := hc.leads
  obtain ⟨l', hl', hleads'⟩ := hc'.leads
  obtain ⟨path', hp⟩ := hm.leads
  intro hp'
  obtain ⟨rfl, -⟩ := List.cons_eq_cons.1 (h (.within he hd hc hm) (hleads hp) (hleads' hp'))
  rw [Value.sameKey_comm] at hl
  rw [Value.sameKey_trans hl hl'] at hk
  cases hk

end Unshared

/-! ### Steps of a merge -/

variable {A o a b : Objects} {depth i j c d : Nat} {e : Value × Ref} {es : Table Ref}

/-- In a merge that started from `A` the entries `es` are still to be laid over `i`. What
they meet is as it was. -/
structure Ready (A o : Objects) (i : Nat) (es : Table Ref) (a : Objects) : Prop where
  akin : Objects.Akin A a
  dict : (Ref.object i).dict? a = some i
  distinct : Table.Distinct (a.entries i)
  bounds : ∀ e ∈ a.entries i, e.2.InBounds a.size
  held : ∀ e ∈ es, Table.get? e.1 (a.entries i) = Table.get? e.1 (A.entries i)
  below : ∀ e ∈ es, ∀ {c d n m m'}, A.Child i e.1 c → e.2.dict? o = some d →
    Meets A o c d n m m' → a.shape m = A.shape m

/-- The entries `es` have been laid over `i`, which is at a glance the overlay. But for `i` and
what they meet below it all objects are as they were. -/
structure Joined (A o : Objects) (i : Nat) (es : Table Ref) (a b : Objects) : Prop where
  akin : Objects.Akin a b
  distinct : Table.Distinct (b.entries i)
  bounds : ∀ e ∈ b.entries i, e.2.InBounds b.size
  kept : ∀ {m}, m < a.size → m ≠ i →
    (∀ e ∈ es, ∀ {c d n m'}, A.Child i e.1 c → e.2.dict? o = some d → ¬ Meets A o c d n m m') →
      b.shape m = a.shape m
  others : ∀ {k}, Table.get? k es = none → Table.get? k (b.entries i) = Table.get? k (a.entries i)
  glances : b.glances (b.entries i) = Settings.overlay (a.glances (a.entries i)) (o.glances es)

/-- `x` is what comes of laying `es` over `i`: it is there exactly if they fit. -/
structure Joins (A o : Objects) (i : Nat) (es : Table Ref) (a : Objects) (fits : Prop)
    (x : Except Failure Objects) : Prop where
  ok_iff : (∃ b, x = .ok b) ↔ fits
  joined : ∀ {b}, x = .ok b → Joined A o i es a b

namespace Ready

theorem initial (hA : A.Proper) (hi : (Ref.object i).dict? A = some i) : Ready A o i es A where
  akin := .refl A
  dict := hi
  distinct := hA.distinct i
  bounds := hA.bounds i
  held := fun _ _ => rfl
  below := fun _ _ _ _ _ _ _ _ _ _ => rfl

/-- Where dicts meet the merge can go on. -/
theorem child (h : Ready A o i (e :: es) a) (hA : A.Proper) (hc : A.Child i e.1 c)
    (hd : e.2.dict? o = some d) : Ready A o c (o.entries d) a := by
  have hshape {n m m'} : Meets A o c d n m m' → a.shape m = A.shape m :=
    h.below e List.mem_cons_self hc hd
  have hentries : a.entries c = A.entries c := Objects.entries_congr (hshape (.here c d))
  constructor
  · exact h.akin
  · rw [h.akin.dict? fun j hj => Ref.object.inj hj ▸ Ref.lt_size_of_dict? hc.dict]
    exact hc.dict
  · rw [hentries]
    exact hA.distinct c
  · rw [hentries]
    exact fun e he j hj => Nat.lt_of_lt_of_le (hA.bounds c e he j hj) h.akin.size
  · intro f _
    rw [hentries]
  · intro f hf c' d' n m m' hc' hd' hm
    exact hshape (.within hf hd' hc' hm)

/-- Once an entry has been laid the others can still be. -/
theorem next (h : Ready A o i (e :: es) a) (hone : Unshared A o i j)
    (hsub : ∀ f ∈ e :: es, f ∈ o.entries j) (hd : Table.Distinct (e :: es))
    (hj : Joined A o i [e] a b) : Ready A o i es b := by
  have hne : ∀ f ∈ es, Value.sameKey e.1 f.1 = false := (List.pairwise_cons.1 hd).1
  constructor
  · exact h.akin.trans hj.akin
  · rw [hj.akin.dict? fun j hj => Ref.object.inj hj ▸ Ref.lt_size_of_dict? h.dict]
    exact h.dict
  · exact hj.distinct
  · exact hj.bounds
  · intro f hf
    rw [hj.others (by simp [Table.get?, hne f hf])]
    exact h.held f (List.mem_cons_of_mem _ hf)
  · intro f hf c d n m m' hc hd hm
    have hlt : m < a.size := Nat.lt_of_lt_of_le (Ref.lt_size_of_dict? (hm.dict hc.dict)) h.akin.size
    rw [hj.kept hlt, h.below f (List.mem_cons_of_mem _ hf) hc hd hm]
    · rintro rfl
      exact hone.not_back hc hm
    · intro g hg c' d' n' m'' hc' hd' hm'
      rw [List.mem_singleton.1 hg] at hc' hd'
      obtain ⟨path, hp⟩ := hm.leads
      exact hone.apart (hsub e List.mem_cons_self) hc' hd' hm' hc (hne f hf) hp

end Ready

namespace Joined

theorem none (h : Ready A o i [] a) : Joined A o i [] a a where
  akin := .refl a
  distinct := h.distinct
  bounds := h.bounds
  kept := fun _ _ _ => rfl
  others := fun _ => rfl
  glances := (Settings.overlay_nil _).symm

theorem cons {b' : Objects} (h : Ready A o i (e :: es) a) (hd : Table.Distinct (e :: es))
    (hfirst : Joined A o i [e] a b) (hrest : Joined A o i es b b') :
    Joined A o i (e :: es) a b' where
  akin := hfirst.akin.trans hrest.akin
  distinct := hrest.distinct
  bounds := hrest.bounds
  kept := by
    intro m hm hmi hes
    rw [hrest.kept (Nat.lt_of_lt_of_le hm hfirst.akin.size) hmi fun f hf =>
      hes f (List.mem_cons_of_mem _ hf)]
    refine hfirst.kept hm hmi fun f hf => ?_
    rw [List.mem_singleton.1 hf]
    exact hes e List.mem_cons_self
  others := by
    intro k hk
    have hnone := Table.get?_eq_none_iff.1 hk
    rw [hrest.others (Table.get?_eq_none_iff.2 fun f hf => hnone f (List.mem_cons_of_mem _ hf))]
    refine hfirst.others (Table.get?_eq_none_iff.2 fun f hf => ?_)
    rw [List.mem_singleton.1 hf]
    exact hnone e List.mem_cons_self
  glances := by
    have ha := h.distinct.glances a
    have ho : Table.Distinct ((e.1, e.2.glance o) :: o.glances es) := hd.glances o
    rw [hrest.glances, hfirst.glances]
    show Settings.overlay (Settings.overlay _ [(e.1, e.2.glance o)]) _ =
      Settings.overlay _ ((e.1, e.2.glance o) :: o.glances es)
    rw [Settings.overlay_cons ha ho, Settings.overlay_single ha]

/-- An entry was put in place. -/
theorem putCopy (h : Ready A o i (e :: es) a) (hr : e.2.InBounds o.size) :
    Joined A o i [e] a (putCopy o i e.1 e.2 a) := by
  have hlt := Ref.lt_size_of_dict? h.dict
  have hakin := akin_putCopy (o := o) h.dict e.1 e.2
  have hcopied := akin_copied (o := o) h.dict e.1 e.2
  have hcopy := inBounds_copyIn hr a
  constructor
  · exact hakin
  · rw [entries_putCopy hlt]
    exact h.distinct.put e.1 _
  · rw [entries_putCopy hlt]
    intro f hf j hj
    rcases Table.mem_put hf with hf | ⟨hf, -⟩
    · exact Nat.lt_of_lt_of_le (h.bounds f hf j hj) hakin.size
    · exact Nat.lt_of_lt_of_le (hcopy j (hf ▸ hj)) hcopied.size
  · exact fun hm hmi _ => shape_putCopy hm hmi e.1 e.2
  · intro k hk
    have hne : Value.sameKey e.1 k = false := Table.get?_eq_none_iff.1 hk e List.mem_cons_self
    rw [entries_putCopy hlt, Table.get?_put_of_ne hne]
  · have hglance := (hcopied.glance_ref hcopy).trans (glance_copyIn o e.2 a)
    rw [entries_putCopy hlt, Objects.glances, Table.map_put (Ref.glance _), hglance]
    show Table.put e.1 _ ((Graph.putCopy o i e.1 e.2 a).glances (a.entries i)) = _
    rw [hakin.glances h.bounds]
    exact (Settings.overlay_single (h.distinct.glances a) _ _).symm

/-- What meets nothing below `c` is as it was once entries were laid over `c`. -/
theorem kept_outside (hj : Joined A o c (o.entries d) a b) {m : Nat} (hm : m < a.size)
    (hcm : ∀ n m', ¬ Meets A o c d n m m') : b.shape m = a.shape m := by
  have hmc : m ≠ c := by
    rintro rfl
    exact hcm 0 d (.here m d)
  refine hj.kept hm hmc fun f hf c' d' n m' hc' hd' hm' => ?_
  exact hcm _ _ (.within hf hd' hc' hm')

/-- An entry was merged into a dict. -/
theorem child (h : Ready A o i (e :: es) a) (hone : Unshared A o i j) (hA : A.Proper)
    (hc : A.Child i e.1 c) (hd : e.2.dict? o = some d)
    (hj : Joined A o c (o.entries d) a b) : Joined A o i [e] a b := by
  have hentries : b.entries i = a.entries i := Objects.entries_congr <|
    hj.kept_outside (Ref.lt_size_of_dict? h.dict) fun _ _ => hone.not_back hc
  constructor
  · exact hj.akin
  · rw [hentries]
    exact h.distinct
  · rw [hentries]
    exact fun f hf j hj' => Nat.lt_of_lt_of_le (h.bounds f hf j hj') hj.akin.size
  · exact fun hm _ hes => hj.kept_outside hm fun _ _ => hes e List.mem_cons_self hc hd
  · intro k _
    rw [hentries]
  · -- At a glance all dicts are the same, so nothing seems to have changed.
    obtain ⟨r, hr, hrc⟩ := hc
    have hglance {a : Objects} {r : Ref} {i : Nat} (h : r.dict? a = some i) :
        r.glance a = .dict [] := by
      obtain ⟨rfl, hs⟩ := Ref.dict?_eq_some_iff.1 h
      exact Shape.glance_dict_iff.2 ⟨_, hs⟩
    have hget : Table.get? e.1 (a.glances (a.entries i)) = some (.dict []) := by
      rw [Objects.glances, Table.get?_map, h.held e List.mem_cons_self, hr, Option.map_some,
        h.akin.glance_ref (hA.of_get? hr), hglance hrc]
    rw [hentries, hj.akin.glances h.bounds]
    show _ = Settings.overlay _ [(e.1, e.2.glance o)]
    rw [Settings.overlay_single (h.distinct.glances a), hglance hd, Table.put_get? hget]

end Joined

/-! ### The merge -/

theorem mergeEntry_joins
    {below : List Text → Nat → Table Ref → Objects → Except Failure Objects}
    (hA : A.Proper) (ho : o.Proper)
    (hbelow : ∀ {a c d} (path : List Text), Unshared A o c d → Ready A o c (o.entries d) a →
      Joins A o c (o.entries d) a (Fits A o depth c d) (below path c (o.entries d) a))
    (hone : Unshared A o i j) (he : e ∈ o.entries j) (h : Ready A o i (e :: es) a)
    (path : List Text) :
    Joins A o i [e] a (EntryFits A o depth i e) (mergeEntry o below path i a e) := by
  obtain ⟨k, r⟩ := e
  have hheld := h.held _ List.mem_cons_self
  have hput (hfits : EntryFits A o depth i (k, r)) :
      Joins A o i [(k, r)] a (EntryFits A o depth i (k, r)) (.ok (putCopy o i k r a)) := by
    refine ⟨iff_of_true ⟨_, rfl⟩ hfits, fun hb => ?_⟩
    rw [← Except.ok.inj hb]
    exact .putCopy h (ho.bounds j _ he)
  have hfail {f : Failure} (hfits : ¬ EntryFits A o depth i (k, r)) :
      Joins A o i [(k, r)] a (EntryFits A o depth i (k, r)) (.error f) := by
    refine ⟨iff_of_false ?_ hfits, fun h => by cases h⟩
    rintro ⟨_, h⟩
    cases h
  simp only [mergeEntry, hheld]
  cases hn : k.hasLong with
  | true => exact hfail fun hfits => by cases hn.symm.trans hfits.named
  | false =>
    cases hk : Table.get? k (A.entries i) with
    | none =>
      have hnone {x : Ref} : Table.get? k (A.entries i) ≠ some x := by simp [hk]
      refine hput ⟨hn, fun _ hx => absurd hx hnone, fun hc _ => ?_⟩
      obtain ⟨_, hx, -⟩ := hc
      exact absurd hx hnone
    | some current =>
      have hcurrent := hA.of_get? hk
      have hyields (hy : ∀ x, Table.get? k (A.entries i) = some x →
          (x.face A).yieldsTo (r.face o) = true) :
          (current.face a).yieldsTo (r.face o) = true := by
        rw [h.akin.face hcurrent]
        exact hy _ hk
      have hplain (hnot : ∀ c d, current.dict? A = some c → r.dict? o ≠ some d) :
          Joins A o i [(k, r)] a (EntryFits A o depth i (k, r))
            (if (current.face a).yieldsTo (r.face o) then .ok (putCopy o i k r a)
              else .error (.setting (.conflict (path ++ [k.spelled]) (current.face a).kind
                (r.face o).kind))) := by
        split
        · next hy =>
          refine hput ⟨hn, fun x hx => ?_, fun hc hd => ?_⟩
          · cases hk.symm.trans hx
            rw [← h.akin.face hcurrent]
            exact hy
          · obtain ⟨x, hx, hc⟩ := hc
            cases hk.symm.trans hx
            exact absurd hd (hnot _ _ hc)
        · next hy => exact hfail fun hfits => hy (hyields hfits.yields)
      simp only [Bool.false_eq_true, if_false, h.akin.dict? hcurrent]
      split
      · next d c hd hc =>
        -- Two dicts meet: the entry fits exactly if they do.
        have hchild : A.Child i k c := ⟨current, hk, hc⟩
        have hjoins := hbelow (path ++ [k.spelled]) (hone.child he hchild hd)
          (h.child hA hchild hd)
        refine ⟨hjoins.ok_iff.trans ⟨fun hfits => ⟨hn, fun x hx => ?_, fun hc' hd' => ?_⟩,
          fun hfits => hfits.below hchild hd⟩,
          fun hb => (hjoins.joined hb).child h hone hA hchild hd⟩
        · cases hk.symm.trans hx
          obtain ⟨rfl, hs⟩ := Ref.dict?_eq_some_iff.1 hc
          obtain ⟨rfl, hs'⟩ := Ref.dict?_eq_some_iff.1 hd
          simp only [Ref.face, hs, hs']
          rfl
        · obtain ⟨x, hx, hc'⟩ := hc'
          cases hk.symm.trans hx
          cases hc.symm.trans hc'
          cases hd.symm.trans hd'
          exact hfits
      · next hnot => exact hplain fun c d hc hd => hnot _ _ hd hc

theorem foldlM_joins
    {below : List Text → Nat → Table Ref → Objects → Except Failure Objects}
    (hA : A.Proper) (ho : o.Proper)
    (hbelow : ∀ {a c d} (path : List Text), Unshared A o c d → Ready A o c (o.entries d) a →
      Joins A o c (o.entries d) a (Fits A o depth c d) (below path c (o.entries d) a))
    (hone : Unshared A o i j) (hsub : ∀ e ∈ es, e ∈ o.entries j) (hd : Table.Distinct es)
    (h : Ready A o i es a) (path : List Text) :
    Joins A o i es a (∀ e ∈ es, EntryFits A o depth i e)
      (es.foldlM (mergeEntry o below path i) a) := by
  induction es generalizing a with
  | nil =>
    refine ⟨iff_of_true ⟨a, rfl⟩ nofun, fun hb => ?_⟩
    rw [← Except.ok.inj hb]
    exact .none h
  | cons e es ih =>
    have hstep := mergeEntry_joins hA ho hbelow hone (hsub e List.mem_cons_self) h path
    have hrest {b : Objects} (hb : mergeEntry o below path i a e = .ok b) :=
      ih (fun e he => hsub e (List.mem_cons_of_mem _ he)) hd.tail
        (h.next hone hsub hd (hstep.joined hb))
    rw [List.foldlM_cons, List.forall_mem_cons]
    constructor
    · constructor
      · rintro ⟨b', hb'⟩
        obtain ⟨b, hb, hb'⟩ := bind_eq_ok.1 hb'
        exact ⟨hstep.ok_iff.1 ⟨b, hb⟩, (hrest hb).ok_iff.1 ⟨b', hb'⟩⟩
      · rintro ⟨hfits, hall⟩
        obtain ⟨b, hb⟩ := hstep.ok_iff.2 hfits
        obtain ⟨b', hb'⟩ := (hrest hb).ok_iff.2 hall
        exact ⟨b', bind_eq_ok.2 ⟨b, hb, hb'⟩⟩
    · intro b' hb'
      obtain ⟨b, hb, hb'⟩ := bind_eq_ok.1 hb'
      exact .cons h hd (hstep.joined hb) ((hrest hb).joined hb')

/-- One dict can be laid over another exactly if the two fit, and is then laid over it entry
by entry. -/
theorem mergeInto_joins (hA : A.Proper) (ho : o.Proper) (hone : Unshared A o i j)
    (h : Ready A o i (o.entries j) a) (depth : Nat) (path : List Text) :
    Joins A o i (o.entries j) a (Fits A o depth i j)
      (mergeInto o depth path i (o.entries j) a) := by
  induction depth generalizing i j a path with
  | zero => exact ⟨iff_of_false nofun not_fits_zero, nofun⟩
  | succ depth ih =>
    rw [mergeInto, fits_succ_iff]
    exact foldlM_joins hA ho (fun path hone h => ih hone h path) hone (fun _ => id)
      (ho.distinct j) h path

end Graph
end MigrationSetup
