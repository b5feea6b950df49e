import MigrationSetup.Proofs.Embedding
import MigrationSetup.Proofs.Loading

/-! Graphs with their settings in a section.

A graph whose root holds the settings bare and one that has them in a section correspond if
the section is a twin of the bare root and the dict around it a new one (`Graph.Sectioning`).
Laid over one another two sections give what the bare roots give
(`Settings.ofGraphs_sections`). Where only one of two graphs has a section, that one counts
alone (`Settings.ofGraphs_bare_section`, `Settings.ofGraphs_section_bare`). -/
namespace MigrationSetup

/-! ### A graph and the same in a section -/

namespace Graph

/-- The dict `b` is the root of `g`, and its twin in `g'` is a section in a root of its own. -/
structure Sectioning (R N : Nat → Nat → Prop) (g g' : Graph) (b b' w : Nat) : Prop where
  twin : Objects.Twin R N g.objects g'.objects
  numbers : R b b'
  root : g.root.dict? g.objects = some b
  bare : Table.get? (.text Settings.sectionKey) (g.objects.entries b) = none
  root' : g'.root = .object w
  wrapper : g'.objects.shape w = .dict [(.text Settings.sectionKey, .object b')]
  fresh : ∀ i, ¬ R i w

namespace Sectioning
variable {R N : Nat → Nat → Prop} {g g' : Graph} {b b' w : Nat}

theorem root_dict (h : Sectioning R N g g' b b' w) : g'.root.dict? g'.objects = some w := by
  refine Ref.dict?_eq_some_iff.2 ⟨h.root', ?_⟩
  rw [Objects.entries, h.wrapper]

theorem entries_wrapper (h : Sectioning R N g g' b b' w) (n : Nat) :
    (g'.apart n).objects.entries w = [(.text Settings.sectionKey, .object b')] := by
  rw [entries_apart, Objects.entries, h.wrapper]
  rfl

end Sectioning

/-- A plain dict in a section has the same objects, and one more around them. -/
theorem sectioning_ofValue (h : Value.Tidy (.dict es))
    (hk : Table.get? (.text Settings.sectionKey) es = none) :
    Sectioning (fun i j => i = j ∧ i < (ofValue (.dict es)).objects.size) (fun _ _ => False)
      (ofValue (.dict es)) (ofValue (.dict [(.text Settings.sectionKey, .dict es)]))
      (rootOf es) (rootOf es) (ofValue (.dict es)).objects.size where
  numbers := ⟨rfl, (unheld_ofValue h).lt_size⟩
  root := root_ofValue es
  bare := bare_ofValue hk
  root' := rfl
  wrapper := Objects.shape_push _ _
  fresh := by
    rintro i ⟨rfl, hi⟩
    exact Nat.lt_irrefl _ hi
  twin := by
    have hbefore : Objects.Before (ofValue (.dict es)).objects
        (ofValue (.dict [(.text Settings.sectionKey, .dict es)])).objects := .push _ _
    refine ⟨by rintro i j i' j' ⟨rfl, -⟩ ⟨rfl, -⟩; rfl, nofun, ?_, ?_⟩
    · rintro i j ⟨rfl, hi⟩
      exact ⟨hi, Nat.lt_of_lt_of_le hi hbefore.size⟩
    · rintro i j ⟨rfl, hi⟩
      obtain ⟨hshape, hparts⟩ := ofValue_grown h i hi
      rw [hshape] at hparts
      rw [hbefore.shape hi, hshape]
      refine .dict (List.forall₂_same.2 fun e he => ?_)
      obtain ⟨k, r⟩ := e
      obtain ⟨hname, hr⟩ := hparts.2 _ he
      refine ⟨.same (Nat.le_zero.1 hname), ?_⟩
      cases r with
      | value v => exact .value (.same (Nat.le_zero.1 (hr.value v rfl).named))
      | object j => exact .object ⟨rfl, Nat.lt_trans (hr.object j rfl) hi⟩

end Graph

namespace Settings

/-- Results that differ in what an error says are alike. -/
theorem Alike.of_fault {a b : Except SettingError Settings}
    (h : a.mapError (·.fault) = b.mapError (·.fault)) :
    Alike (a.mapError .setting) (b.mapError .setting) := by
  cases a with
  | error e =>
    cases b with
    | error f => exact .rejected (Except.error.inj h)
    | ok s => cases h
  | ok s =>
    cases b with
    | error f => cases h
    | ok s' =>
      cases h
      exact .same _

section
variable {R N S M : Nat → Nat → Prop} {g g' o o' : Graph} {a : Objects} {b b' w c c' v : Nat}
open MigrationSetup.Graph

/-- A graph with a section binds as a bare graph does whose root is a twin of the section. -/
theorem ofDocument_twin (h : Objects.Twin R N g.objects a) (hb : g.root.dict? g.objects = some b)
    (hk : Table.get? (.text sectionKey) (g.objects.entries b) = none) (hbb : R b b')
    (ha : Table.get? (.text sectionKey) (a.entries w) = some (.object b')) :
    Alike ((ofDocument (.shared ⟨a, .object w, true⟩)).mapError .setting)
      ((ofDocument (.shared g)).mapError .setting) := by
  have hroot : (Ref.object w).dict? a = some w :=
    Ref.dict?_eq_some_iff.2 ⟨rfl, Objects.shape_of_get? ha⟩
  have hdict := h.dict? hbb (Ref.dict?_object hb)
  rw [ofDocument_section hroot ha hdict, ofDocument_bare hb hk]
  exact .of_fault (ofEntries_same (h.values hbb)).symm

/-! ### Bare under a section -/

/-- A copy of a section is a twin of the same dict standing bare. -/
theorem copied_section (ho : Sectioning S M o o' c c' v) (a : Objects) (n : Nat) :
    ∃ T M' : Nat → Nat → Prop, T c (a.size + c') ∧ (∀ {i j}, T i j → a.size ≤ j) ∧
      Objects.Twin T M' o.objects (a ++ (o'.apart n).objects.map (Shape.shift a.size)) := by
  have hnone : Objects.Twin (fun _ _ => False) (Beside 0 n (fun _ _ => False) M) #[] a :=
    ⟨nofun, OneToOne.beside nofun ho.twin.names nofun, nofun, nofun⟩
  have happart : Objects.Twin S (Beside 0 n (fun _ _ => False) M) (o.apart 0).objects
      (o'.apart n).objects := ho.twin.apart nofun nofun
  have hcopy := hnone.append happart
  have hleft : #[] ++ (o.apart 0).objects.map (Shape.shift (#[] : Objects).size) = o.objects := by
    rw [objects_apart_zero, Array.empty_append]
    exact Objects.map_shift_zero o.objects
  rw [hleft] at hcopy
  refine ⟨_, _, Or.inr ⟨c, c', ho.numbers, (Nat.zero_add c).symm, rfl⟩, ?_, hcopy⟩
  rintro i j (h | ⟨k, l, -, -, rfl⟩)
  · exact h.elim
  · exact Nat.le_add_right _ _

theorem ofGraphs_bare_section (hb : g.root.dict? g.objects = some b)
    (hk : Table.get? (.text sectionKey) (g.objects.entries b) = none)
    (ho : Sectioning S M o o' c c' v) :
    Alike (ofGraphs g o') ((ofDocument (.shared o)).mapError .setting) := by
  let p := (o'.apart g.objects.size).objects
  let a := putCopy p b (.text sectionKey) (.object c') g.objects
  have hlt := Ref.lt_size_of_dict? hb
  have hinto : mergeInto p maxDepth [] b (p.entries v) g.objects = .ok a := by
    have hentry : mergeEntry p (mergeInto p 999) [] b g.objects (.text sectionKey, .object c') =
        .ok a := by
      simp only [mergeEntry, hk]
      rfl
    rw [ho.entries_wrapper, maxDepth, mergeInto, List.foldlM_cons, hentry]
    rfl
  -- The copy of the section is a twin of the bare dict, and nothing has touched it.
  obtain ⟨T, M', hT, hbeyond, hcopy⟩ := copied_section ho g.objects g.objects.size
  have htwin : Objects.Twin T M' o.objects a := by
    refine hcopy.congr (Nat.le_of_eq Array.size_setIfInBounds.symm) fun hij => ?_
    have hne := Nat.ne_of_gt (Nat.lt_of_lt_of_le hlt (hbeyond hij))
    exact Objects.shape_set_of_ne hne _
  have hkey : Table.get? (.text sectionKey) (a.entries b) =
      some (.object (g.objects.size + c')) := by
    rw [entries_putCopy hlt, Table.get?_put_self rfl]
    rfl
  rw [ofGraphs_eq hb ho.root_dict, hinto]
  exact ofDocument_twin htwin ho.root ho.bare hT hkey

/-! ### A section under bare -/

theorem ofGraphs_section_bare (hg : Sectioning R N g g' b b' w)
    (hc : o.root.dict? o.objects = some c)
    (hk : Table.get? (.text sectionKey) (o.objects.entries c) = none)
    (hd : Table.Distinct (o.objects.entries c)) :
    Alike (ofGraphs g' o)
      (if (o.objects.entries c).any (fun e => e.1.hasLong) then .error (.setting .longNumber)
        else (ofDocument (.shared g)).mapError .setting) := by
  let p := (o.apart g'.objects.size).objects
  have hkeys : Table.Twin _ _ (o.objects.entries c) (p.entries c) :=
    twin_apart o g'.objects.size c
  have hdp : Table.Distinct (p.entries c) := hkeys.distinct (oneToOne_apart _) hd
  have hkp : Table.get? (.text sectionKey) (p.entries c) = none := get?_apart_none hk _
  have hw := Ref.lt_size_of_dict? hg.root_dict
  have hnew : ∀ e ∈ p.entries c, Table.get? e.1 (g'.objects.entries w) = none := by
    intro e he
    have hne := Table.get?_eq_none_iff.1 hkp e he
    rw [Value.sameKey_comm] at hne
    simp [Objects.entries, hg.wrapper, Table.get?, hne]
  rw [ofGraphs_eq hg.root_dict hc, hkeys.any_hasLong, maxDepth]
  rcases mergeInto_apart 999 [] hw hdp hnew with ⟨hany, hm⟩ | ⟨hany, a, hm, hsize, hshape, hget⟩
  · rw [if_pos hany, hm]
    exact .same _
  · rw [if_neg (by simp [hany]), hm]
    -- The section lies apart from the root, the only dict that has changed.
    have htwin : Objects.Twin R N g.objects a :=
      hg.twin.congr hsize fun hij =>
        hshape _ (hg.twin.bounds hij).2 fun hjw => hg.fresh _ (hjw ▸ hij)
    have hkey : Table.get? (.text sectionKey) (a.entries w) = some (.object b') := by
      rw [hget _ hkp, Objects.entries, hg.wrapper]
      rfl
    exact ofDocument_twin htwin hg.root hg.bare hg.numbers hkey

/-! ### A section under a section -/

/-- In two sections that meet the merge goes on as it does in two roots. -/
theorem mergeInto_sections {p : Objects} (hg : Sectioning R N g g' b b' w)
    (hp : p.entries v = [(.text sectionKey, .object c')])
    (hc : (Ref.object c').dict? p = some c') (fuel : Nat) :
    mergeInto p (fuel + 1) [] w (p.entries v) g'.objects =
      mergeInto p fuel [sectionKey] b' (p.entries c') g'.objects := by
  have hget : Table.get? (.text sectionKey) (g'.objects.entries w) = some (.object b') := by
    rw [Objects.entries, hg.wrapper]
    rfl
  have hb' := hg.twin.dict? hg.numbers (Ref.dict?_object hg.root)
  have hentry : mergeEntry p (mergeInto p fuel) [] w g'.objects (.text sectionKey, .object c') =
      mergeInto p fuel [sectionKey] b' (p.entries c') g'.objects := by
    simp only [mergeEntry, hget, hc, hb']
    rfl
  rw [mergeInto, hp, List.foldlM_cons, hentry]
  cases mergeInto p fuel [sectionKey] b' (p.entries c') g'.objects <;> rfl

/-- Merging into a section does not change the dict around it. -/
theorem wrapper_kept {p : Objects} (hg : Sectioning R N g g' b b' w) {fuel : Nat}
    {path : List Text} {es : Table Ref}
    (hm : mergeInto p fuel path b' es g'.objects = .ok a) : a.shape w = g'.objects.shape w := by
  have hregion : Region (fun j => (∃ i, R i j) ∨ g'.objects.size ≤ j) g'.objects := by
    refine ⟨?_, .inr⟩
    rintro j (⟨i, hij⟩ | hj) e he k hk
    · obtain ⟨f, -, hf⟩ := (hg.twin.entries hij).exists_of_mem he
      rw [hk] at hf
      generalize f.2 = r at hf
      cases hf with
      | object numbers => exact .inl ⟨_, numbers⟩
    · rw [Objects.entries, Objects.shape, Array.getElem?_eq_none hj] at he
      cases he
  refine (hregion.mergeInto (.inl ⟨b, hg.numbers⟩) hm).2 w ?_
  rintro (⟨i, hiw⟩ | hle)
  · exact hg.fresh i hiw
  · exact Nat.not_le.2 (Ref.lt_size_of_dict? hg.root_dict) hle

/-- Two graphs give in their sections what they give bare, unless their merge does not end
or something in the base holds its root. -/
theorem ofGraphs_sections (hg : Sectioning R N g g' b b' w)
    (hN : ∀ {i j}, N i j → i < g.objects.size ∧ j < g'.objects.size)
    (ho : Sectioning S M o o' c c' v) (hu : Unheld b g.objects)
    (hne : ofGraphs g' o' ≠ .error .endlessMerge) :
    Alike (ofGraphs g' o') (ofGraphs g o) := by
  let K := Beside g.objects.size g'.objects.size N M
  let p := (o.apart g.objects.size).objects
  let p' := (o'.apart g'.objects.size).objects
  have hp : Objects.Twin S K p p' := ho.twin.apart hg.twin.names hN
  have hgK : Objects.Twin R K g.objects g'.objects :=
    ⟨hg.twin.numbers, hp.names, hg.twin.bounds, fun hij =>
      (hg.twin.shapes hij).mono (fun _ _ => id) fun _ _ => .inl⟩
  have hpc : (Ref.object c).dict? p = some c :=
    Ref.dict?_object (root_apart ho.root g.objects.size)
  have hdepth : 999 ≤ 1000 := by omega
  have hmerges := mergeInto_twin hp hdepth hgK [] [sectionKey] hg.numbers (hp.entries ho.numbers)
  have hinto : mergeInto p' 1000 [] w (p'.entries v) g'.objects =
      mergeInto p' 999 [sectionKey] b' (p'.entries c') g'.objects :=
    mergeInto_sections hg (ho.entries_wrapper _) (hp.dict? ho.numbers hpc) 999
  rw [ofGraphs_eq hg.root_dict ho.root_dict, maxDepth, hinto] at hne ⊢
  rw [ofGraphs_eq hg.root ho.root, maxDepth]
  generalize hx : mergeInto p 1000 [] b (p.entries c) g.objects = x at hmerges ⊢
  generalize hy : mergeInto p' 999 [sectionKey] b' (p'.entries c') g'.objects = y at hmerges hne ⊢
  cases hmerges with
  | rejected fault => exact .rejected fault.symm
  | endless => exact absurd rfl hne
  | @done R' a a' more twin =>
    have hroot : (Ref.object b).dict? a = some b := mergeInto_dict (Ref.dict?_object hg.root) hx
    have hbare : Table.get? (.text sectionKey) (a.entries b) = none :=
      mergeInto_unheld hu hx (get?_apart_none ho.bare _) hg.bare
    have hkey : Table.get? (.text sectionKey) (a'.entries w) = some (.object b') := by
      rw [Objects.entries, wrapper_kept hg hy, hg.wrapper]
      rfl
    let m : Graph := ⟨a, .object b, true⟩
    have htwin : Objects.Twin R' K m.objects a' := twin
    exact ofDocument_twin htwin hroot hbare (more _ _ hg.numbers) hkey

end
end Settings
end MigrationSetup
