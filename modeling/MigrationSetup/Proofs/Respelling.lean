import MigrationSetup.Proofs.Views

/-! Documents in other spellings.

A setting may be spelled with hyphens or with underscores. In whatever spelling a document has
one view (`Document.Respelled.view`), and so two documents give the same settings in all
spellings in which they can be merged, or are rejected alike but for what cannot be shown
(`Settings.ofLayers_respelled`). -/
namespace MigrationSetup
open Settings (sectionKey NamedOnce Once)

/-! ### Keys -/

/-- The same key, or two spellings of one setting. -/
def SameName (k l : Value) : Prop :=
  k = l ∨ ∃ s, Setting.ofKey? k = some s ∧ Setting.ofKey? l = some s

theorem SameName.ofKey? {k l : Value} (h : SameName k l) :
    Setting.ofKey? k = Setting.ofKey? l := by
  rcases h with rfl | ⟨s, hk, hl⟩
  · rfl
  · rw [hk, hl]

theorem SameName.eq_of_none {k l : Value} (h : SameName k l) (hk : Setting.ofKey? k = none) :
    k = l := by
  rcases h with rfl | ⟨s, hs, -⟩
  · rfl
  · cases hk.symm.trans hs

theorem ofKey?_section : Setting.ofKey? (.text sectionKey) = none := by decide

/-- The same entries, but for the spelling of settings. -/
def Respells {α : Type} : Table α → Table α → Prop :=
  List.Forall₂ fun e f => SameName e.1 f.1 ∧ e.2 = f.2

namespace Respells
variable {α : Type} {t u : Table α}

theorem refl (t : Table α) : Respells t t := List.forall₂_same.2 fun _ _ => ⟨.inl rfl, rfl⟩

theorem names (h : Respells t u) : Settings.names t = Settings.names u := by
  induction h with
  | nil => rfl
  | cons he _ ih => exact List.cons_eq_cons.2 ⟨he.1.ofKey?, ih⟩

theorem namedOnce_iff (h : Respells t u) : NamedOnce t ↔ NamedOnce u :=
  Settings.namedOnce_congr h.names

/-- What stands under a key that names no setting stays there. -/
theorem get? (h : Respells t u) {k : Value} (hk : Setting.ofKey? k = none) :
    Table.get? k t = Table.get? k u := by
  induction h with
  | nil => rfl
  | @cons e f t u he _ ih =>
    obtain ⟨l, v⟩ := e
    obtain ⟨l', w⟩ := f
    obtain ⟨hl | ⟨s, hs, hs'⟩, hvw⟩ := he
    · simp only at hl hvw
      rw [hl, hvw, Table.get?, Table.get?, ih]
    · simp only [Table.get?, Value.sameKey_of_unnamed hs hk, Value.sameKey_of_unnamed hs' hk]
      exact ih

theorem get?_section (h : Respells t u) :
    Table.get? (.text sectionKey) t = Table.get? (.text sectionKey) u :=
  h.get? ofKey?_section

theorem sheet {es fs : Entries} (h : Respells es fs) : Sheet.of es = Sheet.of fs :=
  Sheet.of_congr (h.imp fun _ _ he => ⟨he.1.ofKey?, fun s => congrArg s.seen he.2⟩)

end Respells

/-! ### Graphs -/

/-- The same objects, but for the spelling of settings in the dicts of `P`. -/
structure Objects.Respelled (P : Nat → Prop) (a b : Objects) : Prop where
  size : b.size = a.size
  shape : ∀ j, b.shape j = a.shape j ∨
    P j ∧ ∃ es fs, a.shape j = .dict es ∧ b.shape j = .dict fs ∧ Respells es fs

namespace Objects.Respelled
variable {P : Nat → Prop} {a b : Objects} {i c : Nat}

theorem refl (P : Nat → Prop) (a : Objects) : Respelled P a a := ⟨rfl, fun _ => .inl rfl⟩

/-- The keys of one dict may be spelled otherwise. -/
theorem set (hc : (Ref.object c).dict? a = some c) (hP : P c) {fs : Table Ref}
    (h : Respells (a.entries c) fs) : Respelled P a (a.setIfInBounds c (.dict fs)) where
  size := Array.size_setIfInBounds
  shape := by
    intro j
    by_cases hj : j = c
    · subst hj
      exact .inr ⟨hP, _, fs, (Ref.dict?_eq_some_iff.1 hc).2,
        Objects.shape_set_self (Ref.lt_size_of_dict? hc) _, h⟩
    · exact .inl (Objects.shape_set_of_ne hj _)

/-- One more object, in another spelling perhaps. -/
theorem push (h : Respelled P a b) {x y : Shape} (hxy : y = x ∨
      P a.size ∧ ∃ es fs, x = .dict es ∧ y = .dict fs ∧ Respells es fs) :
    Respelled P (a.push x) (b.push y) where
  size := by rw [Array.size_push, Array.size_push, h.size]
  shape := by
    intro j
    simp only [Objects.shape, Array.getElem?_push, h.size]
    by_cases hj : j = a.size
    · rw [if_pos hj, if_pos hj, hj]
      exact hxy
    · rw [if_neg hj, if_neg hj]
      exact h.shape j

section
variable (h : Respelled P a b)
include h

theorem kept {j : Nat} (hj : ¬ P j) : b.shape j = a.shape j :=
  (h.shape j).resolve_right fun hP => hj hP.1

theorem glance (j : Nat) : (b.shape j).glance = (a.shape j).glance := by
  rcases h.shape j with hj | ⟨-, es, fs, hes, hfs, -⟩
  · rw [hj]
  · rw [hes, hfs]
    rfl

theorem entries (j : Nat) : Respells (a.entries j) (b.entries j) := by
  rcases h.shape j with hj | ⟨-, es, fs, hes, hfs, hrespells⟩
  · rw [Objects.entries_congr hj]
    exact .refl _
  · rw [Objects.entries, Objects.entries, hes, hfs]
    exact hrespells

theorem dict? (r : Ref) : r.dict? b = r.dict? a := by
  cases r with
  | value v => rfl
  | object j =>
    simp only [Ref.dict?]
    rcases h.shape j with hj | ⟨-, es, fs, hes, hfs, -⟩
    · rw [hj]
    · rw [hes, hfs]

theorem face (r : Ref) : r.face b = r.face a := by
  cases r with
  | value v => rfl
  | object j => exact Shape.face_of_glance (h.glance j)

theorem child_iff : b.Child i (.text sectionKey) c ↔ a.Child i (.text sectionKey) c := by
  simp only [Objects.Child, (h.entries i).get?_section, h.dict?]

theorem sheet (j : Nat) :
    Sheet.of (a.glances (a.entries j)) = Sheet.of (b.glances (b.entries j)) := by
  have hglance (r : Ref) : r.glance b = r.glance a := by
    cases r with
    | value v => rfl
    | object m => exact h.glance m
  refine Respells.sheet (List.forall₂_map_left_iff.2 (List.forall₂_map_right_iff.2 ?_))
  exact (h.entries j).imp fun _ _ he => ⟨he.1, by rw [he.2, hglance]⟩

theorem view (i : Nat) : a.view i = b.view i := by
  have hget := (h.entries i).get?_section
  rcases a.section_cases i with hk | ⟨c, hc⟩ | ⟨r, hk, hr⟩
  · rw [view_bare hk, view_bare (hget ▸ hk), h.sheet]
  · rw [view_sectioned hc, view_sectioned (h.child_iff.2 hc), h.sheet]
  · rw [view_other hk hr, view_other (hget ▸ hk) ((h.dict? r).trans hr), h.face]

theorem orderly (ha : a.Orderly i) : b.Orderly i where
  section_open := fun es hes => ha.section_open es ((h.entries i).get?_section.trans hes)
  once := by
    intro c hc
    refine (h.entries c).namedOnce_iff.1 (ha.once ?_)
    cases hc with
    | bare lacks => exact .bare ((h.entries _).get?_section.trans lacks)
    | sectioned child => exact .sectioned (h.child_iff.1 child)

end

/-- Setting names apart changes no spelling. -/
theorem apart {g g' : Graph} (h : Respelled P g.objects g'.objects) (n : Nat) :
    Respelled P (g.apart n).objects (g'.apart n).objects where
  size := by
    simp only [Graph.apart, Graph.renamed, Array.size_map]
    exact h.size
  shape := by
    intro j
    simp only [Graph.apart, Graph.renamed, Objects.shape_renamed]
    rcases h.shape j with hj | ⟨hP, es, fs, hes, hfs, hrespells⟩
    · exact .inl (by rw [hj])
    · refine .inr ⟨hP, _, _, by rw [hes, Shape.renamed], by rw [hfs, Shape.renamed], ?_⟩
      refine List.forall₂_map_left_iff.2 (List.forall₂_map_right_iff.2 (hrespells.imp ?_))
      intro e f he
      refine ⟨?_, by rw [he.2]⟩
      rcases he.1 with hkl | ⟨s, hk, hl⟩
      · exact .inl (by rw [hkl])
      · exact .inr ⟨s, (Graph.ofKey?_renamed _ e.1).trans hk, (Graph.ofKey?_renamed _ f.1).trans hl⟩

end Objects.Respelled

/-! ### Documents -/

/-- The same document with other spellings of its settings. -/
inductive Document.Respelled : Document → Document → Prop
  | same (d : Document) : Respelled d d
  | bare {es fs : Entries} (lacks : Table.get? (.text sectionKey) es = none)
      (respells : Respells es fs) : Respelled (.plain (.dict es)) (.plain (.dict fs))
  | sectioned {root es fs : Entries} (held : Table.get? (.text sectionKey) root = some (.dict es))
      (respells : Respells es fs) : Respelled (.plain (.dict root))
        (.plain (.dict (Table.put (.text sectionKey) (.dict fs) root)))
  | shared {g : Graph} {i c : Nat} {fs : Table Ref} (root : g.root.dict? g.objects = some i)
      (holds : g.objects.Holds i c) (respells : Respells (g.objects.entries c) fs) :
      Respelled (.shared g)
        (.shared { g with objects := g.objects.setIfInBounds c (.dict fs) })

/-- A plain dict is one in all spellings. -/
theorem Document.Respelled.exists_dict {es : Entries} {d : Document}
    (h : Respelled (.plain (.dict es)) d) : ∃ fs, d = .plain (.dict fs) := by
  cases h <;> exact ⟨_, rfl⟩

theorem Document.Respelled.exists_shared {g : Graph} {d : Document}
    (h : Respelled (.shared g) d) : ∃ g', d = .shared g' := by
  cases h <;> exact ⟨_, rfl⟩

/-! ### Plain dicts, entry by entry -/

/-- An entry of a dict as it is once the document is respelled, where `here` tells whether the
settings stand in this dict. -/
inductive Step (here : Prop) : Value × Value → Value × Value → Prop
  | same (e : Value × Value) : Step here e e
  | renamed {k l v : Value} {s : Setting} (bare : here) (old : Setting.ofKey? k = some s)
      (new : Setting.ofKey? l = some s) : Step here (k, v) (l, v)
  | within {k : Value} {es fs : Entries} (key : Value.sameKey k (.text sectionKey) = true)
      (respells : Respells es fs) : Step here (k, .dict es) (k, .dict fs)

theorem Step.named {here : Prop} {e f : Value × Value} {s : Setting} (h : Step here e f)
    (hf : Setting.ofKey? f.1 = some s) : Setting.ofKey? e.1 = some s ∧ e.2 = f.2 := by
  cases h with
  | same => exact ⟨hf, rfl⟩
  | renamed bare old new =>
    cases new.symm.trans hf
    exact ⟨old, rfl⟩
  | within key =>
    rw [Value.sameKey_of_unnamed hf ofKey?_section] at key
    cases key

theorem Respells.steps {es fs : Entries} {here : Prop} (h : Respells es fs) (hhere : here) :
    List.Forall₂ (Step here) es fs := by
  refine h.imp fun e f he => ?_
  obtain ⟨k, v⟩ := e
  obtain ⟨l, w⟩ := f
  obtain ⟨hkl | ⟨s, hk, hl⟩, hvw⟩ := he
  · cases hkl
    cases hvw
    exact .same _
  · cases hvw
    exact .renamed hhere hk hl

theorem steps_put {root es fs : Entries} {here : Prop} (hd : Table.Distinct root)
    (held : Table.get? (.text sectionKey) root = some (.dict es)) (h : Respells es fs) :
    List.Forall₂ (Step here) root (Table.put (.text sectionKey) (.dict fs) root) := by
  rw [Table.put_of_held hd held]
  refine List.forall₂_map_right_iff.2 (List.forall₂_same.2 fun e he => ?_)
  split
  · next hs =>
    obtain ⟨k, v⟩ := e
    have hself := Value.sameKey_trans hs ((Value.sameKey_comm _ _).trans hs)
    have hv := (Table.get?_congr hs root).symm.trans (hd.get?_of_mem he hself)
    cases held.symm.trans hv
    exact .within hs h
  · exact .same e

/-! ### Plain dicts as graphs -/

namespace Graph
variable {P : Nat → Prop}

/-- A value is added to objects in another spelling as it is to the objects. -/
def AddsAlike (P : Nat → Prop) (v : Value) : Prop :=
  ∀ {a b : Objects}, Objects.Respelled P a b → (addValue a v).1 = (addValue b v).1 ∧
    Objects.Respelled P (addValue a v).2 (addValue b v).2

theorem addEntries_alike {K : Value → Value → Prop} {es fs : Entries}
    (h : List.Forall₂ (fun e f => K e.1 f.1 ∧ e.2 = f.2) es fs)
    (hv : ∀ e ∈ es, AddsAlike P e.2) {a b : Objects} (hab : Objects.Respelled P a b) :
    List.Forall₂ (fun e f => K e.1 f.1 ∧ e.2 = f.2) (addEntries a es).1 (addEntries b fs).1 ∧
      Objects.Respelled P (addEntries a es).2 (addEntries b fs).2 := by
  induction h generalizing a b with
  | nil => exact ⟨.nil, hab⟩
  | @cons e f es fs he _ ih =>
    obtain ⟨k, v⟩ := e
    obtain ⟨l, w⟩ := f
    obtain ⟨hkl, hvw⟩ := he
    cases hvw
    obtain ⟨hr, hab⟩ := hv _ List.mem_cons_self hab
    obtain ⟨hrest, hab⟩ := ih (fun e he => hv e (List.mem_cons_of_mem _ he)) hab
    rw [addEntries_cons, addEntries_cons]
    exact ⟨.cons ⟨hkl, hr⟩ hrest, hab⟩

theorem addsAlike (v : Value) : AddsAlike P v := by
  induction v using Value.dictInduction with
  | other v hv =>
    intro a b hab
    rw [addValue_plain a hv, addValue_plain b hv]
    exact ⟨rfl, hab⟩
  | whole es ih =>
    intro a b hab
    have hself : List.Forall₂ (fun e f : Value × Value => e.1 = f.1 ∧ e.2 = f.2) es es :=
      List.forall₂_same.2 fun _ _ => ⟨rfl, rfl⟩
    obtain ⟨hes, hobjects⟩ := addEntries_alike hself ih hab
    have heq : (addEntries a es).1 = (addEntries b es).1 :=
      List.forall₂_eq_eq_eq ▸ hes.imp fun _ _ he => Prod.ext he.1 he.2
    rw [addValue_dict, addValue_dict, heq, hobjects.size]
    exact ⟨rfl, hobjects.push (.inl rfl)⟩

/-- A dict in another spelling is the same graph in another spelling. -/
theorem addValue_respells {es fs : Entries} (h : Respells es fs) {a b : Objects}
    (hab : Objects.Respelled P a b) (hP : P (addEntries a es).2.size) :
    (addValue a (.dict es)).1 = (addValue b (.dict fs)).1 ∧
      Objects.Respelled P (addValue a (.dict es)).2 (addValue b (.dict fs)).2 := by
  obtain ⟨hes, hobjects⟩ := addEntries_alike h (fun e _ => addsAlike e.2) hab
  rw [addValue_dict, addValue_dict, hobjects.size]
  exact ⟨rfl, hobjects.push (.inr ⟨hP, _, _, rfl, rfl, hes⟩)⟩

/-- With the section in another spelling the objects are the same, but for the section. -/
theorem addEntries_steps {es fs : Entries} (h : List.Forall₂ (Step False) es fs) {a b : Objects}
    (hab : Objects.Respelled P a b) (hP : ∀ k n, (k, .object n) ∈ (addEntries a es).1 →
      Value.sameKey k (.text sectionKey) = true → P n) :
    (addEntries a es).1 = (addEntries b fs).1 ∧
      Objects.Respelled P (addEntries a es).2 (addEntries b fs).2 := by
  induction h generalizing a b with
  | nil => exact ⟨rfl, hab⟩
  | @cons e f es fs he _ ih =>
    have hadd : (addValue a e.2).1 = (addValue b f.2).1 ∧ e.1 = f.1 ∧
        Objects.Respelled P (addValue a e.2).2 (addValue b f.2).2 := by
      cases he with
      | same e =>
        obtain ⟨hr, hab⟩ := addsAlike e.2 hab
        exact ⟨hr, rfl, hab⟩
      | renamed bare => exact bare.elim
      | within key respells =>
        obtain ⟨hr, hab⟩ := addValue_respells respells hab
          (hP _ _ (addEntries_cons a _ _ es ▸ List.mem_cons_self) key)
        exact ⟨hr, rfl, hab⟩
    obtain ⟨k, v⟩ := e
    obtain ⟨l, w⟩ := f
    obtain ⟨hr, hkl, hab⟩ := hadd
    cases hkl
    rw [addEntries_cons] at hP
    obtain ⟨hrest, hab⟩ := ih hab fun k n hm => hP k n (List.mem_cons_of_mem _ hm)
    rw [addEntries_cons, addEntries_cons, hr, hrest]
    exact ⟨rfl, hab⟩

/-- What stands in the section of a plain dict holds its settings. -/
theorem holds_ofValue {es : Entries} (h : Value.Tidy (.dict es)) {k : Value} {n : Nat}
    (hm : (k, .object n) ∈ (addEntries #[] es).1)
    (hk : Value.sameKey k (.text sectionKey) = true) :
    (ofValue (.dict es)).objects.Holds (rootOf es) n := by
  rw [← entries_ofValue] at hm
  have htidy := (ofValue_grown h).entries (rootOf es)
  have hself := Value.sameKey_trans hk ((Value.sameKey_comm _ _).trans hk)
  have hlt := (htidy.2 _ hm).2.object n rfl
  refine .sectioned ⟨.object n, ?_, Ref.dict?_eq_some_iff.2 ⟨rfl, (ofValue_grown h n hlt).1⟩⟩
  rw [← Table.get?_congr hk]
  exact Table.Distinct.get?_of_mem htidy.1 hm hself

end Graph

/-! ### Documents as graphs -/

namespace Document.Respelled
variable {d d' : Document} {i : Nat}

/-- A document in another spelling is the same graph in another spelling. -/
theorem graph (h : Respelled d d') (hd : d.Tidy)
    (hi : d.graph.root.dict? d.graph.objects = some i) :
    Objects.Respelled (d.graph.objects.Holds i) d.graph.objects d'.graph.objects ∧
      d'.graph.root = d.graph.root := by
  cases h with
  | same => exact ⟨.refl _ _, rfl⟩
  | @bare es fs lacks respells =>
    cases (Graph.root_ofValue es).symm.trans hi
    obtain ⟨hr, hobjects⟩ := Graph.addValue_respells respells (.refl _ #[])
      (Objects.Holds.bare (Graph.bare_ofValue lacks))
    exact ⟨hobjects, hr.symm⟩
  | @sectioned root es fs held respells =>
    cases (Graph.root_ofValue root).symm.trans hi
    have htidy : Value.Tidy (.dict root) := hd
    obtain ⟨hes, hobjects⟩ := Graph.addEntries_steps (steps_put htidy.distinct held respells)
      (.refl _ #[]) fun k n => Graph.holds_ofValue htidy
    show Objects.Respelled _ (Graph.ofValue _).objects (Graph.ofValue _).objects ∧
      (Graph.ofValue _).root = (Graph.ofValue _).root
    rw [Graph.ofValue_dict, Graph.ofValue_dict, ← hes, hobjects.size]
    exact ⟨hobjects.push (.inl rfl), rfl⟩
  | @shared g i' c fs root holds respells =>
    cases root.symm.trans hi
    have hc : (Ref.object c).dict? g.objects = some c := by
      cases holds with
      | bare => exact Ref.dict?_object hi
      | sectioned child => exact child.dict
    exact ⟨.set hc holds respells, rfl⟩

theorem root (h : Respelled d d') (hd : d.Tidy)
    (hi : d.graph.root.dict? d.graph.objects = some i) :
    d'.graph.root.dict? d'.graph.objects = some i := by
  obtain ⟨hgraph, hroot⟩ := h.graph hd hi
  rw [hroot, hgraph.dict?, hi]

/-- Whatever the spelling, a document has one view, and its settings are named once or not. -/
theorem view (h : Respelled d d') (hd : d.Tidy) (hd' : d'.Tidy)
    (hi : d.graph.root.dict? d.graph.objects = some i) :
    ∃ es fs, d.settings = .dict es ∧ d'.settings = .dict fs ∧ viewOf es = viewOf fs ∧
      (Once (.dict es) → Once (.dict fs)) := by
  have hi' := h.root hd hi
  obtain ⟨hgraph, -⟩ := h.graph hd hi
  obtain ⟨es, hes, hlooks⟩ := Document.looks hi
  obtain ⟨fs, hfs, hlooks'⟩ := Document.looks hi'
  have hopen := Document.openSection hi hd
  have hopen' := Document.openSection hi' hd'
  refine ⟨es, fs, hes, hfs, ?_, fun honce => ?_⟩
  · rw [← hlooks.view hopen, ← hlooks'.view hopen', hgraph.view]
  · exact (hlooks'.once_iff hopen').2 (hgraph.orderly ((hlooks.once_iff hopen).1 honce))

end Document.Respelled

namespace Settings

/-- Documents that can be merged give the same in all spellings. -/
theorem ofLayers_respelled {D D' L L' : Document} {i j : Nat} (hD : D.Respelled D')
    (hL : L.Respelled L') (tD : D.Tidy) (tD' : D'.Tidy) (tL : L.Tidy) (tL' : L'.Tidy)
    (hi : D.graph.root.dict? D.graph.objects = some i)
    (hj : L.graph.root.dict? L.graph.objects = some j)
    (hDonce : Once D.settings) (hLonce : Once L.settings) (hone : D.Unshared L)
    (hone' : D'.Unshared L') (hc : D.Compatible L) (hc' : D'.Compatible L') :
    Near (ofLayers D L) (ofLayers D' L') := by
  have hi' := hD.root tD hi
  have hj' := hL.root tL hj
  obtain ⟨b, b', hb, hb', hbview, hbonce⟩ := hD.view tD tD' hi
  obtain ⟨o, o', ho, ho', hoview, hoonce⟩ := hL.view tL tL' hj
  rw [hb] at hDonce
  rw [ho] at hLonce
  obtain ⟨x, hx, hgives⟩ := ofLayers_gives tD tL hi hj hone hc hb ho hDonce hLonce
  obtain ⟨y, hy, hgives'⟩ := ofLayers_gives tD' tL' hi' hj' hone' hc' hb' ho' (hbonce hDonce)
    (hoonce hLonce)
  rw [← hbview, ← hoview] at hgives'
  rw [hx, hy]
  exact hgives.near hgives'

end Settings
end MigrationSetup
