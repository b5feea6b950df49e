import MigrationSetup.Proofs.Expanding
import MigrationSetup.Proofs.Tracking
import MigrationSetup.Proofs.Uniting

/-! Documents as the two sides of a merge.

A plain value as a graph shares nothing: nothing in it holds itself, it means what it is
(`Graph.meanings_ofValue`), and one way alone leads to each part (`Document.alone_plain`). So
any two documents that were read can be the sides of a merge (`Document.sides`). -/
namespace MigrationSetup

/-! ### Plain values -/

theorem Shape.Tidy.held {x : Shape} {m n : Nat} (h : x.Tidy m n) :
    ∀ e ∈ x.held, e.2.Tidy m n := by
  cases x with
  | list items => exact List.forall_mem_map.2 h
  | pairs items =>
    intro e he
    obtain ⟨p, hp, he⟩ := List.mem_flatMap.1 he
    rcases List.mem_pair.1 he with rfl | rfl
    · exact (h p hp).1
    · exact (h p hp).2
  | dict es => exact List.forall_mem_map.2 fun e he => (h.2 e he).2
  | set items => exact nofun

theorem Ref.Tidy.unnamed {r : Ref} {m : Nat} (h : r.Tidy m 0) :
    (r.renamed fun _ => .float .nan) = r := by
  cases r with
  | object i => rfl
  | value v =>
    exact congrArg Ref.value (Value.anonymous_of_nameless (Nat.le_zero.1 (h.value v rfl).named))

namespace Graph
variable {a : Objects} {g : Graph} {i j n : Nat} {es : Entries}

theorem Tidy.sound (h : g.Tidy n) : g.objects.Sound where
  bounds := fun i e he => ((h.shape i).held e he).object
  plain := fun i e he es hes => (((h.shape i).held e he).value _ hes).plain es rfl

theorem sound_apart (h : g.objects.Sound) (n : Nat) : (g.apart n).objects.Sound := by
  have hheld {i : Nat} {e : Option Value × Ref}
      (he : e ∈ ((g.apart n).objects.shape i).held) : ∃ f ∈ (g.objects.shape i).held,
        e.2 = f.2.renamed fun m => .nan (m + 1 + n) := by
    rw [apart, renamed, Objects.shape_renamed, Shape.held_renamed] at he
    obtain ⟨f, hf, rfl⟩ := List.mem_map.1 he
    exact ⟨f, hf, rfl⟩
  constructor
  · intro i e he j hj
    obtain ⟨⟨k, r⟩, hf, hr⟩ := hheld he
    rw [hr] at hj
    cases r with
    | value v => cases hj
    | object c =>
      rw [apart, renamed, Array.size_map]
      exact h.bounds i _ hf j hj
  · intro i e he es hes
    obtain ⟨⟨k, r⟩, hf, hr⟩ := hheld he
    rw [hr] at hes
    cases r with
    | object c => cases hes
    | value v =>
      refine h.plain i _ hf es ?_
      cases v with
      | nan m => cases m <;> cases hes
      | _ => exact hes

namespace Grown
variable (h : Grown a)
include h

theorem held {e : Option Value × Ref} (he : e ∈ (a.shape i).held) :
    e.2.Tidy i 0 ∧ ∃ l, e.1 = some l ∧ (l, e.2) ∈ a.entries i := by
  obtain ⟨hshape, htidy⟩ := h i (Objects.lt_size_of_held he)
  refine ⟨htidy.held e he, ?_⟩
  rw [hshape] at he
  obtain ⟨f, hf, rfl⟩ := List.mem_map.1 he
  exact ⟨f.1, rfl, hf⟩

theorem sound : a.Sound where
  bounds := fun _ _ he j hj =>
    Nat.lt_trans ((h.held he).1.object j hj) (Objects.lt_size_of_held he)
  plain := fun _ _ he es hes => ((h.held he).1.value _ hes).plain es rfl

/-- Each object lies behind what it holds, so none holds itself. -/
theorem grounded (i : Nat) : (Ref.object i).Grounded a := by
  induction i using Nat.strongRecOn with
  | ind i ih =>
    refine .object fun e he => ?_
    obtain ⟨k, r⟩ := e
    cases r with
    | value v => exact .value v
    | object c => exact ih c ((h.held he).1.object c rfl)

theorem leads {way : List (Option Value)} (hw : a.Way i way j) :
    ∃ path, way = path.map some ∧ a.Leads i path j := by
  induction hw with
  | here => exact ⟨[], rfl, .here _⟩
  | @within i c j k way mem _ ih =>
    obtain ⟨path, rfl, hp⟩ := ih
    obtain ⟨htidy, l, rfl, hl⟩ := h.held mem
    have hc := Nat.lt_trans (htidy.object c rfl) (Objects.lt_size_of_held mem)
    exact ⟨l :: path, rfl, .within hl (Ref.dict?_eq_some_iff.2 ⟨rfl, (h c hc).1⟩) hp⟩

/-- It has no names. -/
theorem anonymous : a.anonymous = a := by
  refine Array.ext a.size_anonymous fun i _ hi => ?_
  have hat : a.shape i = a[i] := by simp [Objects.shape, hi]
  obtain ⟨hshape, htidy⟩ := h i hi
  rw [hshape] at hat htidy
  simp only [Objects.anonymous, Array.getElem_map, ← hat, Shape.renamed, Shape.dict.injEq]
  refine (List.map_congr_left fun e he => ?_).trans (List.map_id _)
  obtain ⟨hname, hr⟩ := htidy.2 e he
  exact Prod.ext (Value.anonymous_of_nameless (Nat.le_zero.1 hname)) hr.unnamed

end Grown

/-- A plain value means what it is. -/
theorem meanings_ofValue (h : Value.Tidy (.dict es)) :
    (ofValue (.dict es)).objects.meanings ((ofValue (.dict es)).objects.entries (rootOf es)) =
      es := by
  have ha : Grown (ofValue (.dict es)).objects := ofValue_grown h
  conv_rhs => rw [← values_ofValue es]
  refine List.map_congr_left fun e he => ?_
  obtain ⟨hname, hr⟩ := (ha.entries (rootOf es)).2 e he
  refine Prod.ext (Value.anonymous_of_nameless (Nat.le_zero.1 hname)) ?_
  show (e.2.renamed _).unfold (Objects.anonymous _) = _
  rw [hr.unnamed, ha.anonymous]

end Graph

/-! ### Documents -/

namespace Document
variable {d D L : Document} {i j : Nat}

theorem sound (hd : d.Tidy) : d.graph.objects.Sound := by
  cases d with
  | plain v => exact (Graph.ofValue_grown hd).sound
  | shared g => exact Graph.Tidy.sound hd

theorem grounded_root (hd : d.Tidy) (h : d.Grounded)
    (hi : d.graph.root.dict? d.graph.objects = some i) :
    (Ref.object i).Grounded d.graph.objects := by
  cases d with
  | plain v => exact (Graph.ofValue_grown hd).grounded i
  | shared g => exact (Ref.dict?_eq_some_iff.1 hi).1 ▸ h

/-- With copies in all places a document is what its root means. -/
theorem expanded_eq (hd : d.Tidy) (h : d.Grounded)
    (hi : d.graph.root.dict? d.graph.objects = some i) :
    d.expanded = .plain (.dict (d.graph.objects.meanings (d.graph.objects.entries i))) := by
  cases d with
  | shared g => exact congrArg plain (Ref.meaning_dict h hi)
  | plain v =>
    cases v with
    | dict es =>
      cases (Graph.root_ofValue es).symm.trans hi
      exact congrArg (plain ∘ Value.dict) (Graph.meanings_ofValue hd).symm
    | _ => cases hi

theorem expanded_tidy (hd : d.Tidy) : d.expanded.Tidy := by
  cases d with
  | plain v => exact hd
  | shared g => exact Graph.Tidy.unfold (Graph.Tidy.anonymous hd)

/-- No document has more names than objects. -/
theorem name_le (hd : d.Tidy) : ∀ e ∈ d.graph.objects.entries j,
    e.1.name ≤ d.graph.objects.size := by
  cases d with
  | plain v =>
    exact fun e he => Nat.le_trans (((Graph.ofValue_grown hd).entries j).2 e he).1 (Nat.zero_le _)
  | shared g => exact fun e he => ((Graph.Tidy.entries hd j).2 e he).1

/-- Whether one way alone leads to each dict of a document that meets one of the override. -/
def Alone (base override : Document) : Prop :=
  ∀ i j, base.graph.root.dict? base.graph.objects = some i →
    override.graph.root.dict? override.graph.objects = some j →
      Graph.Alone base.graph.objects (override.graph.apart base.graph.objects.size).objects i j

theorem alone_plain {v : Value} (hv : v.Tidy) (override : Document) :
    (plain v).Alone override := by
  intro i j hi _ n m m' _ way way' hw hw'
  have ha : Graph.Grown (Document.plain v).graph.objects := Graph.ofValue_grown hv
  obtain ⟨path, rfl, hp⟩ := ha.leads hw
  obtain ⟨path', rfl, hp'⟩ := ha.leads hw'
  cases v with
  | dict es =>
    cases (Graph.root_ofValue es).symm.trans hi
    rw [Graph.leads_ofValue hp hp']
  | _ => cases hi

/-- An override in which no dict stands meets the root alone, to which nothing leads back. -/
theorem alone_of_flat (hD : D.Tidy) (hg : D.Grounded)
    (hflat : ∀ j, L.graph.root.dict? L.graph.objects = some j →
      ∀ e ∈ L.graph.objects.entries j, e.2.dict? L.graph.objects = none) : D.Alone L := by
  intro i j hi hj n m m' hm way way' hw hw'
  cases hm with
  | here =>
    have hroot := grounded_root hD hg hi
    rw [hroot.way_self hw, hroot.way_self hw']
  | within mem dict =>
    rw [Graph.entries_apart] at mem
    obtain ⟨e, he, heq⟩ := List.mem_map.1 mem
    obtain ⟨-, rfl⟩ := Prod.mk.inj heq
    rw [Graph.dict?_apart, hflat j hj e he] at dict
    cases dict

/-- A key whose name was set apart is none of those without a name beyond the first `n`. -/
theorem get?_apart_named {t : Table Ref} {n : Nat} (ht : ∀ e ∈ t, e.1.name ≤ n) (k : Value) :
    (k.renamed fun m => .nan (m + 1 + n)).name = 0 ∨
      Table.get? (k.renamed fun m => .nan (m + 1 + n)) t = none := by
  cases k with
  | nan m =>
    cases m with
    | zero => exact .inl rfl
    | succ m =>
      refine .inr (Table.get?_eq_none_iff.2 fun e he => ?_)
      rw [← Bool.not_eq_true, Value.sameKey_comm]
      intro hs
      have hname := ht e he
      rw [Value.eq_of_sameKey_nan hs] at hname
      have hlt : m + 1 + n ≤ n := hname
      omega
  | _ => exact .inl rfl

/-- Two documents can be the sides of a merge once the names of one are set apart. -/
theorem sides (hD : D.Tidy) (hL : L.Tidy) (hi : D.graph.root.dict? D.graph.objects = some i)
    (hj : L.graph.root.dict? L.graph.objects = some j) :
    Graph.Sides D.graph.objects (L.graph.apart D.graph.objects.size).objects where
  base := proper hi hD
  override := (proper hj hL).apart _
  sound := Graph.sound_apart (sound hL) _
  names := by
    intro j e he
    rw [Graph.entries_apart] at he
    obtain ⟨f, -, rfl⟩ := List.mem_map.1 he
    by_cases hname : (f.1.renamed fun m => .nan (m + 1 + D.graph.objects.size)).name = 0
    · exact .inl hname
    · exact .inr fun i => (get?_apart_named (fun e he => name_le hD e he) f.1).resolve_left hname

end Document
end MigrationSetup
