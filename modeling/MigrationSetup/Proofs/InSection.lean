import MigrationSetup.Proofs.Reading
import MigrationSetup.Proofs.Sectioning

/-! Documents with their settings in a section.

The graphs of a document and of the same with its settings in a section correspond
(`Document.InSection.sectioned`). A graph that was read has no more names than objects, so
that names of its own can be told from those of another one. -/
namespace MigrationSetup

/-! ### Names in bounds -/

section
variable {R N : Nat → Nat → Prop} {n m p q : Nat}

/-- Names that `N` relates, of the first `n` on one side and the first `m` on the other. -/
def Within (n m : Nat) (N : Nat → Nat → Prop) (i j : Nat) : Prop := N i j ∧ i < n ∧ j < m

theorem Value.Twin.within {v w : Value} (h : Value.Twin N v w) (hv : v.name ≤ n)
    (hw : w.name ≤ m) : Value.Twin (Within n m N) v w := by
  cases h with
  | same unnamed => exact .same unnamed
  | named names => exact .named ⟨names, hv, hw⟩

theorem Ref.Twin.within {r s : Ref} (h : r.Twin R N s) (hr : r.Tidy p n) (hs : s.Tidy q m) :
    r.Twin R (Within n m N) s := by
  cases h with
  | value twin => exact .value (twin.within (hr.value _ rfl).named (hs.value _ rfl).named)
  | object numbers => exact .object numbers

theorem Shape.Twin.within {x y : Shape} (h : x.Twin R N y) (hx : x.Tidy p n) (hy : y.Tidy q m) :
    x.Twin R (Within n m N) y := by
  cases h with
  | list items =>
    exact .list (forall₂_of_mem items fun r hr s hs h => h.within (hx r hr) (hy s hs))
  | pairs items =>
    exact .pairs (forall₂_of_mem items fun p hp q hq h =>
      ⟨h.1.within (hx p hp).1 (hy q hq).1, h.2.within (hx p hp).2 (hy q hq).2⟩)
  | dict entries =>
    exact .dict (forall₂_of_mem entries fun e he f hf h =>
      ⟨h.1.within (hx.2 e he).1 (hy.2 f hf).1, h.2.within (hx.2 e he).2 (hy.2 f hf).2⟩)
  | set items =>
    exact .set (forall₂_of_mem items fun v hv w hw h => h.within (hx v hv) (hy w hw))

/-- In graphs that were read no names count but those of objects. -/
theorem Graph.Sectioning.within {g g' : Graph} {b b' w : Nat}
    (h : Graph.Sectioning R N g g' b b' w) (hg : g.Tidy n) (hg' : g'.Tidy m) :
    Graph.Sectioning R (Within n m N) g g' b b' w :=
  { h with
    twin :=
      { h.twin with
        names := fun _ _ _ _ hij hkl => h.twin.names hij.1 hkl.1
        shapes := fun hij => (h.twin.shapes hij).within (hg.shape _) (hg'.shape _) } }

end

/-! ### Documents -/

/-- The same document with its settings in a section. That of a graph is the same but for
names and numbers. -/
inductive Document.InSection : Document → Document → Prop
  | plain {es : Entries} (bare : Table.get? (.text Settings.sectionKey) es = none) :
      InSection (.plain (.dict es)) (.plain (.dict [(.text Settings.sectionKey, .dict es)]))
  | shared {R N : Nat → Nat → Prop} {g g' : Graph} {b b' w : Nat}
      (same : Graph.Sectioning R N g g' b b' w) : InSection (.shared g) (.shared g')

/-- The keys at the root. -/
def Document.keys : Document → List Value
  | .plain (.dict es) => Table.keys es
  | .plain _ => []
  | .shared g =>
    match g.root.dict? g.objects with
    | some i => (g.objects.entries i).keys
    | none => []

/-- Whether a dict in the document holds the whole document. -/
def Document.HoldsRoot : Document → Prop
  | .plain _ => False
  | .shared g => ∃ i, ∃ e ∈ g.objects.entries i, e.2 = g.root

/-- What the graphs of a document and of the same in a section have in common. -/
structure Document.Sectioned (d : Document) (R N : Nat → Nat → Prop) (d' : Document)
    (b b' w : Nat) : Prop where
  same : Graph.Sectioning R N d.graph d'.graph b b' w
  names : ∀ {i j}, N i j → i < d.graph.objects.size ∧ j < d'.graph.objects.size
  keys : (d.graph.objects.entries b).keys = d.keys
  distinct : Table.Distinct (d.graph.objects.entries b)
  unheld : ¬ d.HoldsRoot → Graph.Unheld b d.graph.objects
  settings : Settings.ofDocument (.shared d.graph) = Settings.ofDocument d

theorem Document.InSection.sectioned {d d' : Document} (h : InSection d d') (hd : d.Tidy)
    (hd' : d'.Tidy) : ∃ R N b b' w, d.Sectioned R N d' b b' w := by
  cases h with
  | @plain es bare =>
    have htidy : Value.Tidy (.dict es) := hd
    refine ⟨_, _, _, _, _, Graph.sectioning_ofValue htidy bare, nofun, Graph.keys_ofValue es, ?_,
      fun _ => Graph.unheld_ofValue htidy, ?_⟩
    · rw [Table.distinct_iff_keys]
      show ((Graph.ofValue (.dict es)).objects.entries (Graph.rootOf es)).keys.Pairwise _
      rw [Graph.keys_ofValue, ← Table.distinct_iff_keys]
      exact htidy.distinct
    · show Settings.ofDocument (.shared (Graph.ofValue (.dict es))) = _
      rw [Settings.ofDocument_bare (Graph.root_ofValue es) (Graph.bare_ofValue bare),
        Graph.values_ofValue]
      exact (Settings.ofValue_bare bare).symm
  | @shared R N g g' b b' w same =>
    have hroot := Ref.dict?_eq_some_iff.1 same.root
    refine ⟨R, _, b, b', w, same.within hd hd', fun hij => hij.2, ?_, ?_, ?_, rfl⟩
    · show _ = (match g.root.dict? g.objects with
        | some i => (g.objects.entries i).keys
        | none => [])
      rw [same.root]
      rfl
    · have hshape := Graph.Tidy.shape hd b
      rw [hroot.2] at hshape
      exact hshape.1
    · intro hnot
      refine ⟨Ref.lt_size_of_dict? same.root, fun j e he hej => hnot ⟨j, e, he, ?_⟩⟩
      rw [hej, hroot.1]

end MigrationSetup
