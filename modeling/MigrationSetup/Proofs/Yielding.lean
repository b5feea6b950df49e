import MigrationSetup.Proofs.Clashes
import MigrationSetup.Proofs.Respelling

/-! Settings that give way.

A merge meets keys as they are written, and a setting that two documents spell differently is
two keys to it. Where the lower value of a setting gives way to the upper one (`Document.Clear`)
no merge fails at a setting, so it fails in one way in all spellings (`Graph.clash?_respelled`),
or in none (`Settings.ofGraphs_clear`). -/
namespace MigrationSetup
open Settings (sectionKey)

/-! ### Values that give way -/

/-- One value gives way to another, and they are not both dicts. -/
structure Value.GivesWay (c v : Value) : Prop where
  plain : (∀ es, v ≠ .dict es) ∨ ∀ es, c ≠ .dict es
  yields : c.yieldsTo v = true

/-- The same of what stands in objects. -/
structure Ref.GivesWay (a o : Objects) (x r : Ref) : Prop where
  plain : r.dict? o = none ∨ x.dict? a = none
  yields : (x.face a).yieldsTo (r.face o) = true

/-- Where both tables give one setting, what the lower one holds gives way. -/
def Settings.Clear {α β : Type} (GivesWay : α → β → Prop) (b : Table α) (o : Table β) : Prop :=
  ∀ e ∈ b, ∀ f ∈ o, ∀ s, Setting.ofKey? e.1 = some s → Setting.ofKey? f.1 = some s →
    GivesWay e.2 f.2

namespace Settings

/-- Where settings of two dicts meet: at the roots, if one has no section, and in the
sections. -/
inductive Meeting (D L : Entries) : Entries → Entries → Prop
  | roots (bare : Table.get? (.text sectionKey) D = none ∨ Table.get? (.text sectionKey) L = none) :
      Meeting D L D L
  | sections {b o : Entries} (base : Table.get? (.text sectionKey) D = some (.dict b))
      (override : Table.get? (.text sectionKey) L = some (.dict o)) : Meeting D L b o

end Settings

/-- Wherever the settings of one graph meet a dict of the other, those that both give give
way. -/
def Graph.Clear (base override : Graph) : Prop :=
  ∀ i j, base.root.dict? base.objects = some i → override.root.dict? override.objects = some j →
    ∀ {n m m'}, Meets base.objects (override.apart base.objects.size).objects i j n m m' →
      base.objects.Holds i m ∨ override.objects.Holds j m' →
        Settings.Clear (Ref.GivesWay base.objects (override.apart base.objects.size).objects)
          (base.objects.entries m) ((override.apart base.objects.size).objects.entries m')

/-- Wherever two documents give one setting the lower value gives way to the upper one. -/
def Document.Clear (base override : Document) : Prop :=
  match base, override with
  | .plain (.dict b), .plain (.dict o) =>
    ∀ c u, Settings.Meeting b o c u → Settings.Clear Value.GivesWay c u
  | b, o => b.graph.Clear o.graph

theorem Setting.hasLong_of_ofKey? {k : Value} {s : Setting} (h : Setting.ofKey? k = some s) :
    k.hasLong = false := by
  obtain ⟨t, ht⟩ := Value.text_of_ofKey? h
  rw [ht]
  rfl

theorem findSome?_eq_of_forall₂ {α β γ : Type} {g : α → Option γ} {h : β → Option γ} {xs : List α}
    {ys : List β} (hxy : List.Forall₂ (fun x y => g x = h y) xs ys) :
    xs.findSome? g = ys.findSome? h := by
  induction hxy with
  | nil => rfl
  | cons hxy _ ih => rw [List.findSome?_cons, List.findSome?_cons, hxy, ih]

/-! ### Merges of graphs -/

namespace Graph
variable {P Q : Nat → Prop} {A A' o o' : Objects} {i j : Nat} {e : Value × Ref}
  {path : List Text} {told told' : List Text → Nat → Table Ref → Option Failure}

/-- An entry for a setting is laid over whatever gives way to it. -/
theorem entryClash?_eq_none {s : Setting} (hs : Setting.ofKey? e.1 = some s)
    (h : ∀ x ∈ A.entries i, Setting.ofKey? x.1 = some s → Ref.GivesWay A o x.2 e.2) :
    entryClash? A o told path i e = none := by
  simp only [entryClash?, Setting.hasLong_of_ofKey? hs, Bool.false_eq_true, if_false]
  cases hget : Table.get? e.1 (A.entries i) with
  | none => rfl
  | some x =>
    obtain ⟨l, hl, hle⟩ := Table.mem_of_get? hget
    rw [Value.eq_of_sameKey hle hs] at hl
    obtain ⟨hplain, hyields⟩ := h _ hl hs
    rcases hplain with hnone | hnone
    · simp only [Option.bind_some, hnone, if_pos hyields]
    · cases hd : e.2.dict? o <;> simp only [Option.bind_some, hnone, if_pos hyields]

section
variable (hA : Objects.Respelled P A A') (ho : Objects.Respelled Q o o')
include hA ho

theorem clear_respelled {t t' u u' : Table Ref} (h : Settings.Clear (Ref.GivesWay A o) t u)
    (ht : Respells t t') (hu : Respells u u') : Settings.Clear (Ref.GivesWay A' o') t' u' := by
  intro e' he' f' hf' s hes hfs
  obtain ⟨e, he, hname, hev⟩ := exists_of_forall₂ ht he'
  obtain ⟨f, hf, hname', hfv⟩ := exists_of_forall₂ hu hf'
  have hway := h e he f hf s (hname.ofKey?.trans hes) (hname'.ofKey?.trans hfs)
  rw [← hev, ← hfv]
  refine ⟨?_, ?_⟩
  · rw [hA.dict?, ho.dict?]
    exact hway.plain
  · rw [hA.face, ho.face]
    exact hway.yields

/-- An entry under a key that both spellings have fails as it does below. -/
theorem entryClash?_respelled (hget : Table.get? e.1 (A.entries i) = Table.get? e.1 (A'.entries i))
    (hbelow : ∀ {c d}, A.Child i e.1 c → e.2.dict? o = some d →
      told (path ++ [e.1.spelled]) c (o.entries d) =
        told' (path ++ [e.1.spelled]) c (o'.entries d)) :
    entryClash? A o told path i e = entryClash? A' o' told' path i e := by
  simp only [entryClash?, ← hget, hA.dict?, ho.dict?, hA.face, ho.face]
  cases hk : Table.get? e.1 (A.entries i) with
  | none => rfl
  | some x =>
    cases hd : e.2.dict? o with
    | none => rfl
    | some d =>
      cases hc : x.dict? A with
      | none => simp only [Option.bind_some, hc]
      | some c => simp only [Option.bind_some, hc, hbelow ⟨x, hk, hc⟩ hd]

/-- If settings give way a merge fails as it does in other spellings. -/
theorem clash?_respelled
    (hclear : ∀ {n m m'}, Meets A o i j n m m' → P m ∨ Q m' →
      Settings.Clear (Ref.GivesWay A o) (A.entries m) (o.entries m'))
    (depth : Nat) (path : List Text) :
    clash? A o depth path i (o.entries j) = clash? A' o' depth path i (o'.entries j) := by
  induction depth generalizing i j path with
  | zero => rfl
  | succ depth ih =>
    have hbelow {e : Value × Ref} (he : e ∈ o.entries j) {c d : Nat} (hc : A.Child i e.1 c)
        (hd : e.2.dict? o = some d) :=
      ih (fun hm => hclear (.within he hd hc hm)) (path ++ [e.1.spelled])
    by_cases hPQ : P i ∨ Q j
    · have hhere := hclear (.here i j) hPQ
      have hhere' := clear_respelled hA ho hhere (hA.entries i) (ho.entries j)
      refine findSome?_eq_of_forall₂ (forall₂_of_mem (ho.entries j) fun e he f hf hef => ?_)
      cases hname : Setting.ofKey? f.1 with
      | some s =>
        have hes := hef.1.ofKey?.trans hname
        rw [entryClash?_eq_none hes fun x hx hxs => hhere x hx e he s hxs hes,
          entryClash?_eq_none hname fun x hx hxs => hhere' x hx f hf s hxs hname]
      | none =>
        have hes := hef.1.ofKey?.trans hname
        cases Prod.ext (hef.1.eq_of_none hes) hef.2
        exact entryClash?_respelled hA ho ((hA.entries i).get? hname) (hbelow he)
    · -- No settings stand here, and both dicts are as they were.
      obtain ⟨hP, hQ⟩ := not_or.1 hPQ
      have hentries : A'.entries i = A.entries i := Objects.entries_congr (hA.kept hP)
      have hentries' : o'.entries j = o.entries j := Objects.entries_congr (ho.kept hQ)
      rw [hentries']
      exact findSome?_eq_of_forall₂ (List.forall₂_same.2 fun e he =>
        entryClash?_respelled hA ho (by rw [hentries]) (hbelow he))

end
end Graph

/-! ### Documents -/

/-- How one document cannot be laid over another as a graph. -/
def Document.clash? (base override : Document) (i j : Nat) : Option Failure :=
  Graph.clash? base.graph.objects (override.graph.apart base.graph.objects.size).objects
    Graph.maxDepth [] i ((override.graph.apart base.graph.objects.size).objects.entries j)

namespace Settings
variable {D D' L L' : Document} {i j : Nat}

/-- Graphs that cannot be merged are rejected, and all others are compatible. -/
theorem ofGraphs_clash (tD : D.Tidy) (tL : L.Tidy)
    (hi : D.graph.root.dict? D.graph.objects = some i)
    (hj : L.graph.root.dict? L.graph.objects = some j) (hone : D.Unshared L) :
    (D.clash? L i j = none → D.graph.Compatible L.graph) ∧
      ∀ f, D.clash? L i j = some f → ofGraphs D.graph L.graph = .error f := by
  have hA := Document.proper hi tD
  have ho := (Document.proper hj tL).apart D.graph.objects.size
  have hroot := Ref.dict?_object hi
  have hone := hone i j hi hj
  have hjoins := Graph.mergeInto_joins hA ho hone (.initial hA hroot) Graph.maxDepth []
  rw [Document.clash?, ← Graph.failureOf_mergeInto hA ho hone (.initial hA hroot),
    ofGraphs_eq hi hj]
  cases hm : Graph.mergeInto _ Graph.maxDepth [] i _ _ with
  | error f =>
    refine ⟨fun h => (by cases h), fun f' h => ?_⟩
    cases h
    rfl
  | ok a =>
    refine ⟨fun _ i' j' hi' hj' => ?_, fun f h => (by cases h)⟩
    cases hi.symm.trans hi'
    cases hj.symm.trans hj'
    exact hjoins.ok_iff.1 ⟨a, hm⟩

/-- If settings give way, two graphs can be merged in both spellings or are rejected alike. -/
theorem ofGraphs_clear (hD : D.Respelled D') (hL : L.Respelled L') (tD : D.Tidy) (tD' : D'.Tidy)
    (tL : L.Tidy) (tL' : L'.Tidy) (hi : D.graph.root.dict? D.graph.objects = some i)
    (hj : L.graph.root.dict? L.graph.objects = some j) (hone : D.Unshared L)
    (hone' : D'.Unshared L') (hclear : D.graph.Clear L.graph) :
    D.graph.Compatible L.graph ∧ D'.graph.Compatible L'.graph ∨
      ofGraphs D.graph L.graph = ofGraphs D'.graph L'.graph := by
  obtain ⟨hgraph, -⟩ := hD.graph tD hi
  obtain ⟨hgraphL, -⟩ := hL.graph tL hj
  obtain ⟨hcompatible, hrejected⟩ := ofGraphs_clash tD tL hi hj hone
  obtain ⟨hcompatible', hrejected'⟩ :=
    ofGraphs_clash tD' tL' (hD.root tD hi) (hL.root tL hj) hone'
  have hclash : D.clash? L i j = D'.clash? L' i j := by
    rw [Document.clash?, Document.clash?, hgraph.size]
    exact Graph.clash?_respelled hgraph (hgraphL.apart _) (hclear i j hi hj) Graph.maxDepth []
  cases hd : D.clash? L i j with
  | none => exact .inl ⟨hcompatible hd, hcompatible' (hclash ▸ hd)⟩
  | some f => exact .inr ((hrejected f hd).trans (hrejected' f (hclash ▸ hd)).symm)

end Settings
end MigrationSetup
