import MigrationSetup.Proofs.Joining

/-! What comes of one key.

After a merge there stands under a key what stood there, if the override has nothing for it
(`Graph.mergeInto_kept`), or a copy of what the override has (`Graph.mergeInto_copied`), or,
if both are dicts, the dict that stood there with the entries of the other one laid over it
(`Graph.mergeInto_merged`). -/
namespace MigrationSetup

namespace Graph

variable {A o a b : Objects} {depth i j c d : Nat} {k : Value} {r : Ref} {es : Table Ref}

/-- In a merge each entry has its turn. -/
theorem foldlM_turn
    {below : List Text → Nat → Table Ref → Objects → Except Failure Objects}
    (hA : A.Proper) (ho : o.Proper)
    (hbelow : ∀ {a c d} (path : List Text), Unshared A o c d → Ready A o c (o.entries d) a →
      Joins A o c (o.entries d) a (Fits A o depth c d) (below path c (o.entries d) a))
    (hone : Unshared A o i j) (hsub : ∀ e ∈ es, e ∈ o.entries j) (hd : Table.Distinct es)
    (h : Ready A o i es a) {path : List Text}
    (hm : es.foldlM (mergeEntry o below path i) a = .ok b) {e : Value × Ref} (he : e ∈ es) :
    ∃ rest a₁ b₁, Table.Distinct (e :: rest) ∧ (∀ f ∈ e :: rest, f ∈ o.entries j) ∧
      Ready A o i (e :: rest) a₁ ∧ mergeEntry o below path i a₁ e = .ok b₁ ∧
      Joined A o i rest b₁ b := by
  induction es generalizing a with
  | nil => cases he
  | cons f es ih =>
    have hsub' : ∀ e ∈ es, e ∈ o.entries j := fun e he => hsub e (List.mem_cons_of_mem _ he)
    rw [List.foldlM_cons] at hm
    obtain ⟨a₁, hstep, hrest⟩ := bind_eq_ok.1 hm
    have hfirst :=
      (mergeEntry_joins hA ho hbelow hone (hsub f List.mem_cons_self) h path).joined hstep
    have hnext := h.next hone hsub hd hfirst
    rcases List.mem_cons.1 he with rfl | he
    · exact ⟨es, a, a₁, hd, hsub, h, hstep,
        (foldlM_joins hA ho hbelow hone hsub' hd.tail hnext path).joined hrest⟩
    · exact ih hsub' hd.tail hnext hrest he

section
variable {path : List Text} (hA : A.Proper) (ho : o.Proper) (hone : Unshared A o i j)
  (hi : (Ref.object i).dict? A = some i) (hm : mergeInto o depth path i (o.entries j) A = .ok b)
include hA ho hone hi hm

theorem mergeInto_joined : Joined A o i (o.entries j) A b :=
  (mergeInto_joins hA ho hone (.initial hA hi) depth path).joined hm

theorem mergeInto_turn (hk : Table.get? k (o.entries j) = some r) :
    ∃ n l rest a₁ b₁, Value.sameKey l k = true ∧ Table.Distinct ((l, r) :: rest) ∧
      (∀ f ∈ (l, r) :: rest, f ∈ o.entries j) ∧ Ready A o i ((l, r) :: rest) a₁ ∧
      mergeEntry o (mergeInto o n) path i a₁ (l, r) = .ok b₁ ∧ Joined A o i rest b₁ b := by
  obtain ⟨l, hmem, hl⟩ := Table.mem_of_get? hk
  cases depth with
  | zero => cases hm
  | succ n =>
    rw [mergeInto] at hm
    obtain ⟨rest, a₁, b₁, hturn⟩ := foldlM_turn hA ho
      (fun path hone h => mergeInto_joins hA ho hone h n path) hone (fun _ => id)
      (ho.distinct j) (.initial hA hi) hm hmem
    exact ⟨n, l, rest, a₁, b₁, hl, hturn⟩

/-- A dict under a key that the override lacks stays as it is. -/
theorem mergeInto_kept (hk : Table.get? k (o.entries j) = none) (hc : A.Child i k c) :
    b.Child i k c ∧ b.glances (b.entries c) = A.glances (A.entries c) := by
  have hj := mergeInto_joined hA ho hone hi hm
  have hshape : b.shape c = A.shape c := by
    refine hj.kept (Ref.lt_size_of_dict? hc.dict) ?_ fun e he c' d n m' hc' hd hm' => ?_
    · rintro rfl
      exact hone.not_back hc (.here c j)
    · exact hone.apart he hc' hd hm' hc (Table.get?_eq_none_iff.1 hk e he) (.here c)
  constructor
  · obtain ⟨x, hx, hxc⟩ := hc
    refine ⟨x, (hj.others hk).trans hx, ?_⟩
    rw [hj.akin.dict? (hA.of_get? hx), hxc]
  · rw [Objects.entries_congr hshape, hj.akin.glances (hA.bounds c)]

/-- What is laid over a key is copied, unless it is a dict and meets one. -/
theorem mergeInto_copied (hk : Table.get? k (o.entries j) = some r)
    (hnot : ∀ c d, A.Child i k c → r.dict? o ≠ some d) :
    ∃ n, Table.get? k (b.entries i) = some (r.shift n) ∧
      ∀ d, r = .object d → ∀ m, m < o.size → b.shape (n + m) = (o.shape m).shift n := by
  obtain ⟨n, l, rest, a₁, b₁, hl, hd, -, hready, hstep, hrest⟩ :=
    mergeInto_turn hA ho hone hi hm hk
  have hlt := Ref.lt_size_of_dict? hready.dict
  rcases mergeEntry_cases hstep with ⟨rfl, -⟩ | ⟨x, c, d, hx, hc, hd', -⟩
  · refine ⟨a₁.size, ?_, ?_⟩
    · have hatoms : l.atoms?.isSome = true := by
        obtain ⟨x, hx, -⟩ := Value.sameKey_iff.1 hl
        rw [hx]
        rfl
      have hcopy : (copyIn o r a₁).1 = r.shift a₁.size := by
        cases r <;> rfl
      rw [← Table.get?_congr hl, hrest.others hd.head_new, entries_putCopy hlt,
        Table.get?_put_self hatoms, hcopy]
    · rintro d rfl m hm
      have hsize : a₁.size + m < (putCopy o i l (.object d) a₁).size := by
        simp only [size_putCopy, copyIn, Array.size_append, Array.size_map]
        omega
      have hne : a₁.size + m ≠ i := by omega
      rw [hrest.kept hsize hne fun e _ c d n m' hc _ hm' => ?_, putCopy_eq,
        Objects.shape_set_of_ne hne]
      · exact Objects.shape_append_right a₁ o m
      · -- The base has no dict among the new objects.
        have hlt' := Ref.lt_size_of_dict? (hm'.dict hc.dict)
        have hle := hready.akin.size
        omega
  · rw [hready.held _ List.mem_cons_self] at hx
    rw [hready.akin.dict? (hA.of_get? hx)] at hc
    exact absurd hd' (hnot c d ⟨x, (Table.get?_congr hl _).symm.trans hx, hc⟩)

/-- A dict that meets a dict stays where it is, and the other one is laid over it. -/
theorem mergeInto_merged (hk : Table.get? k (o.entries j) = some r) (hc : A.Child i k c)
    (hrd : r.dict? o = some d) :
    b.Child i k c ∧ b.glances (b.entries c) =
      Settings.overlay (A.glances (A.entries c)) (o.glances (o.entries d)) := by
  have hakin := (mergeInto_joined hA ho hone hi hm).akin
  obtain ⟨n, l, rest, a₁, b₁, hl, hd, hsub, hready, hstep, hrest⟩ :=
    mergeInto_turn hA ho hone hi hm hk
  have hheld := hready.held _ List.mem_cons_self
  obtain ⟨x, hx, hxc⟩ := hc.congr hl
  have hxb := hA.of_get? hx
  rcases mergeEntry_cases hstep with ⟨-, hnot⟩ | ⟨x', c', d', hx', hc', hd', hbelow⟩
  · refine absurd hrd (hnot x c d (hheld.trans hx) ?_)
    rw [hready.akin.dict? hxb, hxc]
  · cases (hheld.symm.trans hx').symm.trans hx
    cases hc'.symm.trans ((hready.akin.dict? hxb).trans hxc)
    cases hd'.symm.trans hrd
    have hchild : A.Child i l c := ⟨x, hx, hxc⟩
    have hmem := hsub _ List.mem_cons_self
    have hj := (mergeInto_joins hA ho (hone.child hmem hchild hrd) (hready.child hA hchild hrd) n
      _).joined hbelow
    have hentries : a₁.entries c = A.entries c :=
      Objects.entries_congr (hready.below _ List.mem_cons_self hchild hrd (.here c d))
    have habove : b₁.entries i = a₁.entries i := Objects.entries_congr <|
      hj.kept_outside (Ref.lt_size_of_dict? hready.dict) fun _ _ => hone.not_back hchild
    have hafter : b.shape c = b₁.shape c := by
      refine hrest.kept (Nat.lt_of_lt_of_le (Ref.lt_size_of_dict? hc') hj.akin.size) ?_
        fun e he c' d' n' m' hc' hd' hm' => ?_
      · rintro rfl
        exact hone.not_back hchild (.here c d)
      · have hne := (List.pairwise_cons.1 hd).1 e he
        rw [Value.sameKey_comm] at hne
        exact hone.apart (hsub e (List.mem_cons_of_mem _ he)) hc' hd' hm' hchild hne (.here c)
    constructor
    · refine ⟨x, ?_, by rw [hakin.dict? hxb, hxc]⟩
      rw [← Table.get?_congr hl, hrest.others hd.head_new, habove, hx']
    · rw [Objects.entries_congr hafter, hrest.akin.glances hj.bounds, hj.glances, hentries,
        hready.akin.glances (hA.bounds c)]

end

/-- A copy of a dict is at a glance what the dict is. -/
theorem copied_child {n : Nat} (ho : o.Proper) (hrd : r.dict? o = some d)
    (hcopy : ∀ m, m < o.size → b.shape (n + m) = (o.shape m).shift n) :
    (r.shift n).dict? b = some (n + d) ∧
      b.glances (b.entries (n + d)) = o.glances (o.entries d) := by
  obtain ⟨rfl, hs⟩ := Ref.dict?_eq_some_iff.1 hrd
  have hshape := hcopy d (Ref.lt_size_of_dict? hrd)
  rw [hs] at hshape
  have hentries : b.entries (n + d) = (o.entries d).map fun e => (e.1, e.2.shift n) := by
    rw [Objects.entries, hshape]
    rfl
  refine ⟨Ref.dict?_eq_some_iff.2 ⟨rfl, ?_⟩, ?_⟩
  · rw [hentries, hshape]
    rfl
  · rw [hentries, Objects.glances, List.map_map]
    refine List.map_congr_left fun e he => Prod.ext rfl ?_
    obtain ⟨k, x⟩ := e
    cases x with
    | value v => rfl
    | object m =>
      show (b.shape (n + m)).glance = (o.shape m).glance
      rw [hcopy m (ho.bounds d _ he m rfl), Shape.glance_shift]

end Graph
end MigrationSetup
