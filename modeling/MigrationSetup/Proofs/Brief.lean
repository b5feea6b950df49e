import MigrationSetup.Load
import MigrationSetup.Proofs.Embedding
import MigrationSetup.Proofs.Parts

/-! Numbers that can be written out.

Loading fails for a number that is too long where this would have to become part of a path or
of a message. No layer that is without such numbers can bring that about: neither merging nor
binding makes numbers that no file has (`merge_brief`, `ofDocument_brief`). -/
namespace MigrationSetup

/-- What is given has `P`, and what fails is another failure than `bad`. -/
def Spared {α ε : Type} (bad : ε) (P : α → Prop) : Except ε α → Prop
  | .ok a => P a
  | .error e => e ≠ bad

namespace Spared
variable {α β ε ε' : Type} {bad : ε} {P : α → Prop} {Q : β → Prop}

theorem bind {x : Except ε α} {f : α → Except ε β} (h : Spared bad P x)
    (hf : ∀ a, P a → Spared bad Q (f a)) : Spared bad Q (x >>= f) := by
  cases x with
  | error e => exact h
  | ok a => exact hf a h

theorem map {x : Except ε α} {f : α → β} (h : Spared bad P x) (hf : ∀ a, P a → Q (f a)) :
    Spared bad Q (x.map f) := by
  cases x with
  | error e => exact h
  | ok a => exact hf a h

theorem mapError {x : Except ε α} {f : ε → ε'} (h : Spared bad P x)
    (hf : Function.Injective f) : Spared (f bad) P (x.mapError f) := by
  cases x with
  | error e => exact fun heq => h (hf heq)
  | ok a => exact h

theorem foldlM {γ : Type} {f : α → γ → Except ε α} {xs : List γ} {a : α} (ha : P a)
    (hf : ∀ x ∈ xs, ∀ a, P a → Spared bad P (f a x)) : Spared bad P (xs.foldlM f a) := by
  induction xs generalizing a with
  | nil => exact ha
  | cons x xs ih =>
    rw [List.foldlM_cons]
    exact (hf x List.mem_cons_self a ha).bind fun b hb =>
      ih hb fun y hy => hf y (List.mem_cons_of_mem _ hy)

end Spared

/-! ### Values -/

namespace Value

/-- Nothing in the value is too long to be written out. -/
def Brief (v : Value) : Prop := v.hasLong = false

/-- Neither a key nor what stands under it is too long. -/
def BriefEntries (es : Entries) : Prop := ∀ e ∈ es, e.1.Brief ∧ e.2.Brief

theorem brief_dict_iff {es : Entries} : (Value.dict es).Brief ↔ BriefEntries es := by
  rw [Brief, hasLong, Bool.eq_false_iff, ne_eq, hasLongUnder_iff, not_exists]
  refine forall_congr' fun e => ?_
  rw [not_and, not_or, Bool.not_eq_true, Bool.not_eq_true]
  rfl

theorem BriefEntries.put {es : Entries} {k v : Value} (h : BriefEntries es) (hk : k.Brief)
    (hv : v.Brief) : BriefEntries (Table.put k v es) :=
  Table.forall_put h hk hv

theorem replace_brief {path : List Text} {c v : Value} (hv : v.Brief) :
    Spared .longNumber Brief (replace path c v) := by
  rw [replace]
  split
  · exact hv
  · intro h
    cases h

theorem mergeEntries_brief_of {path : List Text} {b es : Entries} (hb : BriefEntries b)
    (hes : BriefEntries es) (h : ∀ e ∈ es, ∀ path c, Brief c →
      Spared .longNumber Brief (mergeValue path c e.2)) :
    Spared .longNumber BriefEntries (mergeEntries path b es) := by
  induction es generalizing b with
  | nil => exact hb
  | cons e es ih =>
    obtain ⟨k, v⟩ := e
    have hk : k.hasLong = false := (hes _ List.mem_cons_self).1
    have hv : v.Brief := (hes _ List.mem_cons_self).2
    have hrest {w : Value} (hw : w.Brief) :
        Spared .longNumber BriefEntries (mergeEntries path (Table.put k w b) es) :=
      ih (hb.put hk hw) (fun e he => hes e (List.mem_cons_of_mem _ he))
        fun e he => h e (List.mem_cons_of_mem _ he)
    rw [mergeEntries, hk]
    simp only [Bool.false_eq_true, if_false]
    cases hget : Table.get? k b with
    | none => exact hrest hv
    | some c =>
      obtain ⟨l, hl, -⟩ := Table.mem_of_get? hget
      have hmerged := h _ List.mem_cons_self (path ++ [k.spelled]) c (hb _ hl).2
      cases hstep : mergeValue (path ++ [k.spelled]) c v with
      | ok w =>
        rw [hstep] at hmerged
        simp only [hstep]
        exact hrest hmerged
      | error e =>
        rw [hstep] at hmerged
        simp only [hstep]
        exact hmerged

theorem mergeValue_brief {path : List Text} {c v : Value} (hc : c.Brief) (hv : v.Brief) :
    Spared .longNumber Brief (mergeValue path c v) := by
  induction v using dictInduction generalizing path c with
  | other v hplain =>
    rw [mergeValue_plain path (.inl hplain)]
    exact replace_brief hv
  | whole es ih =>
    by_cases hb : ∃ b, c = .dict b
    · obtain ⟨b, rfl⟩ := hb
      have hes := brief_dict_iff.1 hv
      rw [mergeValue_dicts]
      exact (mergeEntries_brief_of (brief_dict_iff.1 hc) hes fun e he path c hc =>
        ih e he hc (hes e he).2).map fun _ => brief_dict_iff.2
    · rw [mergeValue_plain path (.inr fun b h => hb ⟨b, h⟩)]
      exact replace_brief hv

theorem merge_brief {b o : Value} (hb : b.Brief) (ho : o.Brief) :
    Spared .longNumber Brief (merge b o) := by
  unfold merge
  split
  · have hes := brief_dict_iff.1 ho
    exact (mergeEntries_brief_of (brief_dict_iff.1 hb) hes fun e he _ _ hc =>
      mergeValue_brief hc (hes e he).2).map fun _ => brief_dict_iff.2
  · intro h
    cases h

theorem brief_renamed {v : Value} (h : v.Brief) (n : Nat) :
    (v.renamed fun k => .nan (k + 1 + n)).Brief := by
  cases v with
  | nan m => cases m <;> rfl
  | _ => exact h

theorem brief_items_iff {xs : List Value} : hasLongIn xs = false ↔ ∀ x ∈ xs, x.Brief := by
  rw [Bool.eq_false_iff, ne_eq, hasLongIn_iff, not_exists]
  refine forall_congr' fun x => ?_
  rw [not_and, Bool.not_eq_true]
  rfl

end Value

/-! ### Objects -/

/-- Nothing in the reference itself is too long. -/
def Ref.Brief : Ref → Prop
  | .value v => v.Brief
  | .object _ => True

/-- Nothing that the object itself holds is too long. -/
def Shape.Brief : Shape → Prop
  | .list items => ∀ r ∈ items, r.Brief
  | .pairs items => ∀ p ∈ items, p.1.Brief ∧ p.2.Brief
  | .dict es => ∀ e ∈ es, e.1.Brief ∧ e.2.Brief
  | .set items => ∀ v ∈ items, v.Brief

def Objects.Brief (a : Objects) : Prop := ∀ i, (a.shape i).Brief

structure Graph.Brief (g : Graph) : Prop where
  objects : g.objects.Brief
  root : g.root.Brief

namespace Ref
variable {r : Ref}

theorem Brief.shift (h : r.Brief) (n : Nat) : (r.shift n).Brief := by
  cases r with
  | value v => exact h
  | object i => exact trivial

theorem Brief.renamed (h : r.Brief) (n : Nat) : (r.renamed fun k => .nan (k + 1 + n)).Brief := by
  cases r with
  | value v => exact Value.brief_renamed h n
  | object i => exact trivial

/-- What is unfolded has no numbers but those of the objects. -/
theorem Brief.unfoldIn {a : Objects} (ha : a.Brief) (h : r.Brief) (fuel : Nat)
    (path : List Nat) : (r.unfoldIn a fuel path).Brief := by
  have hface (i : Nat) : (a.shape i).face.Brief := by
    cases a.shape i <;> rfl
  induction fuel generalizing r path with
  | zero =>
    cases r with
    | value v => exact h
    | object i => exact hface i
  | succ fuel ih =>
    cases r with
    | value v => exact h
    | object i =>
      rw [Ref.unfoldIn]
      split
      · exact hface i
      · have hi := ha i
        cases hs : a.shape i with
        | list items =>
          rw [hs] at hi
          exact Value.brief_items_iff.2 (List.forall_mem_map.2 fun r hr => ih (hi r hr) _)
        | pairs items =>
          rw [hs] at hi
          refine Value.brief_items_iff.2 (List.forall_mem_map.2 fun p hp => ?_)
          exact Value.brief_items_iff.2 (List.forall_mem_cons.2 ⟨ih (hi p hp).1 _,
            List.forall_mem_singleton.2 (ih (hi p hp).2 _)⟩)
        | dict es =>
          rw [hs] at hi
          exact Value.brief_dict_iff.2 (List.forall_mem_map.2 fun e he =>
            ⟨(hi e he).1, ih (hi e he).2 _⟩)
        | set items =>
          rw [hs] at hi
          exact Value.brief_items_iff.2 hi

end Ref

namespace Shape
variable {x : Shape}

theorem Brief.shift (h : x.Brief) (n : Nat) : (x.shift n).Brief := by
  cases x with
  | list items => exact List.forall_mem_map.2 fun r hr => (h r hr).shift n
  | pairs items =>
    exact List.forall_mem_map.2 fun p hp => ⟨(h p hp).1.shift n, (h p hp).2.shift n⟩
  | dict es => exact List.forall_mem_map.2 fun e he => ⟨(h e he).1, (h e he).2.shift n⟩
  | set items => exact h

theorem Brief.renamed (h : x.Brief) (n : Nat) : (x.renamed fun k => .nan (k + 1 + n)).Brief := by
  cases x with
  | list items => exact List.forall_mem_map.2 fun r hr => (h r hr).renamed n
  | pairs items =>
    exact List.forall_mem_map.2 fun p hp => ⟨(h p hp).1.renamed n, (h p hp).2.renamed n⟩
  | dict es =>
    exact List.forall_mem_map.2 fun e he =>
      ⟨Value.brief_renamed (h e he).1 n, (h e he).2.renamed n⟩
  | set items => exact List.forall_mem_map.2 fun v hv => Value.brief_renamed (h v hv) n

end Shape

namespace Objects
variable {a o : Objects}

theorem Brief.entries (h : a.Brief) (i : Nat) : ∀ e ∈ a.entries i, e.1.Brief ∧ e.2.Brief := by
  have hi := h i
  rw [Objects.entries]
  cases hs : a.shape i with
  | dict es =>
    rw [hs] at hi
    exact hi
  | _ => exact List.forall_mem_nil _

theorem Brief.set (h : a.Brief) (i : Nat) {x : Shape} (hx : x.Brief) :
    Objects.Brief (a.setIfInBounds i x) := by
  intro j
  by_cases hj : j = i
  · subst hj
    by_cases hsize : j < a.size
    · rw [Objects.shape_set_self hsize]
      exact hx
    · rw [Array.setIfInBounds_eq_of_size_le (Nat.not_lt.1 hsize)]
      exact h j
  · rw [Objects.shape_set_of_ne hj]
    exact h j

theorem Brief.append (h : a.Brief) (ho : o.Brief) :
    Objects.Brief (a ++ o.map (Shape.shift a.size)) := by
  intro i
  by_cases hi : i < a.size
  · rw [Objects.shape_append_left hi]
    exact h i
  · obtain ⟨j, rfl⟩ := Nat.exists_eq_add_of_le (Nat.not_lt.1 hi)
    rw [Objects.shape_append_right]
    exact (ho j).shift a.size

theorem Brief.push (h : a.Brief) {x : Shape} (hx : x.Brief) : Objects.Brief (a.push x) := by
  intro i
  rw [Objects.shape, Array.getElem?_push]
  split
  · exact hx
  · exact h i

end Objects

/-! ### Merging objects -/

namespace Graph
variable {a o : Objects}

theorem putCopy_brief (ha : a.Brief) (ho : o.Brief) (i : Nat) {k : Value} (hk : k.Brief) {r : Ref}
    (hr : r.Brief) : Objects.Brief (putCopy o i k r a) := by
  have hcopy : (copyIn o r a).1.Brief ∧ (copyIn o r a).2.Brief := by
    cases r with
    | value v => exact ⟨hr, ha⟩
    | object j => exact ⟨trivial, ha.append ho⟩
  rw [putCopy_eq]
  exact hcopy.2.set i (Table.forall_put (hcopy.2.entries i) hk hcopy.1)

theorem mergeEntry_brief {below : List Text → Nat → Table Ref → Objects → Except Failure Objects}
    (hb : ∀ path id es a, (∀ e ∈ es, e.1.Brief ∧ e.2.Brief) → Objects.Brief a →
      Spared (.setting .longNumber) Objects.Brief (below path id es a))
    (ha : a.Brief) (ho : o.Brief) (path : List Text) (i : Nat) {e : Value × Ref}
    (he : e.1.Brief ∧ e.2.Brief) :
    Spared (.setting .longNumber) Objects.Brief (mergeEntry o below path i a e) := by
  obtain ⟨k, r⟩ := e
  have hk : k.hasLong = false := he.1
  simp only [mergeEntry, hk, Bool.false_eq_true, if_false]
  split
  · exact putCopy_brief ha ho i he.1 he.2
  · split
    · exact hb _ _ _ _ (ho.entries _) ha
    · split
      · exact putCopy_brief ha ho i he.1 he.2
      · intro h
        cases h

theorem mergeInto_brief (ho : o.Brief) (fuel : Nat) (path : List Text) (i : Nat)
    {es : Table Ref} (hes : ∀ e ∈ es, e.1.Brief ∧ e.2.Brief) (ha : a.Brief) :
    Spared (.setting .longNumber) Objects.Brief (mergeInto o fuel path i es a) := by
  induction fuel generalizing path i es a with
  | zero =>
    intro h
    cases h
  | succ fuel ih =>
    exact Spared.foldlM ha fun e he a ha =>
      mergeEntry_brief (fun path i es a hes ha => ih path i hes ha) ha ho path i (hes e he)

theorem Brief.apart {g : Graph} (h : g.Brief) (n : Nat) : (g.apart n).Brief where
  objects i := by
    show (Objects.shape (g.objects.map (Shape.renamed fun k => .nan (k + 1 + n))) i).Brief
    rw [Objects.shape_renamed]
    exact (h.objects i).renamed n
  root := h.root.renamed n

theorem merge_brief {g h : Graph} (hg : g.Brief) (hh : h.Brief) :
    Spared (.setting .longNumber) Graph.Brief (g.merge h) := by
  have hapart := hh.apart g.objects.size
  rw [merge]
  split
  · exact (mergeInto_brief hapart.objects _ _ _ (hapart.objects.entries _) hg.objects).bind
      fun a ha => ⟨ha, trivial⟩
  · intro h
    cases h

/-! ### Values as objects -/

theorem addEntries_brief_of {es : Entries} (hes : Value.BriefEntries es)
    (h : ∀ e ∈ es, ∀ {a : Objects}, a.Brief →
      (addValue a e.2).1.Brief ∧ (addValue a e.2).2.Brief) (ha : a.Brief) :
    (∀ e ∈ (addEntries a es).1, e.1.Brief ∧ e.2.Brief) ∧ (addEntries a es).2.Brief := by
  induction es generalizing a with
  | nil => exact ⟨List.forall_mem_nil _, ha⟩
  | cons e es ih =>
    obtain ⟨k, v⟩ := e
    obtain ⟨hr, ha'⟩ := h _ List.mem_cons_self ha
    obtain ⟨hrest, ha''⟩ := ih (fun e he => hes e (List.mem_cons_of_mem _ he))
      (fun e he => h e (List.mem_cons_of_mem _ he)) ha'
    exact ⟨List.forall_mem_cons.2 ⟨⟨(hes _ List.mem_cons_self).1, hr⟩, hrest⟩, ha''⟩

theorem addValue_brief {v : Value} (hv : v.Brief) (ha : a.Brief) :
    (addValue a v).1.Brief ∧ (addValue a v).2.Brief := by
  induction v using Value.dictInduction generalizing a with
  | other v hplain =>
    rw [addValue_plain a hplain]
    exact ⟨hv, ha⟩
  | whole es ih =>
    have hes := Value.brief_dict_iff.1 hv
    obtain ⟨hentries, hobjects⟩ := addEntries_brief_of hes (fun e he => ih e he (hes e he).2) ha
    rw [addValue_dict]
    exact ⟨trivial, hobjects.push hentries⟩

theorem ofValue_brief {v : Value} (hv : v.Brief) : (ofValue v).Brief := by
  have hempty : Objects.Brief #[] := fun i => List.forall_mem_nil _
  obtain ⟨hroot, hobjects⟩ := addValue_brief hv hempty
  exact ⟨hobjects, hroot⟩

end Graph

/-! ### Documents -/

namespace Document

/-- Nothing in the document is too long to be written out. -/
def Brief : Document → Prop
  | .plain v => v.Brief
  | .shared g => g.Brief

theorem Brief.graph {d : Document} (h : d.Brief) : d.graph.Brief := by
  cases d with
  | plain v => exact Graph.ofValue_brief h
  | shared g => exact h

theorem merge_brief {b o : Document} (hb : b.Brief) (ho : o.Brief) :
    Spared (.setting .longNumber) Document.Brief (b.merge o) := by
  unfold Document.merge
  split
  · have hmap : Spared .longNumber Document.Brief ((Value.merge _ _).map .plain) :=
      (Value.merge_brief hb ho).map fun _ h => h
    exact hmap.mapError fun _ _ => Failure.setting.inj
  · exact (Graph.merge_brief hb.graph ho.graph).map fun _ h => h

end Document

/-! ### Binding -/

theorem Graph.Brief.unfoldEntries {g : Graph} (h : g.Brief) (key : Value) :
    (g.unfoldEntries key).Brief := by
  have hpart (r : Ref) (hr : r.Brief) : (r.unfold g.objects).Brief := hr.unfoldIn h.objects _ _
  rw [Graph.unfoldEntries]
  split
  · exact hpart g.root h.root
  · next id hid =>
    refine Value.brief_dict_iff.2 (List.forall_mem_map.2 fun e he => ?_)
    obtain ⟨hk, hr⟩ := h.objects.entries id e he
    obtain ⟨k, r⟩ := e
    dsimp only
    split
    · next c hc =>
      split
      · exact ⟨hk, Value.brief_dict_iff.2 (List.forall_mem_map.2 fun f hf =>
          ⟨(h.objects.entries c f hf).1, hpart _ (h.objects.entries c f hf).2⟩)⟩
      · exact ⟨hk, hpart r hr⟩
    · exact ⟨hk, hpart r hr⟩

namespace Settings

theorem sectionOf_brief {v : Value} (hv : v.Brief) :
    Spared .longNumber Value.BriefEntries (sectionOf v) := by
  unfold sectionOf
  split
  · have hes := Value.brief_dict_iff.1 hv
    split
    · exact hes
    · exact List.forall_mem_nil _
    · next es hget =>
      obtain ⟨k, hk, -⟩ := Table.mem_of_get? hget
      exact Value.brief_dict_iff.1 (hes _ hk).2
    · intro h
      cases h
  · intro h
    cases h

theorem brief_of_stranger {es : Entries} (hes : Value.BriefEntries es) {k : Value}
    (h : stranger? es = some k) : k.Brief := by
  induction es with
  | nil => cases h
  | cons e es ih =>
    obtain ⟨l, v⟩ := e
    rw [stranger?] at h
    split at h
    · obtain rfl := Option.some.inj h
      exact (hes _ List.mem_cons_self).1
    · exact ih (fun e he => hes e (List.mem_cons_of_mem _ he)) h

theorem brief_lastOf {es : Entries} (hes : Value.BriefEntries es) (s : Setting) :
    (lastOf s .null es).Brief := by
  rw [lastOf_eq]
  cases hget : given? s es with
  | none => rfl
  | some v =>
    obtain ⟨k, hk, -⟩ := mem_of_given? hget
    exact (hes _ hk).2

/-- What a setting makes of a value that can be shown does not fail for its length. -/
theorem read_ne_longNumber (s : Setting) {v : Value} (hv : v.Brief) :
    s.read v ≠ .error .longNumber := by
  intro h
  rcases read_fault h with ⟨-, hlong, -⟩ | ⟨-, hfault⟩
  · cases hv.symm.trans hlong
  · cases hfault

theorem ofEntries_brief {es : Entries} (hes : Value.BriefEntries es) :
    ofEntries es ≠ .error .longNumber := by
  have hkeys : Option.Rel (fun k _ => SettingError.showing k (.unknownSetting k) ≠ .longNumber)
      (stranger? es) (stranger? es) := by
    cases hk : stranger? es with
    | none => exact .none
    | some k =>
      refine .some ?_
      rw [SettingError.showing, brief_of_stranger hes hk]
      intro h
      cases h
  have hagree := ofEntries_agree (E := fun e _ => e ≠ .longNumber) hkeys fun s => by
    have hread := read_ne_longNumber s (brief_lastOf hes s)
    cases hr : s.read (lastOf s .null es) with
    | ok p => exact .same p
    | error e => exact .failed fun he => hread (hr.trans (congrArg _ he))
  intro h
  rw [h] at hagree
  cases hagree with
  | failed h => exact h rfl

/-- Binding does not fail for a number in a value that is without long ones. -/
theorem ofValue_brief {v : Value} (hv : v.Brief) : ofValue v ≠ .error .longNumber := by
  intro h
  rcases bind_eq_error.1 h with h | ⟨es, hes, h⟩
  · have hsection := sectionOf_brief hv
    rw [h] at hsection
    exact hsection rfl
  · have hsection := sectionOf_brief hv
    rw [hes] at hsection
    exact ofEntries_brief hsection h

theorem ofDocument_brief {d : Document} (hd : d.Brief) : ofDocument d ≠ .error .longNumber := by
  cases d with
  | plain v => exact ofValue_brief hd
  | shared g => exact ofValue_brief (hd.unfoldEntries _)

end Settings
end MigrationSetup
