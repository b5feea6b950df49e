import MigrationSetup.Proofs.Copying
import MigrationSetup.Proofs.Parts
import MigrationSetup.Proofs.Unfolding

/-! Objects at a glance.

Little of an object counts for the binder: a list counts by its texts, and no setting takes a
dict or a set. So every setting sees at a glance what it sees of the value that an object
unfolds to (`Setting.seen_unfold`). Neither a copy behind other objects (`Graph.glance_copyIn`) nor
an entry that is put into a dict (`Graph.akin_putCopy`) shows at a glance. -/
namespace MigrationSetup

/-- An item of a list, where all but texts are alike. -/
def Ref.item : Ref → Value
  | .value v => v
  | .object _ => .list []

/-- An object at a glance. -/
def Shape.glance : Shape → Value
  | .list items => .list (items.map Ref.item)
  | .pairs items => .list (items.map fun _ => .tuple [])
  | .dict _ => .dict []
  | .set _ => .set []

def Ref.glance (a : Objects) : Ref → Value
  | .value v => v
  | .object i => (a.shape i).glance

/-- Entries at a glance. -/
def Objects.glances (a : Objects) (es : Table Ref) : Entries :=
  es.map fun e => (e.1, e.2.glance a)

namespace Shape

theorem glance_dict_iff {x : Shape} : x.glance = .dict [] ↔ ∃ es, x = .dict es := by
  cases x <;> simp [glance]

theorem face_of_glance {x y : Shape} (h : x.glance = y.glance) : x.face = y.face := by
  cases x <;> cases y <;> first | rfl | cases h

theorem glance_shift (n : Nat) (x : Shape) : (x.shift n).glance = x.glance := by
  have hitem (r : Ref) : (r.shift n).item = r.item := by
    cases r <;> rfl
  cases x with
  | list items =>
    simp only [shift, glance, List.map_map]
    exact congrArg Value.list (List.map_congr_left fun r _ => hitem r)
  | pairs items =>
    simp only [shift, glance, List.map_map]
    rfl
  | dict es => rfl
  | set items => rfl

end Shape

/-! ### What a setting sees -/

theorem Ref.text?_unfoldIn (a : Objects) (fuel : Nat) (path : List Nat) (r : Ref) :
    (r.unfoldIn a fuel path).text? = r.item.text? := by
  have hface (i : Nat) : (a.shape i).face.text? = none := by
    cases a.shape i <;> rfl
  cases r with
  | value v => cases fuel <;> rfl
  | object i =>
    cases fuel with
    | zero => exact hface i
    | succ fuel =>
      rw [unfoldIn]
      split
      · exact hface i
      · cases a.shape i <;> rfl

namespace Setting

theorem seen_unfoldIn (s : Setting) (a : Objects) (fuel : Nat) {path : List Nat} {i : Nat}
    (h : path.contains i = false) :
    s.seen ((Ref.object i).unfoldIn a (fuel + 1) path) = s.seen (a.shape i).glance := by
  simp only [Ref.unfoldIn, h, Bool.false_eq_true, if_false]
  cases a.shape i with
  | list items =>
    exact s.seen_list (forall₂_map_same fun r _ => r.text?_unfoldIn a fuel (i :: path))
  | pairs items => exact s.seen_list (forall₂_map_same fun _ _ => rfl)
  | dict es => rw [Shape.glance, s.seen_dict, s.seen_dict]
  | set items => cases s <;> rfl

theorem seen_unfold (s : Setting) (a : Objects) (r : Ref) :
    s.seen (r.unfold a) = s.seen (r.glance a) := by
  cases r with
  | value v => rfl
  | object i => exact s.seen_unfoldIn a a.size rfl

end Setting

namespace Settings

theorem kindred_values (a : Objects) (es : Table Ref) : Kindred (a.values es) (a.glances es) :=
  forall₂_map_same fun e _ => ⟨rfl, fun s => s.seen_unfold a e.2⟩

/-- What a dict unfolds to inside itself is seen at a glance, for no setting takes a dict. -/
theorem kindred_unfoldIn {a : Objects} {i : Nat} (h : a.shape i = .dict (a.entries i)) (fuel : Nat)
    (es : Table Ref) :
    Kindred (es.map fun e => (e.1, e.2.unfoldIn a (fuel + 1) [i])) (a.glances es) := by
  refine forall₂_map_same fun e _ => ⟨rfl, fun s => ?_⟩
  obtain ⟨k, r⟩ := e
  cases r with
  | value v => rfl
  | object j =>
    by_cases hij : i = j
    · subst hij
      have hloop : (Ref.object i).unfoldIn a (fuel + 1) [i] = .loop false := by
        simp [Ref.unfoldIn, h, Shape.face]
      show s.seen ((Ref.object i).unfoldIn a (fuel + 1) [i]) = s.seen (a.shape i).glance
      rw [hloop, h, Shape.glance, s.seen_dict]
      cases s <;> rfl
    · exact s.seen_unfoldIn a fuel (by simpa using Ne.symm hij)

end Settings

namespace Ref
variable {a : Objects} {r : Ref}

/-- A reference to a dict unfolds to a dict, which is seen at a glance. -/
theorem unfold_dict {c : Nat} (h : r.dict? a = some c) :
    ∃ es, r.unfold a = .dict es ∧ Settings.Kindred es (a.glances (a.entries c)) := by
  obtain ⟨rfl, hs⟩ := dict?_eq_some_iff.1 h
  obtain ⟨n, hn⟩ := Nat.exists_eq_add_one.2 (Nat.zero_lt_of_lt (lt_size_of_dict? h))
  refine ⟨_, ?_, Settings.kindred_unfoldIn hs n _⟩
  rw [unfold, hn, unfoldIn]
  simp [hs]

/-- A reference to no dict unfolds to no dict, and to nothing only if it is nothing. -/
theorem unfold_other (h : r.dict? a = none) (hr : ∀ es, r ≠ .value (.dict es)) :
    (∀ es, r.unfold a ≠ .dict es) ∧ (r.unfold a).isNull = (r.face a).isNull := by
  cases r with
  | value v => exact ⟨fun es hv => hr es (congrArg Ref.value hv), rfl⟩
  | object j =>
    have hunfold : (Ref.object j).unfold a = unfoldIn a (a.size + 1) [] (.object j) := rfl
    simp only [dict?] at h
    simp only [unfoldIn, List.contains_nil, Bool.false_eq_true, if_false] at hunfold
    rw [hunfold, face]
    cases hs : a.shape j with
    | dict es => simp [hs] at h
    | _ =>
      refine ⟨fun es hes => ?_, rfl⟩
      cases hes

end Ref

/-! ### Objects that look as they did -/

/-- A reference to no object beyond the first `n`. -/
def Ref.InBounds (n : Nat) (r : Ref) : Prop := ∀ i, r = .object i → i < n

/-- The objects of `a` are all there and look as they did. -/
structure Objects.Akin (a b : Objects) : Prop where
  size : a.size ≤ b.size
  glance : ∀ {i}, i < a.size → (b.shape i).glance = (a.shape i).glance

namespace Objects.Akin
variable {a b c : Objects} {r : Ref}

theorem refl (a : Objects) : Akin a a := ⟨Nat.le_refl _, fun _ => rfl⟩

theorem trans (h : Akin a b) (h' : Akin b c) : Akin a c :=
  ⟨Nat.le_trans h.size h'.size, fun hi =>
    (h'.glance (Nat.lt_of_lt_of_le hi h.size)).trans (h.glance hi)⟩

theorem glance_ref (h : Akin a b) (hr : r.InBounds a.size) : r.glance b = r.glance a := by
  cases r with
  | value v => rfl
  | object i => exact h.glance (hr i rfl)

theorem face (h : Akin a b) (hr : r.InBounds a.size) : r.face b = r.face a := by
  cases r with
  | value v => rfl
  | object i => exact Shape.face_of_glance (h.glance (hr i rfl))

theorem dict? (h : Akin a b) (hr : r.InBounds a.size) : r.dict? b = r.dict? a := by
  have hsome (n : Nat) : r.dict? b = some n ↔ r.dict? a = some n := by
    have hdict {a : Objects} : r.dict? a = some n ↔
        r = .object n ∧ (a.shape n).glance = .dict [] := by
      rw [Ref.dict?_eq_some_iff, Shape.glance_dict_iff]
      refine and_congr_right fun _ => ⟨fun hs => ⟨_, hs⟩, ?_⟩
      rintro ⟨es, hs⟩
      rw [Objects.entries, hs]
    rw [hdict, hdict]
    exact and_congr_right fun hrn => by rw [h.glance (hr n hrn)]
  exact Option.ext hsome

theorem glances (h : Akin a b) {es : Table Ref} (hes : ∀ e ∈ es, e.2.InBounds a.size) :
    b.glances es = a.glances es :=
  List.map_congr_left fun e he => by rw [h.glance_ref (hes e he)]

end Objects.Akin

/-! ### Copies -/

namespace Graph
variable {a o : Objects}

theorem akin_append (a source : Objects) :
    Objects.Akin a (a ++ source.map (Shape.shift a.size)) where
  size := by
    rw [Array.size_append]
    exact Nat.le_add_right _ _
  glance := fun hi => by rw [Objects.shape_append_left hi]

theorem akin_copyIn (o : Objects) (r : Ref) (a : Objects) : Objects.Akin a (copyIn o r a).2 := by
  cases r with
  | value v => exact .refl a
  | object i => exact akin_append a o

theorem glance_copyIn (o : Objects) (r : Ref) (a : Objects) :
    (copyIn o r a).1.glance (copyIn o r a).2 = r.glance o := by
  cases r with
  | value v => rfl
  | object i =>
    show ((a ++ o.map (Shape.shift a.size)).shape (a.size + i)).glance = (o.shape i).glance
    rw [Objects.shape_append_right, Shape.glance_shift]

theorem inBounds_copyIn {r : Ref} (h : r.InBounds o.size) (a : Objects) :
    (copyIn o r a).1.InBounds (copyIn o r a).2.size := by
  cases r with
  | value v => exact nofun
  | object i =>
    intro j hj
    cases hj
    have hi := h i rfl
    simp only [copyIn, Array.size_append, Array.size_map]
    omega

theorem size_putCopy (o : Objects) (i : Nat) (k : Value) (r : Ref) (a : Objects) :
    (putCopy o i k r a).size = (copyIn o r a).2.size := by
  rw [putCopy_eq, Array.size_setIfInBounds]

/-- A dict in which something is put is still a dict. -/
theorem akin_set {i : Nat} (h : a.shape i = .dict (a.entries i)) (es : Table Ref) :
    Objects.Akin a (a.setIfInBounds i (.dict es)) where
  size := Nat.le_of_eq Array.size_setIfInBounds.symm
  glance := by
    intro j hj
    by_cases hji : j = i
    · subst hji
      rw [Objects.shape_set_self hj, h]
      rfl
    · rw [Objects.shape_set_of_ne hji]

theorem akin_copied {i : Nat} (h : (Ref.object i).dict? a = some i) (k : Value) (r : Ref) :
    Objects.Akin (copyIn o r a).2 (putCopy o i k r a) := by
  have hdict : (Ref.object i).dict? (copyIn o r a).2 = some i := by
    rwa [(akin_copyIn o r a).dict? fun j hj => Ref.object.inj hj ▸ Ref.lt_size_of_dict? h]
  rw [putCopy_eq]
  exact akin_set (Ref.dict?_eq_some_iff.1 hdict).2 _

theorem akin_putCopy {i : Nat} (h : (Ref.object i).dict? a = some i) (k : Value) (r : Ref) :
    Objects.Akin a (putCopy o i k r a) :=
  (akin_copyIn o r a).trans (akin_copied h k r)

end Graph
end MigrationSetup
