import MigrationSetup.Document
import MigrationSetup.Proofs.Layering

/-! Documents without double keys.

A tidy graph holds no key twice, and refers to nothing that is not there. Without names it
is tidy still, and so is the value that it then unfolds to (`Graph.Tidy.anonymous`,
`Graph.Tidy.unfold`). -/
namespace MigrationSetup

/-- A value that is no dict. A result that is no number has one of the first `n` names. -/
structure Value.Scalar (n : Nat) (v : Value) : Prop where
  plain : ∀ es, v ≠ .dict es
  named : v.name ≤ n

/-- A value that holds no key, with no name beyond `n`, or one of `m` objects. -/
structure Ref.Tidy (m n : Nat) (r : Ref) : Prop where
  value : ∀ v, r = .value v → v.Scalar n
  object : ∀ i, r = .object i → i < m

/-- A dict without double keys, or something else, with no name beyond `n` and none but `m`
objects. -/
def Shape.Tidy (m n : Nat) : Shape → Prop
  | .list items => ∀ r ∈ items, r.Tidy m n
  | .pairs items => ∀ p ∈ items, p.1.Tidy m n ∧ p.2.Tidy m n
  | .dict es => Table.Distinct es ∧ ∀ e ∈ es, e.1.name ≤ n ∧ e.2.Tidy m n
  | .set items => ∀ v ∈ items, v.name ≤ n

theorem Ref.tidy_value {m n : Nat} {v : Value} (h : v.Scalar n) : (Ref.value v).Tidy m n where
  value := fun _ hv => Ref.value.inj hv ▸ h
  object := nofun

/-- All objects of a graph are tidy, with no name beyond `n`. -/
structure Graph.Tidy (n : Nat) (g : Graph) : Prop where
  objects : ∀ {id : Nat} {x : Shape}, g.objects[id]? = some x → x.Tidy g.objects.size n
  root : g.root.Tidy g.objects.size n

theorem Graph.Tidy.shape {n : Nat} {g : Graph} (h : g.Tidy n) (id : Nat) :
    (g.objects.shape id).Tidy g.objects.size n := by
  unfold Objects.shape
  cases hx : g.objects[id]? with
  | none => exact nofun
  | some x => exact h.objects hx

/-- A document without double keys. A plain one has no names, and a graph no more names than
objects. -/
def Document.Tidy : Document → Prop
  | .plain v => v.Tidy
  | .shared g => g.Tidy g.objects.size

/-! ### From objects to values -/

namespace Value

/-- A value without its name, if it has one. -/
def anonymous (v : Value) : Value := v.renamed fun _ => .float .nan

theorem anonymous_eq (v : Value) : v.anonymous = v ∨ v.anonymous = .float .nan := by
  cases v with
  | nan n =>
    cases n with
    | zero => exact .inl rfl
    | succ n => exact .inr rfl
  | _ => exact .inl rfl

theorem name_anonymous (v : Value) : v.anonymous.name = 0 := by
  cases v with
  | nan n => cases n <;> rfl
  | _ => rfl

theorem Scalar.anonymous {n : Nat} {v : Value} (h : v.Scalar n) : v.anonymous.Scalar 0 := by
  constructor
  · rcases v.anonymous_eq with hv | hv
    · rw [hv]
      exact h.plain
    · rw [hv]
      exact nofun
  · exact Nat.le_of_eq v.name_anonymous

/-- Two keys do not become one without their names, since what is no number and has no name
is the same key as nothing. -/
theorem sameKey_anonymous {k l : Value} (h : sameKey k l = false) :
    sameKey k.anonymous l.anonymous = false := by
  have hnan (a : Value) : sameKey (.float .nan) a = false := rfl
  rcases k.anonymous_eq with hk | hk
  · rcases l.anonymous_eq with hl | hl
    · rw [hk, hl, h]
    · rw [hl, sameKey_comm, hnan]
  · rw [hk, hnan]

end Value

section
variable {m n : Nat}

theorem Ref.Tidy.anonymous {r : Ref} (h : r.Tidy m n) :
    (r.renamed fun _ => .float .nan).Tidy m 0 := by
  cases r with
  | object id => exact ⟨nofun, h.object⟩
  | value v => exact Ref.tidy_value (h.value v rfl).anonymous

theorem Shape.Tidy.anonymous {x : Shape} (h : x.Tidy m n) :
    (x.renamed fun _ => .float .nan).Tidy m 0 := by
  cases x with
  | list items => exact List.forall_mem_map.2 fun r hr => (h r hr).anonymous
  | pairs items =>
    exact List.forall_mem_map.2 fun p hp => ⟨(h p hp).1.anonymous, (h p hp).2.anonymous⟩
  | dict es =>
    constructor
    · exact List.pairwise_map.2 (h.1.imp Value.sameKey_anonymous)
    · exact List.forall_mem_map.2 fun e he =>
        ⟨Nat.le_of_eq (Value.name_anonymous e.1), (h.2 e he).2.anonymous⟩
  | set items => exact List.forall_mem_map.2 fun v _ => Nat.le_of_eq (Value.name_anonymous v)

theorem Graph.Tidy.anonymous {g : Graph} (h : g.Tidy n) : g.anonymous.Tidy 0 := by
  have hsize : g.anonymous.objects.size = g.objects.size := Array.size_map
  constructor
  · intro id x hx
    obtain ⟨y, hy, rfl⟩ := Option.map_eq_some_iff.1 (Array.getElem?_map ▸ hx)
    rw [hsize]
    exact (h.objects hy).anonymous
  · rw [hsize]
    exact h.root.anonymous

end

theorem Ref.unfoldIn_tidy {objects : Objects} {m : Nat} (h : ∀ id, (objects.shape id).Tidy m 0)
    (fuel : Nat) (path : List Nat) {r : Ref} (hr : r.Tidy m 0) :
    (r.unfoldIn objects fuel path).Tidy := by
  have hface (id : Nat) : (objects.shape id).face.Tidy := by
    cases objects.shape id <;> exact .other nofun rfl
  have hvalue (v : Value) (hv : v.Scalar 0) : v.Tidy :=
    .other hv.plain (Nat.le_zero.1 hv.named)
  induction fuel generalizing path r with
  | zero =>
    cases r with
    | value v => exact hvalue v (hr.value v rfl)
    | object id => exact hface id
  | succ fuel ih =>
    cases r with
    | value v => exact hvalue v (hr.value v rfl)
    | object id =>
      rw [unfoldIn]
      split
      · exact hface id
      · have hid := h id
        cases hs : objects.shape id with
        | dict es =>
          rw [hs] at hid
          refine .dict (List.pairwise_map.2 hid.1) ?_ ?_
          · exact List.forall_mem_map.2 fun e he => Nat.le_zero.1 (hid.2 e he).1
          · exact List.forall_mem_map.2 fun e he => ih _ (hid.2 e he).2
        | _ => exact .other nofun rfl

theorem Graph.Tidy.unfold {g : Graph} (h : g.Tidy 0) : g.unfold.Tidy :=
  Ref.unfoldIn_tidy h.shape _ _ h.root

end MigrationSetup
