import MigrationSetup.Proofs.Copying
import MigrationSetup.Proofs.Overlay
import MigrationSetup.Proofs.Tidy
import MigrationSetup.Proofs.Unfolding

/-! What shared parts mean.

An object that stands in several places means in each of them what a copy there would mean:
the value that it unfolds to, without names (`Ref.meaning`). Where nothing holds itself
(`Ref.Grounded`) this is made of what its parts mean (`Ref.meaning_object`). So it depends on
no object but those below (`Ref.Grounded.frame`), and copies mean what they are copies of
(`Ref.Grounded.copied`). -/
namespace MigrationSetup

/-! ### Parts -/

/-- The parts of an object, each with its key if it stands under one. -/
def Shape.held : Shape → List (Option Value × Ref)
  | .list items => items.map fun r => (none, r)
  | .pairs items => items.flatMap fun p => [(none, p.1), (none, p.2)]
  | .dict es => es.map fun e => (some e.1, e.2)
  | .set _ => []

/-- The value of an object whose parts mean `part`. -/
def Shape.meant (part : Ref → Value) : Shape → Value
  | .list items => .list (items.map part)
  | .pairs items => .list (items.map fun p => .tuple [part p.1, part p.2])
  | .dict es => .dict (es.map fun e => (e.1.anonymous, part e.2))
  | .set items => .set (items.map Value.anonymous)

/-- Whatever a reference leads to comes to an end. -/
inductive Ref.Grounded (a : Objects) : Ref → Prop
  | value (v : Value) : Grounded a (.value v)
  | object {i : Nat} (parts : ∀ e ∈ (a.shape i).held, Grounded a e.2) : Grounded a (.object i)

/-- Parts that lead from one object down to another, by their keys. -/
inductive Objects.Way (a : Objects) : Nat → List (Option Value) → Nat → Prop
  | here (i : Nat) : Way a i [] i
  | within {i c j : Nat} {k : Option Value} {path : List (Option Value)}
      (mem : (k, .object c) ∈ (a.shape i).held) (below : Way a c path j) : Way a i (k :: path) j

/-- The objects without names. -/
def Objects.anonymous (a : Objects) : Objects := a.map (Shape.renamed fun _ => .float .nan)

/-- The value that a reference stands for, wherever it stands. -/
def Ref.meaning (a : Objects) (r : Ref) : Value :=
  (r.renamed fun _ => .float .nan).unfold a.anonymous

/-- What entries mean. -/
def Objects.meanings (a : Objects) (es : Table Ref) : Entries :=
  es.map fun e => (e.1.anonymous, e.2.meaning a)

variable {a b o : Objects} {r : Ref} {i j c n : Nat} {k : Option Value}

theorem Shape.meant_congr {f g : Ref → Value} {x : Shape} (h : ∀ e ∈ x.held, f e.2 = g e.2) :
    x.meant f = x.meant g := by
  cases x with
  | list items =>
    exact congrArg Value.list (List.map_congr_left fun r hr => h _ (List.mem_map_of_mem hr))
  | pairs items =>
    refine congrArg Value.list (List.map_congr_left fun p hp => ?_)
    have hpart (r : Ref) (hr : r = p.1 ∨ r = p.2) : f r = g r :=
      h (none, r) (List.mem_flatMap.2 ⟨p, hp, by rcases hr with rfl | rfl <;> simp⟩)
    rw [hpart _ (.inl rfl), hpart _ (.inr rfl)]
  | dict es =>
    refine congrArg Value.dict (List.map_congr_left fun e he => ?_)
    rw [h (some e.1, e.2) (List.mem_map_of_mem he)]
  | set items => rfl

/-- What an object holds that is a copy of another one. -/
theorem Shape.held_shift (n : Nat) (x : Shape) :
    (x.shift n).held = x.held.map fun e => (e.1, e.2.shift n) := by
  cases x <;> simp [shift, held, List.map_map, List.map_flatMap, List.flatMap_map]

theorem Shape.held_renamed (name : Nat → Value) (x : Shape) :
    (x.renamed name).held =
      x.held.map fun e => (e.1.map (Value.renamed name), e.2.renamed name) := by
  cases x <;> simp [renamed, held, List.map_map, List.map_flatMap, List.flatMap_map]

theorem Shape.meant_shift (f : Ref → Value) (n : Nat) (x : Shape) :
    (x.shift n).meant f = x.meant fun r => f (r.shift n) := by
  cases x <;> simp [shift, meant]

namespace Objects

theorem mem_held_of_entries {e : Value × Ref} (h : e ∈ a.entries i) :
    (some e.1, e.2) ∈ (a.shape i).held := by
  rw [entries] at h
  cases hs : a.shape i with
  | dict es =>
    rw [hs] at h
    exact List.mem_map_of_mem h
  | _ =>
    rw [hs] at h
    cases h

theorem lt_size_of_held {e : Option Value × Ref} (h : e ∈ (a.shape i).held) : i < a.size := by
  refine Nat.lt_of_not_ge fun hle => ?_
  rw [shape, Array.getElem?_eq_none hle] at h
  cases h

theorem Way.trans {path path' : List (Option Value)} (h : a.Way i path c) (h' : a.Way c path' j) :
    a.Way i (path ++ path') j := by
  induction h with
  | here => exact h'
  | within mem _ ih => exact .within mem (ih h')

end Objects

namespace Ref.Grounded

theorem part {e : Option Value × Ref} (h : Grounded a (.object i)) (he : e ∈ (a.shape i).held) :
    Grounded a e.2 := by
  cases h with
  | object parts => exact parts e he

theorem entry {e : Value × Ref} (h : Grounded a (.object i)) (he : e ∈ a.entries i) :
    Grounded a e.2 :=
  h.part (Objects.mem_held_of_entries he)

/-- Nothing leads back from a part. -/
theorem no_return (h : Grounded a (.object i)) (hc : (k, .object c) ∈ (a.shape i).held)
    {path : List (Option Value)} : ¬a.Way c path i := by
  generalize hr : Ref.object i = r at h
  induction h generalizing i k c path with
  | value v => cases hr
  | @object j parts ih =>
    cases hr
    -- What leads back leads on to the part again, to which nothing leads back.
    intro hway
    cases hway with
    | here => exact ih _ hc hc rfl (.here _)
    | within mem below => exact ih _ hc mem rfl (below.trans (.within hc (.here c)))

theorem way_self (h : Grounded a (.object i)) {way : List (Option Value)} (hw : a.Way i way i) :
    way = [] := by
  cases hw with
  | here => rfl
  | within mem below => exact absurd below (h.no_return mem)

end Ref.Grounded

/-! ### What objects mean -/

theorem Objects.unfoldIn_anonymous {path : List Nat} (hnew : path.contains i = false)
    (fuel : Nat) : (Ref.object i).unfoldIn a.anonymous (fuel + 1) path =
      (a.shape i).meant fun r =>
        (r.renamed fun _ => .float .nan).unfoldIn a.anonymous fuel (i :: path) := by
  simp only [Ref.unfoldIn, hnew, Bool.false_eq_true, if_false]
  rw [anonymous, shape_renamed]
  cases a.shape i <;> simp [Shape.renamed, Shape.meant, Value.anonymous]

theorem Objects.size_anonymous (a : Objects) : a.anonymous.size = a.size := Array.size_map

namespace Ref

/-- Inside the objects of a path, to which nothing leads back, a reference unfolds to what it
means, if there is fuel for the objects that are left. -/
def Settled (a : Objects) (r : Ref) : Prop :=
  ∀ {fuel : Nat} {path : List Nat}, Trail a.size path → a.size < fuel + path.length →
    (∀ j ∈ path, ∀ c way, r = .object c → ¬a.Way c way j) →
      (r.renamed fun _ => .float .nan).unfoldIn a.anonymous fuel path = r.meaning a

/-- No object comes twice on a path, so the fuel lasts. -/
theorem Settled.object (h : Grounded a (.object i)) (parts : ∀ e ∈ (a.shape i).held, Settled a e.2)
    {fuel : Nat} {path : List Nat} (ht : Trail a.size path) (hf : a.size < fuel + path.length)
    (hapart : ∀ j ∈ path, ∀ way, ¬a.Way i way j) :
    (Ref.object i).unfoldIn a.anonymous fuel path = (a.shape i).meant (meaning a) := by
  have hlen := ht.length_le
  obtain ⟨fuel, rfl⟩ : ∃ n, fuel = n + 1 := ⟨fuel - 1, by omega⟩
  have hnew : path.contains i = false := by
    rw [← Bool.not_eq_true, List.contains_iff_mem]
    exact fun hm => hapart i hm [] (.here i)
  rw [Objects.unfoldIn_anonymous hnew]
  refine Shape.meant_congr fun e he => ?_
  refine parts e he (ht.cons (Objects.lt_size_of_held he) hnew) ?_ ?_
  · rw [List.length_cons]
    omega
  · obtain ⟨k, s⟩ := e
    refine List.forall_mem_cons.2 ⟨?_, ?_⟩
    · rintro c way rfl
      exact h.no_return he
    · rintro j hj c way rfl hway
      exact hapart j hj _ (.within he hway)

theorem meaning_eq (a : Objects) (i : Nat) :
    (Ref.object i).meaning a = (Ref.object i).unfoldIn a.anonymous (a.size + 1) [] := by
  rw [meaning, unfold, a.size_anonymous]
  rfl

theorem Grounded.settled (h : Grounded a r) : Settled a r := by
  induction h with
  | value v =>
    intro fuel path _ _ _
    cases fuel <;> rfl
  | @object i parts ih =>
    have hgrounded : Grounded a (.object i) := .object parts
    intro fuel path ht hf hapart
    rw [meaning_eq, Settled.object hgrounded ih ⟨.nil, nofun⟩ (Nat.lt_succ_self _) nofun]
    exact Settled.object hgrounded ih ht hf fun j hj way => hapart j hj i way rfl

/-- What an object means is made of what its parts mean. -/
theorem meaning_object (h : Grounded a (.object i)) :
    (Ref.object i).meaning a = (a.shape i).meant (meaning a) := by
  rw [meaning_eq]
  exact Settled.object h (fun e he => (h.part he).settled) ⟨.nil, nofun⟩ (Nat.lt_succ_self _) nofun

theorem meaning_dict (h : Grounded a r) (hr : r.dict? a = some i) :
    r.meaning a = .dict (a.meanings (a.entries i)) := by
  obtain ⟨rfl, hs⟩ := dict?_eq_some_iff.1 hr
  rw [meaning_object h, hs]
  rfl

/-- What is no dict does not mean one. -/
theorem meaning_other (h : Grounded a r) (hr : r.dict? a = none)
    (hv : ∀ es, r ≠ .value (.dict es)) : ∀ es, r.meaning a ≠ .dict es := by
  intro es hes
  cases r with
  | value v =>
    rcases v.anonymous_eq with hanon | hanon
    · exact hv es (congrArg Ref.value (hanon.symm.trans hes))
    · cases hanon.symm.trans hes
  | object i =>
    rw [meaning_object h] at hes
    rw [dict?] at hr
    cases hs : a.shape i <;> simp_all [Shape.meant]

theorem kind_meaning (h : Grounded a r) : (r.meaning a).kind = (r.face a).kind := by
  cases r with
  | value v =>
    cases v with
    | nan n => cases n <;> rfl
    | _ => rfl
  | object i =>
    rw [meaning_object h, face]
    cases a.shape i <;> rfl

/-! ### Objects that others are like -/

/-- What an object means depends on no object but those below it. -/
theorem Grounded.frame (h : Grounded a r)
    (hsame : ∀ i way j, r = .object i → a.Way i way j → b.shape j = a.shape j) :
    Grounded b r ∧ r.meaning b = r.meaning a := by
  induction h with
  | value v => exact ⟨.value v, rfl⟩
  | @object i parts ih =>
    have hshape : b.shape i = a.shape i := hsame i [] i rfl (.here i)
    have hpart (e) (he : e ∈ (a.shape i).held) :
        Grounded b e.2 ∧ e.2.meaning b = e.2.meaning a := by
      refine ih e he fun c way j hc hway => ?_
      obtain ⟨k, s⟩ := e
      cases hc
      exact hsame i (k :: way) j rfl (.within he hway)
    have hgrounded : Grounded b (.object i) := .object (hshape ▸ fun e he => (hpart e he).1)
    refine ⟨hgrounded, ?_⟩
    rw [meaning_object hgrounded, meaning_object (.object parts), hshape]
    exact Shape.meant_congr fun e he => (hpart e he).2

/-- Behind `n` others a copy means what it is a copy of. -/
theorem Grounded.copied (h : Grounded o r) (hcopy : ∀ m, b.shape (n + m) = (o.shape m).shift n) :
    Grounded b (r.shift n) ∧ (r.shift n).meaning b = r.meaning o := by
  induction h with
  | value v => exact ⟨.value v, rfl⟩
  | @object i parts ih =>
    have hgrounded : Grounded b (.object (n + i)) := by
      refine .object ?_
      rw [hcopy, Shape.held_shift]
      exact List.forall_mem_map.2 fun e he => (ih e he).1
    refine ⟨hgrounded, ?_⟩
    show (Ref.object (n + i)).meaning b = _
    rw [meaning_object hgrounded, meaning_object (.object parts), hcopy, Shape.meant_shift]
    exact Shape.meant_congr fun e he => (ih e he).2

end Ref

/-! ### Names -/

theorem Ref.Grounded.renamed (h : r.Grounded a) (name : Nat → Value) :
    (r.renamed name).Grounded (a.map (Shape.renamed name)) := by
  induction h with
  | value v => exact .value _
  | @object i parts ih =>
    refine .object ?_
    rw [Objects.shape_renamed, Shape.held_renamed]
    exact List.forall_mem_map.2 fun e he => ih e he

theorem Value.anonymous_renamed (v : Value) (n : Nat) :
    (v.renamed fun m => .nan (m + 1 + n)).anonymous = v.anonymous := by
  cases v with
  | nan m =>
    cases m with
    | zero => rfl
    | succ m =>
      show (Value.nan (m + 1 + n)).anonymous = _
      rw [Nat.add_right_comm]
      rfl
  | _ => rfl

theorem Ref.anonymous_renamed (r : Ref) (n : Nat) :
    ((r.renamed fun m => .nan (m + 1 + n)).renamed fun _ => .float .nan) =
      r.renamed fun _ => .float .nan := by
  cases r with
  | value v => exact congrArg Ref.value (v.anonymous_renamed n)
  | object i => rfl

theorem Shape.anonymous_renamed (x : Shape) (n : Nat) :
    ((x.renamed fun m => .nan (m + 1 + n)).renamed fun _ => .float .nan) =
      x.renamed fun _ => .float .nan := by
  have hvalue (v : Value) := v.anonymous_renamed n
  simp only [Value.anonymous] at hvalue
  cases x <;> simp [renamed, Ref.anonymous_renamed, hvalue]

/-- Names that are set apart say as little as the others. -/
theorem Ref.meaning_apart (g : Graph) (n : Nat) (r : Ref) :
    (r.renamed fun m => .nan (m + 1 + n)).meaning (g.apart n).objects = r.meaning g.objects := by
  have hobjects : (g.apart n).objects.anonymous = g.objects.anonymous := by
    simp only [Objects.anonymous, Graph.apart, Graph.renamed, Array.map_map, Function.comp_def,
      Shape.anonymous_renamed]
  rw [meaning, meaning, hobjects, anonymous_renamed]

theorem Objects.meanings_apart (g : Graph) (n i : Nat) :
    (g.apart n).objects.meanings ((g.apart n).objects.entries i) =
      g.objects.meanings (g.objects.entries i) := by
  simp only [meanings, Graph.entries_apart, List.map_map, Function.comp_def,
    Value.anonymous_renamed, Ref.meaning_apart]

theorem Value.nameless_anonymous (v : Value) : v.anonymous.nameless = v.nameless := by
  cases v with
  | nan n => cases n <;> rfl
  | _ => rfl

theorem Ref.nameless_unfoldIn (a : Objects) (fuel : Nat) (path : List Nat) (r : Ref) :
    ((r.renamed fun _ => .float .nan).unfoldIn a.anonymous fuel path).nameless =
      (r.unfoldIn a fuel path).nameless := by
  have hface (i : Nat) : (a.anonymous.shape i).face = (a.shape i).face := by
    rw [Objects.anonymous, Objects.shape_renamed]
    cases a.shape i <;> rfl
  induction fuel generalizing path r with
  | zero =>
    cases r with
    | value v => exact v.nameless_anonymous
    | object i => exact congrArg Value.nameless (hface i)
  | succ fuel ih =>
    cases r with
    | value v => exact v.nameless_anonymous
    | object i =>
      show ((Ref.object i).unfoldIn _ _ _).nameless = _
      cases hnew : path.contains i with
      | true => simp only [unfoldIn, hnew, if_true, hface]
      | false =>
        rw [Objects.unfoldIn_anonymous hnew]
        simp only [unfoldIn, hnew, Bool.false_eq_true, if_false]
        cases a.shape i with
        | list items =>
          exact congrArg Value.list (Value.namelessAll_eq (forall₂_map_same fun r _ => ih _ r))
        | pairs items =>
          refine congrArg Value.list (Value.namelessAll_eq (forall₂_map_same fun p _ => ?_))
          simp only [Value.nameless, Value.namelessAll, ih]
        | dict es =>
          exact congrArg Value.dict (Value.namelessEntries_eq (forall₂_map_same fun e _ =>
            ⟨e.1.nameless_anonymous, ih _ e.2⟩))
        | set items =>
          exact congrArg Value.set (Value.namelessAll_eq (List.forall₂_map_left_iff.2
            (List.forall₂_same.2 fun v _ => v.nameless_anonymous)))

/-- An object unfolds to what it means, but for names. -/
theorem Ref.nameless_meaning (a : Objects) (r : Ref) :
    (r.meaning a).nameless = (r.unfold a).nameless := by
  rw [meaning, unfold, unfold, a.size_anonymous, nameless_unfoldIn]

end MigrationSetup
