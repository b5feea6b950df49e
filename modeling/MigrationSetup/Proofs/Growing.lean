import MigrationSetup.Proofs.Joining
import MigrationSetup.Proofs.Meaning

/-! Objects while a merge goes on.

A merge adds copies, and these hold none of the objects that were there. So the ways between
objects of the base are never more than they were (`Objects.Grows.way`). A copy that is put
under a key means there what it means in the override, and what stands under the other keys
means what it meant (`Graph.Follows.putCopy`). -/
namespace MigrationSetup

/-! ### Entries without names -/

namespace Value
variable {k l : Value}

theorem anonymous_of_nameless {v : Value} (h : v.name = 0) : v.anonymous = v := by
  cases v with
  | nan n =>
    cases n with
    | zero => rfl
    | succ n => cases h
  | _ => rfl

/-- A key without a name is the same key as others whether these have names or not. -/
theorem sameKey_nameless (hk : k.name = 0) : sameKey l.anonymous k.anonymous = sameKey l k := by
  rw [anonymous_of_nameless hk]
  cases l with
  | nan n =>
    cases n with
    | zero => rfl
    | succ n =>
      refine Eq.symm (Bool.eq_false_iff.2 fun hs => ?_)
      rw [eq_of_sameKey_nan hs] at hk
      cases hk
  | _ => rfl

theorem spelled_anonymous (v : Value) : v.anonymous.spelled = v.spelled := by
  cases v with
  | nan n => cases n <;> rfl
  | _ => rfl

theorem hasLong_anonymous (v : Value) : v.anonymous.hasLong = v.hasLong := by
  cases v with
  | nan n => cases n <;> rfl
  | _ => rfl

end Value

namespace Objects
variable {a b : Objects} {t : Table Ref} {k : Value}

/-- A key that has no name, or that is not there, is found or not found without names as well. -/
theorem sameKey_anonymous (hk : k.name = 0 ∨ t.get? k = none) {e : Value × Ref} (he : e ∈ t) :
    Value.sameKey e.1.anonymous k.anonymous = Value.sameKey e.1 k := by
  rcases hk with hk | hk
  · exact Value.sameKey_nameless hk
  · have hne := Table.get?_eq_none_iff.1 hk e he
    rw [hne, Value.sameKey_anonymous hne]

theorem get?_meanings (hk : k.name = 0 ∨ t.get? k = none) :
    Table.get? k.anonymous (a.meanings t) = (t.get? k).map (Ref.meaning a) := by
  have hsame (e) (he : e ∈ t) := sameKey_anonymous hk he
  clear hk
  induction t with
  | nil => rfl
  | cons e t ih =>
    have hfirst := hsame e List.mem_cons_self
    show Table.get? k.anonymous ((e.1.anonymous, e.2.meaning a) :: a.meanings t) = _
    simp only [Table.get?, hfirst, ih fun e he => hsame e (List.mem_cons_of_mem _ he)]
    split <;> rfl

/-- If one entry changes its meaning and the others do not, the meanings change in that one. -/
theorem meanings_put {x : Ref} {v : Value} (hd : t.Distinct) (hk : k.name = 0 ∨ t.get? k = none)
    (hx : x.meaning b = v)
    (hrest : ∀ e ∈ t, Value.sameKey e.1 k = false → e.2.meaning b = e.2.meaning a) :
    b.meanings (t.put k x) = Table.put k.anonymous v (a.meanings t) := by
  have hsame (e) (he : e ∈ t) := sameKey_anonymous hk he
  clear hk
  induction t with
  | nil => exact congrArg (fun v => [(k.anonymous, v)]) hx
  | cons e t ih =>
    obtain ⟨l, y⟩ := e
    have hfirst := hsame _ List.mem_cons_self
    show _ = Table.put k.anonymous v ((l.anonymous, y.meaning a) :: a.meanings t)
    simp only [Table.put, hfirst]
    split
    · next hl =>
      -- No other entry stands under the key.
      refine List.cons_eq_cons.2 ⟨Prod.ext rfl hx, List.map_congr_left fun e he => ?_⟩
      have hne := (List.pairwise_cons.1 hd).1 e he
      rw [hrest e (List.mem_cons_of_mem _ he)]
      rw [← Bool.not_eq_true]
      intro hek
      rw [Value.sameKey_comm] at hek
      rw [Value.sameKey_trans hl hek] at hne
      cases hne
    · next hl =>
      refine List.cons_eq_cons.2 ⟨Prod.ext rfl ?_, ih hd.tail (fun e he => ?_) fun e he => ?_⟩
      · exact hrest _ List.mem_cons_self (Bool.eq_false_iff.2 hl)
      · exact hrest e (List.mem_cons_of_mem _ he)
      · exact hsame e (List.mem_cons_of_mem _ he)

/-! ### New objects -/

/-- What objects hold is there, and any dict among it is an object. -/
structure Sound (a : Objects) : Prop where
  bounds : ∀ i, ∀ e ∈ (a.shape i).held, e.2.InBounds a.size
  plain : ∀ i, ∀ e ∈ (a.shape i).held, ∀ es, e.2 ≠ .value (.dict es)

/-- The objects of `A` are all there. They hold no more of one another than they did, and new
objects hold none of them. -/
structure Grows (A a : Objects) : Prop where
  size : A.size ≤ a.size
  old : ∀ {i c k}, c < A.size → (k, .object c) ∈ (a.shape i).held →
    (k, .object c) ∈ (A.shape i).held

variable {A : Objects} {i j c : Nat} {path : List (Option Value)}

theorem Sound.way (h : a.Sound) (hi : i < a.size) (hw : a.Way i path j) : j < a.size := by
  induction hw with
  | here => exact hi
  | within mem _ ih => exact ih (h.bounds _ _ mem _ rfl)

theorem Grows.refl (A : Objects) : Grows A A := ⟨Nat.le_refl _, fun _ => id⟩

/-- No way leads from new objects to those of `A`, and so none that is new leads between these. -/
theorem Grows.way (h : Grows A a) (hj : j < A.size) (hw : a.Way i path j) : A.Way i path j := by
  induction hw with
  | here => exact .here _
  | @within i c j k path mem below ih =>
    have hbelow := ih hj
    have hc : c < A.size := by
      cases hbelow with
      | here => exact hj
      | within mem' => exact lt_size_of_held mem'
    exact .within (h.old hc mem) hbelow

end Objects

namespace Graph
variable {A o a : Objects} {i j m n c : Nat} {k : Value} {r : Ref}

/-! ### Copies -/

theorem fst_copyIn (o : Objects) (r : Ref) (a : Objects) :
    (copyIn o r a).1 = r.shift a.size := by
  cases r <;> rfl

theorem eq_object_of_shift {s : Ref} (h : s.shift n = .object c) :
    ∃ d, s = .object d ∧ c = n + d := by
  cases s with
  | value v => cases h
  | object d => exact ⟨d, rfl, (Ref.object.inj h).symm⟩

theorem eq_value_of_shift {s : Ref} {v : Value} (h : s.shift n = .value v) : s = .value v := by
  cases s with
  | value w => exact h
  | object d => cases h

/-- What is copied along with a reference: it itself, and with an object all that is held. -/
inductive Along (o : Objects) (r : Ref) : Ref → Prop
  | self : Along o r r
  | held {d n : Nat} {f : Option Value × Ref} (object : r = .object d)
    (mem : f ∈ (o.shape n).held) : Along o r f.2

/-- What objects hold once a copy was added is what they held, or else it was copied. -/
theorem held_copyIn {e : Option Value × Ref} (h : e ∈ ((copyIn o r a).2.shape m).held) :
    e ∈ (a.shape m).held ∨ ∃ s, Along o r s ∧ e.2 = s.shift a.size := by
  cases r with
  | value v => exact .inl h
  | object d =>
    by_cases hm : m < a.size
    · exact .inl (Objects.shape_append_left hm _ ▸ h)
    · obtain ⟨n, rfl⟩ : ∃ n, m = a.size + n := ⟨m - a.size, by omega⟩
      rw [copyIn, Objects.shape_append_right, Shape.held_shift] at h
      obtain ⟨f, hf, rfl⟩ := List.mem_map.1 h
      exact .inr ⟨f.2, .held rfl hf, rfl⟩

theorem held_putCopy {e : Option Value × Ref} (h : e ∈ ((putCopy o i k r a).shape m).held) :
    e ∈ (a.shape m).held ∨ ∃ s, Along o r s ∧ e.2 = s.shift a.size := by
  by_cases hm : m = i ∧ i < (copyIn o r a).2.size
  · obtain ⟨rfl, hlt⟩ := hm
    rw [putCopy_eq, Objects.shape_set_self hlt, fst_copyIn] at h
    obtain ⟨f, hf, rfl⟩ := List.mem_map.1 h
    rcases Table.mem_put hf with hf | ⟨hf, -⟩
    · exact held_copyIn (Objects.mem_held_of_entries hf)
    · exact .inr ⟨r, .self, hf⟩
  · have hsame : (putCopy o i k r a).shape m = (copyIn o r a).2.shape m := by
      rw [putCopy_eq]
      by_cases hmi : m = i
      · rw [Array.setIfInBounds_eq_of_size_le (Nat.le_of_not_lt fun hlt => hm ⟨hmi, hlt⟩)]
      · rw [Objects.shape_set_of_ne hmi]
    exact held_copyIn (hsame ▸ h)

theorem size_putCopy_object (d : Nat) :
    (putCopy o i k (.object d) a).size = a.size + o.size := by
  simp only [size_putCopy, copyIn, Array.size_append, Array.size_map]

theorem grows_putCopy (h : A.Grows a) (i : Nat) (k : Value) (r : Ref) :
    A.Grows (putCopy o i k r a) where
  size := Nat.le_trans h.size (size_putCopy_le o i k r a)
  old := by
    intro m c l hc hm
    rcases held_putCopy hm with hm | ⟨s, -, hs⟩
    · exact h.old hc hm
    · obtain ⟨d, -, hd⟩ := eq_object_of_shift hs.symm
      have := h.size
      omega

/-- What is copied stood in the override, and if it is an object, all objects were copied. -/
theorem Along.source {s : Ref} (h : Along o r s) {k : Value} (hr : (k, r) ∈ o.entries j) :
    (∃ n, ∃ f ∈ (o.shape n).held, f.2 = s) ∧ ∀ c, s = .object c → ∃ d, r = .object d := by
  cases h with
  | self => exact ⟨⟨j, _, Objects.mem_held_of_entries hr, rfl⟩, fun c hc => ⟨c, hc⟩⟩
  | held object mem => exact ⟨⟨_, _, mem, rfl⟩, fun _ _ => ⟨_, object⟩⟩

theorem sound_putCopy (h : a.Sound) (ho : o.Sound) {e : Value × Ref} (he : e ∈ o.entries j)
    (i : Nat) : (putCopy o i e.1 e.2 a).Sound where
  bounds := by
    intro m f hf c hc
    rcases held_putCopy hf with hf | ⟨s, hcopied, hs⟩
    · exact Nat.lt_of_lt_of_le (h.bounds m f hf c hc) (size_putCopy_le o i e.1 e.2 a)
    · obtain ⟨⟨n, g, hg, rfl⟩, hobject⟩ := hcopied.source he
      obtain ⟨c', hc', rfl⟩ := eq_object_of_shift (hs.symm.trans hc)
      obtain ⟨d, hd⟩ := hobject c' hc'
      rw [hd, size_putCopy_object]
      exact Nat.add_lt_add_left (ho.bounds n g hg c' hc') _
  plain := by
    intro m f hf es hes
    rcases held_putCopy hf with hf | ⟨s, hcopied, hs⟩
    · exact h.plain m f hf es hes
    · obtain ⟨⟨n, g, hg, rfl⟩, -⟩ := hcopied.source he
      exact ho.plain n g hg es (eq_value_of_shift (hs.symm.trans hes))

/-- In a merge that started from `A` the dict `i` is in order. -/
structure Follows (A : Objects) (i : Nat) (a : Objects) : Prop where
  grows : A.Grows a
  sound : a.Sound
  grounded : (Ref.object i).Grounded a

/-- A copy means under its key what it means in the override. -/
theorem Follows.putCopy (h : Follows A i a) (hi : (Ref.object i).dict? a = some i)
    (hd : Table.Distinct (a.entries i)) (ho : o.Sound) {e : Value × Ref} (he : e ∈ o.entries j)
    (hr : e.2.Grounded o) (hk : e.1.name = 0 ∨ Table.get? e.1 (a.entries i) = none) :
    Follows A i (putCopy o i e.1 e.2 a) ∧
      (Graph.putCopy o i e.1 e.2 a).meanings ((Graph.putCopy o i e.1 e.2 a).entries i) =
        Table.put e.1.anonymous (e.2.meaning o) (a.meanings (a.entries i)) := by
  have hlt := Ref.lt_size_of_dict? hi
  have hentries := entries_putCopy (o := o) hlt e.1 e.2
  rw [fst_copyIn] at hentries
  have hnew : (e.2.shift a.size).Grounded (Graph.putCopy o i e.1 e.2 a) ∧
      (e.2.shift a.size).meaning (Graph.putCopy o i e.1 e.2 a) = e.2.meaning o := by
    obtain ⟨k, r⟩ := e
    cases r with
    | value v => exact ⟨.value v, rfl⟩
    | object d =>
      refine hr.copied fun m => ?_
      rw [putCopy_eq, Objects.shape_set_of_ne (by omega)]
      exact Objects.shape_append_right a o m
  -- Nothing that the dict holds leads back to it, the only one that has changed.
  have hrest (f) (hf : f ∈ a.entries i) : f.2.Grounded (Graph.putCopy o i e.1 e.2 a) ∧
      f.2.meaning (Graph.putCopy o i e.1 e.2 a) = f.2.meaning a := by
    have hheld := Objects.mem_held_of_entries hf
    refine (h.grounded.entry hf).frame fun c way m hc hway => ?_
    obtain ⟨l, s⟩ := f
    cases hc
    refine shape_putCopy (h.sound.way (h.sound.bounds i _ hheld c rfl) hway) ?_ e.1 e.2
    rintro rfl
    exact h.grounded.no_return hheld hway
  refine ⟨⟨grows_putCopy h.grows i e.1 e.2, sound_putCopy h.sound ho he i, .object ?_⟩, ?_⟩
  · rw [shape_putCopy_self hlt, fst_copyIn]
    refine List.forall_mem_map.2 fun f hf => ?_
    rcases Table.mem_put hf with hf | ⟨hf, -⟩
    · exact (hrest f hf).1
    · rw [hf]
      exact hnew.1
  · rw [hentries]
    exact Objects.meanings_put hd hk hnew.2 fun f hf _ => (hrest f hf).2

end Graph
end MigrationSetup
