import MigrationSetup.Load
import MigrationSetup.Proofs.Tidy

/-! What is read from a file holds no key twice.

A reader of either format enters keys one by one, and a key that comes again changes the
value of the first. So a document that was read is tidy all the way down
(`settingsFile_tidy`). For JSON this follows the text. In YAML the mappings are built one
after the other as objects, each with its keys entered one by one (`Build.State.Tidy`), and
no step of this enters a dict as a scalar; unfolding keeps it. A result that is no number
has the name of its node there, so no name goes beyond the number of objects. -/
namespace MigrationSetup

namespace Value

theorem Tidy.put {es : Entries} (h : Tidy (.dict es)) {k v : Value} (hk : k.name = 0)
    (hv : v.Tidy) : Tidy (.dict (Table.put k v es)) := by
  refine .dict (h.distinct.put k v) (fun e he => ?_) fun e he => ?_
  · rcases Table.mem_put he with he | ⟨-, he | he⟩
    · exact h.key he
    · rw [he, hk]
    · obtain ⟨f, hf, hfe⟩ := List.mem_map.1 he
      exact hfe ▸ h.key hf
  · rcases Table.mem_put he with he | ⟨he, -⟩
    · exact h.part he
    · exact he ▸ hv

theorem tidy_empty : Tidy (.dict []) := .dict .nil nofun nofun

end Value

/-! ### JSON -/

namespace Json

theorem numberTail_tidy {negative : Bool} {whole rest rest' : List Char} {v : Value}
    (h : numberTail negative whole rest = .ok (v, rest')) : v.Tidy := by
  simp only [numberTail] at h
  split at h
  · split at h
    · cases h
    · cases h
      exact .other nofun rfl
  · cases h
    exact .other nofun rfl

theorem number_tidy {cs rest : List Char} {v : Value} (h : number cs = .ok (v, rest)) :
    v.Tidy := by
  simp only [number] at h
  split at h <;> split at h
  · exact numberTail_tidy h
  · split at h
    · cases h
    · exact numberTail_tidy h
  · exact numberTail_tidy h
  · split at h
    · cases h
    · exact numberTail_tidy h

mutual

theorem value_tidy : ∀ (fuel : Nat) {cs rest : List Char} {v : Value},
    value fuel cs = .ok (v, rest) → v.Tidy
  | 0, _, _, _, h => nomatch h
  | fuel + 1, cs, rest, v, h => by
    unfold value at h
    split at h
    · -- a text
      obtain ⟨⟨s, rest⟩, -, h⟩ := bind_eq_ok.1 h
      cases h
      exact .other nofun rfl
    · -- an object
      split at h
      · cases h
        exact Value.tidy_empty
      · obtain ⟨⟨es, rest⟩, hes, h⟩ := bind_eq_ok.1 h
        cases h
        exact members_tidy fuel hes Value.tidy_empty
    · -- an array
      split at h
      · cases h
        exact .other nofun rfl
      · obtain ⟨⟨vs, rest⟩, -, h⟩ := bind_eq_ok.1 h
        cases h
        exact .other nofun rfl
    case h_10 => exact number_tidy h
    all_goals
      cases h
      exact .other nofun rfl

theorem members_tidy : ∀ (fuel : Nat) {sofar es : Entries} {cs rest : List Char},
    members fuel sofar cs = .ok (es, rest) → Value.Tidy (.dict sofar) → Value.Tidy (.dict es)
  | 0, _, _, _, _, h, _ => nomatch h
  | fuel + 1, sofar, es, cs, rest, h, hs => by
    unfold members at h
    split at h
    · obtain ⟨⟨name, rest₁⟩, -, h⟩ := bind_eq_ok.1 h
      simp only at h
      split at h
      · obtain ⟨⟨v, rest₂⟩, hv, h⟩ := bind_eq_ok.1 h
        have hput := hs.put (k := .text name) rfl (value_tidy fuel hv)
        simp only at h
        split at h
        · cases h
          exact hput
        · exact members_tidy fuel h hput
        · cases h
      · cases h
    · cases h

end

theorem read_tidy {cs : List Char} {v : Value} (h : read cs = .ok v) : v.Tidy := by
  unfold read at h
  split at h
  · next w hw =>
    cases h
    unfold document at hw
    split at hw
    · cases hw
    · obtain ⟨⟨u, rest⟩, hu, hw⟩ := bind_eq_ok.1 hw
      simp only at hw
      split at hw
      · cases hw
        exact value_tidy _ hu
      · cases hw
  · cases h
  · cases h

end Json

/-! ### Scalars of YAML -/

namespace Yaml

theorem Numeral.float_scalar {text : Text} {v : Value} (h : float text = .ok v) :
    v.Scalar 0 := by
  simp only [float] at h
  split at h
  · cases h
  · split at h
    · cases h
      exact ⟨nofun, Nat.le_refl 0⟩
    · split at h
      · cases h
        exact ⟨nofun, Nat.le_refl 0⟩
      · split at h
        · obtain ⟨_, -, h⟩ := bind_eq_ok.1 h
          obtain ⟨_, -, h⟩ := bind_eq_ok.1 h
          cases h
          exact ⟨nofun, Nat.le_refl 0⟩
        · obtain ⟨_, -, h⟩ := bind_eq_ok.1 h
          cases h
          exact ⟨nofun, Nat.le_refl 0⟩

theorem Scalar.readStamp_scalar {text : Text} {v : Value} (h : readStamp text = .ok v) :
    v.Scalar 0 := by
  unfold readStamp at h
  split at h
  · cases h
  · obtain ⟨_, -, h⟩ := bind_eq_ok.1 h
    cases h
    exact ⟨nofun, Nat.le_refl 0⟩
  · obtain ⟨_, -, h⟩ := bind_eq_ok.1 h
    cases h
    exact ⟨nofun, Nat.le_refl 0⟩

theorem Scalar.read_scalar {tag : Tag} {text : Text} {v : Value}
    (h : Scalar.read tag text = .ok v) : v.Scalar 0 := by
  unfold Scalar.read at h
  split at h
  · cases h
    exact ⟨nofun, Nat.le_refl 0⟩
  · obtain ⟨b, -, rfl⟩ := map_eq_ok.1 h
    exact ⟨nofun, Nat.le_refl 0⟩
  · obtain ⟨n, -, rfl⟩ := map_eq_ok.1 h
    exact ⟨nofun, Nat.le_refl 0⟩
  · exact Numeral.float_scalar h
  · obtain ⟨bs, -, rfl⟩ := map_eq_ok.1 h
    exact ⟨nofun, Nat.le_refl 0⟩
  · exact Scalar.readStamp_scalar h
  · cases h
    exact ⟨nofun, Nat.le_refl 0⟩
  · cases h

namespace Build

/-! ### Steps that keep something -/

/-- From a state with `P` the step leads to one, with a result in `Q`. -/
def Keeps {α : Type} (P : State → Prop) (m : Step α) (Q : α → Prop) : Prop :=
  ∀ s a s', P s → m s = .ok (a, s') → P s' ∧ Q a

section Keeps
variable {α β : Type} {P : State → Prop} {Q : α → Prop} {R : β → Prop}

theorem keeps_pure {a : α} (h : Q a) : Keeps P (pure a) Q := by
  intro s b s' hs hm
  cases hm
  exact ⟨hs, h⟩

theorem keeps_throw {e : Fault} : Keeps P (throw e) Q := by
  intro s a s' hs hm
  cases hm

theorem keeps_bind {m : Step α} {f : α → Step β} (hm : Keeps P m Q)
    (hf : ∀ a, Q a → Keeps P (f a) R) : Keeps P (m >>= f) R := by
  intro s b s' hs h
  obtain ⟨⟨a, s₁⟩, ha, h⟩ := bind_eq_ok.1 h
  obtain ⟨hs₁, hq⟩ := hm _ _ _ hs ha
  exact hf a hq _ _ _ hs₁ h

theorem keeps_get : Keeps P get P := by
  intro s a s' hs hm
  cases hm
  exact ⟨hs, hs⟩

theorem keeps_set {s : State} (h : P s) : Keeps P (set s) fun _ => True := by
  intro _ _ _ _ hm
  cases hm
  exact ⟨h, trivial⟩

theorem keeps_modify {f : State → State} (h : ∀ s, P s → P (f s)) :
    Keeps P (modify f) fun _ => True := by
  intro s _ _ hs hm
  cases hm
  exact ⟨h s hs, trivial⟩

theorem keeps_lift {x : Except Fault α} (h : ∀ a, x = .ok a → Q a) :
    Keeps P (liftM x : Step α) Q := by
  intro s a s' hs hm
  cases x with
  | error e => cases hm
  | ok b =>
    cases hm
    exact ⟨hs, h _ rfl⟩

theorem keeps_mapM {f : α → Step β} {xs : List α} (h : ∀ x ∈ xs, Keeps P (f x) R) :
    Keeps P (xs.mapM f) fun ys => ∀ y ∈ ys, R y := by
  induction xs with
  | nil =>
    rw [List.mapM_nil]
    exact keeps_pure nofun
  | cons x xs ih =>
    rw [List.mapM_cons]
    refine keeps_bind (h x List.mem_cons_self) fun y hy =>
      keeps_bind (ih fun x hx => h x (List.mem_cons_of_mem _ hx)) fun ys hys => keeps_pure ?_
    exact List.forall_mem_cons.2 ⟨hy, hys⟩

theorem keeps_forM {f : α → Step PUnit} {xs : List α}
    (h : ∀ x ∈ xs, Keeps P (f x) fun _ => True) : Keeps P (xs.forM f) fun _ => True := by
  induction xs with
  | nil => exact keeps_pure trivial
  | cons x xs ih =>
    exact keeps_bind (h x List.mem_cons_self) fun _ _ =>
      ih fun x hx => h x (List.mem_cons_of_mem _ hx)

theorem keeps_foldlM {f : β → α → Step β} {xs : List α} {b : β}
    (h : ∀ b, R b → ∀ x ∈ xs, Keeps P (f b x) R) (hb : R b) : Keeps P (xs.foldlM f b) R := by
  induction xs generalizing b with
  | nil => exact keeps_pure hb
  | cons x xs ih =>
    rw [List.foldlM_cons]
    exact keeps_bind (h b hb x List.mem_cons_self) fun b hb =>
      ih (fun b hb x hx => h b hb x (List.mem_cons_of_mem _ hx)) hb

end Keeps

/-! ### References -/

/-- All that was built is tidy, and no name goes beyond the `n` nodes. -/
structure State.Tidy (n : Nat) (s : State) : Prop where
  table : s.table.size = n
  size : s.objects.size = n
  scalars : ∀ {id : Nat} {v : Value}, s.scalars[id]? = some (some v) → v.Scalar n
  objects : ∀ {id : Nat} {x : Shape}, s.objects[id]? = some x → x.Tidy n n

/-- A scalar has the name of its node, if it has one. -/
theorem scalar_scalar {table : Array Node} {id : Nat} {v : Value}
    (h : scalar table id = .ok v) : v.Scalar table.size := by
  simp only [scalar] at h
  split at h
  · cases h
  · next hknown =>
    have hid : id < table.size := by
      refine Nat.lt_of_not_ge fun hid => hknown ?_
      have hnone : table[id]? = none := Array.getElem?_eq_none hid
      rw [nodeAt, hnone]
      rfl
    obtain ⟨t, -, h⟩ := bind_eq_ok.1 h
    split at h
    · cases h
    · obtain ⟨w, hw, h⟩ := bind_eq_ok.1 h
      split at h
      · cases h
        exact ⟨nofun, hid⟩
      · cases h
        have hv := Scalar.read_scalar hw
        exact ⟨hv.plain, Nat.le_trans hv.named (Nat.zero_le _)⟩

variable {n : Nat}

theorem reference_tidy (id : Nat) : Keeps (State.Tidy n) (reference id) (Ref.Tidy n n) := by
  refine keeps_bind keeps_get fun s hs => ?_
  simp only
  split
  · next hcollection =>
    have hid : id < n := by
      refine Nat.lt_of_not_ge fun hid => ?_
      have hnone : s.table[id]? = none := Array.getElem?_eq_none (hs.table ▸ hid)
      rw [nodeAt, hnone] at hcollection
      cases hcollection
    have hobject : (Ref.object id).Tidy n n := ⟨nofun, fun i hi => Ref.object.inj hi ▸ hid⟩
    split
    · exact keeps_bind (keeps_set ⟨hs.table, hs.size, hs.scalars, hs.objects⟩) fun _ _ =>
        keeps_pure hobject
    · exact keeps_bind (keeps_set ⟨hs.table, hs.size, hs.scalars, hs.objects⟩) fun _ _ =>
        keeps_pure hobject
  · split
    · next v hv => exact keeps_pure (Ref.tidy_value (hs.scalars (Option.join_eq_some_iff.1 hv)))
    · refine keeps_bind (keeps_lift fun v hv => hs.table ▸ scalar_scalar hv) fun v hv =>
        keeps_bind (keeps_set ⟨hs.table, hs.size, fun hw => ?_, hs.objects⟩) fun _ _ =>
          keeps_pure (Ref.tidy_value hv)
      rw [Array.getElem?_setIfInBounds] at hw
      split at hw
      · split at hw
        · cases hw
          exact hv
        · cases hw
      · exact hs.scalars hw

/-! ### Flattening touches no object -/

theorem node_keeps (P : State → Prop) (id : Nat) : Keeps P (node id) fun _ => True :=
  keeps_bind keeps_get fun _ _ => keeps_pure trivial

theorem entries_keeps (P : State → Prop) (id : Nat) : Keeps P (entries id) fun _ => True := by
  refine keeps_bind (node_keeps P id) fun n _ => ?_
  split
  · exact keeps_pure trivial
  · exact keeps_throw

theorem sources_keeps (P : State → Prop) (id : Nat) : Keeps P (sources id) fun _ => True := by
  refine keeps_bind (node_keeps P id) fun n _ => ?_
  split
  · exact keeps_pure trivial
  · exact keeps_pure trivial
  · exact keeps_throw

section Table
variable {P : State → Prop}
  (hP : ∀ s table, table.size = s.table.size → P s → P { s with table := table })
include hP

theorem setEntries_keeps (id : Nat) (es : List (Nat × Nat)) :
    Keeps P (setEntries id es) fun _ => True :=
  keeps_modify fun s hs => hP s _ Array.size_modify hs

theorem settleKey_keeps (id : Nat) : Keeps P (settleKey id) fun _ => True :=
  keeps_modify fun s hs => hP s _ Array.size_modify hs

/-- Taking in mappings changes nothing but nodes. -/
theorem flatten_keeps (fuel : Nat) (taken : List (Nat × Nat)) (id : Nat) :
    Keeps P (flatten fuel taken id) fun _ => True := by
  induction fuel generalizing taken id with
  | zero => exact keeps_throw
  | succ fuel ih =>
    refine keeps_bind (entries_keeps P id) fun es _ => keeps_bind keeps_get fun s _ => ?_
    simp only
    split
    · exact keeps_bind (keeps_forM fun e _ => settleKey_keeps hP e.1) fun _ _ =>
        setEntries_keeps hP id _
    · next i _ =>
      have hsources : Keeps P ((es[i]?).elim (pure []) fun e => sources e.2) fun _ => True := by
        cases es[i]? with
        | none => exact keeps_pure trivial
        | some e => exact sources_keeps P e.2
      exact keeps_bind (setEntries_keeps hP id _) fun _ _ => keeps_bind hsources fun _ _ =>
        keeps_bind (keeps_mapM fun source _ =>
          keeps_bind (ih [] source) fun _ _ => entries_keeps P source) fun _ _ => ih _ _

end Table

/-! ### Collections -/

theorem dict_tidy (id : Nat) :
    Keeps (State.Tidy n) (dict id) fun t => (Shape.dict t).Tidy n n := by
  have htable : ∀ (s : State) table, table.size = s.table.size → s.Tidy n →
      State.Tidy n { s with table := table } :=
    fun s table ht hs => ⟨ht.trans hs.table, hs.size, hs.scalars, hs.objects⟩
  refine keeps_bind (entries_keeps _ id) fun _ _ => keeps_bind keeps_get fun s _ =>
    keeps_bind (flatten_keeps htable _ _ id) fun _ _ =>
      keeps_bind (entries_keeps _ id) fun es _ => keeps_foldlM (fun t ht e _ => ?_) ⟨.nil, nofun⟩
  refine keeps_bind (reference_tidy e.1) fun k hk => ?_
  cases k with
  | object id => exact keeps_throw
  | value k =>
    refine keeps_bind (reference_tidy e.2) fun r hr => keeps_pure ⟨ht.1.put k r, fun e he => ?_⟩
    rcases Table.mem_put he with he | ⟨he, hek⟩
    · exact ht.2 e he
    · refine ⟨?_, he ▸ hr⟩
      rcases hek with hek | hek
      · exact hek ▸ (hk.value k rfl).named
      · obtain ⟨f, hf, hfe⟩ := List.mem_map.1 hek
        exact hfe ▸ (ht.2 f hf).1

theorem shape_tidy (id : Nat) : Keeps (State.Tidy n) (shape id) (Shape.Tidy n n) := by
  have hpair (id : Nat) : Keeps (State.Tidy n) (pair id) fun p => p.1.Tidy n n ∧ p.2.Tidy n n := by
    refine keeps_bind (entries_keeps _ id) fun es _ => ?_
    split
    · exact keeps_bind (reference_tidy _) fun _ hk => keeps_bind (reference_tidy _) fun _ hv =>
        keeps_pure ⟨hk, hv⟩
    · exact keeps_throw
  refine keeps_bind (node_keeps _ id) fun n _ => ?_
  split
  · exact keeps_bind (keeps_mapM fun r _ => reference_tidy r) fun _ h => keeps_pure h
  · exact keeps_bind (keeps_mapM fun p _ => hpair p) fun _ h => keeps_pure h
  · exact keeps_bind (keeps_mapM fun p _ => hpair p) fun _ h => keeps_pure h
  · exact keeps_bind (dict_tidy id) fun t ht => keeps_pure ht
  · refine keeps_bind (dict_tidy id) fun t ht => keeps_pure fun v hv => ?_
    obtain ⟨e, he, hev⟩ := List.mem_map.1 hv
    exact hev ▸ (ht.2 e he).1
  · exact keeps_throw

theorem all_tidy (fuel : Nat) : Keeps (State.Tidy n) (all fuel) fun _ => True := by
  induction fuel with
  | zero => exact keeps_pure trivial
  | succ fuel ih =>
    refine keeps_bind keeps_get fun s _ => ?_
    split
    · exact keeps_pure trivial
    · next id rest _ =>
      refine keeps_bind
        (keeps_modify fun s hs => ⟨hs.table, hs.size, hs.scalars, hs.objects⟩) fun _ _ =>
        keeps_bind (shape_tidy id) fun x hx =>
          keeps_bind (keeps_modify fun s hs => ⟨hs.table, ?_, hs.scalars, fun hy => ?_⟩)
            fun _ _ => ih
      · exact Array.size_setIfInBounds.trans hs.size
      · rw [Array.getElem?_setIfInBounds] at hy
        split at hy
        · split at hy
          · cases hy
            exact hx
          · cases hy
        · exact hs.objects hy

theorem root_tidy (nodes : Nodes) : Keeps (State.Tidy n) (root nodes) (Ref.Tidy n n) :=
  keeps_bind (reference_tidy _) fun _ hr => keeps_bind (all_tidy _) fun _ _ => keeps_pure hr

end Build
end Yaml

/-- A graph that was read has no more names than objects. -/
theorem Yaml.Nodes.graph_tidy {nodes : Nodes} {g : Graph} (h : nodes.graph = .ok g) :
    g.Tidy g.objects.size := by
  obtain ⟨⟨root, s⟩, hr, h⟩ := bind_eq_ok.1 h
  cases h
  have hempty : Build.State.Tidy nodes.table.size
      ⟨nodes.table, .replicate nodes.table.size default,
        .replicate nodes.table.size none, [], [], false⟩ := by
    refine ⟨rfl, Array.size_replicate, fun hv => ?_, fun hx => ?_⟩
    · rw [Array.getElem?_replicate] at hv
      split at hv <;> cases hv
    · rw [Array.getElem?_replicate] at hx
      split at hx
      · cases hx
        exact nofun
      · cases hx
  obtain ⟨hs, hroot⟩ := Build.root_tidy nodes _ _ _ hempty hr
  refine ⟨fun hx => ?_, ?_⟩
  · rw [hs.size]
    exact hs.objects hx
  · rw [hs.size]
    exact hroot

/-! ### Documents -/

theorem Document.ofYaml_tidy {source : Yaml.Source} {d : Document}
    (h : Document.ofYaml source = .ok d) : d.Tidy := by
  obtain ⟨nodes, -, h⟩ := bind_eq_ok.1 h
  cases nodes with
  | none =>
    cases h
    exact .other nofun rfl
  | some nodes =>
    obtain ⟨g, hg, h⟩ := bind_eq_ok.1 h
    have hg := Yaml.Nodes.graph_tidy (mapError_eq_ok.1 hg)
    cases h
    unfold ofGraph
    split
    · exact hg
    · exact hg.anonymous.unfold

theorem Format.read_tidy {format : Format} {bytes : List UInt8} {d : Document}
    (h : format.read bytes = .ok d) : d.Tidy := by
  cases format with
  | yaml => exact Document.ofYaml_tidy h
  | json =>
    obtain ⟨cs, -, h⟩ := bind_eq_ok.1 h
    obtain ⟨w, hw, rfl⟩ := map_eq_ok.1 h
    exact Json.read_tidy hw

theorem Document.requireDict_tidy {d d' : Document} (hd : d.Tidy) (h : d.requireDict = .ok d') :
    d'.Tidy := by
  unfold requireDict at h
  split at h
  · cases h
    exact Value.tidy_empty
  · cases h
    exact hd
  · cases h
  · split at h
    · cases h
      exact hd
    · cases h

/-- A document that was read says what bytes say in some format, and is a dict. -/
theorem FileSystem.exists_read {fs : FileSystem} {p : Path} {d : Document}
    (h : fs.settingsFile p = .ok d) : ∃ (format : Format) (bytes : List UInt8) (d₀ : Document),
      format.read bytes = .ok d₀ ∧ d₀.requireDict = .ok d := by
  obtain ⟨found, -, h⟩ := bind_eq_ok.1 h
  cases found with
  | false => cases h
  | true =>
    simp only [Bool.not_true, Bool.false_eq_true, if_false] at h
    split at h
    · cases h
    · next format _ =>
      obtain ⟨bytes, -, h⟩ := bind_eq_ok.1 h
      obtain ⟨d₀, hd, h⟩ := bind_eq_ok.1 h
      exact ⟨format, bytes, d₀, hd, mapError_eq_ok.1 h⟩

/-- A document that was read holds no key twice. -/
theorem FileSystem.settingsFile_tidy {fs : FileSystem} {p : Path} {d : Document}
    (h : fs.settingsFile p = .ok d) : d.Tidy := by
  obtain ⟨format, bytes, d₀, hd, hr⟩ := exists_read h
  exact Document.requireDict_tidy (Format.read_tidy hd) hr

end MigrationSetup
