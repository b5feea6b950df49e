import MigrationSetup.Proofs.Landing
import MigrationSetup.Proofs.Loading
import MigrationSetup.Proofs.Reading

/-! Two documents that are each in order.

What a document binds to shows at a glance (`Objects.Shows`), and so it does in the graph that
comes of laying one over another. If both keep their settings in one place that graph binds
exactly if the overlay of the settings does, and else it always binds
(`Settings.united_binds_iff`). -/
namespace MigrationSetup

/-- The value in which settings are looked for. -/
def Document.settings : Document → Value
  | .plain v => v
  | .shared g => g.unfoldEntries (.text Settings.sectionKey)

theorem Settings.ofDocument_eq (d : Document) : ofDocument d = ofValue d.settings := by
  cases d <;> rfl

namespace Settings

/-- The entries on both sides that hold the settings, if they stand in one place. -/
inductive SamePlace : Value → Value → Entries → Entries → Prop
  | bare {D L : Entries} (base : Table.get? (.text sectionKey) D = none)
      (override : Table.get? (.text sectionKey) L = none) : SamePlace (.dict D) (.dict L) D L
  | sectioned {D L b o : Entries} (base : Table.get? (.text sectionKey) D = some (.dict b))
      (override : Table.get? (.text sectionKey) L = some (.dict o)) :
      SamePlace (.dict D) (.dict L) b o

namespace SamePlace
variable {D L b o : Entries}

theorem forall_bare {P : Entries → Entries → Prop}
    (hD : Table.get? (.text sectionKey) D = none) (hL : Table.get? (.text sectionKey) L = none) :
    (∀ b o, SamePlace (.dict D) (.dict L) b o → P b o) ↔ P D L := by
  refine ⟨fun h => h D L (.bare hD hL), fun h b o hs => ?_⟩
  cases hs with
  | bare => exact h
  | sectioned base => cases hD.symm.trans base

theorem forall_sectioned {P : Entries → Entries → Prop}
    (hD : Table.get? (.text sectionKey) D = some (.dict b))
    (hL : Table.get? (.text sectionKey) L = some (.dict o)) :
    (∀ b o, SamePlace (.dict D) (.dict L) b o → P b o) ↔ P b o := by
  refine ⟨fun h => h b o (.sectioned hD hL), fun h b' o' hs => ?_⟩
  cases hs with
  | bare base => cases hD.symm.trans base
  | sectioned base override =>
    cases hD.symm.trans base
    cases hL.symm.trans override
    exact h

/-- Unless both have a section or neither has there are no settings in one place. -/
theorem apart {x y : Option Value} (hx : Table.get? (.text sectionKey) D = x)
    (hy : Table.get? (.text sectionKey) L = y) (hbare : x = none → y ≠ none)
    (hboth : ∀ b u, x = some (.dict b) → y ≠ some (.dict u)) :
    ¬ SamePlace (.dict D) (.dict L) b o := by
  intro h
  cases h with
  | bare base override => exact hbare (hx.symm.trans base) (hy.symm.trans override)
  | sectioned base override =>
    exact hboth _ _ (hx.symm.trans base) (hy.symm.trans override)

/-- Where two files keep their settings in one place, what they give together is bound from
these settings alone. -/
theorem merged (hs : SamePlace (.dict D) (.dict L) b o)
    (hD : Value.Tidy (.dict D)) (hL : Value.Tidy (.dict L))
    (hc : Value.Compatible (.dict D) (.dict L)) :
    Value.Tidy (.dict b) ∧ Value.Tidy (.dict o) ∧ Value.Compatible (.dict b) (.dict o) ∧
      ofValue (.dict (Value.layEntries Value.laid D L)) =
        ofEntries (Value.layEntries Value.laid b o) := by
  have hget := Value.get?_layEntries Value.laid (.text sectionKey) D L
  cases hs with
  | bare base override =>
    rw [base, override] at hget
    exact ⟨hD, hL, hc, ofValue_bare hget⟩
  | sectioned base override =>
    obtain ⟨k, hm, hk⟩ := Table.mem_of_get? override
    have hbo := (Value.compatible_dicts_iff.1 hc _ hm).2 _ ((Table.get?_congr hk D).trans base)
    have htb := hD.of_get? base
    have hto := hL.of_get? override
    rw [base, override, Option.map_some, Option.map_some, Option.getD_some, Option.some_or,
      Value.laid_of_compatible htb hto hbo] at hget
    exact ⟨htb, hto, hbo, ofValue_section hget⟩

end SamePlace

/-- Where settings bind the section holds nothing, or entries. -/
theorem section_of_ofValue {root : Entries} {s : Settings} {v : Value}
    (h : ofValue (.dict root) = .ok s) (hv : Table.get? (.text sectionKey) root = some v) :
    v = .null ∨ ∃ es, v = .dict es := by
  simp only [ofValue, sectionOf, hv] at h
  cases v with
  | null => exact .inl rfl
  | dict es => exact .inr ⟨es, rfl⟩
  | _ => cases h

end Settings

/-! ### What shows of a document -/

open Settings (sectionKey AsGood Kindred)

namespace Objects

/-- The three ways in which a dict can hold settings. -/
theorem section_cases (a : Objects) (i : Nat) :
    (Table.get? (.text sectionKey) (a.entries i) = none) ∨
    (∃ c, a.Child i (.text sectionKey) c) ∨
    ∃ r, Table.get? (.text sectionKey) (a.entries i) = some r ∧ r.dict? a = none := by
  cases hk : Table.get? (.text sectionKey) (a.entries i) with
  | none => exact .inl rfl
  | some r =>
    cases hr : r.dict? a with
    | some c => exact .inr (.inl ⟨c, r, hk, hr⟩)
    | none => exact .inr (.inr ⟨r, rfl, hr⟩)

/-- If the section is a dict it is an object. -/
def OpenSection (a : Objects) (i : Nat) : Prop :=
  ∀ es, Table.get? (.text sectionKey) (a.entries i) ≠ some (.value (.dict es))

theorem openSection_of_tidy {a : Objects} {i m n : Nat}
    (h : (Shape.dict (a.entries i)).Tidy m n) : a.OpenSection i := by
  intro es hes
  obtain ⟨k, hm, -⟩ := Table.mem_of_get? hes
  exact ((h.2 _ hm).2.value _ rfl).plain es rfl

theorem OpenSection.unfold_other {a : Objects} {i : Nat} (h : a.OpenSection i) {r : Ref}
    (hk : Table.get? (.text sectionKey) (a.entries i) = some r) (hr : r.dict? a = none) :
    (∀ es, r.unfold a ≠ .dict es) ∧ (r.unfold a).isNull = (r.face a).isNull :=
  Ref.unfold_other hr fun es hre => h es (hre ▸ hk)

/-- The dict `i` is unfolded to `root`, as far as the binder looks. -/
structure Looks (a : Objects) (i : Nat) (root : Entries) : Prop where
  kindred : Kindred root (a.glances (a.entries i))
  dict : ∀ {c}, a.Child i (.text sectionKey) c → ∃ es,
    Table.get? (.text sectionKey) root = some (.dict es) ∧ Kindred es (a.glances (a.entries c))
  other : ∀ {r}, Table.get? (.text sectionKey) (a.entries i) = some r → r.dict? a = none →
    Table.get? (.text sectionKey) root = some (r.unfold a)

theorem Looks.lacks {a : Objects} {i : Nat} {root : Entries} (h : a.Looks i root)
    (hk : Table.get? (.text sectionKey) (a.entries i) = none) :
    Table.get? (.text sectionKey) root = none := by
  have hget := h.kindred.asGood.get? (.text sectionKey)
  rw [glances, Table.get?_map, hk, Option.map_none] at hget
  generalize Table.get? (.text sectionKey) root = x at hget
  cases hget
  rfl

/-- The dict `i` is at a glance what `root` is, as far as settings go. -/
inductive Shows (a : Objects) (i : Nat) (root : Entries) : Prop
  | bare (lacks : Table.get? (.text sectionKey) (a.entries i) = none)
      (lacks' : Table.get? (.text sectionKey) root = none)
      (good : AsGood root (a.glances (a.entries i)))
  | sectioned {c : Nat} {es : Entries} (child : a.Child i (.text sectionKey) c)
      (held : Table.get? (.text sectionKey) root = some (.dict es))
      (good : AsGood es (a.glances (a.entries c)))
  | nothing (held : Table.get? (.text sectionKey) (a.entries i) = some (.value .null))
      (held' : Table.get? (.text sectionKey) root = some .null)

/-- What binds shows. -/
theorem Looks.shows {a : Objects} {i : Nat} {root : Entries} {s : Settings} (h : a.Looks i root)
    (hopen : a.OpenSection i) (hb : Settings.ofValue (.dict root) = .ok s) : a.Shows i root := by
  rcases a.section_cases i with hk | ⟨c, hc⟩ | ⟨r, hk, hr⟩
  · exact .bare hk (h.lacks hk) h.kindred.asGood
  · obtain ⟨es, hes, hkindred⟩ := h.dict hc
    exact .sectioned hc hes hkindred.asGood
  · -- Nothing else but nothing binds there.
    have hv := h.other hk hr
    obtain ⟨hplain, hnull⟩ := hopen.unfold_other hk hr
    rcases Settings.section_of_ofValue hb hv with hun | ⟨es, hun⟩
    · refine .nothing ?_ (hun ▸ hv)
      cases r with
      | value w =>
        rw [hk]
        exact congrArg (some ∘ Ref.value) hun
      | object j =>
        rw [hun, Ref.face] at hnull
        cases hs : a.shape j <;> simp [hs, Shape.face, Value.isNull] at hnull
    · exact absurd hun (hplain es)

end Objects

namespace Graph

theorem looks_unfoldEntries {g : Graph} {i : Nat} (hi : g.root.dict? g.objects = some i) :
    ∃ root, g.unfoldEntries (.text sectionKey) = .dict root ∧ g.objects.Looks i root := by
  simp only [unfoldEntries, hi]
  refine ⟨_, rfl, forall₂_map_same fun e _ => ?_, ?_, fun {r} hk hr => ?_⟩
  · obtain ⟨k, r⟩ := e
    cases hr : r.dict? g.objects with
    | none => exact ⟨rfl, fun s => s.seen_unfold g.objects r⟩
    | some c =>
      have hglance : r.glance g.objects = .dict [] := by
        obtain ⟨rfl, hs⟩ := Ref.dict?_eq_some_iff.1 hr
        exact Shape.glance_dict_iff.2 ⟨_, hs⟩
      simp only [hglance]
      split
      · exact ⟨rfl, fun s => by rw [s.seen_dict, s.seen_dict]⟩
      · refine ⟨rfl, fun s => ?_⟩
        rw [s.seen_unfold, hglance]
  · rintro c ⟨r, hk, hr⟩
    refine ⟨_, Table.get?_map_of (fun e => ?_) hk fun l hl => ?_,
      Settings.kindred_values g.objects (g.objects.entries c)⟩
    · split
      · split <;> rfl
      · rfl
    · simp only [hr, hl, if_true]
      rfl
  · refine Table.get?_map_of (fun e => ?_) hk fun l hl => ?_
    · split
      · split <;> rfl
      · rfl
    · simp only [hr]

theorem looks_ofValue (es : Entries) : (ofValue (.dict es)).objects.Looks (rootOf es) es := by
  have hvalues := values_ofValue es
  have hkindred := Settings.kindred_values (ofValue (.dict es)).objects
    ((ofValue (.dict es)).objects.entries (rootOf es))
  have hget {r : Ref}
      (hk : Table.get? (.text sectionKey) ((ofValue (.dict es)).objects.entries (rootOf es)) =
        some r) :
      Table.get? (.text sectionKey) es = some (r.unfold (ofValue (.dict es)).objects) := by
    conv_lhs => rw [← hvalues]
    rw [Objects.values, Table.get?_map, hk, Option.map_some]
  rw [hvalues] at hkindred
  refine ⟨hkindred, ?_, fun hk _ => hget hk⟩
  rintro c ⟨r, hk, hr⟩
  obtain ⟨fs, hfs, hkin⟩ := Ref.unfold_dict hr
  exact ⟨fs, hfs ▸ hget hk, hkin⟩

theorem Tidy.entries {g : Graph} {n : Nat} (h : g.Tidy n) (i : Nat) :
    (Shape.dict (g.objects.entries i)).Tidy g.objects.size n := by
  have hshape := h.shape i
  rw [Objects.entries]
  cases hs : g.objects.shape i with
  | dict es =>
    rw [hs] at hshape
    exact hshape
  | _ => exact ⟨.nil, fun e he => by cases he⟩

theorem Grown.entries {a : Objects} (h : Grown a) (i : Nat) :
    (Shape.dict (a.entries i)).Tidy a.size 0 := by
  by_cases hi : i < a.size
  · obtain ⟨hshape, htidy⟩ := h i hi
    rw [hshape] at htidy
    refine ⟨htidy.1, fun e he => ?_⟩
    obtain ⟨hname, hr⟩ := htidy.2 e he
    exact ⟨hname, hr.value, fun j hj => Nat.lt_trans (hr.object j hj) hi⟩
  · rw [Objects.entries, Objects.shape, Array.getElem?_eq_none (Nat.le_of_not_lt hi)]
    exact ⟨.nil, fun e he => by cases he⟩

end Graph

namespace Document
variable {d : Document} {i : Nat} (hi : d.graph.root.dict? d.graph.objects = some i)
include hi

/-- Whatever a document looks like, its graph looks like it. -/
theorem looks : ∃ root, d.settings = .dict root ∧ d.graph.objects.Looks i root := by
  cases d with
  | shared g => exact Graph.looks_unfoldEntries hi
  | plain v =>
    cases v with
    | dict es =>
      cases (Graph.root_ofValue es).symm.trans hi
      exact ⟨es, rfl, Graph.looks_ofValue es⟩
    | _ => cases hi

/-- The dicts of a document's graph are tidy. -/
theorem tidy_entries (hd : d.Tidy) :
    ∃ n, ∀ j, (Shape.dict (d.graph.objects.entries j)).Tidy d.graph.objects.size n := by
  cases d with
  | shared g => exact ⟨_, Graph.Tidy.entries hd⟩
  | plain v =>
    cases v with
    | dict es => exact ⟨0, (Graph.ofValue_grown hd).entries⟩
    | _ => cases hi

theorem openSection (hd : d.Tidy) : d.graph.objects.OpenSection i := by
  obtain ⟨n, htidy⟩ := tidy_entries hi hd
  exact Objects.openSection_of_tidy (htidy i)

/-- What binds shows in the graph of a document. -/
theorem shows {s : Settings} (hd : d.Tidy) (h : Settings.ofDocument d = .ok s) :
    ∃ root, d.settings = .dict root ∧ d.graph.objects.Shows i root := by
  obtain ⟨root, hroot, hlooks⟩ := looks hi
  rw [Settings.ofDocument_eq, hroot] at h
  exact ⟨root, hroot, hlooks.shows (openSection hi hd) h⟩

/-- What a document holds is there. -/
theorem proper (hd : d.Tidy) : d.graph.objects.Proper := by
  obtain ⟨n, htidy⟩ := tidy_entries hi hd
  exact ⟨fun j => (htidy j).1, fun j e he => ((htidy j).2 e he).2.object⟩

end Document

/-! ### Names apart -/

theorem Objects.Proper.apart {g : Graph} (h : g.objects.Proper) (n : Nat) :
    (g.apart n).objects.Proper where
  distinct := fun i => (Graph.twin_apart g n i).distinct (Graph.oneToOne_apart n) (h.distinct i)
  bounds := by
    intro i e he j hj
    rw [Graph.entries_apart] at he
    obtain ⟨⟨k, r⟩, hm, rfl⟩ := List.mem_map.1 he
    simp only [Graph.apart, Graph.renamed, Array.size_map]
    cases r with
    | value v => cases hj
    | object m =>
      cases hj
      exact h.bounds i _ hm _ rfl

theorem Setting.seen_renamed (s : Setting) (name : Nat → Nat) (v : Value) :
    s.seen (v.renamed fun n => .nan (name n)) = s.seen v := by
  cases v with
  | nan n =>
    cases n with
    | zero => rfl
    | succ n => cases s <;> rfl
  | _ => rfl

/-- No setting sees names. -/
theorem Setting.seen_apart (s : Setting) (g : Graph) (n : Nat) (r : Ref) :
    s.seen ((r.renamed fun k => .nan (k + 1 + n)).glance (g.apart n).objects) =
      s.seen (r.glance g.objects) := by
  cases r with
  | value v => exact s.seen_renamed _ v
  | object j =>
    show s.seen (Objects.shape (g.objects.map _) j).glance = s.seen (g.objects.shape j).glance
    rw [Objects.shape_renamed]
    cases g.objects.shape j with
    | list items =>
      simp only [Shape.renamed, Shape.glance, List.map_map]
      refine s.seen_list (forall₂_map_same fun r _ => ?_)
      cases r with
      | value v =>
        cases v with
        | nan m => cases m <;> rfl
        | _ => rfl
      | object m => rfl
    | pairs items =>
      simp only [Shape.renamed, Shape.glance, List.map_map]
      exact s.seen_list (forall₂_map_same fun _ _ => rfl)
    | dict es => rfl
    | set items => rfl

theorem Settings.kindred_apart {g : Graph} {i n : Nat}
    (h : Settings.stranger? (g.objects.glances (g.objects.entries i)) = none) :
    Kindred (g.objects.glances (g.objects.entries i))
      ((g.apart n).objects.glances ((g.apart n).objects.entries i)) := by
  rw [Graph.entries_apart, Objects.glances, Objects.glances, List.map_map]
  refine forall₂_map_same fun e he => ⟨?_, fun s => (s.seen_apart g n e.2).symm⟩
  -- Only texts name settings.
  have hkey := Settings.stranger?_eq_none_iff.1 h _ (List.mem_map_of_mem he)
  obtain ⟨setting, hsetting⟩ := Option.isSome_iff_exists.1 hkey
  obtain ⟨t, ht⟩ := Value.text_of_ofKey? hsetting
  have ht : e.1 = .text t := ht
  simp only [Function.comp, ht]
  rfl

theorem Objects.Shows.apart {g : Graph} {i : Nat} {root : Entries} {s : Settings}
    (h : g.objects.Shows i root) (hb : Settings.ofValue (.dict root) = .ok s) (n : Nat) :
    (g.apart n).objects.Shows i root := by
  have hgood {es : Entries} {c : Nat} (hes : Settings.ofEntries es = .ok s)
      (good : AsGood es (g.objects.glances (g.objects.entries c))) :
      AsGood es ((g.apart n).objects.glances ((g.apart n).objects.entries c)) :=
    good.trans (Settings.kindred_apart (Settings.binds_iff.1 (good.binds_iff.1 ⟨s, hes⟩)).1).asGood
  cases h with
  | bare lacks lacks' good =>
    rw [Settings.ofValue_bare lacks'] at hb
    exact .bare (Graph.get?_apart_none lacks n) lacks' (hgood hb good)
  | sectioned child held good =>
    obtain ⟨r, hr, hc⟩ := child
    have hget := Graph.get?_apart g sectionKey n i
    rw [hr, Option.map_some] at hget
    rw [Settings.ofValue_section held] at hb
    exact .sectioned ⟨_, hget, (Graph.dict?_apart g n _ r).trans hc⟩ held (hgood hb good)
  | nothing held held' =>
    refine .nothing ?_ held'
    rw [Graph.get?_apart, held]
    rfl

/-! ### One over the other -/

namespace Settings

theorem ofValue_nothing {root : Entries}
    (h : Table.get? (.text sectionKey) root = some .null) :
    ofValue (.dict root) = .ok standard := by
  simp only [ofValue, sectionOf, h]
  rfl

theorem ofDocument_nothing {g : Graph} {i : Nat} (hi : g.root.dict? g.objects = some i)
    (hk : Table.get? (.text sectionKey) (g.objects.entries i) = some (.value .null)) :
    ofDocument (.shared g) = .ok standard := by
  obtain ⟨root, hroot, hlooks⟩ := Graph.looks_unfoldEntries hi
  rw [ofDocument, hroot]
  exact ofValue_nothing (hlooks.other hk rfl)

variable {A o a : Objects} {depth i j : Nat} {D L : Entries} {d l : Settings}

/-- One document over another binds exactly if the overlay does where both keep their
settings in one place, as long as each binds on its own. -/
theorem united_binds_iff (hA : A.Proper) (ho : o.Proper) (hone : Graph.Unshared A o i j)
    (hi : (Ref.object i).dict? A = some i)
    (hm : Graph.mergeInto o depth [] i (o.entries j) A = .ok a) (hD : A.Shows i D)
    (hL : o.Shows j L) (hd : ofValue (.dict D) = .ok d) (hl : ofValue (.dict L) = .ok l) :
    (∃ s, ofDocument (.shared ⟨a, .object i, true⟩) = .ok s) ↔
      ∀ b u, SamePlace (.dict D) (.dict L) b u → ∃ s, ofEntries (overlay b u) = .ok s := by
  have hjoined := Graph.mergeInto_joined hA ho hone hi hm
  have hroot : (Ref.object i).dict? a = some i := by
    rw [hjoined.akin.dict? fun k hk => Ref.object.inj hk ▸ Ref.lt_size_of_dict? hi]
    exact hi
  have hchild {c : Nat} {es : Entries} (hc : a.Child i (.text sectionKey) c)
      (good : AsGood es (a.glances (a.entries c))) :
      (∃ s, ofDocument (.shared ⟨a, .object i, true⟩) = .ok s) ↔ ∃ s, ofEntries es = .ok s := by
    obtain ⟨r, hr, hrc⟩ := hc
    rw [ofDocument_section hroot hr hrc]
    exact ((kindred_values a _).asGood.trans good.symm).binds_iff
  have hnothing (hk : Table.get? (.text sectionKey) (a.entries i) = some (.value .null)) :
      ∃ s, ofDocument (.shared ⟨a, .object i, true⟩) = .ok s :=
    ⟨standard, ofDocument_nothing hroot hk⟩
  cases hL with
  | bare lacks lacks' good =>
    have hget := hjoined.others lacks
    cases hD with
    | bare lacksD lacksD' goodD =>
      have hgood : AsGood (a.values (a.entries i)) (overlay D L) := by
        refine (kindred_values a _).asGood.trans ?_
        rw [hjoined.glances]
        exact (goodD.overlay good).symm
      have hvalues :
          ofDocument (.shared ⟨a, .object i, true⟩) = ofEntries (a.values (a.entries i)) :=
        ofDocument_bare hroot (hget.trans lacksD)
      rw [hvalues, hgood.binds_iff, SamePlace.forall_bare lacksD' lacks']
    | sectioned child held goodD =>
      obtain ⟨hc, hglances⟩ := Graph.mergeInto_kept hA ho hone hi hm lacks child
      exact iff_of_true ((hchild hc (hglances ▸ goodD)).2 ⟨d, ofValue_section held ▸ hd⟩)
        fun _ _ hs => absurd hs (SamePlace.apart held lacks' nofun fun _ _ _ => nofun)
    | nothing held held' =>
      exact iff_of_true (hnothing (hget.trans held))
        fun _ _ hs => absurd hs (SamePlace.apart held' lacks' nofun fun _ _ _ => nofun)
  | sectioned child held good =>
    obtain ⟨r, hr, hrc⟩ := child
    -- Where no dict stands there the section is copied, and it binds as it did.
    have hcopied (hnot : ∀ c, ¬ A.Child i (.text sectionKey) c) :
        ∃ s, ofDocument (.shared ⟨a, .object i, true⟩) = .ok s := by
      obtain ⟨n, hget, hcopy⟩ := Graph.mergeInto_copied hA ho hone hi hm hr
        fun c _ hc => absurd hc (hnot c)
      obtain ⟨hc, hglances⟩ := Graph.copied_child ho hrc
        (hcopy _ (Ref.dict?_eq_some_iff.1 hrc).1)
      exact (hchild ⟨_, hget, hc⟩ (hglances ▸ good)).2 ⟨l, ofValue_section held ▸ hl⟩
    cases hD with
    | bare lacksD lacksD' _ =>
      refine iff_of_true (hcopied ?_)
        fun _ _ hs => absurd hs (SamePlace.apart lacksD' held (fun _ => nofun) nofun)
      rintro c ⟨x, hx, -⟩
      cases lacksD.symm.trans hx
    | nothing heldD heldD' =>
      refine iff_of_true (hcopied ?_)
        fun _ _ hs => absurd hs (SamePlace.apart heldD' held nofun nofun)
      rintro c ⟨x, hx, hc⟩
      cases heldD.symm.trans hx
      cases hc
    | sectioned childD heldD goodD =>
      obtain ⟨hc, hglances⟩ := Graph.mergeInto_merged hA ho hone hi hm hr childD hrc
      rw [hchild hc (hglances ▸ goodD.overlay good), SamePlace.forall_sectioned heldD held]
  | nothing held held' =>
    obtain ⟨n, hget, -⟩ := Graph.mergeInto_copied hA ho hone hi hm held fun _ _ _ => nofun
    exact iff_of_true (hnothing hget)
      fun _ _ hs => absurd hs (SamePlace.apart rfl held' (fun _ => nofun) fun _ _ _ => nofun)

end Settings

/-! ### Which documents are compatible -/

/-- Whether one graph can be laid over another. -/
def Graph.Compatible (base override : Graph) : Prop :=
  ∀ i j, base.root.dict? base.objects = some i → override.root.dict? override.objects = some j →
    Fits base.objects (override.apart base.objects.size).objects maxDepth i j

namespace Document

/-- Whether one document can be laid over another. -/
def Compatible (base override : Document) : Prop :=
  match base, override with
  | .plain b, .plain o => Value.Compatible b o
  | b, o => b.graph.Compatible o.graph

/-- Whether no dict of a document that meets one of the override stands in two places. -/
def Unshared (base override : Document) : Prop :=
  ∀ i j, base.graph.root.dict? base.graph.objects = some i →
    override.graph.root.dict? override.graph.objects = some j →
      Graph.Unshared base.graph.objects (override.graph.apart base.graph.objects.size).objects i j

theorem unshared_plain (v : Value) (override : Document) : (plain v).Unshared override := by
  intro i j hi _ n m m' _ path path' hp hp'
  cases v with
  | dict es =>
    cases (Graph.root_ofValue es).symm.trans hi
    exact Graph.leads_ofValue hp hp'
  | _ => cases hi

/-- The root of a document that was read is a dict. -/
theorem exists_root {fs : FileSystem} {p : Path} {d : Document}
    (h : fs.settingsFile p = .ok d) : ∃ i, d.graph.root.dict? d.graph.objects = some i := by
  obtain ⟨-, -, d₀, -, h⟩ := FileSystem.exists_read h
  unfold requireDict at h
  split at h
  · cases h
    exact ⟨_, Graph.root_ofValue []⟩
  · cases h
    exact ⟨_, Graph.root_ofValue _⟩
  · cases h
  · split at h
    · next hroot =>
      cases h
      exact Option.isSome_iff_exists.1 hroot
    · cases h

end Document

namespace Settings

/-- Two documents that are each in order give settings as graphs exactly if they are
compatible and, where both keep their settings in one place, the overlay binds. -/
theorem ofGraphs_valid {D L : Document} {i j : Nat} {d l : Settings} (hD : D.Tidy) (hL : L.Tidy)
    (hi : D.graph.root.dict? D.graph.objects = some i)
    (hj : L.graph.root.dict? L.graph.objects = some j) (hone : D.Unshared L)
    (hd : ofDocument D = .ok d) (hl : ofDocument L = .ok l) :
    (∃ s, ofGraphs D.graph L.graph = .ok s) ↔ D.graph.Compatible L.graph ∧
      ∀ b o, SamePlace D.settings L.settings b o → ∃ s, ofEntries (overlay b o) = .ok s := by
  have hA := Document.proper hi hD
  have ho := (Document.proper hj hL).apart D.graph.objects.size
  have hone := hone i j hi hj
  have hroot := Ref.dict?_object hi
  obtain ⟨rootD, hrootD, hshowsD⟩ := Document.shows hi hD hd
  obtain ⟨rootL, hrootL, hshowsL⟩ := Document.shows hj hL hl
  rw [ofDocument_eq, hrootD] at hd
  rw [ofDocument_eq, hrootL] at hl
  have hfits := (Graph.mergeInto_joins hA ho hone (.initial hA hroot) Graph.maxDepth []).ok_iff
  have hbinds {a : Objects} (hm : Graph.mergeInto _ Graph.maxDepth [] i _ _ = .ok a) :=
    united_binds_iff hA ho hone hroot hm hshowsD (hshowsL.apart hl _) hd hl
  rw [ofGraphs_eq hi hj, hrootD, hrootL]
  constructor
  · rintro ⟨s, h⟩
    obtain ⟨a, hm, hs⟩ := bind_eq_ok.1 h
    refine ⟨fun i' j' hi' hj' => ?_, (hbinds hm).1 ⟨s, mapError_eq_ok.1 hs⟩⟩
    cases hi.symm.trans hi'
    cases hj.symm.trans hj'
    exact hfits.1 ⟨a, hm⟩
  · rintro ⟨hc, h⟩
    obtain ⟨a, hm⟩ := hfits.2 (hc i j hi hj)
    obtain ⟨s, hs⟩ := (hbinds hm).2 h
    exact ⟨s, bind_eq_ok.2 ⟨a, hm, mapError_eq_ok.2 hs⟩⟩

end Settings
end MigrationSetup
