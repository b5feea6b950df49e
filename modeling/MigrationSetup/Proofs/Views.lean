import MigrationSetup.Proofs.Sheets

/-! Where the binder looks.

A document is seen by the place where its settings stand and by what the binder sees of them
there (`View`). Documents with one view give the same settings, or are rejected alike but for
what cannot be shown (`View.Gives.near`). One document over another gives what one view over
the other does (`Settings.ofLayers_gives`), be they plain (`viewOf_layEntries`) or graphs
(`Objects.view_merged`). -/
namespace MigrationSetup
open Settings (sectionKey NamedOnce overlay)

inductive View
  /-- There is no section, and the settings stand at the root. -/
  | bare (x : Sheet)
  | sectioned (x : Sheet)
  /-- There is nothing in the section, or something that is no dict. -/
  | other (isNull : Bool)

namespace View

/-- One view with another over it: sheets in one place lie over one another, and else the
section counts, that of the upper one first. -/
def beneath : View → View → View
  | .bare x, .bare y => .bare (x.beneath y)
  | .sectioned x, .sectioned y => .sectioned (x.beneath y)
  | v, .bare _ => v
  | _, w => w

/-- What a result is that comes of a document seen so. -/
def Gives : View → Except SettingError Settings → Prop
  | .bare x, r => x.Gives r
  | .sectioned x, r => x.Gives r
  | .other true, r => r = .ok Settings.standard
  | .other false, r => ∃ e, r = .error e ∧ e.fault = .invalidRoot

end View

theorem Sheet.Gives.near {x : Sheet} {r r' : Except SettingError Settings} (h : x.Gives r)
    (h' : x.Gives r') : Settings.Near (r.mapError .setting) (r'.mapError .setting) := by
  cases r with
  | ok l =>
    rw [(h'.ok_iff l).2 ((h.ok_iff l).1 rfl)]
    exact .same _
  | error e =>
    cases r' with
    | ok l => cases (h.ok_iff l).2 ((h'.ok_iff l).1 rfl)
    | error f => exact .rejected ((h.rough e rfl).trans (h'.rough f rfl).symm)

/-- What documents with one view give is near. -/
theorem View.Gives.near {v : View} {r r' : Except SettingError Settings} (h : v.Gives r)
    (h' : v.Gives r') : Settings.Near (r.mapError .setting) (r'.mapError .setting) := by
  match v with
  | .bare x => exact Sheet.Gives.near h h'
  | .sectioned x => exact Sheet.Gives.near h h'
  | .other true =>
    have hr : r = .ok Settings.standard := h
    have hr' : r' = .ok Settings.standard := h'
    rw [hr, hr']
    exact .same _
  | .other false =>
    obtain ⟨e, rfl, he⟩ := h
    obtain ⟨f, rfl, hf⟩ := h'
    refine .rejected ?_
    simp [SettingError.rough, he, hf]

/-! ### Plain documents -/

/-- The view of a plain dict. -/
def viewOf (root : Entries) : View :=
  match Table.get? (.text sectionKey) root with
  | none => .bare (Sheet.of root)
  | some (.dict es) => .sectioned (Sheet.of es)
  | some v => .other v.isNull

section
variable {root es : Entries} {v : Value}

theorem viewOf_bare (h : Table.get? (.text sectionKey) root = none) :
    viewOf root = .bare (Sheet.of root) := by
  rw [viewOf, h]

theorem viewOf_sectioned (h : Table.get? (.text sectionKey) root = some (.dict es)) :
    viewOf root = .sectioned (Sheet.of es) := by
  rw [viewOf, h]

theorem viewOf_other (h : Table.get? (.text sectionKey) root = some v)
    (hv : ∀ es, v ≠ .dict es) : viewOf root = .other v.isNull := by
  rw [viewOf, h]
  cases v with
  | dict es => exact absurd rfl (hv es)
  | _ => rfl

theorem viewOf_congr {root' : Entries} (h : Table.get? (.text sectionKey) root = some v)
    (h' : Table.get? (.text sectionKey) root' = some v) : viewOf root = viewOf root' := by
  rw [viewOf, viewOf, h, h']
  cases v <;> rfl

/-- Where a dict has a section this shows. -/
theorem viewOf_held (h : Table.get? (.text sectionKey) root = some v) :
    (∃ es, v = .dict es ∧ viewOf root = .sectioned (Sheet.of es)) ∨
      (∀ es, v ≠ .dict es) ∧ viewOf root = .other v.isNull := by
  by_cases hv : ∃ es, v = .dict es
  · obtain ⟨es, rfl⟩ := hv
    exact .inl ⟨es, rfl, viewOf_sectioned h⟩
  · have hv : ∀ es, v ≠ .dict es := fun es h => hv ⟨es, h⟩
    exact .inr ⟨hv, viewOf_other h hv⟩

theorem gives_other (h : Table.get? (.text sectionKey) root = some v)
    (hv : ∀ es, v ≠ .dict es) :
    (View.other v.isNull).Gives (Settings.ofValue (.dict root)) := by
  simp only [Settings.ofValue, Settings.sectionOf, h]
  cases v with
  | dict es => exact absurd rfl (hv es)
  | null => rfl
  | _ => exact ⟨_, rfl, rfl⟩

/-- What a dict gives shows in its view. -/
theorem gives_viewOf (root : Entries) : (viewOf root).Gives (Settings.ofValue (.dict root)) := by
  cases hk : Table.get? (.text sectionKey) root with
  | none =>
    rw [viewOf_bare hk, Settings.ofValue_bare hk]
    exact Sheet.gives_of root
  | some v =>
    rcases viewOf_held hk with ⟨es, rfl, h⟩ | ⟨hv, h⟩
    · rw [h, Settings.ofValue_section hk]
      exact Sheet.gives_of es
    · rw [h]
      exact gives_other hk hv

end

/-- No setting is named twice where a value has its settings. -/
def Settings.Once (v : Value) : Prop := ∀ es, sectionOf v = .ok es → NamedOnce es

namespace Settings.Once
variable {root es : Entries}

theorem bare (h : Once (.dict root)) (hk : Table.get? (.text sectionKey) root = none) :
    NamedOnce root := by
  refine h root ?_
  simp only [sectionOf, hk]

theorem sectioned (h : Once (.dict root))
    (hk : Table.get? (.text sectionKey) root = some (.dict es)) : NamedOnce es := by
  refine h es ?_
  simp only [sectionOf, hk]

end Settings.Once

/-- One plain dict over another looks as one view over the other. -/
theorem viewOf_layEntries {D L : Entries} (hD : Value.Tidy (.dict D)) (hL : Value.Tidy (.dict L))
    (hc : Value.Compatible (.dict D) (.dict L)) (honce : Settings.Once (.dict D))
    (honce' : Settings.Once (.dict L)) :
    viewOf (Value.layEntries Value.laid D L) = (viewOf D).beneath (viewOf L) := by
  have hsheet {b o : Entries} (hb : NamedOnce b) (ho : NamedOnce o) :
      Sheet.of (Value.layEntries Value.laid b o) = (Sheet.of b).beneath (Sheet.of o) :=
    (Settings.kindred_layEntries b o).sheet.trans (Sheet.of_overlay hb ho)
  have hget := Value.get?_layEntries Value.laid (.text sectionKey) D L
  cases hDk : Table.get? (.text sectionKey) D with
  | none =>
    cases hLk : Table.get? (.text sectionKey) L with
    | none =>
      rw [hDk, hLk] at hget
      rw [viewOf_bare hget, viewOf_bare hDk, viewOf_bare hLk,
        hsheet (honce.bare hDk) (honce'.bare hLk)]
      rfl
    | some y =>
      rw [hDk, hLk] at hget
      rw [viewOf_congr hget hLk, viewOf_bare hDk]
      rcases viewOf_held hLk with ⟨es, -, h⟩ | ⟨-, h⟩ <;> rw [h] <;> rfl
  | some x =>
    cases hLk : Table.get? (.text sectionKey) L with
    | none =>
      rw [hDk, hLk] at hget
      rw [viewOf_congr hget hDk, viewOf_bare hLk]
      rcases viewOf_held hDk with ⟨es, -, h⟩ | ⟨-, h⟩ <;> rw [h] <;> rfl
    | some y =>
      rw [hDk, hLk, Option.map_some, Option.map_some, Option.getD_some, Option.some_or] at hget
      rcases viewOf_held hDk with ⟨b, rfl, hb⟩ | ⟨hx, hb⟩
      · rcases viewOf_held hLk with ⟨o, rfl, ho⟩ | ⟨hy, ho⟩
        · have hs := Settings.SamePlace.sectioned hDk hLk
          obtain ⟨htb, hto, hbo, -⟩ := hs.merged hD hL hc
          rw [Value.laid_of_compatible htb hto hbo] at hget
          rw [viewOf_sectioned hget, hsheet (honce.sectioned hDk) (honce'.sectioned hLk), hb, ho]
          rfl
        · rw [Value.laid_plain (.inl hy)] at hget
          rw [viewOf_congr hget hLk, hb, ho]
          rfl
      · rw [Value.laid_plain (.inr hx)] at hget
        rw [viewOf_congr hget hLk, hb]
        rcases viewOf_held hLk with ⟨o, -, ho⟩ | ⟨-, ho⟩ <;> rw [ho] <;> rfl

/-! ### Graphs -/

namespace Objects

/-- The view of a dict in a graph. -/
def view (a : Objects) (i : Nat) : View :=
  match Table.get? (.text sectionKey) (a.entries i) with
  | none => .bare (Sheet.of (a.glances (a.entries i)))
  | some r =>
    match r.dict? a with
    | some c => .sectioned (Sheet.of (a.glances (a.entries c)))
    | none => .other (r.face a).isNull

/-- The dict `i`, or its section, holds the settings. -/
inductive Holds (a : Objects) (i : Nat) : Nat → Prop
  | bare (lacks : Table.get? (.text sectionKey) (a.entries i) = none) : Holds a i i
  | sectioned {c : Nat} (child : a.Child i (.text sectionKey) c) : Holds a i c

/-- If the section is a dict it is an object, and no setting is named twice. -/
structure Orderly (a : Objects) (i : Nat) : Prop where
  section_open : a.OpenSection i
  once : ∀ {c}, a.Holds i c → NamedOnce (a.entries c)

variable {a : Objects} {i c : Nat} {r : Ref}

theorem keys_glances (a : Objects) (t : Table Ref) : Table.keys (a.glances t) = t.keys := by
  rw [glances, Table.keys, Table.keys, List.map_map]
  rfl

theorem view_bare (h : Table.get? (.text sectionKey) (a.entries i) = none) :
    a.view i = .bare (Sheet.of (a.glances (a.entries i))) := by
  rw [view, h]

theorem view_sectioned (h : a.Child i (.text sectionKey) c) :
    a.view i = .sectioned (Sheet.of (a.glances (a.entries c))) := by
  obtain ⟨r, hr, hc⟩ := h
  rw [view, hr]
  simp only [hc]

theorem view_other (h : Table.get? (.text sectionKey) (a.entries i) = some r)
    (hr : r.dict? a = none) : a.view i = .other (r.face a).isNull := by
  rw [view, h]
  simp only [hr]

end Objects

/-- A dict of a graph has the view of what it is unfolded to. -/
theorem Objects.Looks.view {a : Objects} {i : Nat} {root : Entries} (h : a.Looks i root)
    (hopen : a.OpenSection i) : a.view i = viewOf root := by
  rcases a.section_cases i with hk | ⟨c, hc⟩ | ⟨r, hk, hr⟩
  · rw [view_bare hk, viewOf_bare (h.lacks hk), h.kindred.sheet]
  · obtain ⟨es, hes, hkindred⟩ := h.dict hc
    rw [view_sectioned hc, viewOf_sectioned hes, hkindred.sheet]
  · obtain ⟨hdict, hnull⟩ := hopen.unfold_other hk hr
    rw [view_other hk hr, viewOf_other (h.other hk hr) hdict, hnull]

theorem Settings.Kindred.namedOnce_iff {a : Objects} {es : Entries} {t : Table Ref}
    (h : Kindred es (a.glances t)) : NamedOnce es ↔ NamedOnce t := by
  refine namedOnce_congr (names_of_keys ?_)
  rw [h.asGood.keys, Objects.keys_glances]

/-- Settings are named once in what a dict is unfolded to exactly if they are in the graph. -/
theorem Objects.Looks.once_iff {a : Objects} {i : Nat} {root : Entries} (h : a.Looks i root)
    (hopen : a.OpenSection i) : Settings.Once (.dict root) ↔ a.Orderly i := by
  constructor
  · refine fun honce => ⟨hopen, fun {c} hc => ?_⟩
    cases hc with
    | bare lacks => exact h.kindred.namedOnce_iff.1 (honce.bare (h.lacks lacks))
    | sectioned child =>
      obtain ⟨es, hes, hkindred⟩ := h.dict child
      exact hkindred.namedOnce_iff.1 (honce.sectioned hes)
  · intro horderly es hes
    rcases a.section_cases i with hk | ⟨c, hc⟩ | ⟨r, hk, hr⟩
    · simp only [Settings.sectionOf, h.lacks hk] at hes
      cases hes
      exact h.kindred.namedOnce_iff.2 (horderly.once (.bare hk))
    · obtain ⟨fs, hfs, hkindred⟩ := h.dict hc
      simp only [Settings.sectionOf, hfs] at hes
      cases hes
      exact hkindred.namedOnce_iff.2 (horderly.once (.sectioned hc))
    · have hplain := (hopen.unfold_other hk hr).1
      simp only [Settings.sectionOf, h.other hk hr] at hes
      cases hun : r.unfold a with
      | null =>
        rw [hun] at hes
        cases hes
        exact .nil
      | dict fs => exact absurd hun (hplain fs)
      | _ =>
        rw [hun] at hes
        cases hes

/-! ### One graph over another -/

/-- What comes of a copied reference to no dict. -/
theorem Ref.shift_other {o b : Objects} {r : Ref} {n : Nat} (hr : r.dict? o = none)
    (hcopy : ∀ d, r = .object d → b.shape (n + d) = (o.shape d).shift n) :
    (r.shift n).dict? b = none ∧ (r.shift n).face b = r.face o := by
  cases r with
  | value v => exact ⟨rfl, rfl⟩
  | object d =>
    have hshape := hcopy d rfl
    simp only [Ref.dict?] at hr
    simp only [Ref.shift, Ref.dict?, Ref.face, hshape]
    cases hs : o.shape d with
    | dict es => simp [hs] at hr
    | _ => exact ⟨rfl, rfl⟩

namespace Objects
variable {A o b : Objects} {depth i j : Nat}

theorem namedOnce_glances (a : Objects) {t : Table Ref} (h : NamedOnce t) :
    NamedOnce (a.glances t) :=
  (Settings.namedOnce_congr (Settings.names_of_keys (a.keys_glances t).symm)).1 h

/-- One graph over another looks as one view over the other does. -/
theorem view_merged (hA : A.Proper) (ho : o.Proper) (hone : Graph.Unshared A o i j)
    (hi : (Ref.object i).dict? A = some i)
    (hm : Graph.mergeInto o depth [] i (o.entries j) A = .ok b) (hAi : A.Orderly i)
    (hoj : o.Orderly j) : b.view i = (A.view i).beneath (o.view j) ∧ b.OpenSection i := by
  have hjoined := Graph.mergeInto_joined hA ho hone hi hm
  have hsheet {c d : Nat} (hc : A.Holds i c) (hd : o.Holds j d) :
      Sheet.of (Settings.overlay (A.glances (A.entries c)) (o.glances (o.entries d))) =
        (Sheet.of (A.glances (A.entries c))).beneath (Sheet.of (o.glances (o.entries d))) :=
    Sheet.of_overlay (A.namedOnce_glances (hAi.once hc)) (o.namedOnce_glances (hoj.once hd))
  rcases o.section_cases j with hL | ⟨d, r, hr, hrd⟩ | ⟨r, hr, hrd⟩
  · have hget := hjoined.others hL
    refine ⟨?_, fun es hes => hAi.section_open es (hget ▸ hes)⟩
    rw [view_bare hL]
    rcases A.section_cases i with hD | ⟨c, hc⟩ | ⟨x, hx, hxd⟩
    · rw [view_bare (hget.trans hD), view_bare hD, hjoined.glances,
        hsheet (.bare hD) (.bare hL)]
      rfl
    · obtain ⟨hchild, hglances⟩ := Graph.mergeInto_kept hA ho hone hi hm hL hc
      rw [view_sectioned hchild, view_sectioned hc, hglances]
      rfl
    · have hbounds := hA.of_get? hx
      rw [view_other (hget.trans hx) ((hjoined.akin.dict? hbounds).trans hxd), view_other hx hxd,
        hjoined.akin.face hbounds]
      rfl
  · have hcopied (hnot : ∀ c, ¬ A.Child i (.text sectionKey) c) :
        b.view i = o.view j ∧ b.OpenSection i := by
      obtain ⟨n, hget, hcopy⟩ := Graph.mergeInto_copied hA ho hone hi hm hr
        fun c _ hc => absurd hc (hnot c)
      obtain ⟨rfl, -⟩ := Ref.dict?_eq_some_iff.1 hrd
      obtain ⟨hc, hglances⟩ := Graph.copied_child ho hrd (hcopy _ rfl)
      refine ⟨?_, fun es hes => by cases hget.symm.trans hes⟩
      rw [view_sectioned ⟨_, hget, hc⟩, view_sectioned ⟨_, hr, hrd⟩, hglances]
    rcases A.section_cases i with hD | ⟨c, hc⟩ | ⟨x, hx, hxd⟩
    · obtain ⟨hview, hobject⟩ := hcopied fun c hc => by
        obtain ⟨x, hx, -⟩ := hc
        cases hD.symm.trans hx
      refine ⟨?_, hobject⟩
      rw [hview, view_bare hD, view_sectioned ⟨_, hr, hrd⟩]
      rfl
    · obtain ⟨hchild, hglances⟩ := Graph.mergeInto_merged hA ho hone hi hm hr hc hrd
      constructor
      · rw [view_sectioned hchild, view_sectioned hc, view_sectioned ⟨_, hr, hrd⟩, hglances,
          hsheet (.sectioned hc) (.sectioned ⟨_, hr, hrd⟩)]
        rfl
      · obtain ⟨x, hx, hxc⟩ := hchild
        intro es hes
        cases hx.symm.trans hes
        cases hxc
    · obtain ⟨hview, hobject⟩ := hcopied fun c hc => by
        obtain ⟨y, hy, hyc⟩ := hc
        cases hx.symm.trans hy
        cases hxd.symm.trans hyc
      refine ⟨?_, hobject⟩
      rw [hview, view_other hx hxd, view_sectioned ⟨_, hr, hrd⟩]
      rfl
  · obtain ⟨n, hget, hcopy⟩ := Graph.mergeInto_copied hA ho hone hi hm hr
      fun _ d _ hd => by cases hrd.symm.trans hd
    have hbounds := ho.of_get? hr
    obtain ⟨hdict, hface⟩ := Ref.shift_other hrd fun d hd => hcopy d hd d (hbounds d hd)
    constructor
    · rw [view_other hget hdict, view_other hr hrd, hface]
      cases A.view i <;> rfl
    · intro es hes
      cases r with
      | value v =>
        rw [hget] at hes
        exact hoj.section_open es (hr.trans hes)
      | object d => cases hget.symm.trans hes

end Objects

/-! ### Names apart -/

namespace Graph
variable {i : Nat} {s : Text} {r : Ref}

theorem child_apart_iff (g : Graph) (n i c : Nat) (s : Text) :
    (g.apart n).objects.Child i (.text s) c ↔ g.objects.Child i (.text s) c := by
  unfold Objects.Child
  rw [get?_apart]
  constructor
  · rintro ⟨x, hx, hc⟩
    obtain ⟨r, hr, rfl⟩ := Option.map_eq_some_iff.1 hx
    exact ⟨r, hr, (dict?_apart g n _ r).symm.trans hc⟩
  · rintro ⟨r, hr, hc⟩
    exact ⟨_, by rw [hr, Option.map_some], (dict?_apart g n _ r).trans hc⟩

theorem face_apart (g : Graph) (n : Nat) (r : Ref) :
    ((r.renamed fun k => .nan (k + 1 + n)).face (g.apart n).objects).isNull =
      (r.face g.objects).isNull := by
  cases r with
  | value v =>
    cases v with
    | nan m => cases m <;> rfl
    | _ => rfl
  | object j =>
    simp only [Ref.renamed, Ref.face, apart, renamed, Objects.shape_renamed]
    cases g.objects.shape j <;> rfl

theorem ofKey?_renamed (name : Nat → Nat) (k : Value) :
    Setting.ofKey? (k.renamed fun n => .nan (name n)) = Setting.ofKey? k := by
  cases k with
  | nan m => cases m <;> rfl
  | _ => rfl

theorem sheet_apart (g : Graph) (n i : Nat) :
    Sheet.of ((g.apart n).objects.glances ((g.apart n).objects.entries i)) =
      Sheet.of (g.objects.glances (g.objects.entries i)) := by
  rw [entries_apart, Objects.glances, List.map_map]
  exact Sheet.of_congr (forall₂_map_same fun e _ =>
    ⟨ofKey?_renamed _ e.1, fun s => s.seen_apart g n e.2⟩)

theorem view_apart (g : Graph) (n i : Nat) :
    (g.apart n).objects.view i = g.objects.view i := by
  rcases g.objects.section_cases i with hk | ⟨c, hc⟩ | ⟨r, hr, hrd⟩
  · rw [Objects.view_bare hk, Objects.view_bare (get?_apart_none hk n), sheet_apart]
  · rw [Objects.view_sectioned hc, Objects.view_sectioned ((child_apart_iff g n i c _).2 hc),
      sheet_apart]
  · have hget := get?_apart g sectionKey n i
    rw [hr, Option.map_some] at hget
    rw [Objects.view_other hr hrd, Objects.view_other hget ((dict?_apart g n _ r).trans hrd),
      face_apart]

theorem orderly_apart {g : Graph} (h : g.objects.Orderly i) (n : Nat) :
    (g.apart n).objects.Orderly i where
  section_open := by
    intro es hes
    rw [get?_apart] at hes
    obtain ⟨r, hr, hre⟩ := Option.map_eq_some_iff.1 hes
    cases r with
    | object j => cases hre
    | value v =>
      cases v with
      | nan m => cases m <;> cases hre
      | dict fs => exact h.section_open fs hr
      | _ => cases hre
  once := by
    have hnames (j : Nat) (hj : NamedOnce (g.objects.entries j)) :
        NamedOnce ((g.apart n).objects.entries j) := by
      refine (Settings.namedOnce_congr ?_).1 hj
      rw [entries_apart, Settings.names, Settings.names, List.map_map]
      exact List.map_congr_left fun e _ => (ofKey?_renamed _ e.1).symm
    intro c hc
    cases hc with
    | bare lacks =>
      rw [get?_apart, Option.map_eq_none_iff] at lacks
      exact hnames i (h.once (.bare lacks))
    | sectioned child =>
      exact hnames c (h.once (.sectioned ((child_apart_iff g n i c _).1 child)))

end Graph

/-! ### One document over another -/

namespace Settings
variable {D L : Document} {i j : Nat} {b o : Entries}

theorem ofGraphs_gives (hD : D.Tidy) (hL : L.Tidy)
    (hi : D.graph.root.dict? D.graph.objects = some i)
    (hj : L.graph.root.dict? L.graph.objects = some j) (hone : D.Unshared L)
    (hc : D.graph.Compatible L.graph) (hb : D.settings = .dict b) (ho : L.settings = .dict o)
    (hbonce : Once (.dict b)) (hoonce : Once (.dict o)) :
    ∃ x, ofGraphs D.graph L.graph = x.mapError .setting ∧
      ((viewOf b).beneath (viewOf o)).Gives x := by
  have hA := Document.proper hi hD
  have hp := (Document.proper hj hL).apart D.graph.objects.size
  have hone := hone i j hi hj
  have hroot := Ref.dict?_object hi
  obtain ⟨b', hb', hlooks⟩ := Document.looks hi
  obtain ⟨o', ho', hlooks'⟩ := Document.looks hj
  cases hb.symm.trans hb'
  cases ho.symm.trans ho'
  have hopen := Document.openSection hi hD
  have hopen' := Document.openSection hj hL
  have hjoins := Graph.mergeInto_joins hA hp hone (.initial hA hroot) Graph.maxDepth []
  obtain ⟨a, ha⟩ := hjoins.ok_iff.2 (hc i j hi hj)
  obtain ⟨hview, hmerged⟩ := Objects.view_merged hA hp hone hroot ha
    ((hlooks.once_iff hopen).1 hbonce)
    (Graph.orderly_apart ((hlooks'.once_iff hopen').1 hoonce) _)
  let g : Graph := ⟨a, .object i, true⟩
  have hg : g.root.dict? g.objects = some i := Graph.mergeInto_dict hroot ha
  obtain ⟨root, hunfold, hlooksg⟩ := Graph.looks_unfoldEntries hg
  refine ⟨ofDocument (.shared g), ?_, ?_⟩
  · rw [ofGraphs_eq hi hj, ha]
    rfl
  · rw [← hlooks.view hopen, ← hlooks'.view hopen', ← Graph.view_apart L.graph _ j, ← hview,
      hlooksg.view hmerged, ofDocument, hunfold]
    exact gives_viewOf root

/-- One document over another gives settings as one view over the other does, if the two can
be merged. -/
theorem ofLayers_gives (hD : D.Tidy) (hL : L.Tidy)
    (hi : D.graph.root.dict? D.graph.objects = some i)
    (hj : L.graph.root.dict? L.graph.objects = some j) (hone : D.Unshared L)
    (hc : D.Compatible L) (hb : D.settings = .dict b) (ho : L.settings = .dict o)
    (hbonce : Once (.dict b)) (hoonce : Once (.dict o)) :
    ∃ x, ofLayers D L = x.mapError .setting ∧ ((viewOf b).beneath (viewOf o)).Gives x := by
  have hgraphs (hc : D.graph.Compatible L.graph) :=
    ofGraphs_gives hD hL hi hj hone hc hb ho hbonce hoonce
  cases D with
  | shared g =>
    rw [ofLayers_shared]
    exact hgraphs hc
  | plain v =>
    cases L with
    | shared g =>
      rw [ofLayers_plain_shared]
      exact hgraphs hc
    | plain w =>
      cases hb
      cases ho
      refine ⟨ofValue (.dict (Value.layEntries Value.laid b o)), ?_, ?_⟩
      · rw [ofLayers_plain, (Value.mergeEntries_ok_iff hD hL).2 ⟨hc, rfl⟩]
        rfl
      · rw [← viewOf_layEntries hD hL hc hbonce hoonce]
        exact gives_viewOf _

end Settings

end MigrationSetup
