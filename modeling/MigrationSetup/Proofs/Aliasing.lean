import Mathlib
import MigrationSetup.Proofs.Sharing
import MigrationSetup.Proofs.Visiting

/-! Files that use a part of themselves in several places.

A part that stands in several places of a file is one object, and what is laid over one of
these places shows in the others. Files load as they would with a copy in each place, unless a
dict that the local file changes stands in two places (`Settings.load_expanded`). Where one
does, what is laid over one key changes what stands under another
(`Settings.shared_part_changes`). -/
namespace MigrationSetup

namespace Document
variable {D L : Document}

/-- The merge of two documents gives what means the same as that of the two with copies in all
places, or it fails with the same error, unless it does not end. -/
inductive Expands : Except Failure Document → Except Failure Document → Prop
  | done {M : Document} (grounded : M.Grounded) : Expands (.ok M) (.ok M.expanded)
  | failed (e : SettingError) : Expands (.error (.setting e)) (.error (.setting e))
  | endless (x : Except Failure Document) : Expands (.error .endlessMerge) x

theorem expands_graphs {i j : Nat} (hD : D.Tidy) (hL : L.Tidy) (hgD : D.Grounded)
    (hgL : L.Grounded) (halone : D.Alone L)
    (hi : D.graph.root.dict? D.graph.objects = some i)
    (hj : L.graph.root.dict? L.graph.objects = some j) :
    Expands ((D.graph.merge L.graph).map .shared) (D.expanded.merge L.expanded) := by
  have hroot := Ref.dict?_object hi
  have hsides := sides hD hL hi hj
  have hmeeting : Graph.Meeting D.graph.objects (L.graph.apart D.graph.objects.size).objects i j :=
    ⟨halone i j hi hj, (grounded_root hL hgL hj).renamed _⟩
  have hfollows : Graph.Follows D.graph.objects i D.graph.objects :=
    ⟨.refl _, sound hD, grounded_root hD hgD hi⟩
  have htracks := @Graph.mergeInto_tracks _ _ _ Graph.maxDepth _ _ hsides hmeeting
    (.initial hsides.base hroot) hfollows []
  rw [Objects.meanings_apart] at htracks
  rw [Graph.merge_eq hi hj, expanded_eq hD hgD hi, expanded_eq hL hgL hj]
  simp only [merge, Value.merge]
  generalize hm : Graph.mergeInto _ Graph.maxDepth [] i _ D.graph.objects = x at htracks ⊢
  generalize Value.mergeEntries [] _ _ = y at htracks ⊢
  cases htracks with
  | failed e => exact .failed e
  | endless => exact .endless _
  | @done b h =>
    have hb : (Ref.object i).dict? b = some i := Graph.mergeInto_dict hroot hm
    have hexpanded : (shared ⟨b, .object i, true⟩).expanded =
        plain (.dict (b.meanings (b.entries i))) := congrArg plain (Ref.meaning_dict h.grounded hb)
    have hdone : Expands _ _ := .done (M := shared ⟨b, .object i, true⟩) h.grounded
    rw [hexpanded] at hdone
    exact hdone

/-- Documents are merged as with copies in all places. -/
theorem merge_expands {i j : Nat} (hD : D.Tidy) (hL : L.Tidy) (hgD : D.Grounded)
    (hgL : L.Grounded) (halone : D.Alone L)
    (hi : D.graph.root.dict? D.graph.objects = some i)
    (hj : L.graph.root.dict? L.graph.objects = some j) :
    Expands (D.merge L) (D.expanded.merge L.expanded) := by
  have hgraphs := expands_graphs hD hL hgD hgL halone hi hj
  cases D with
  | shared g => exact hgraphs
  | plain v =>
    cases L with
    | shared g => exact hgraphs
    | plain w =>
      show Expands (((Value.merge v w).map plain).mapError .setting)
        (((Value.merge v w).map plain).mapError .setting)
      cases Value.merge v w with
      | error e => exact .failed e
      | ok m => exact .done (M := plain m) trivial

theorem expanded_plain (d : Document) : ∃ v, d.expanded = plain v := by
  cases d with
  | plain v => exact ⟨v, rfl⟩
  | shared g => exact ⟨_, rfl⟩

/-- Over a document without content nothing meets anything. -/
theorem empty_merge_ends {j : Nat} (hL : L.Tidy)
    (hj : L.graph.root.dict? L.graph.objects = some j) :
    empty.merge L ≠ .error .endlessMerge := by
  cases L with
  | plain w =>
    show ((Value.merge (.dict []) w).map plain).mapError Failure.setting ≠ _
    cases Value.merge (.dict []) w <;> exact nofun
  | shared g =>
    have hroot := Graph.root_ofValue []
    have hgj : g.root.dict? g.objects = some j := hj
    let o := (g.apart (Graph.ofValue (.dict [])).objects.size).objects
    have hdistinct : Table.Distinct (o.entries j) := ((proper hj hL).apart _).distinct j
    have hends := Graph.mergeInto_apart (o := o) 999 [] (Ref.lt_size_of_dict? hroot) hdistinct
      fun e _ => Graph.bare_ofValue rfl
    show ((Graph.ofValue (.dict [])).merge g).map shared ≠ _
    rw [Graph.merge_eq hroot hgj, Graph.maxDepth]
    rcases hends with ⟨-, hm⟩ | ⟨-, a, hm, -⟩
    · rw [hm]
      intro h
      cases h
    · rw [hm]
      intro h
      cases h

end Document

/-- A tidy value holds no key twice. -/
theorem Value.Tidy.keyed {v : Value} (h : v.Tidy) : v.Keyed := by
  induction h with
  | dict distinct _ _ ih => exact .dict distinct ih
  | other plain _ => exact .other plain

/-- What the override leaves alone at a place keeps its value in the merge. -/
theorem Value.merge_leaves {v w m : Value} (hv : v.Tidy) (hw : w.Tidy) (h : merge v w = .ok m)
    {path : List Value} {b o : Entries} (hb : v.at? path = some (.dict b))
    (ho : w.at? path = some (.dict o)) {k : Value} (hk : Table.get? k o = none) :
    ∃ m', m.at? path = some (.dict m') ∧ Table.get? k m' = Table.get? k b := by
  obtain ⟨es, rfl⟩ := exists_dict_of_at? hb
  obtain ⟨fs, rfl⟩ := exists_dict_of_at? ho
  obtain ⟨ms, -, rfl⟩ := map_eq_ok.1 h
  obtain ⟨m', hm', hlaid⟩ := laidOver_at hv.keyed hw.keyed h hb ho
  exact ⟨m', hm', hlaid.only_base hk⟩

/-! ### A text with an alias -/

theorem Document.ofYaml_of_nodes {s : Yaml.Source} {nodes : Yaml.Nodes} {g : Graph}
    (hn : Yaml.Nodes.ofTokens (Yaml.Tokens.ofSource s) = .ok (some nodes))
    (hg : nodes.graph = .ok g) : Document.ofYaml s = .ok (.ofGraph g) := by
  simp only [ofYaml, hn]
  show (nodes.graph.mapError Failure.yaml >>= _) = _
  rw [hg]
  rfl

/-- A text in which the section stands under another key as well. -/
def aliasText : String := "migrations: &b \x7b\x7d\napp: *b\n"

/-- What the text says. -/
def aliasGraph : Graph :=
  ⟨#[.dict [(.text "migrations", .object 2), (.text "app", .object 2)], .list [], .dict [],
    .list []], .object 0, true⟩

theorem ofYaml_aliasText :
    Document.ofYaml (.ofBytes (Text.Utf8.encode aliasText.toList)) = .ok (.shared aliasGraph) := by
  have hnodes : ((Yaml.Nodes.ofTokens (Yaml.Tokens.ofSource (.ofBytes (Text.Utf8.encode
      "migrations: &b \x7b\x7d\napp: *b\n".toList)))).map
        fun nodes => nodes.map fun nodes => (nodes.table, nodes.root)) =
      .ok (some (#[⟨.map, .mapping [(1, 2), (3, 2)]⟩, ⟨.str, .scalar "migrations".toList⟩,
        ⟨.map, .mapping []⟩, ⟨.str, .scalar "app".toList⟩], 0)) := by
    decide +kernel
  have hgraph : (Yaml.Nodes.mk #[⟨.map, .mapping [(1, 2), (3, 2)]⟩,
      ⟨.str, .scalar "migrations".toList⟩, ⟨.map, .mapping []⟩,
      ⟨.str, .scalar "app".toList⟩] 0).graph = .ok aliasGraph := by
    cbv
  obtain ⟨nodes?, hread, hmap⟩ := map_eq_ok.1 hnodes
  obtain ⟨⟨table, root⟩, rfl, h⟩ := Option.map_eq_some_iff.1 hmap
  obtain ⟨rfl, rfl⟩ := Prod.mk.inj h
  exact Document.ofYaml_of_nodes hread hgraph

theorem grounded_aliasGraph : aliasGraph.root.Grounded aliasGraph.objects := by
  have hsection : (Ref.object 2).Grounded aliasGraph.objects := .object nofun
  refine .object fun e he => ?_
  rcases List.mem_pair.1 he with rfl | rfl
  · exact hsection
  · exact hsection

namespace Settings
variable {D L : Document}

/-- Layers give what they give with copies in all places, if their merge ends. -/
theorem ofLayers_of_expands {x y : Except Failure Document} (h : Document.Expands x y)
    (hends : x ≠ .error .endlessMerge) :
    Alike (x >>= fun M => (ofDocument M).mapError .setting)
      (y >>= fun M => (ofDocument M).mapError .setting) := by
  cases h with
  | done grounded => exact ofDocument_expanded grounded
  | failed e => exact .same _
  | endless => exact absurd rfl hends

theorem load_defaults {fs : FileSystem} {p : Path} (hp : fs.settingsFile p = .ok D) :
    load fs (some p) none = (ofDocument D).mapError .setting := by
  simp only [load, FileSystem.settingsFiles, Option.map_some, Option.getD_some, hp]
  rfl

theorem load_local {fs : FileSystem} {q : Path} (hq : fs.settingsFile q = .ok L) :
    load fs none (some q) = ofLayers .empty L := by
  have hfiles : fs.settingsFiles none (some q) = Document.empty.merge L := by
    simp only [FileSystem.settingsFiles, exists_of_settingsFile hq, hq]
    rfl
  rw [load, hfiles]
  rfl

/-- **Files with aliases load as with copies.** Two files that use parts of themselves in several
places load as two files do that have a copy in each place, unless a dict of the lower file that
the upper one changes stands in two places, or their merge does not end. Each of them alone always
does. What is merged means what the merge of the copies gives, so at every place to dicts on both
sides what the upper file leaves alone keeps its value. -/
theorem load_expanded {fs fs' : FileSystem} {p q p' q' : Path}
    (hp : fs.settingsFile p = .ok D) (hq : fs.settingsFile q = .ok L)
    (hp' : fs'.settingsFile p' = .ok D.expanded) (hq' : fs'.settingsFile q' = .ok L.expanded)
    (hD : D.Grounded) (hL : L.Grounded) (halone : D.Alone L)
    (hends : load fs (some p) (some q) ≠ .error .endlessMerge) :
    Alike (load fs (some p) (some q)) (load fs' (some p') (some q')) ∧
    Alike (load fs (some p) none) (load fs' (some p') none) ∧
    Alike (load fs none (some q)) (load fs' none (some q')) ∧
    (D.merge L).map Document.expanded = D.expanded.merge L.expanded ∧
    ∀ M path b o k, D.merge L = .ok M → D.expanded.value.at? path = some (.dict b) →
      L.expanded.value.at? path = some (.dict o) → Table.get? k o = none →
        ∃ m, M.expanded.value.at? path = some (.dict m) ∧ Table.get? k m = Table.get? k b := by
  have tD : D.Tidy := FileSystem.settingsFile_tidy hp
  have tL : L.Tidy := FileSystem.settingsFile_tidy hq
  obtain ⟨i, hi⟩ := Document.exists_root hp
  obtain ⟨j, hj⟩ := Document.exists_root hq
  have hexpands := Document.merge_expands tD tL hD hL halone hi hj
  have hmerge : D.merge L ≠ .error .endlessMerge := by
    intro h
    rw [load_eq_ofLayers hp hq, ofLayers, h] at hends
    exact hends rfl
  have hequal : (D.merge L).map Document.expanded = D.expanded.merge L.expanded := by
    generalize D.merge L = x at hexpands hmerge
    generalize D.expanded.merge L.expanded = y at hexpands
    cases hexpands with
    | done => rfl
    | failed e => rfl
    | endless => exact absurd rfl hmerge
  refine ⟨?_, ?_, ?_, hequal, fun M path b o k hM hb ho hk => ?_⟩
  · rw [load_eq_ofLayers hp hq, load_eq_ofLayers hp' hq']
    exact ofLayers_of_expands hexpands hmerge
  · rw [load_defaults hp, load_defaults hp']
    exact ofDocument_expanded hD
  · rw [load_local hq, load_local hq']
    have hempty : Document.empty.Tidy := Value.tidy_empty
    exact ofLayers_of_expands (Document.merge_expands hempty tL trivial hL
      (Document.alone_plain hempty L) (Graph.root_ofValue []) hj)
      (Document.empty_merge_ends tL hj)
  · obtain ⟨v, hv⟩ := D.expanded_plain
    obtain ⟨w, hw⟩ := L.expanded_plain
    have tv := Document.expanded_tidy tD
    have tw := Document.expanded_tidy tL
    rw [hv] at hb tv
    rw [hw] at ho tw
    rw [hM, hv, hw] at hequal
    have hvalues : ((Value.merge v w).map Document.plain).mapError Failure.setting =
        .ok M.expanded := hequal.symm
    obtain ⟨m, hm, hplain⟩ := map_eq_ok.1 (mapError_eq_ok.1 hvalues)
    rw [← hplain]
    exact Value.merge_leaves tv tw hm hb ho hk

/-- The section stands under another key as well, and under that key something else is put. -/
theorem load_expanded_alias :
    let change := "\x7b\"app\": null\x7d"
    let p : Path := ⟨.here, ["defaults.yaml"]⟩
    let q : Path := FileSystem.localPath
    let fs : FileSystem :=
      ⟨.directory [("defaults.yaml", .file (Text.Utf8.encode aliasText.toList)),
        ("local.json", .file (Text.Utf8.encode change.toList))], []⟩
    let fs' := FileSystem.ofPair "\x7b\"migrations\": \x7b\x7d, \"app\": \x7b\x7d\x7d" change
    let D : Document := .shared aliasGraph
    let L : Document := .plain (.dict [(.text "app", .null)])
    fs.settingsFile p = .ok D ∧ fs.settingsFile q = .ok L ∧
      fs'.settingsFile FileSystem.defaultsPath = .ok D.expanded ∧
      fs'.settingsFile q = .ok L.expanded ∧ D.Grounded ∧ L.Grounded ∧ D.Alone L ∧
      load fs (some p) (some q) ≠ .error .endlessMerge ∧
      Alike (load fs (some p) (some q)) (load fs' (some FileSystem.defaultsPath) (some q)) := by
  intro change p q fs fs' D L
  have hp : fs.settingsFile p = .ok D :=
    have hf : Format.ofSuffix? p.suffix = some .yaml := by decide
    FileSystem.settingsFile_of_lookup (by decide)
      (FileSystem.lookup_current (by decide) (by decide) rfl) hf ofYaml_aliasText rfl
  have hlocal : Format.read .json (Text.Utf8.encode
      "\x7b\"app\": null\x7d".toList) = .ok L := by
    cbv
  have hq : fs.settingsFile q = .ok L :=
    have hf : Format.ofSuffix? q.suffix = some .json := by decide
    FileSystem.settingsFile_of_lookup (by decide)
      (FileSystem.lookup_current (by decide) (by decide) rfl) hf hlocal rfl
  have hexpanded : D.expanded =
      .plain (.dict [(.text "migrations", .dict []), (.text "app", .dict [])]) := by
    cbv
  have hp' : fs'.settingsFile FileSystem.defaultsPath = .ok D.expanded := by
    rw [hexpanded]
    exact FileSystem.settingsFile_defaults _ (by cbv)
  have hq' : fs'.settingsFile q = .ok L.expanded := FileSystem.settingsFile_local _ hlocal
  have halone : D.Alone L := by
    refine Document.alone_of_flat (FileSystem.settingsFile_tidy hp) grounded_aliasGraph ?_
    intro j hj e he
    cases (Graph.root_ofValue _).symm.trans hj
    cases List.mem_singleton.1 he
    rfl
  have hends : load fs (some p) (some q) ≠ .error .endlessMerge := by
    have hlayers : ofLayers (.shared aliasGraph) (.plain (.dict [(.text "app", .null)])) =
        .ok standard := by
      cbv
    rw [load_eq_ofLayers hp hq, hlayers]
    intro h
    cases h
  exact ⟨hp, hq, hp', hq', grounded_aliasGraph, trivial, halone, hends,
    (load_expanded hp hq hp' hq' grounded_aliasGraph trivial halone hends).1⟩

/-- Where the section stands under another key as well, what is laid over that key changes the
settings, and with copies it does not. -/
theorem shared_part_changes :
    let D : Document := .shared
      ⟨#[.dict [(.text "base", .object 1), (.text sectionKey, .object 1)],
        .dict [(.text "database", .value (.text "movies"))]], .object 0, true⟩
    let L : Document := .plain (.dict [(.text "base", .dict [(.text "database", .text "other")])])
    let named (database : String) : Settings :=
      { standard with options := { standard.options with database := .text database } }
    D.Grounded ∧ ¬D.Alone L ∧ ofLayers D L = .ok (named "other") ∧
      ofLayers D.expanded L.expanded = .ok (named "movies") := by
  intro D L named
  have hexpanded : D.expanded = .plain (.dict
      [(.text "base", .dict [(.text "database", .text "movies")]),
        (.text sectionKey, .dict [(.text "database", .text "movies")])]) := by
    cbv
  have hmerge : D.graph.merge L.graph = .ok
      ⟨#[.dict [(.text "base", .object 1), (.text sectionKey, .object 1)],
        .dict [(.text "database", .value (.text "other"))]], .object 0, true⟩ := by
    cbv
  have hgrounded : D.Grounded := by
    have hvalues : (Ref.object 1).Grounded D.graph.objects :=
      .object fun e he => by
        rw [List.mem_singleton.1 he]
        exact .value _
    refine .object fun e he => ?_
    rcases List.mem_pair.1 he with rfl | rfl
    · exact hvalues
    · exact hvalues
  -- The changed dict is reached under either key.
  have htwice : ¬D.Alone L := by
    intro h
    have hentries : (L.graph.apart D.graph.objects.size).objects.entries 1 =
        [(.text "base", .object 0)] := by
      cbv
    have hdict : (Ref.object 0).dict? (L.graph.apart D.graph.objects.size).objects = some 0 := by
      cbv
    have hmem : (.text "base", .object 0) ∈
        (L.graph.apart D.graph.objects.size).objects.entries 1 := by
      rw [hentries]
      exact List.mem_singleton.2 rfl
    have hchild : D.graph.objects.Child 0 (.text "base") 1 := ⟨.object 1, rfl, rfl⟩
    have hbase : D.graph.objects.Way 0 [some (.text "base")] 1 :=
      .within List.mem_cons_self (.here 1)
    have hsection : D.graph.objects.Way 0 [some (.text sectionKey)] 1 :=
      .within (List.mem_pair.2 (.inr rfl)) (.here 1)
    have hways := h 0 1 rfl rfl (.within hmem hdict hchild (.here 1 0)) hbase hsection
    simp [sectionKey] at hways
  refine ⟨hgrounded, htwice, ?_, ?_⟩
  · rw [ofLayers_shared]
    show (D.graph.merge L.graph >>= _) = _
    rw [hmerge]
    rfl
  · rw [hexpanded]
    rfl

end Settings
end MigrationSetup
