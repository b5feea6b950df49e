import Mathlib
import MigrationSetup.Proofs.Binding
import MigrationSetup.Proofs.Loading
import MigrationSetup.Proofs.InSection

/-! Where a file puts its settings.

A file may write its settings bare at its root or in a section of their own, but which of
the two counts is decided once both files lie over one another. Two files that agree in
this give the same settings either way. Of two that differ only the one with the section
counts, and all that the other says is dropped (`load_placed`). For plain files this follows
the merge of values, for files that share parts the merge of graphs. -/
namespace MigrationSetup

/-- Where a file puts its settings. -/
inductive Place
  /-- At the root. -/
  | bare
  /-- In the section. -/
  | sectioned

/-- The entries of a file that puts `es` there. -/
def Place.write : Place → Entries → Entries
  | .bare, es => es
  | .sectioned, es => [(.text Settings.sectionKey, .dict es)]

/-- The text in JSON of a file that puts there the settings that `text` has at its root. -/
def Place.json (text : String) : Place → String
  | .bare => text
  | .sectioned => "\x7b\"migrations\": " ++ text ++ "\x7d"

namespace Value

/-- A key that neither side has does not come from laying one over the other. -/
theorem get?_mergeEntries {path : List Text} {k : Value} {b es m : Entries}
    (h : mergeEntries path b es = .ok m) (hb : Table.get? k b = none)
    (hes : Table.get? k es = none) : Table.get? k m = none := by
  induction es generalizing b with
  | nil =>
    cases h
    exact hb
  | cons e rest ih =>
    obtain ⟨l, v⟩ := e
    have hl : sameKey l k = false := Table.get?_eq_none_iff.1 hes _ List.mem_cons_self
    have hrest : Table.get? k rest = none := Table.get?_eq_none_iff.2 fun e he =>
      Table.get?_eq_none_iff.1 hes e (List.mem_cons_of_mem _ he)
    cases hn : l.hasLong with
    | true =>
      simp only [mergeEntries, hn] at h
      cases h
    | false =>
      cases hc : Table.get? l b with
      | none =>
        rw [mergeEntries_new hn hc, ← Table.put_of_new hc] at h
        exact ih h (by rw [Table.get?_put_of_ne hl, hb]) hrest
      | some c =>
        rw [mergeEntries_held hn hc] at h
        obtain ⟨w, -, h⟩ := bind_eq_ok.1 h
        exact ih h (by rw [Table.get?_put_of_ne hl, hb]) hrest

/-- Entries under keys of their own are added as they are, as long as their keys can be
named. -/
theorem mergeEntries_apart (path : List Text) {b es : Entries}
    (h : ∀ e ∈ es, Table.get? e.1 b = none) (hd : Table.Distinct es) :
    mergeEntries path b es =
      if es.any fun e => e.1.hasLong then .error .longNumber else .ok (b ++ es) := by
  induction es generalizing b with
  | nil => simp [mergeEntries]
  | cons e rest ih =>
    obtain ⟨k, v⟩ := e
    cases hn : k.hasLong with
    | true => simp [mergeEntries, hn]
    | false =>
      have hnew : ∀ e ∈ rest, Table.get? e.1 (b ++ [(k, v)]) = none := fun e he => by
        have hk : sameKey k e.1 = false := (List.pairwise_cons.1 hd).1 e he
        rw [Table.get?_append, h e (List.mem_cons_of_mem _ he)]
        simp [Table.get?, hk]
      rw [mergeEntries_new hn (h _ List.mem_cons_self), ih hnew hd.tail]
      simp only [List.any_cons, hn, Bool.false_or, List.append_assoc, List.singleton_append]

end Value

namespace Settings

/-! ### Two plain files with the same place -/

theorem mergeEntries_sections (b o : Entries) :
    Value.mergeEntries [] (Place.sectioned.write b) (Place.sectioned.write o) =
      ((Value.mergeEntries [] b o).mapError (.under [sectionKey])).map
        Place.sectioned.write := by
  have hn : (Value.text sectionKey).hasLong = false := rfl
  have hk : Table.get? (.text sectionKey) (Place.sectioned.write b) = some (.dict b) := rfl
  have hm := Value.mergeEntries_under [sectionKey] [] b o
  show Value.mergeEntries [] (Place.sectioned.write b) [(.text sectionKey, .dict o)] = _
  rw [Value.mergeEntries_held hn hk, Value.mergeValue_dicts]
  show ((Value.mergeEntries ([Text.ofString sectionKey] ++ []) b o).map Value.dict).bind _ = _
  rw [hm]
  cases Value.mergeEntries [] b o <;> rfl

/-- A section in both files gives what the same settings at both roots give, but for the
path in the message of a conflict. -/
theorem ofLayers_plain_sections {D L : Entries} (hD : Table.get? (.text sectionKey) D = none)
    (hL : Table.get? (.text sectionKey) L = none) :
    Alike (ofLayers (.plain (.dict (Place.sectioned.write D)))
        (.plain (.dict (Place.sectioned.write L))))
      (ofLayers (.plain (.dict D)) (.plain (.dict L))) := by
  rw [ofLayers_plain, ofLayers_plain, mergeEntries_sections]
  cases hm : Value.mergeEntries [] D L with
  | error e => exact .rejected (by cases e <;> rfl)
  | ok m =>
    have hk := Value.get?_mergeEntries hm hD hL
    have hs : Table.get? (.text sectionKey) (Place.sectioned.write m) = some (.dict m) := rfl
    show Alike ((ofValue (.dict (Place.sectioned.write m))).mapError .setting)
      ((ofValue (.dict m)).mapError .setting)
    rw [ofValue_section hs, ofValue_bare hk]
    exact .same _

/-! ### Two plain files that differ -/

theorem ofLayers_plain_bare_section {D : Entries} (hD : Table.get? (.text sectionKey) D = none)
    (L : Entries) :
    ofLayers (.plain (.dict D)) (.plain (.dict (Place.sectioned.write L))) =
      (ofEntries L).mapError .setting := by
  have hn : (Value.text sectionKey).hasLong = false := rfl
  have hs : Table.get? (.text sectionKey) (D ++ Place.sectioned.write L) = some (.dict L) := by
    rw [Table.get?_append, hD]
    rfl
  rw [ofLayers_plain, Place.write, Value.mergeEntries_new hn hD]
  show (ofValue (.dict (D ++ Place.sectioned.write L))).mapError _ = _
  rw [ofValue_section hs]

theorem ofLayers_plain_section_bare (D : Entries) {L : Entries}
    (hL : Table.get? (.text sectionKey) L = none) (hd : Table.Distinct L) :
    ofLayers (.plain (.dict (Place.sectioned.write D))) (.plain (.dict L)) =
      if L.any fun e => e.1.hasLong then .error (.setting .longNumber)
      else (ofEntries D).mapError .setting := by
  have hnew : ∀ e ∈ L, Table.get? e.1 (Place.sectioned.write D) = none := fun e he => by
    have hk := Table.get?_eq_none_iff.1 hL e he
    rw [Value.sameKey_comm] at hk
    exact Table.get?_eq_none_iff.2 fun f hf => by rw [List.mem_singleton.1 hf, hk]
  have hs : Table.get? (.text sectionKey) (Place.sectioned.write D ++ L) = some (.dict D) := rfl
  rw [ofLayers_plain, Value.mergeEntries_apart [] hnew hd]
  split
  · rfl
  · show (ofValue (.dict (Place.sectioned.write D ++ L))).mapError _ = _
    rw [ofValue_section hs]

/-! ### Files of any kind -/

section
variable {d d' o o' : Document} (hd : d.InSection d') (ho : o.InSection o')
  {R N S M : Nat → Nat → Prop} {b b' w c c' v : Nat} (hg : d.Sectioned R N d' b b' w)
  (hs : o.Sectioned S M o' c c' v)
include hd ho hg hs

theorem ofLayers_sections (hne : ofLayers d' o' ≠ .error .endlessMerge)
    (hroot : ¬ d.HoldsRoot) : Alike (ofLayers d' o') (ofLayers d o) := by
  have hgraphs (h : ofLayers d' o' = ofGraphs d'.graph o'.graph)
      (h' : ofLayers d o = ofGraphs d.graph o.graph) : Alike (ofLayers d' o') (ofLayers d o) := by
    rw [h] at hne ⊢
    rw [h']
    exact ofGraphs_sections hg.same hg.names hs.same (hg.unheld hroot) hne
  cases hd with
  | shared => exact hgraphs (ofLayers_shared _ _) (ofLayers_shared _ _)
  | plain hD =>
    cases ho with
    | shared => exact hgraphs (ofLayers_plain_shared _ _) (ofLayers_plain_shared _ _)
    | plain hL => exact ofLayers_plain_sections hD hL

theorem ofLayers_bare_section :
    Alike (ofLayers d o') ((ofDocument o).mapError .setting) := by
  have hgraphs (h : ofLayers d o' = ofGraphs d.graph o'.graph) :
      Alike (ofLayers d o') ((ofDocument o).mapError .setting) := by
    rw [h, ← hs.settings]
    exact ofGraphs_bare_section hg.same.root hg.same.bare hs.same
  cases hd with
  | shared => exact hgraphs (ofLayers_shared _ _)
  | plain hD =>
    cases ho with
    | shared => exact hgraphs (ofLayers_plain_shared _ _)
    | @plain L hL =>
      show Alike (ofLayers _ (.plain (.dict (Place.sectioned.write L)))) _
      rw [ofLayers_plain_bare_section hD L, ofDocument, ofValue_bare hL]
      exact .same _

theorem ofLayers_section_bare (ht : o.Tidy) :
    Alike (ofLayers d' o) (if o.keys.any Value.hasLong then .error (.setting .longNumber)
      else (ofDocument d).mapError .setting) := by
  have hkeys : o.keys.any Value.hasLong =
      (o.graph.objects.entries c).any fun e => e.1.hasLong := by
    rw [← hs.keys, Table.keys, List.any_map]
    rfl
  have hgraphs (h : ofLayers d' o = ofGraphs d'.graph o.graph) :
      Alike (ofLayers d' o) (if o.keys.any Value.hasLong then .error (.setting .longNumber)
        else (ofDocument d).mapError .setting) := by
    rw [h, hkeys, ← hg.settings]
    exact ofGraphs_section_bare hg.same hs.same.root hs.same.bare hs.distinct
  cases hd with
  | shared => exact hgraphs (ofLayers_shared _ _)
  | @plain D hD =>
    cases ho with
    | shared => exact hgraphs (ofLayers_plain_shared _ _)
    | @plain L hL =>
      have htidy : Value.Tidy (.dict L) := ht
      have hany : (Document.plain (.dict L)).keys.any Value.hasLong =
          L.any fun e => e.1.hasLong := List.any_map
      show Alike (ofLayers (.plain (.dict (Place.sectioned.write D))) _) _
      rw [ofLayers_plain_section_bare D hL htidy.distinct, hany, ofDocument, ofValue_bare hD]
      exact .same _

end

/-- **Which file counts if the files differ in where they put their settings.** Two files
that write them in the same place give the same in either place, unless their merge does not
end or a dict in the lower one holds the whole file. If only one of them has a section, that
one counts alone. So it is all one where two files put their settings exactly if what they
give together is also what each of them gives without the other. -/
theorem load_placed {D L : Place → Document} (hD : (D .bare).InSection (D .sectioned))
    (hL : (L .bare).InSection (L .sectioned)) {files : Place → Place → FileSystem} {p q : Path}
    (hp : ∀ a b, (files a b).settingsFile p = .ok (D a))
    (hq : ∀ a b, (files a b).settingsFile q = .ok (L b)) :
    let loaded (a b : Place) := load (files a b) (some p) (some q)
    let settled := loaded .sectioned .sectioned ≠ .error .endlessMerge ∧ ¬ (D .bare).HoldsRoot
    (settled → Alike (loaded .sectioned .sectioned) (loaded .bare .bare)) ∧
    Alike (loaded .bare .sectioned) ((ofDocument (L .bare)).mapError .setting) ∧
    Alike (loaded .sectioned .bare)
      (if (L .bare).keys.any Value.hasLong then .error (.setting .longNumber)
        else (ofDocument (D .bare)).mapError .setting) ∧
    (settled → ((∀ a b a' b', Alike (loaded a b) (loaded a' b')) ↔
      Alike (loaded .bare .bare) (loaded .bare .sectioned) ∧
        Alike (loaded .bare .bare) (loaded .sectioned .bare))) := by
  intro loaded settled
  have hload : ∀ a b, loaded a b = ofLayers (D a) (L b) :=
    fun a b => load_eq_ofLayers (hp a b) (hq a b)
  have htidyD : ∀ a, (D a).Tidy := fun a => FileSystem.settingsFile_tidy (hp a .bare)
  have htidyL : ∀ b, (L b).Tidy := fun b => FileSystem.settingsFile_tidy (hq .bare b)
  obtain ⟨R, N, b, b', w, hg⟩ := hD.sectioned (htidyD _) (htidyD _)
  obtain ⟨S, M, c, c', v, hs⟩ := hL.sectioned (htidyL _) (htidyL _)
  have hss : settled → Alike (loaded .sectioned .sectioned) (loaded .bare .bare) := by
    rintro ⟨hne, hroot⟩
    rw [hload] at hne
    rw [hload, hload]
    exact ofLayers_sections hD hL hg hs hne hroot
  have hbs : Alike (loaded .bare .sectioned) ((ofDocument (L .bare)).mapError .setting) := by
    rw [hload]
    exact ofLayers_bare_section hD hL hg hs
  have hsb : Alike (loaded .sectioned .bare)
      (if (L .bare).keys.any Value.hasLong then .error (.setting .longNumber)
        else (ofDocument (D .bare)).mapError .setting) := by
    rw [hload]
    exact ofLayers_section_bare hD hL hg hs (htidyL _)
  refine ⟨hss, hbs, hsb, fun h => ⟨fun hall => ⟨hall _ _ _ _, hall _ _ _ _⟩, ?_⟩⟩
  rintro ⟨hone, hother⟩
  have hall : ∀ a b, Alike (loaded .bare .bare) (loaded a b) := fun a b => by
    cases a <;> cases b
    · exact .same _
    · exact hone
    · exact hother
    · exact (hss h).symm
  exact fun a b a' b' => (hall a b).symm.trans (hall a' b')

/-- Defaults that turn the preparation off, and a local file that names a database. With a
section in the local file alone the preparation is on again. -/
theorem load_placed_switched_on :
    let D (a : Place) : Document := .plain (.dict (a.write [(.text "enabled", .bool false)]))
    let L (b : Place) : Document := .plain (.dict (b.write [(.text "database", .text "movies")]))
    let files (a b : Place) := FileSystem.ofPair (Place.json "\x7b\"enabled\": false\x7d" a)
      (Place.json "\x7b\"database\": \"movies\"\x7d" b)
    let loaded (a b : Place) :=
      load (files a b) (some FileSystem.defaultsPath) (some FileSystem.localPath)
    (D .bare).InSection (D .sectioned) ∧ (L .bare).InSection (L .sectioned) ∧
      (∀ a b, (files a b).settingsFile FileSystem.defaultsPath = .ok (D a)) ∧
      (∀ a b, (files a b).settingsFile FileSystem.localPath = .ok (L b)) ∧
      loaded .bare .bare = .ok ⟨false, true, ⟨none, none, none, .text "movies", .null⟩⟩ ∧
      Alike (loaded .bare .sectioned)
        (.ok ⟨true, true, ⟨none, none, none, .text "movies", .null⟩⟩) := by
  intro D L files loaded
  have hD : (D .bare).InSection (D .sectioned) := .plain rfl
  have hL : (L .bare).InSection (L .sectioned) := .plain rfl
  have hp : ∀ a b, (files a b).settingsFile FileSystem.defaultsPath = .ok (D a) := by
    intro a b
    apply FileSystem.settingsFile_defaults
    cases a
    · cbv
    · cbv
  have hq : ∀ a b, (files a b).settingsFile FileSystem.localPath = .ok (L b) := by
    intro a b
    apply FileSystem.settingsFile_local
    cases b
    · cbv
    · cbv
  have hbb : loaded .bare .bare = .ok ⟨false, true, ⟨none, none, none, .text "movies", .null⟩⟩ :=
    (load_eq_ofLayers (hp _ _) (hq _ _)).trans rfl
  exact ⟨hD, hL, hp, hq, hbb, (load_placed hD hL hp hq).2.1⟩

end Settings
end MigrationSetup
