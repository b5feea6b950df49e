import Mathlib
import MigrationSetup.Proofs.Grammar
import MigrationSetup.Proofs.Uniting

/-! Two files that are each in order.

Files that bind on their own need not load together. Three things can go wrong: two values
meet of which one does not give way to the other, a key that becomes part of a path is too
long a number, or where both write their settings in one place the overlay does not bind
(`load_valid_files`). Where a dict of the lower file stands in two places what is laid over one
of them shows in the other, and more can go wrong. Files without aliases whose upper one has no
such keys and spells each setting once load together exactly if the lower one gives way wherever
they meet (`load_unaliased_files`). Of the values that a setting takes, the only one that does not
give way is the name of a truth value to a truth value (`yieldsTo_of_accepts`). -/
namespace MigrationSetup

namespace Value

/-- Wherever dicts on both sides lead to a value, that of the base gives way. -/
def YieldsThroughout (base override : Value) : Prop :=
  ∀ {path c v}, Meets base override path c v → c.yieldsTo v = true

/-- All keys of a dict, and of the dicts in it, can be written out. -/
inductive Named : Value → Prop
  | dict {es : Entries} (keys : ∀ e ∈ es, e.1.hasLong = false) (parts : ∀ e ∈ es, Named e.2) :
    Named (.dict es)
  | other {v : Value} (plain : ∀ es, v ≠ .dict es) : Named v

theorem Named.of_dict {es : Entries} (h : Named (.dict es)) :
    (∀ e ∈ es, e.1.hasLong = false) ∧ ∀ e ∈ es, Named e.2 := by
  cases h with
  | dict keys parts => exact ⟨keys, parts⟩
  | other plain => exact absurd rfl (plain es)

theorem Named.of_meets {base override c v : Value} {path : List Text} (h : Named override)
    (hm : Meets base override path c v) : Named v := by
  induction hm with
  | here => exact h
  | within mem _ _ ih => exact ih (h.of_dict.2 _ mem)

/-- Where all keys can be written out, giving way is enough. -/
theorem Named.compatible_iff {base override : Value} (h : Named override) :
    Compatible base override ↔ YieldsThroughout base override :=
  ⟨fun hc => hc.yields, fun hy => ⟨hy, fun hm => (h.of_meets hm).of_dict.1⟩⟩

end Value

namespace Setting

/-- The settings that are yes or no. -/
def isSwitch (s : Setting) : Bool := s == .enabled || s == .checkLocation

/-- What a setting takes is nothing, something read as a list, or a truth value. A file has
no tuples there. -/
theorem kinds_of_accepts {s : Setting} {v : Value} (h : s.accepts v = true)
    (ht : v.kind ≠ .tuple) :
    v = .null ∨ v.isListed = true ∨ (v.isBool = true ∧ s.isSwitch = true) := by
  cases v with
  | null => exact .inl rfl
  | bool b =>
    cases s with
    | enabled => exact .inr (.inr ⟨rfl, rfl⟩)
    | checkLocation => exact .inr (.inr ⟨rfl, rfl⟩)
    | _ => cases h
  | text t => exact .inr (.inl rfl)
  | mode m => exact .inr (.inl rfl)
  | list xs => exact .inr (.inl rfl)
  | tuple xs => exact absurd rfl ht
  | _ => cases s <;> cases h

theorem isText_of_accepts {s : Setting} {v : Value} (h : s.accepts v = true)
    (hs : s.isSwitch = true) (hv : v.isListed = true) : v.isText = true := by
  cases v with
  | text t => rfl
  | mode m => rfl
  | list xs =>
    cases s with
    | enabled => cases h
    | checkLocation => cases h
    | _ => cases hs
  | loop isList =>
    cases s <;> cases h
  | _ => cases hv

/-- Of two values that a setting takes, and that a file can hold there, the first gives way
unless it is a text and the second a truth value. -/
theorem yieldsTo_of_accepts {s : Setting} {c v : Value} (hc : s.accepts c = true)
    (hv : s.accepts v = true) (htc : c.kind ≠ .tuple) (htv : v.kind ≠ .tuple) :
    c.yieldsTo v = false ↔ c.isText = true ∧ v.isBool = true := by
  rcases kinds_of_accepts hv htv with rfl | hvl | ⟨hvb, hs⟩
  · exact ⟨fun h => (by cases h), fun h => (by cases h.2)⟩
  · -- A text, or something else that is read as a list, is taken.
    have hyes : c.yieldsTo v = true := by
      rcases kinds_of_accepts hc htc with rfl | hcl | ⟨hcb, hs⟩
      · simp [Value.yieldsTo, Value.isNull]
      · simp [Value.yieldsTo, Value.replaces, hvl, hcl]
      · simp [Value.yieldsTo, Value.replaces, hcb, isText_of_accepts hv hs hvl]
    have hnb : v.isBool = false := by
      cases v <;> first | rfl | cases hvl
    rw [hyes, hnb]
    exact ⟨fun h => (by cases h), fun h => (by cases h.2)⟩
  · -- A truth value is taken where a truth value stands, or nothing.
    obtain ⟨b, rfl⟩ : ∃ b, v = .bool b := by
      cases v with
      | bool b => exact ⟨b, rfl⟩
      | _ => cases hvb
    rcases kinds_of_accepts hc htc with rfl | hcl | ⟨hcb, -⟩
    · exact ⟨fun h => (by cases h), fun h => (by cases h.1)⟩
    · have hct := isText_of_accepts hc hs hcl
      refine ⟨fun _ => ⟨hct, rfl⟩, fun _ => ?_⟩
      rcases Value.isText_iff.1 hct with ⟨t, rfl⟩ | ⟨m, rfl⟩ <;> rfl
    · cases c with
      | bool c => exact ⟨fun h => (by cases h), fun h => (by cases h.1)⟩
      | _ => cases hcb

end Setting

namespace Settings

/-- One dict laid over another binds, if both bind on their own and do not both write their
settings in one place. -/
theorem merged_binds_iff {D L : Entries} {d l : Settings} (hD : Value.Tidy (.dict D))
    (hL : Value.Tidy (.dict L)) (hc : Value.Compatible (.dict D) (.dict L))
    (hd : ofValue (.dict D) = .ok d) (hl : ofValue (.dict L) = .ok l) :
    (∃ s, ofValue (.dict (Value.layEntries Value.laid D L)) = .ok s) ↔
      ∀ b o, SamePlace (.dict D) (.dict L) b o → ∃ s, ofEntries (overlay b o) = .ok s := by
  have hget := Value.get?_layEntries Value.laid (.text sectionKey) D L
  -- What one of the two alone decides binds as it does on its own.
  have halone {es : Entries} {s : Settings} {x : Value}
      (hk : Table.get? (.text sectionKey) es = some x) (hs : ofValue (.dict es) = .ok s)
      (hx : Table.get? (.text sectionKey) (Value.layEntries Value.laid D L) = some x) :
      ∃ s, ofValue (.dict (Value.layEntries Value.laid D L)) = .ok s :=
    ⟨s, (ofValue_congr hx hk).trans hs⟩
  cases hDk : Table.get? (.text sectionKey) D with
  | none =>
    cases hLk : Table.get? (.text sectionKey) L with
    | none =>
      obtain ⟨-, -, -, hbound⟩ := (SamePlace.bare hDk hLk).merged hD hL hc
      rw [hbound, binds_layEntries_iff, SamePlace.forall_bare hDk hLk]
    | some x =>
      rw [hDk, hLk] at hget
      exact iff_of_true (halone hLk hl hget)
        fun _ _ hs => absurd hs (SamePlace.apart hDk hLk (fun _ => nofun) nofun)
  | some x =>
    cases hLk : Table.get? (.text sectionKey) L with
    | none =>
      rw [hDk, hLk] at hget
      exact iff_of_true (halone hDk hd hget)
        fun _ _ hs => absurd hs (SamePlace.apart hDk hLk nofun fun _ _ _ => nofun)
    | some y =>
      rw [hDk, hLk] at hget
      by_cases hxy : ∃ b o, x = .dict b ∧ y = .dict o
      · obtain ⟨b, o, rfl, rfl⟩ := hxy
        obtain ⟨-, -, -, hbound⟩ := (SamePlace.sectioned hDk hLk).merged hD hL hc
        rw [hbound, binds_layEntries_iff, SamePlace.forall_sectioned hDk hLk]
      · have hplain : (∀ es, y ≠ .dict es) ∨ ∀ es, x ≠ .dict es := by
          by_cases hy : ∃ o, y = .dict o
          · obtain ⟨o, rfl⟩ := hy
            exact .inr fun b hx => hxy ⟨b, o, hx, rfl⟩
          · exact .inl fun o hy' => hy ⟨o, hy'⟩
        rw [Option.map_some, Option.map_some, Option.getD_some, Option.some_or,
          Value.laid_plain hplain] at hget
        refine iff_of_true (halone hLk hl hget)
          fun _ _ hs => absurd hs (SamePlace.apart hDk hLk nofun fun b o hx hy => ?_)
        exact hxy ⟨b, o, Option.some.inj hx, Option.some.inj hy⟩

theorem ofLayers_plain_valid {D L : Entries} {d l : Settings} (hD : Value.Tidy (.dict D))
    (hL : Value.Tidy (.dict L)) (hd : ofValue (.dict D) = .ok d) (hl : ofValue (.dict L) = .ok l) :
    (∃ s, ofLayers (.plain (.dict D)) (.plain (.dict L)) = .ok s) ↔
      Value.Compatible (.dict D) (.dict L) ∧
        ∀ b o, SamePlace (.dict D) (.dict L) b o → ∃ s, ofEntries (overlay b o) = .ok s := by
  rw [ofLayers_plain]
  constructor
  · rintro ⟨s, h⟩
    obtain ⟨m, hm, h⟩ := bind_eq_ok.1 (mapError_eq_ok.1 h)
    obtain ⟨hc, rfl⟩ := (Value.mergeEntries_ok_iff hD hL).1 hm
    exact ⟨hc, (merged_binds_iff hD hL hc hd hl).1 ⟨s, h⟩⟩
  · rintro ⟨hc, h⟩
    obtain ⟨s, hs⟩ := (merged_binds_iff hD hL hc hd hl).2 h
    exact ⟨s, mapError_eq_ok.2 (bind_eq_ok.2
      ⟨_, (Value.mergeEntries_ok_iff hD hL).2 ⟨hc, rfl⟩, hs⟩)⟩

/-- **When two valid files load together.** Two files that bind on their own load together
exactly if they are compatible and, where both write their settings in one place, the overlay
binds, unless a dict of the lower file that the upper one changes stands in two places. The
overlay binds if the upper file spells each setting once. Of the values that one setting takes
only a truth value over a text makes files incompatible. -/
theorem load_valid_files {fs : FileSystem} {p q : Path} {D L : Document} {d l : Settings}
    (hp : fs.settingsFile p = .ok D) (hq : fs.settingsFile q = .ok L)
    (hd : ofDocument D = .ok d) (hl : ofDocument L = .ok l) (hone : D.Unshared L) :
    ((∃ s, load fs (some p) (some q) = .ok s) ↔ D.Compatible L ∧
      ∀ b o, SamePlace D.settings L.settings b o → ∃ s, ofEntries (overlay b o) = .ok s) ∧
    ((∀ b o, SamePlace D.settings L.settings b o → SpelledOnce o) →
      ((∃ s, load fs (some p) (some q) = .ok s) ↔ D.Compatible L)) ∧
    ∀ (s : Setting) (c v : Value), s.accepts c = true → s.accepts v = true →
      c.kind ≠ .tuple → v.kind ≠ .tuple →
        (c.yieldsTo v = false ↔ c.isText = true ∧ v.isBool = true) := by
  have hD : D.Tidy := FileSystem.settingsFile_tidy hp
  have hL : L.Tidy := FileSystem.settingsFile_tidy hq
  obtain ⟨i, hi⟩ := Document.exists_root hp
  obtain ⟨j, hj⟩ := Document.exists_root hq
  have hgraphs := ofGraphs_valid hD hL hi hj hone hd hl
  have hload : (∃ s, load fs (some p) (some q) = .ok s) ↔ D.Compatible L ∧
      ∀ b o, SamePlace D.settings L.settings b o → ∃ s, ofEntries (overlay b o) = .ok s := by
    rw [load_eq_ofLayers hp hq]
    cases D with
    | shared g =>
      rw [ofLayers_shared]
      exact hgraphs
    | plain v =>
      cases L with
      | shared g =>
        rw [ofLayers_plain_shared]
        exact hgraphs
      | plain w =>
        cases v with
        | dict D =>
          cases w with
          | dict L => exact ofLayers_plain_valid hD hL hd hl
          | _ => cases hj
        | _ => cases hi
  refine ⟨hload, fun hone => hload.trans (and_iff_left fun b o hs => ?_),
    fun s c v => Setting.yieldsTo_of_accepts⟩
  have hone := hone b o hs
  rw [ofDocument_eq] at hd hl
  generalize D.settings = v at hs hd
  generalize L.settings = w at hs hl
  cases hs with
  | bare base override =>
    exact overlay_binds ⟨d, ofValue_bare base ▸ hd⟩ ⟨l, ofValue_bare override ▸ hl⟩ hone
  | sectioned base override =>
    exact overlay_binds ⟨d, ofValue_section base ▸ hd⟩ ⟨l, ofValue_section override ▸ hl⟩ hone

/-- The settings of a document that stand in one place with others are those in its section. -/
theorem SamePlace.section {D L b o : Entries} (h : SamePlace (.dict D) (.dict L) b o) :
    Section (.dict L) o := by
  cases h with
  | bare _ override => exact .bare override
  | sectioned _ override => exact .own override

/-- **When two valid files without aliases load together.** Two such files that bind on their own,
the upper one with keys that can be written out and with one spelling for each setting, load
together exactly if every value of the lower file gives way to the one that it meets. Of the
values that one setting takes only a text does not give way, to a truth value. -/
theorem load_unaliased_files {fs : FileSystem} {p q : Path} {D L : Entries} {d l : Settings}
    (hp : fs.settingsFile p = .ok (.plain (.dict D)))
    (hq : fs.settingsFile q = .ok (.plain (.dict L)))
    (hd : ofValue (.dict D) = .ok d) (hl : ofValue (.dict L) = .ok l)
    (hnamed : Value.Named (.dict L)) (hone : ∀ es, Section (.dict L) es → SpelledOnce es) :
    ((∃ s, load fs (some p) (some q) = .ok s) ↔ Value.YieldsThroughout (.dict D) (.dict L)) ∧
    ∀ (s : Setting) (c v : Value), s.accepts c = true → s.accepts v = true →
      c.kind ≠ .tuple → v.kind ≠ .tuple →
        (c.yieldsTo v = false ↔ c.isText = true ∧ v.isBool = true) := by
  obtain ⟨-, hload, hpairs⟩ := load_valid_files hp hq hd hl (Document.unshared_plain _ _)
  exact ⟨(hload fun b o hs => hone o hs.section).trans hnamed.compatible_iff, hpairs⟩

/-- A local file that turns the switch off by name. -/
theorem load_unaliased_files_text_over_bool :
    let fs := FileSystem.ofPair "\x7b\"enabled\": true\x7d" "\x7b\"enabled\": \"false\"\x7d"
    let D : Entries := [(.text "enabled", .bool true)]
    let L : Entries := [(.text "enabled", .text "false")]
    fs.settingsFile FileSystem.defaultsPath = .ok (.plain (.dict D)) ∧
      fs.settingsFile FileSystem.localPath = .ok (.plain (.dict L)) ∧
      ofValue (.dict D) = .ok standard ∧
      ofValue (.dict L) = .ok { standard with enabled := false } ∧
      Value.Named (.dict L) ∧ (∀ es, Section (.dict L) es → SpelledOnce es) ∧
      ∃ s, load fs (some FileSystem.defaultsPath) (some FileSystem.localPath) = .ok s := by
  intro fs D L
  have hp : fs.settingsFile FileSystem.defaultsPath = .ok (.plain (.dict D)) :=
    FileSystem.settingsFile_defaults _ (by cbv)
  have hq : fs.settingsFile FileSystem.localPath = .ok (.plain (.dict L)) :=
    FileSystem.settingsFile_local _ (by cbv)
  have hl : ofValue (.dict L) = .ok { standard with enabled := false } := rfl
  have htext (es : Entries) : Value.text "false" ≠ .dict es := by
    intro h
    cases h
  have hnamed : Value.Named (.dict L) :=
    .dict (List.forall_mem_singleton.2 rfl) (List.forall_mem_singleton.2 (.other htext))
  have hone : ∀ es, Section (.dict L) es → SpelledOnce es := by
    intro es hs
    cases hs with
    | bare => exact List.pairwise_singleton _ _
    | empty nothing => cases nothing
    | own held => cases held
  have hyields : Value.YieldsThroughout (.dict D) (.dict L) := by
    intro path c v hm
    cases hm with
    | here => rfl
    | within mem held below =>
      cases List.mem_singleton.1 mem
      cases held
      cases below
      rfl
  exact ⟨hp, hq, rfl, hl, hnamed, hone, (load_unaliased_files hp hq rfl hl hnamed hone).1.2 hyields⟩

/-- Four pairs of valid files that do not load together: a truth value over the name of
one, values beside the section that nothing reads, a value that its own file had overridden
under another spelling, and a section that shares its entries with what stands beside it. -/
theorem valid_files_fail :
    let loaded (D L : Entries) := ofLayers (.plain (.dict D)) (.plain (.dict L))
    let beside (v : Value) : Entries := [(.text sectionKey, .null), (.text "app", v)]
    let twice : Entries :=
      [(.text "check-location", .list []), (.text "check_location", .bool true)]
    let shared : Document := .shared
      ⟨#[.dict [(.text sectionKey, .object 1), (.text "app", .object 1)],
        .dict [(.text "enabled", .value (.bool true))]], .object 0, true⟩
    let apart : Entries := [(.text sectionKey, .dict []),
      (.text "app", .dict [(.text "enabled", .text "maybe")])]
    (ofValue (.dict [(.text "enabled", .text "true")]) = .ok standard ∧
      ofValue (.dict [(.text "enabled", .bool true)]) = .ok standard ∧
      loaded [(.text "enabled", .text "true")] [(.text "enabled", .bool true)] =
        .error (.setting (.conflict ["enabled"] .text .bool))) ∧
    (ofValue (.dict (beside (.int 1))) = .ok standard ∧
      ofValue (.dict (beside (.text "x"))) = .ok standard ∧
      loaded (beside (.int 1)) (beside (.text "x")) =
        .error (.setting (.conflict ["app"] .int .text))) ∧
    (ofValue (.dict [(.text "check_location", .bool true)]) = .ok standard ∧
      ofValue (.dict twice) = .ok standard ∧
      loaded [(.text "check_location", .bool true)] twice =
        .error (.setting (.notBool .checkLocation (.list [])))) ∧
    (ofDocument shared = .ok standard ∧ ofValue (.dict apart) = .ok standard ∧
      ofLayers shared (.plain (.dict apart)) =
        .error (.setting (.notBool .enabled (.text "maybe")))) := by
  intro loaded beside twice shared apart
  have hapart : (Graph.ofValue (.dict apart)).apart shared.graph.objects.size =
      Graph.ofValue (.dict apart) := by
    show Graph.renamed _ ⟨#[.dict [], .dict [(.text "enabled", .value (.text "maybe"))],
      .dict [(.text sectionKey, .object 0), (.text "app", .object 1)]], .object 2, false⟩ = _
    simp only [Graph.renamed, Shape.renamed, Ref.renamed, Value.renamed, List.map_toArray,
      List.map_cons, List.map_nil]
    rfl
  have hmerge : shared.graph.merge (Graph.ofValue (.dict apart)) = .ok
      ⟨#[.dict [(.text sectionKey, .object 1), (.text "app", .object 1)],
        .dict [(.text "enabled", .value (.text "maybe"))]], .object 0, true⟩ := by
    rw [Graph.merge, hapart]
    rfl
  have hshared : ofLayers shared (.plain (.dict apart)) =
      .error (.setting (.notBool .enabled (.text "maybe"))) := by
    show ((shared.graph.merge (Graph.ofValue (.dict apart))).map Document.shared >>= _) = _
    rw [hmerge]
    rfl
  exact ⟨⟨rfl, rfl, rfl⟩, ⟨rfl, rfl, rfl⟩, ⟨rfl, rfl, rfl⟩, ⟨rfl, rfl, hshared⟩⟩

end Settings
end MigrationSetup
