import Mathlib
import MigrationSetup.Proofs.Yielding

/-! Two files in other spellings.

Keys are read as settings only once the files are merged, so a setting that two files spell
differently is two keys to the merge and one to the binder. This shows only where both files
give one setting and the lower value does not give way to the upper one, or both are dicts:
spelled alike the two clash or are merged, and spelled differently the upper one counts
(`load_respelled`). -/
namespace MigrationSetup
open Settings (sectionKey)

namespace Settings

/-! ### Entries of other spellings -/

/-- A value, or a dict and the same in another spelling. -/
inductive Alt : Value → Value → Prop
  | same (v : Value) : Alt v v
  | respelled {es fs : Entries} (respells : Respells es fs) : Alt (.dict es) (.dict fs)

theorem Alt.dict {es : Entries} {v : Value} (h : Alt (.dict es) v) :
    ∃ fs, v = .dict fs ∧ Respells es fs := by
  cases h with
  | same => exact ⟨es, rfl, .refl es⟩
  | respelled respells => exact ⟨_, rfl, respells⟩

theorem Alt.plain {v w : Value} (h : Alt v w) (hv : ∀ es, v ≠ .dict es) (es : Entries) :
    w ≠ .dict es := by
  cases h with
  | same => exact hv es
  | respelled => exact absurd rfl (hv _)

variable {P Q : Prop} {b b' o o' : Entries}

theorem Clear.steps (h : Clear Value.GivesWay b o) (hb : List.Forall₂ (Step P) b b')
    (ho : List.Forall₂ (Step Q) o o') : Clear Value.GivesWay b' o' := by
  intro e' he' f' hf' s hes hfs
  obtain ⟨e, he, hstep⟩ := exists_of_forall₂ hb he'
  obtain ⟨f, hf, hstep'⟩ := exists_of_forall₂ ho hf'
  obtain ⟨hes, hev⟩ := hstep.named hes
  obtain ⟨hfs, hfv⟩ := hstep'.named hfs
  rw [← hev, ← hfv]
  exact h e he f hf s hes hfs

/-- Only what settings and the section hold can change. -/
theorem get?_of_steps (h : List.Forall₂ (Step P) b b') {k : Value}
    (hk : Setting.ofKey? k = none ∨ ¬ P) (hs : Value.sameKey k (.text sectionKey) = false) :
    Table.get? k b = Table.get? k b' := by
  induction h with
  | nil => rfl
  | cons he _ ih =>
    cases he with
    | same e => rw [Table.get?, Table.get?, ih]
    | renamed bare old new =>
      have hk := hk.resolve_right (not_not_intro bare)
      simp only [Table.get?, Value.sameKey_of_unnamed old hk, Value.sameKey_of_unnamed new hk]
      exact ih
    | @within l _ _ key _ =>
      have hne : Value.sameKey l k = false := by
        rw [← Bool.not_eq_true] at hs ⊢
        exact fun hlk => hs (Value.sameKey_trans ((Value.sameKey_comm k l).trans hlk) key)
      simp only [Table.get?, hne]
      exact ih

/-! ### Merges of other spellings -/

/-- An entry for a setting is laid over whatever gives way to it. -/
theorem entryClash?_eq_none {e : Value × Value} {s : Setting}
    (hs : Setting.ofKey? e.1 = some s)
    (h : ∀ x ∈ b, Setting.ofKey? x.1 = some s → Value.GivesWay x.2 e.2) :
    Value.entryClash? b e = none := by
  simp only [Value.entryClash?, Setting.hasLong_of_ofKey? hs, Bool.false_eq_true, if_false]
  cases hget : Table.get? e.1 b with
  | none => rfl
  | some c =>
    obtain ⟨l, hl, hle⟩ := Table.mem_of_get? hget
    rw [Value.eq_of_sameKey hle hs] at hl
    have hway := h _ hl hs
    exact Value.clash?_eq_none_of_yields hway.plain hway.yields

/-- A merge fails as it does in other spellings, if it does so in the section and if the
settings that stand here give way. -/
theorem clash?_of_steps (hb : List.Forall₂ (Step P) b b') (ho : List.Forall₂ (Step Q) o o')
    (hdo : Table.Distinct o) (hdo' : Table.Distinct o') (hclear : P ∨ Q → Clear Value.GivesWay b o)
    (hsection : ∀ w w', Table.get? (.text sectionKey) o = some w →
      Table.get? (.text sectionKey) o' = some w' →
      (Table.get? (.text sectionKey) b).bind (Value.clash? · w) =
        (Table.get? (.text sectionKey) b').bind (Value.clash? · w')) :
    Value.clash? (.dict b) (.dict o) = Value.clash? (.dict b') (.dict o') := by
  rw [Value.clash?_dicts b hdo, Value.clash?_dicts b' hdo']
  refine findSome?_eq_of_forall₂ (forall₂_of_mem ho fun e he f hf hstep => ?_)
  cases hname : Setting.ofKey? f.1 with
  | some s =>
    obtain ⟨hes, hv⟩ := hstep.named hname
    by_cases hPQ : P ∨ Q
    · have hc := hclear hPQ
      rw [entryClash?_eq_none hes fun x hx hxs => hc x hx e he s hxs hes,
        entryClash?_eq_none hname fun x hx hxs => hc.steps hb ho x hx f hf s hxs hname]
    · cases hstep with
      | same =>
        rw [Value.entryClash?, Value.entryClash?, get?_of_steps hb (.inr fun h => hPQ (.inl h))
          (Value.sameKey_of_unnamed hname ofKey?_section)]
      | renamed bare => exact absurd (.inr bare) hPQ
      | within key =>
        rw [Value.sameKey_of_unnamed hname ofKey?_section] at key
        cases key
  | none =>
    by_cases hs : Value.sameKey f.1 (.text sectionKey) = true
    · have hkey : e.1 = f.1 := by
        cases hstep with
        | same => rfl
        | renamed _ _ new => cases hname.symm.trans new
        | within => rfl
      have hself : Value.sameKey f.1 f.1 = true :=
        Value.sameKey_trans hs ((Value.sameKey_comm _ _).trans hs)
      have hw := (Table.get?_congr hs o').symm.trans (hdo'.get?_of_mem hf hself)
      have hw' := (Table.get?_congr (hkey ▸ hs) o).symm.trans (hdo.get?_of_mem he (hkey ▸ hself))
      rw [Value.entryClash?, Value.entryClash?, hkey, Table.get?_congr hs b,
        Table.get?_congr hs b', hsection _ _ hw' hw]
    · cases hstep with
      | same =>
        rw [Value.entryClash?, Value.entryClash?,
          get?_of_steps hb (.inl hname) (Bool.not_eq_true _ ▸ hs)]
      | renamed _ _ new => cases hname.symm.trans new
      | within key => exact absurd key hs

theorem clash?_of_respells (hb : Respells b b') (ho : Respells o o') (hdo : Table.Distinct o)
    (hdo' : Table.Distinct o') (hclear : Clear Value.GivesWay b o) :
    Value.clash? (.dict b) (.dict o) = Value.clash? (.dict b') (.dict o') := by
  refine clash?_of_steps (hb.steps trivial) (ho.steps trivial) hdo hdo'
    (fun _ => hclear) fun w w' hw hw' => ?_
  rw [ho.get?_section, hw'] at hw
  rw [hb.get?_section, Option.some.inj hw]

theorem clash?_of_alt {v v' w w' : Value} (hv : Alt v v') (hw : Alt w w') (htw : w.Tidy)
    (htw' : w'.Tidy) (hclear : ∀ es gs, v = .dict es → w = .dict gs → Clear Value.GivesWay es gs) :
    Value.clash? v w = Value.clash? v' w' := by
  have hplain {v v' w w' : Value} (h : (∀ es, w ≠ .dict es) ∨ ∀ es, v ≠ .dict es)
      (h' : (∀ es, w' ≠ .dict es) ∨ ∀ es, v' ≠ .dict es) (hy : v.yieldsTo w = v'.yieldsTo w') :
      Value.clash? v w = Value.clash? v' w' := by
    rw [Value.clash?, Value.clash?, Value.mergeValue_plain [] h, Value.mergeValue_plain [] h',
      Value.replace, Value.replace, hy]
    split <;> rfl
  cases hv with
  | same =>
    cases hw with
    | same => rfl
    | @respelled es gs respells =>
      cases v with
      | dict es' =>
        exact clash?_of_respells (.refl _) respells htw.distinct htw'.distinct (hclear _ _ rfl rfl)
      | _ => exact hplain (.inr fun es h => by cases h) (.inr fun es h => by cases h) rfl
  | @respelled es fs respells =>
    cases hw with
    | same =>
      cases w with
      | dict gs =>
        exact clash?_of_respells respells (.refl _) htw.distinct htw'.distinct (hclear _ _ rfl rfl)
      | _ => exact hplain (.inl fun es h => by cases h) (.inl fun es h => by cases h) rfl
    | respelled respells' =>
      exact clash?_of_respells respells respells' htw.distinct htw'.distinct (hclear _ _ rfl rfl)

/-! ### Bindings of other spellings -/

theorem given?_of_respells (h : Respells b b') (s : Setting) : given? s b = given? s b' := by
  have hrel : Option.Rel Eq (given? s b) (given? s b') :=
    given?_rel (h.imp fun _ _ he => ⟨he.1.ofKey?, fun _ => he.2⟩)
  generalize given? s b = x at hrel
  generalize given? s b' = y at hrel
  cases hrel with
  | none => rfl
  | some h => rw [h]

theorem stranger?_append (b o : Entries) :
    stranger? (b ++ o) = (stranger? b).or (stranger? o) := by
  induction b with
  | nil => rfl
  | cons e b ih =>
    obtain ⟨k, v⟩ := e
    rw [List.cons_append, stranger?, stranger?, ih]
    split <;> rfl

/-- Which keys are strange does not depend on the settings among them. -/
theorem stranger?_filter (h : Respells b b') (keep keep' : Value × Value → Bool)
    (hkeep : ∀ e, Setting.ofKey? e.1 = none → keep e = keep' e) :
    stranger? (b.filter keep) = stranger? (b'.filter keep') := by
  have hskip {k v : Value} {s : Setting} (hk : Setting.ofKey? k = some s) (p : Bool)
      (es : Entries) : stranger? (if p then (k, v) :: es else es) = stranger? es := by
    cases p
    · rfl
    · simp only [if_true, stranger?, hk]
      rfl
  induction h with
  | nil => rfl
  | @cons e f b b' he _ ih =>
    obtain ⟨k, v⟩ := e
    obtain ⟨l, w⟩ := f
    obtain ⟨hkl, hvw⟩ := he
    simp only at hkl hvw
    rw [List.filter_cons, List.filter_cons]
    cases hk : Setting.ofKey? k with
    | none =>
      cases hkl.eq_of_none hk
      cases hvw
      rw [hkeep (k, v) hk]
      split
      · simp only [stranger?, ih]
      · exact ih
    | some s => rw [hskip hk, hskip (hkl.ofKey?.symm.trans hk), ih]

theorem ofEntries_of_respells (h : Respells b b') : ofEntries b = ofEntries b' := by
  refine ofEntries_congr ?_ fun s => ?_
  · have hfilter := stranger?_filter h (fun _ => true) (fun _ => true) fun _ _ => rfl
    rwa [List.filter_true, List.filter_true] at hfilter
  · rw [lastOf_eq, lastOf_eq, given?_of_respells h]

/-- Overlays bind alike in all spellings. -/
theorem ofEntries_overlay (hb : Respells b b') (ho : Respells o o') (hbonce : NamedOnce b)
    (hoonce : NamedOnce o) : ofEntries (overlay b o) = ofEntries (overlay b' o') := by
  have hkept {b o : Entries} : stranger? (b.map fun e =>
      (e.1, ((Table.get? e.1 o).map fun v => v).getD e.2)) = stranger? b := by
    refine stranger?_congr ?_
    rw [Table.keys, Table.keys, List.map_map]
    rfl
  refine ofEntries_congr ?_ fun s => ?_
  · have hfilter := stranger?_filter ho (fun e => !Table.has e.1 b)
      (fun e => !Table.has e.1 b') fun e he => by rw [Table.has, Table.has, hb.get? he]
    have hself := stranger?_filter hb (fun _ => true) (fun _ => true) fun _ _ => rfl
    rw [List.filter_true, List.filter_true] at hself
    rw [overlay, overlay, Value.layEntries, Value.layEntries, stranger?_append, stranger?_append,
      hkept, hkept, hfilter, hself]
  · rw [lastOf_eq, lastOf_eq, given?_overlay hbonce hoonce,
      given?_overlay (hb.namedOnce_iff.1 hbonce) (ho.namedOnce_iff.1 hoonce),
      given?_of_respells hb, given?_of_respells ho]

/-- Where settings give way none is merged. -/
theorem ofEntries_layEntries (h : Clear Value.GivesWay b o) :
    ofEntries (Value.layEntries Value.laid b o) = ofEntries (overlay b o) := by
  have hkeys : Table.keys (Value.layEntries Value.laid b o) = Table.keys (overlay b o) := by
    rw [Value.keys_layEntries, overlay, Value.keys_layEntries]
  refine ofEntries_congr (stranger?_congr hkeys) fun s => ?_
  have hgiven := given?_merged b o s
  rw [lastOf_eq, lastOf_eq]
  generalize given? s (Value.layEntries Value.laid b o) = x at hgiven
  generalize given? s (overlay b o) = y at hgiven
  cases hgiven with
  | none => rfl
  | some hvw =>
    rcases hvw with rfl | ⟨k, c, d, -, -, hk, hbase, hover⟩
    · rfl
    · obtain ⟨l, hl, hlk⟩ := Table.mem_of_get? hover
      rw [Value.eq_of_sameKey hlk hk] at hl
      rcases (h _ hbase _ hl s hk hk).plain with hd | hc
      · exact absurd rfl (hd d)
      · exact absurd rfl (hc c)

/-! ### Plain files -/

/-- What a dict and the same in another spelling have where the settings stand. -/
inductive Facing (D D' : Entries) : Prop
  | bare (lacks : Table.get? (.text sectionKey) D = none)
      (lacks' : Table.get? (.text sectionKey) D' = none) (respells : Respells D D')
  | held {v v' : Value} (held : Table.get? (.text sectionKey) D = some v)
      (held' : Table.get? (.text sectionKey) D' = some v') (alt : Alt v v')

variable {D D' L L' : Entries}

/-- A plain file and the same in another spelling, entry by entry. -/
theorem steps_of_respelled (h : Document.Respelled (.plain (.dict D)) (.plain (.dict D')))
    (hd : Table.Distinct D) :
    List.Forall₂ (Step (Table.get? (.text sectionKey) D = none)) D D' ∧ Facing D D' := by
  cases h with
  | same =>
    refine ⟨List.forall₂_same.2 fun e _ => .same e, ?_⟩
    cases hk : Table.get? (.text sectionKey) D with
    | none => exact .bare hk hk (.refl D)
    | some v => exact .held hk hk (.same v)
  | bare lacks respells =>
    exact ⟨respells.steps lacks, .bare lacks (respells.get?_section ▸ lacks) respells⟩
  | @sectioned _ es fs held respells =>
    exact ⟨steps_put hd held respells,
      .held held (Table.get?_put_self rfl _ _) (.respelled respells)⟩

theorem ofValue_of_alt {v v' : Value} (h : Table.get? (.text sectionKey) D = some v)
    (h' : Table.get? (.text sectionKey) D' = some v') (hv : Alt v v') :
    ofValue (.dict D) = ofValue (.dict D') := by
  cases hv with
  | same => exact ofValue_congr h h'
  | respelled respells =>
    rw [ofValue_section h, ofValue_section h', ofEntries_of_respells respells]

/-- Plain files that are merged bind alike in all spellings if settings give way. -/
theorem ofValue_of_facing (hD : Facing D D') (hL : Facing L L') (tD : Value.Tidy (.dict D))
    (tD' : Value.Tidy (.dict D')) (tL : Value.Tidy (.dict L)) (tL' : Value.Tidy (.dict L'))
    (hc : Value.Compatible (.dict D) (.dict L)) (hc' : Value.Compatible (.dict D') (.dict L'))
    (hDonce : Once (.dict D)) (hLonce : Once (.dict L))
    (hclear : ∀ b o, Meeting D L b o → Clear Value.GivesWay b o) :
    ofValue (.dict (Value.layEntries Value.laid D L)) =
      ofValue (.dict (Value.layEntries Value.laid D' L')) := by
  have hget := Value.get?_layEntries Value.laid (.text sectionKey) D L
  have hget' := Value.get?_layEntries Value.laid (.text sectionKey) D' L'
  -- Where both have settings in one place these are laid over one another.
  have hmerged {b o b' o' : Entries} (hs : SamePlace (.dict D) (.dict L) b o)
      (hs' : SamePlace (.dict D') (.dict L') b' o') (hb : Respells b b') (ho : Respells o o')
      (hbonce : NamedOnce b) (hoonce : NamedOnce o) (hclear : Clear Value.GivesWay b o) :
      ofValue (.dict (Value.layEntries Value.laid D L)) =
        ofValue (.dict (Value.layEntries Value.laid D' L')) := by
    obtain ⟨-, -, -, hbinds⟩ := hs.merged tD tL hc
    obtain ⟨-, -, -, hbinds'⟩ := hs'.merged tD' tL' hc'
    have hclear' : Clear Value.GivesWay b' o' :=
      hclear.steps (hb.steps trivial) (ho.steps trivial)
    rw [hbinds, hbinds', ofEntries_layEntries hclear, ofEntries_layEntries hclear',
      ofEntries_overlay hb ho hbonce hoonce]
  cases hD with
  | bare lacks lacks' respells =>
    cases hL with
    | bare lacksL lacksL' respellsL =>
      exact hmerged (.bare lacks lacksL) (.bare lacks' lacksL') respells respellsL
        (hDonce.bare lacks) (hLonce.bare lacksL) (hclear _ _ (.roots (.inl lacks)))
    | held held held' alt =>
      rw [lacks, held] at hget
      rw [lacks', held'] at hget'
      exact ofValue_of_alt hget hget' alt
  | @held v v' held held' alt =>
    cases hL with
    | bare lacks lacks' _ =>
      rw [held, lacks] at hget
      rw [held', lacks'] at hget'
      exact ofValue_of_alt hget hget' alt
    | @held w w' heldL heldL' altL =>
      by_cases hdicts : (∃ b, v = .dict b) ∧ ∃ o, w = .dict o
      · obtain ⟨⟨b, rfl⟩, o, rfl⟩ := hdicts
        obtain ⟨b', rfl, hb⟩ := alt.dict
        obtain ⟨o', rfl, ho⟩ := altL.dict
        exact hmerged (.sectioned held heldL) (.sectioned held' heldL') hb ho
          (hDonce.sectioned held) (hLonce.sectioned heldL) (hclear _ _ (.sections held heldL))
      · rw [held, heldL, Option.map_some, Option.map_some, Option.getD_some, Option.some_or] at hget
        rw [held', heldL', Option.map_some, Option.map_some, Option.getD_some,
          Option.some_or] at hget'
        have hplain : (∀ es, w ≠ .dict es) ∨ ∀ es, v ≠ .dict es := by
          rcases not_and_or.1 hdicts with h | h
          · exact .inr fun es hv => h ⟨es, hv⟩
          · exact .inl fun es hw => h ⟨es, hw⟩
        rw [Value.laid_plain hplain] at hget
        rw [Value.laid_plain (hplain.imp altL.plain alt.plain)] at hget'
        exact ofValue_of_alt hget hget' altL

/-- Plain files load alike in all spellings if settings give way. -/
theorem ofLayers_plain_clear (hD : Document.Respelled (.plain (.dict D)) (.plain (.dict D')))
    (hL : Document.Respelled (.plain (.dict L)) (.plain (.dict L'))) (tD : Value.Tidy (.dict D))
    (tD' : Value.Tidy (.dict D')) (tL : Value.Tidy (.dict L)) (tL' : Value.Tidy (.dict L'))
    (hDonce : Once (.dict D)) (hLonce : Once (.dict L))
    (hclear : ∀ b o, Meeting D L b o → Clear Value.GivesWay b o) :
    Alike (ofLayers (.plain (.dict D)) (.plain (.dict L)))
      (ofLayers (.plain (.dict D')) (.plain (.dict L'))) := by
  obtain ⟨hstepsD, hfacingD⟩ := steps_of_respelled hD tD.distinct
  obtain ⟨hstepsL, hfacingL⟩ := steps_of_respelled hL tL.distinct
  refine ofLayers_plain_alike tD tL tD' tL' ?_ fun hc hc' =>
    ofValue_of_facing hfacingD hfacingL tD tD' tL tL' hc hc' hDonce hLonce hclear
  refine clash?_of_steps hstepsD hstepsL tL.distinct tL'.distinct
    (fun h => hclear _ _ (.roots h)) fun w w' hw hw' => ?_
  cases hfacingD with
  | bare lacks lacks' =>
    rw [lacks, lacks']
    rfl
  | held held held' alt =>
    cases hfacingL with
    | bare lacks => cases lacks.symm.trans hw
    | held heldL heldL' altL =>
      cases heldL.symm.trans hw
      cases heldL'.symm.trans hw'
      rw [held, held', Option.bind_some, Option.bind_some]
      refine clash?_of_alt alt altL (tL.of_get? hw) (tL'.of_get? hw') ?_
      rintro b o rfl rfl
      exact hclear _ _ (.sections held heldL)

/-! ### Files -/

/-- If settings give way, two documents can be merged in both spellings or load alike. -/
theorem ofLayers_clear {D D' L L' : Document} {i j : Nat} (hD : D.Respelled D')
    (hL : L.Respelled L') (tD : D.Tidy) (tD' : D'.Tidy) (tL : L.Tidy) (tL' : L'.Tidy)
    (hi : D.graph.root.dict? D.graph.objects = some i)
    (hj : L.graph.root.dict? L.graph.objects = some j) (hDonce : Once D.settings)
    (hLonce : Once L.settings) (hone : D.Unshared L) (hone' : D'.Unshared L')
    (hclear : D.Clear L) :
    D.Compatible L ∧ D'.Compatible L' ∨ Alike (ofLayers D L) (ofLayers D' L') := by
  have hgraphs := ofGraphs_clear hD hL tD tD' tL tL' hi hj hone hone'
  cases D with
  | shared g =>
    obtain ⟨g', rfl⟩ := hD.exists_shared
    rw [ofLayers_shared, ofLayers_shared]
    exact (hgraphs hclear).imp_right .of_eq
  | plain v =>
    cases v with
    | dict b =>
      obtain ⟨b', rfl⟩ := hD.exists_dict
      cases L with
      | shared g =>
        obtain ⟨g', rfl⟩ := hL.exists_shared
        rw [ofLayers_plain_shared, ofLayers_plain_shared]
        exact (hgraphs hclear).imp_right .of_eq
      | plain w =>
        cases w with
        | dict o =>
          obtain ⟨o', rfl⟩ := hL.exists_dict
          exact .inr (ofLayers_plain_clear hD hL tD tD' tL tL' hDonce hLonce hclear)
        | _ => cases hj
    | _ => cases hi

/-- **Other spellings.** Two files, neither of which names a setting twice, give the same
settings in all spellings, or are rejected alike but for what cannot be shown, as long as no
dict of the lower file that the upper one changes stands in two places, and either the two can
be merged in both spellings, or wherever both give one setting the lower value gives way to the
upper one. In the latter case plain files are rejected alike whatever can be shown. -/
theorem load_respelled {fs fs' : FileSystem} {p p' q q' : Path} {D D' L L' : Document}
    (hp : fs.settingsFile p = .ok D) (hq : fs.settingsFile q = .ok L)
    (hp' : fs'.settingsFile p' = .ok D') (hq' : fs'.settingsFile q' = .ok L')
    (hD : D.Respelled D') (hL : L.Respelled L') (hDonce : Once D.settings)
    (hLonce : Once L.settings) :
    let loaded := load fs (some p) (some q)
    let respelled := load fs' (some p') (some q')
    (D.Unshared L → D'.Unshared L' → D.Compatible L ∧ D'.Compatible L' ∨ D.Clear L →
      Near loaded respelled) ∧
    ∀ b o, D = .plain (.dict b) → L = .plain (.dict o) → D.Clear L → Alike loaded respelled := by
  intro loaded respelled
  have hloaded : loaded = ofLayers D L := load_eq_ofLayers hp hq
  have hrespelled : respelled = ofLayers D' L' := load_eq_ofLayers hp' hq'
  have tD : D.Tidy := FileSystem.settingsFile_tidy hp
  have tL : L.Tidy := FileSystem.settingsFile_tidy hq
  have tD' : D'.Tidy := FileSystem.settingsFile_tidy hp'
  have tL' : L'.Tidy := FileSystem.settingsFile_tidy hq'
  rw [hloaded, hrespelled]
  constructor
  · intro hone hone' h
    obtain ⟨i, hi⟩ := Document.exists_root hp
    obtain ⟨j, hj⟩ := Document.exists_root hq
    have hnear := ofLayers_respelled hD hL tD tD' tL tL' hi hj hDonce hLonce hone hone'
    rcases h with ⟨hc, hc'⟩ | hclear
    · exact hnear hc hc'
    · rcases ofLayers_clear hD hL tD tD' tL tL' hi hj hDonce hLonce hone hone' hclear with
        ⟨hc, hc'⟩ | halike
      · exact hnear hc hc'
      · exact halike.near
  · rintro b o rfl rfl hclear
    obtain ⟨b', rfl⟩ := hD.exists_dict
    obtain ⟨o', rfl⟩ := hL.exists_dict
    exact ofLayers_plain_clear hD hL tD tD' tL tL' hDonce hLonce hclear

/-- Two files that spell one setting differently, and the same with one spelling. -/
theorem load_respelled_alike :
    let fs := FileSystem.ofPair "\x7b\"check_location\": true\x7d"
      "\x7b\"check-location\": \"false\"\x7d"
    let fs' := FileSystem.ofPair "\x7b\"check-location\": true\x7d"
      "\x7b\"check-location\": \"false\"\x7d"
    let D : Document := .plain (.dict [(.text "check_location", .bool true)])
    let D' : Document := .plain (.dict [(.text "check-location", .bool true)])
    let L : Document := .plain (.dict [(.text "check-location", .text "false")])
    let loaded := load fs (some FileSystem.defaultsPath) (some FileSystem.localPath)
    let respelled := load fs' (some FileSystem.defaultsPath) (some FileSystem.localPath)
    fs.settingsFile FileSystem.defaultsPath = .ok D ∧
      fs.settingsFile FileSystem.localPath = .ok L ∧
      fs'.settingsFile FileSystem.defaultsPath = .ok D' ∧
      fs'.settingsFile FileSystem.localPath = .ok L ∧
      D.Respelled D' ∧ L.Respelled L ∧ Once D.settings ∧ Once L.settings ∧
      D.Compatible L ∧ D'.Compatible L ∧ D.Clear L ∧ Near loaded respelled ∧
      loaded = .ok { standard with checkLocation := false } ∧
      respelled = .ok { standard with checkLocation := false } := by
  intro fs fs' D D' L loaded respelled
  have hp : fs.settingsFile FileSystem.defaultsPath = .ok D :=
    FileSystem.settingsFile_defaults _ (by cbv)
  have hq : fs.settingsFile FileSystem.localPath = .ok L :=
    FileSystem.settingsFile_local _ (by cbv)
  have hp' : fs'.settingsFile FileSystem.defaultsPath = .ok D' :=
    FileSystem.settingsFile_defaults _ (by cbv)
  have hq' : fs'.settingsFile FileSystem.localPath = .ok L :=
    FileSystem.settingsFile_local _ (by cbv)
  have hD : D.Respelled D' :=
    .bare rfl (.cons ⟨.inr ⟨.checkLocation, by decide, by decide⟩, rfl⟩ .nil)
  have honce {k v : Value} (hk : Table.get? (.text sectionKey) [(k, v)] = none) :
      Once (.dict [(k, v)]) := by
    intro es hes
    simp only [sectionOf, hk] at hes
    cases hes
    exact List.pairwise_singleton _ _
  have hclear : D.Clear L := by
    intro b o hm e he f hf s _ _
    cases hm with
    | roots =>
      cases List.mem_singleton.1 he
      cases List.mem_singleton.1 hf
      refine ⟨.inl fun es hes => ?_, rfl⟩
      cases hes
    | sections base => cases base
  have hc : D.Compatible L := (Value.clash?_eq_none_iff (FileSystem.settingsFile_tidy hp)
    (FileSystem.settingsFile_tidy hq)).1 rfl
  have hc' : D'.Compatible L := (Value.clash?_eq_none_iff (FileSystem.settingsFile_tidy hp')
    (FileSystem.settingsFile_tidy hq')).1 rfl
  obtain ⟨hnear, halike⟩ := load_respelled hp hq hp' hq' hD (.same L) (honce rfl) (honce rfl)
  have hloaded : loaded = .ok { standard with checkLocation := false } :=
    (load_eq_ofLayers hp hq).trans rfl
  have hrespelled : respelled = .ok { standard with checkLocation := false } :=
    Alike.eq_of_ok (hloaded ▸ halike _ _ rfl rfl hclear)
  exact ⟨hp, hq, hp', hq', hD, .same L, honce rfl, honce rfl, hc, hc', hclear,
    hnear (Document.unshared_plain _ L) (Document.unshared_plain _ L) (.inl ⟨hc, hc'⟩), hloaded,
    hrespelled⟩

/-- Spelled alike a truth value does not take the place of a text. -/
example :
    ofLayers (.plain (.dict [(.text "check_location", .text "true")]))
        (.plain (.dict [(.text "check-location", .bool true)])) = .ok standard ∧
      ofLayers (.plain (.dict [(.text "check-location", .text "true")]))
        (.plain (.dict [(.text "check-location", .bool true)])) =
        .error (.setting (.conflict ["check-location"] .text .bool)) :=
  ⟨rfl, rfl⟩

end Settings
end MigrationSetup
