import Mathlib
import MigrationSetup.Proofs.Parts
import MigrationSetup.Proofs.Uniting

/-! Which layer counts.

Of two files that keep their settings in one place the upper one counts, setting by setting,
and what it does not mention is as the lower one has it (`load_layered`). Dicts are merged
rather than replaced, but no setting takes a dict, so this shows in one way only: the message
about a dict under a switch shows what was merged, and a number of the lower file in it may
be too long for that (`Hidden`). -/
namespace MigrationSetup

namespace Value

/-- Numbers that are too long come from one of the two sides, and none of the override's is
lost. -/
theorem hasLong_laid {c v : Value} (hc : c.Tidy) (hv : v.Tidy) (h : Compatible c v) :
    (v.hasLong = true → (laid c v).hasLong = true) ∧
      ((laid c v).hasLong = true → v.hasLong = true ∨ c.hasLong = true) := by
  induction v using dictInduction generalizing c with
  | other v hplain =>
    rw [laid_plain (.inl hplain)]
    exact ⟨id, .inl⟩
  | whole o ih =>
    by_cases hb : ∃ b, c = .dict b
    case neg =>
      rw [laid_plain (.inr fun b hcb => hb ⟨b, hcb⟩)]
      exact ⟨id, .inl⟩
    obtain ⟨b, rfl⟩ := hb
    have hparts := compatible_dicts_iff.1 h
    have hself {k l : Value} (hkl : sameKey k l = true) : sameKey l l = true :=
      sameKey_trans ((sameKey_comm l k).trans hkl) hkl
    -- Where both sides have something it is laid entry by entry.
    have hmeet {e f : Value × Value} (he : e ∈ b) (hf : f ∈ o) (hfe : sameKey f.1 e.1 = true) :
        (f.2.hasLong = true → (laid e.2 f.2).hasLong = true) ∧
          ((laid e.2 f.2).hasLong = true → f.2.hasLong = true ∨ e.2.hasLong = true) :=
      ih f hf (hc.part he) (hv.part hf)
        ((hparts f hf).2 e.2 ((Table.get?_congr hfe b).trans
          (hc.distinct.get?_of_mem he (hself hfe))))
    rw [laid_of_compatible hc hv h]
    simp only [hasLong, hasLongUnder_iff, layEntries, List.mem_append]
    constructor
    · rintro ⟨f, hf, hlong⟩
      have hlong : f.2.hasLong = true := hlong.resolve_left fun hk => by
        rw [(hparts f hf).1] at hk
        cases hk
      cases hget : Table.get? f.1 b with
      | none =>
        have hnew : (!Table.has f.1 b) = true := by rw [Table.has_eq_false_iff.2 hget]; rfl
        exact ⟨f, .inr (List.mem_filter.2 ⟨hf, hnew⟩), .inr hlong⟩
      | some x =>
        obtain ⟨l, hl, hlf⟩ := Table.mem_of_get? hget
        have hfl : sameKey f.1 l = true := (sameKey_comm f.1 l).trans hlf
        have hgo : Table.get? l o = some f.2 :=
          (Table.get?_congr hlf o).trans (hv.distinct.get?_of_mem hf (hself hlf))
        refine ⟨_, .inl (List.mem_map_of_mem hl), .inr ?_⟩
        rw [hgo]
        exact (hmeet hl hf hfl).1 hlong
    · rintro ⟨f, hf | hf, hlong⟩
      · obtain ⟨e, he, rfl⟩ := List.mem_map.1 hf
        rcases hlong with hk | hlong
        · exact .inr ⟨e, he, .inl hk⟩
        · cases hget : Table.get? e.1 o with
          | none =>
            rw [hget] at hlong
            exact .inr ⟨e, he, .inr hlong⟩
          | some w =>
            obtain ⟨l, hl, hle⟩ := Table.mem_of_get? hget
            rw [hget] at hlong
            rcases (hmeet he hl hle).2 hlong with h | h
            · exact .inl ⟨_, hl, .inr h⟩
            · exact .inr ⟨e, he, .inr h⟩
      · exact .inl ⟨f, (List.mem_filter.1 hf).1, hlong⟩

end Value

namespace SettingError
variable {v : Value}

theorem showing_of_long (h : v.hasLong = true) (e : SettingError) : showing v e = .longNumber :=
  if_pos h

theorem showing_of_short (h : v.hasLong = false) (e : SettingError) : showing v e = e := by
  rw [showing, h]
  rfl

end SettingError

namespace Settings

/-! ### Dicts under settings -/

/-- A dict that was merged cannot be shown, since a number in the lower layer's dict is too
long, where the upper layer's own dict is shown. -/
inductive Hidden (b o : Entries) : SettingError → SettingError → Prop
  | intro {s : Setting} {c v : Entries} (base : given? s b = some (.dict c))
      (override : given? s o = some (.dict v)) (long : (Value.dict c).hasLong = true) :
      Hidden b o .longNumber (.notBool s (.dict v))

/-- No setting takes a dict, and a switch shows it. -/
theorem read_dict {E : SettingError → SettingError → Prop} (hE : ∀ e, E e e) {m v : Entries}
    {s : Setting} (h : E (.showing (.dict m) (.notBool s (.dict m)))
      (.showing (.dict v) (.notBool s (.dict v)))) :
    Agree E (s.read (.dict m)) (s.read (.dict v)) := by
  cases s with
  | enabled => exact .failed h
  | checkLocation => exact .failed h
  | _ => exact .failed (hE _)

variable {b o : Entries}

/-- A switch says of a merged dict what it says of the upper layer's, unless a number is
hidden. -/
theorem showing_merged (hb : NamedOnce b) (ho : NamedOnce o) (htb : Value.Tidy (.dict b))
    (hto : Value.Tidy (.dict o)) (hc : Value.Compatible (.dict b) (.dict o)) {k : Value}
    {s : Setting} {c d m : Entries} (hk : Setting.ofKey? k = some s) (hbase : (k, .dict c) ∈ b)
    (hover : Table.get? k o = some (.dict d))
    (hm : Value.laid (.dict c) (.dict d) = .dict m) :
    (SettingError.showing (.dict m) (.notBool s (.dict m))).fault =
        (SettingError.showing (.dict d) (.notBool s (.dict d))).fault ∨
      Hidden b o (.showing (.dict m) (.notBool s (.dict m)))
        (.showing (.dict d) (.notBool s (.dict d))) := by
  obtain ⟨l, hl, hlk⟩ := Table.mem_of_get? hover
  have hget : Table.get? l b = some (.dict c) :=
    (Table.get?_congr hlk b).trans (hb.get? hbase hk)
  have hlong := Value.hasLong_laid (htb.part hbase) (hto.part hl)
    ((Value.compatible_dicts_iff.1 hc _ hl).2 _ hget)
  rw [hm] at hlong
  cases hd : (Value.dict d).hasLong with
  | true =>
    rw [SettingError.showing_of_long hd, SettingError.showing_of_long (hlong.1 hd)]
    exact .inl rfl
  | false =>
    rw [SettingError.showing_of_short hd]
    cases hmerged : (Value.dict m).hasLong with
    | false =>
      rw [SettingError.showing_of_short hmerged]
      exact .inl rfl
    | true =>
      rw [SettingError.showing_of_long hmerged]
      rcases hlong.2 hmerged with h | h
      · cases h.symm.trans hd
      · exact .inr (.intro (hb.given? hbase hk) (ho.given?_of_get? hover hk) h)

/-- Entries laid over entries bind as their overlay does, but for what is hidden. -/
theorem ofEntries_merged (hb : NamedOnce b) (ho : NamedOnce o) (htb : Value.Tidy (.dict b))
    (hto : Value.Tidy (.dict o)) (hc : Value.Compatible (.dict b) (.dict o)) :
    Agree (fun e f => e.fault = f.fault ∨ Hidden b o e f)
      (ofEntries (Value.layEntries Value.laid b o)) (ofEntries (overlay b o)) := by
  have hkeys : Table.keys (Value.layEntries Value.laid b o) = Table.keys (overlay b o) := by
    rw [Value.keys_layEntries, overlay, Value.keys_layEntries]
  refine ofEntries_agree ?_ fun s => ?_
  · rw [stranger?_congr hkeys]
    cases stranger? (overlay b o) with
    | none => exact .none
    | some k => exact .some (.inl rfl)
  · have hsame (v : Value) :
        Agree (fun e f => e.fault = f.fault ∨ Hidden b o e f) (s.read v) (s.read v) := by
      cases s.read v with
      | ok p => exact .same p
      | error e => exact .failed (.inl rfl)
    have hgiven := given?_merged b o s
    rw [lastOf_eq, lastOf_eq]
    generalize given? s (Value.layEntries Value.laid b o) = x at hgiven
    generalize given? s (overlay b o) = y at hgiven
    cases hgiven with
    | none => exact hsame .null
    | @some v w h =>
      rcases h with rfl | ⟨k, c, d, rfl, rfl, hk, hbase, hover⟩
      · exact hsame v
      · obtain ⟨m, hm⟩ := Value.laid_dicts c d
        show Agree _ (s.read (Value.laid _ _)) (s.read _)
        rw [hm]
        exact read_dict (fun _ => .inl rfl)
          (showing_merged hb ho htb hto hc hk hbase hover hm)

/-! ### One layer over another -/

/-- Settings as one layer over another gives them. -/
structure Layered (b o : Entries) (l : Settings) : Prop where
  /-- A setting is what the upper layer says, as a whole, or else what the lower one says. -/
  read : ∀ s : Setting, s.read (((given? s o).or (given? s b)).getD .null) = .ok (l.part s)
  /-- Nothing in the upper layer makes a setting the standard one. -/
  reset : ∀ s, given? s o = some .null → l.part s = standard.part s
  /-- What the upper layer mentions is as it is there. -/
  replaced : ∀ s d, given? s o ≠ none → ofEntries o = .ok d → l.part s = d.part s
  /-- What the upper layer does not mention is as it is in the lower one. -/
  kept : ∀ s d, given? s o = none → ofEntries b = .ok d → l.part s = d.part s

theorem layered_of_overlay (hb : NamedOnce b) (ho : NamedOnce o) {l : Settings}
    (h : ofEntries (overlay b o) = .ok l) : Layered b o l := by
  have hread (s : Setting) :
      s.read (((given? s o).or (given? s b)).getD .null) = .ok (l.part s) := by
    rw [← given?_overlay hb ho, ← lastOf_eq]
    exact (ofEntries_eq_ok_iff.1 h).2 s
  have hpart {es : Entries} {d : Settings} (hes : ofEntries es = .ok d) (s : Setting) :
      s.read ((given? s es).getD .null) = .ok (d.part s) := by
    rw [← lastOf_eq]
    exact (ofEntries_eq_ok_iff.1 hes).2 s
  refine ⟨hread, fun s hs => ?_, fun s d hs hd => ?_, fun s d hs hd => ?_⟩
  · have h := hread s
    rw [hs] at h
    exact Except.ok.inj (h.symm.trans (read_null s))
  · have h := hread s
    obtain ⟨v, hv⟩ := Option.ne_none_iff_exists'.1 hs
    have h' := hpart hd s
    rw [hv] at h h'
    exact Except.ok.inj (h.symm.trans h')
  · have h := hread s
    rw [hs, Option.none_or] at h
    exact Except.ok.inj (h.symm.trans (hpart hd s))

/-- A value for which the upper layer has another makes no difference. -/
theorem overlay_overridden {b b' : Entries} (hb : NamedOnce b) (ho : NamedOnce o)
    (hk : Table.keys b' = Table.keys b)
    (h : ∀ s, given? s o = none → given? s b' = given? s b) :
    ofEntries (overlay b' o) = ofEntries (overlay b o) := by
  have hb' : NamedOnce b' := (namedOnce_congr (names_of_keys hk)).2 hb
  have hkeys : Table.keys (overlay b' o) = Table.keys (overlay b o) := by
    rw [overlay, Value.keys_layEntries, hk, overlay, Value.keys_layEntries]
  refine ofEntries_congr (stranger?_congr hkeys) fun s => ?_
  rw [lastOf_eq, lastOf_eq, given?_overlay hb' ho, given?_overlay hb ho]
  cases hs : given? s o with
  | none => rw [h s hs]
  | some v => rfl

/-! ### Files -/

/-- **Which layer counts.** Where two files without shared parts keep their settings in one
place and can be merged, they give what the overlay of their settings gives, or fail as it
does, unless a number is hidden. In the overlay each setting is what the upper file says, or
else what the lower file says, and a value of the lower file that is overridden makes no
difference, whatever it is. -/
theorem load_layered {fs : FileSystem} {p q : Path} {D L b o : Entries} {m : Value}
    (hp : fs.settingsFile p = .ok (.plain (.dict D)))
    (hq : fs.settingsFile q = .ok (.plain (.dict L)))
    (hs : SamePlace (.dict D) (.dict L) b o) (hb : NamedOnce b) (ho : NamedOnce o)
    (hm : Value.merge (.dict D) (.dict L) = .ok m) :
    let loaded := load fs (some p) (some q)
    let overlaid := ofEntries (overlay b o)
    (Alike loaded (overlaid.mapError .setting) ∨
      ∃ e f, Hidden b o e f ∧ loaded = .error (.setting e) ∧ overlaid = .error f) ∧
    (∀ l, overlaid = .ok l → Layered b o l) ∧
    ∀ b', Table.keys b' = Table.keys b → (∀ s, given? s o = none → given? s b' = given? s b) →
      ofEntries (overlay b' o) = overlaid := by
  intro loaded overlaid
  refine ⟨?_, fun l => layered_of_overlay hb ho, fun b' => overlay_overridden hb ho⟩
  have hD : Value.Tidy (.dict D) := FileSystem.settingsFile_tidy hp
  have hL : Value.Tidy (.dict L) := FileSystem.settingsFile_tidy hq
  obtain ⟨es, hes, rfl⟩ := map_eq_ok.1 hm
  obtain ⟨hc, rfl⟩ := (Value.mergeEntries_ok_iff hD hL).1 hes
  obtain ⟨htb, hto, hbo, hbound⟩ := hs.merged hD hL hc
  have hloaded : loaded =
      (ofEntries (Value.layEntries Value.laid b o)).mapError .setting := by
    rw [← hbound]
    show load fs (some p) (some q) = _
    rw [load_eq_ofLayers hp hq, ofLayers_plain, hes]
    rfl
  have hagree := ofEntries_merged hb ho htb hto hbo
  rw [hloaded]
  generalize ofEntries (Value.layEntries Value.laid b o) = x at hagree
  have hover : ofEntries (overlay b o) = overlaid := rfl
  rw [hover] at hagree
  generalize overlaid = y at hagree
  cases hagree with
  | same l => exact .inl (.same _)
  | @failed e f h =>
    rcases h with h | h
    · exact .inl (.rejected h)
    · exact .inr ⟨e, f, h, rfl, rfl⟩

/-- Invalid defaults do no harm where a local file says something else, or nothing at all. -/
theorem load_layered_overridden :
    let fs := FileSystem.ofPair
      "\x7b\"enabled\": \"maybe\", \"check-location\": [1], \"locations_to_scan\": \"a,b\"\x7d"
      "\x7b\"enabled\": null, \"locations_to_scan\": [\"c\"], \"check-location\": \"false\"\x7d"
    let D : Entries := [(.text "enabled", .text "maybe"), (.text "check-location", .list [.int 1]),
      (.text "locations_to_scan", .text "a,b")]
    let L : Entries := [(.text "enabled", .null), (.text "locations_to_scan", .list [.text "c"]),
      (.text "check-location", .text "false")]
    let m : Entries := [(.text "enabled", .null), (.text "check-location", .text "false"),
      (.text "locations_to_scan", .list [.text "c"])]
    let l : Settings := ⟨true, false, ⟨none, some [.text "c"], none, .null, .null⟩⟩
    fs.settingsFile FileSystem.defaultsPath = .ok (.plain (.dict D)) ∧
      fs.settingsFile FileSystem.localPath = .ok (.plain (.dict L)) ∧
      SamePlace (.dict D) (.dict L) D L ∧ NamedOnce D ∧ NamedOnce L ∧
      Value.merge (.dict D) (.dict L) = .ok (.dict m) ∧ Layered D L l ∧
      Alike (load fs (some FileSystem.defaultsPath) (some FileSystem.localPath)) (.ok l) := by
  intro fs D L m l
  have hp : fs.settingsFile FileSystem.defaultsPath = .ok (.plain (.dict D)) :=
    FileSystem.settingsFile_defaults _ (by cbv)
  have hq : fs.settingsFile FileSystem.localPath = .ok (.plain (.dict L)) :=
    FileSystem.settingsFile_local _ (by cbv)
  have hs : SamePlace (.dict D) (.dict L) D L := .bare rfl rfl
  have hb : NamedOnce D := by
    simp only [NamedOnce, D]
    decide
  have ho : NamedOnce L := by
    simp only [NamedOnce, L]
    decide
  have hm : Value.merge (.dict D) (.dict L) = .ok (.dict m) := rfl
  have hover : ofEntries (overlay D L) = .ok l := rfl
  obtain ⟨halike, hlayered, -⟩ := load_layered hp hq hs hb ho hm
  refine ⟨hp, hq, hs, hb, ho, hm, hlayered l hover, halike.resolve_right ?_⟩
  rintro ⟨e, f, -, -, h⟩
  cases hover.symm.trans h

end Settings
end MigrationSetup
