import MigrationSetup.Proofs.Visiting

/-! Laying the same dict over another once more.

A value absorbs another if laying it over the first changes nothing (`Value.Absorbs`). A
value whose keys can be found again absorbs itself, and what came of laying a value over
another absorbs it (`Value.absorbs_laid`), at every depth: a text that has taken the place
of a truth value meets itself, as does a dict that has taken the place of nothing. So an
override applied twice gives what it gives once, and the empty dict changes nothing on
either side (`Value.merge_repeats`). Only a key that cannot be written out is in the way,
since what is copied whole is visited the second time. -/
namespace MigrationSetup.Value

/-- Every key of a dict is such, all the way down through dicts. -/
inductive EveryKey (P : Value → Prop) : Value → Prop
  | dict {es : Entries} (keys : ∀ e ∈ es, P e.1) (parts : ∀ e ∈ es, EveryKey P e.2) :
    EveryKey P (.dict es)
  | other {v : Value} (plain : ∀ es, v ≠ .dict es) : EveryKey P v

theorem everyKey_dict_iff {P : Value → Prop} {es : Entries} :
    EveryKey P (.dict es) ↔ ∀ e ∈ es, P e.1 ∧ EveryKey P e.2 := by
  constructor
  · rintro (⟨keys, parts⟩ | plain)
    · exact fun e he => ⟨keys e he, parts e he⟩
    · exact absurd rfl (plain es)
  · exact fun h => .dict (fun e he => (h e he).1) fun e he => (h e he).2

/-- A key that can be written out. -/
def IsNamed (k : Value) : Prop := k.hasLong = false

/-- A key under which an entry is found again. -/
def IsFound (k : Value) : Prop := sameKey k k = true

/-- Laying `v` over `c` changes nothing, but for a key of `v` that cannot be written out. -/
structure Absorbs (c v : Value) : Prop where
  stays : EveryKey IsNamed v → mergeValue [] c v = .ok c
  fails : ¬EveryKey IsNamed v → mergeValue [] c v = .error .longNumber

variable {a b o m : Entries} {c v w : Value}

theorem yieldsTo_self (v : Value) : v.yieldsTo v = true := by
  simp [yieldsTo, replaces]

/-! ### What changes nothing -/

/-- Laying one dict over another without double keys gives no double keys. -/
theorem distinct_layEntries (put : Value → Value → Value) (hb : Table.Distinct b)
    (ho : Table.Distinct o) : Table.Distinct (layEntries put b o) := by
  rw [Table.distinct_iff_keys, keys_layEntries, List.pairwise_append]
  refine ⟨Table.distinct_iff_keys.1 hb, (Table.distinct_iff_keys.1 ho).filter _, ?_⟩
  intro k hk l hl
  have hnew := (List.mem_filter.1 hl).2
  simp only [Bool.not_eq_true', List.any_eq_false, Bool.not_eq_true] at hnew
  exact hnew k hk

/-- What is laid over values that it leaves as they are leaves the dict as it is. -/
theorem layEntries_stable (hm : Table.Distinct m)
    (h : ∀ e ∈ o, ∃ c, Table.get? e.1 m = some c ∧ laid c e.2 = c) :
    layEntries laid m o = m := by
  have hold : (o.filter fun e => !Table.has e.1 m) = [] := by
    refine List.filter_eq_nil_iff.2 fun e he => ?_
    obtain ⟨c, hc, -⟩ := h e he
    simp [Table.has, hc]
  have hsame : ∀ e ∈ m, (e.1, ((Table.get? e.1 o).map (laid e.2)).getD e.2) = e := by
    intro e he
    cases hv : Table.get? e.1 o with
    | none => rfl
    | some v =>
      obtain ⟨l, hl, hs⟩ := Table.mem_of_get? hv
      obtain ⟨c, hc, hlaid⟩ := h _ hl
      have hself : sameKey e.1 e.1 = true := sameKey_trans ((sameKey_comm e.1 l).trans hs) hs
      have hce : c = e.2 := by
        have hget := hm.get?_of_mem he hself
        rw [← Table.get?_congr hs, hc] at hget
        exact Option.some.inj hget
      rw [Option.map_some, Option.getD_some, ← hce, hlaid, hce]
  rw [layEntries, hold, List.append_nil, List.map_congr_left hsame, List.map_id']

/-- Laying `v` over what absorbs it fails only for a key that cannot be written out. -/
theorem Absorbs.error (h : Absorbs c v) {path : List Text} {e : SettingError}
    (hfail : mergeValue path c v = .error e) : e = .longNumber := by
  obtain ⟨e', hfail', rfl⟩ := (mergeValue_eq_error path).1 hfail
  by_cases hnamed : EveryKey IsNamed v
  · cases (h.stays hnamed).symm.trans hfail'
  · cases (h.fails hnamed).symm.trans hfail'
    rfl

/-- What absorbs `v` takes it only if all keys of `v` can be written out. -/
theorem Absorbs.named (h : Absorbs c v) {path : List Text}
    (hok : mergeValue path c v = .ok w) : EveryKey IsNamed v := by
  refine Classical.byContradiction fun hnot => ?_
  cases (h.fails hnot).symm.trans ((mergeValue_eq_ok path).1 hok)

/-- A dict absorbs entries if it has something under each of their keys that absorbs what
they have there. -/
theorem absorbs_dicts (hm : Table.Distinct m) (ho : Table.Distinct o)
    (h : ∀ e ∈ o, ∃ c, Table.get? e.1 m = some c ∧ Absorbs c e.2) :
    Absorbs (.dict m) (.dict o) := by
  have hunder {e : Value × Value} {c : Value} (he : e ∈ o) (hc : Table.get? e.1 m = some c) :
      Absorbs c e.2 := by
    obtain ⟨c', hc', habsorbs⟩ := h e he
    exact Option.some.inj (hc'.symm.trans hc) ▸ habsorbs
  constructor
  · intro hnamed
    rw [everyKey_dict_iff] at hnamed
    have hstays : ∀ e ∈ o, ∃ c, Table.get? e.1 m = some c ∧ laid c e.2 = c := by
      intro e he
      obtain ⟨c, hc, habsorbs⟩ := h e he
      exact ⟨c, hc, (eq_laid (habsorbs.stays (hnamed e he).2)).symm⟩
    rw [mergeValue_dicts, map_eq_ok]
    refine ⟨m, (mergeEntries_eq_ok hm ho).2 ⟨fun e he => ⟨(hnamed e he).1, fun c hc => ?_⟩,
      (layEntries_stable hm hstays).symm⟩, rfl⟩
    exact ⟨c, (mergeValue_eq_ok _).2 ((hunder he hc).stays (hnamed e he).2)⟩
  · intro hunnamed
    rw [mergeValue_dicts, map_eq_error]
    cases hmerge : mergeEntries [] m o with
    | ok m' =>
      have hall := ((mergeEntries_eq_ok hm ho).1 hmerge).1
      refine absurd (everyKey_dict_iff.2 fun e he => ⟨(hall e he).1, ?_⟩) hunnamed
      obtain ⟨c, hc, habsorbs⟩ := h e he
      obtain ⟨w, hw⟩ := (hall e he).2 c hc
      exact habsorbs.named hw
    | error e =>
      obtain ⟨entry, he, hfails⟩ := ((mergeEntries_eq_error_iff ho).1 hmerge).exists_mem
      rcases hfails with ⟨-, rfl⟩ | ⟨-, c, hc, hfail⟩
      · rfl
      · rw [(hunder he hc).error hfail]

theorem absorbs_plain (h : ∀ es, v ≠ .dict es) : Absorbs v v := by
  refine ⟨fun _ => ?_, fun hnot => absurd (.other h) hnot⟩
  rw [mergeValue_plain [] (.inl h), replace, yieldsTo_self, if_pos rfl]

/-- A value whose keys are found again absorbs itself. -/
theorem absorbs_self (hv : v.Keyed) (hfound : EveryKey IsFound v) : Absorbs v v := by
  induction v using dictInduction with
  | other v h => exact absorbs_plain h
  | whole o ih =>
    rw [everyKey_dict_iff] at hfound
    refine absorbs_dicts hv.distinct hv.distinct fun e he => ⟨e.2, ?_, ?_⟩
    · exact hv.distinct.get?_of_mem he (hfound e he).1
    · exact ih e he (hv.part he) (hfound e he).2

/-- What came of laying a value over another absorbs it. -/
theorem absorbs_laid (hc : c.Keyed) (hv : v.Keyed) (hfound : EveryKey IsFound v)
    (h : mergeValue [] c v = .ok w) : Absorbs w v := by
  induction v using dictInduction generalizing c w with
  | other v hplain =>
    rw [eq_laid h, laid_plain (.inl hplain)]
    exact absorbs_plain hplain
  | whole o ih =>
    by_cases hb : ∃ b, c = .dict b
    · obtain ⟨b, rfl⟩ := hb
      rw [mergeValue_dicts, map_eq_ok] at h
      obtain ⟨m, hm, rfl⟩ := h
      obtain ⟨hall, rfl⟩ := (mergeEntries_eq_ok hc.distinct hv.distinct).1 hm
      have hfound' := everyKey_dict_iff.1 hfound
      refine absorbs_dicts (distinct_layEntries laid hc.distinct hv.distinct) hv.distinct ?_
      intro e he
      have hget : Table.get? e.1 o = some e.2 :=
        hv.distinct.get?_of_mem he (hfound' e he).1
      cases hk : Table.get? e.1 b with
      | none =>
        refine ⟨e.2, by simp [get?_layEntries, hk, hget], ?_⟩
        exact absorbs_self (hv.part he) (hfound' e he).2
      | some c =>
        obtain ⟨w, hw⟩ := (hall e he).2 c hk
        refine ⟨laid c e.2, by simp [get?_layEntries, hk, hget], ?_⟩
        rw [← eq_laid hw]
        exact ih e he (hc.of_get? hk) (hv.part he) (hfound' e he).2 ((mergeValue_eq_ok _).1 hw)
    · rw [eq_laid h, laid_plain (.inr fun b h => hb ⟨b, h⟩)]
      exact absorbs_self hv hfound

/-! ### Nothing over a dict, and a dict over nothing -/

theorem merge_empty (a : Entries) : merge (.dict a) (.dict []) = .ok (.dict a) := rfl

/-- A dict laid over nothing is itself, unless one of its own keys cannot be written out. -/
theorem empty_merge (hb : Table.Distinct b) :
    merge (.dict []) (.dict b) =
      if b.any (·.1.hasLong) then .error .longNumber else .ok (.dict b) := by
  cases hm : mergeEntries [] [] b with
  | ok m =>
    obtain ⟨hall, rfl⟩ := (mergeEntries_eq_ok List.Pairwise.nil hb).1 hm
    have hnamed : b.any (·.1.hasLong) = false := by
      simpa using fun e he => (hall e he).1
    have hsame : layEntries laid [] b = b := by simp [layEntries, Table.has]
    rw [hnamed, merge_eq_ok.2 hm, hsame]
    rfl
  | error e =>
    obtain ⟨entry, he, hfails⟩ := ((mergeEntries_eq_error_iff hb).1 hm).exists_mem
    rcases hfails with ⟨hlong, rfl⟩ | ⟨-, c, hc, -⟩
    · rw [if_pos (List.any_eq_true.2 ⟨entry, he, hlong⟩), merge, hm]
      rfl
    · cases hc

/-- **An override applied twice gives what it gives once, and the empty dict changes
nothing**, but for keys that cannot be written out, which end the merge that visits them. -/
theorem merge_repeats (ha : Keyed (.dict a)) (hb : Keyed (.dict b))
    (hfound : EveryKey IsFound (.dict b)) :
    merge (.dict a) (.dict []) = .ok (.dict a) ∧
    ((∀ e ∈ b, e.1.hasLong = false) → merge (.dict []) (.dict b) = .ok (.dict b)) ∧
    ((∃ e ∈ b, e.1.hasLong = true) → merge (.dict []) (.dict b) = .error .longNumber) ∧
    ∀ r, merge (.dict a) (.dict b) = .ok r →
      (EveryKey IsNamed (.dict b) → merge r (.dict b) = .ok r) ∧
      (¬EveryKey IsNamed (.dict b) → merge r (.dict b) = .error .longNumber) := by
  refine ⟨merge_empty a, fun hnamed => ?_, fun hlong => ?_, fun r h => ?_⟩
  · rw [empty_merge hb.distinct, if_neg (by simpa using hnamed)]
  · rw [empty_merge hb.distinct, if_pos (List.any_eq_true.2 hlong)]
  · obtain ⟨m, -, rfl⟩ := map_eq_ok.1 h
    rw [merge_eq_mergeValue] at h ⊢
    have habsorbs := absorbs_laid ha hb hfound h
    exact ⟨habsorbs.stays, habsorbs.fails⟩

/-- A text takes the place of a truth value, a dict that of nothing, and sub-dicts are
merged; done once more nothing changes. -/
theorem merge_repeats_nested :
    let a : Entries := [(.text "on", .bool true), (.text "sub", .dict [(.text "x", .int 1)]),
      (.text "new", .null)]
    let b : Entries := [(.text "new", .dict [(.text "y", .list [])]),
      (.text "sub", .dict [(.text "z", .null), (.text "x", .null)]), (.text "on", .text "no")]
    let r : Entries := [(.text "on", .text "no"),
      (.text "sub", .dict [(.text "x", .null), (.text "z", .null)]),
      (.text "new", .dict [(.text "y", .list [])])]
    Keyed (.dict a) ∧ Keyed (.dict b) ∧ EveryKey IsFound (.dict b) ∧
      EveryKey IsNamed (.dict b) ∧ merge (.dict a) (.dict b) = .ok (.dict r) ∧
      merge (.dict r) (.dict b) = .ok (.dict r) ∧ merge (.dict []) (.dict b) = .ok (.dict b) := by
  intro a b r
  have hplain {v : Value} (hv : ∀ es, v ≠ .dict es) : Keyed v := .other hv
  have hsub : Keyed (.dict [(.text "z", .null), (.text "x", .null)]) :=
    .dict (List.pairwise_pair.2 rfl)
      (List.forall_mem_cons.2 ⟨hplain nofun, List.forall_mem_singleton.2 (hplain nofun)⟩)
  have ha : Keyed (.dict a) := .dict (by simp [Table.Distinct, a, sameKey, atoms?])
    (by simp [a, hplain, Keyed.single])
  have hb : Keyed (.dict b) := .dict (by simp [Table.Distinct, b, sameKey, atoms?])
    (by simp [b, hplain, Keyed.single, hsub])
  have hkeys {P : Value → Prop} (hP : ∀ s, P (.text s)) : EveryKey P (.dict b) := by
    have hplain {v : Value} (hv : ∀ es, v ≠ .dict es) : EveryKey P v := .other hv
    simp [everyKey_dict_iff, b, hP, hplain]
  have hfound : EveryKey IsFound (.dict b) := hkeys fun s => sameKey_self rfl
  have hnamed : EveryKey IsNamed (.dict b) := hkeys fun s => rfl
  have hgives : merge (.dict a) (.dict b) = .ok (.dict r) := rfl
  obtain ⟨-, hempty, -, hagain⟩ := merge_repeats ha hb hfound
  exact ⟨ha, hb, hfound, hnamed, hgives, (hagain _ hgives).1 hnamed,
    hempty fun e he => (everyKey_dict_iff.1 hnamed e he).1⟩

end MigrationSetup.Value
