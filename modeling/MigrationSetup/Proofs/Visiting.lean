import MigrationSetup.Proofs.Layering

/-! What a merge decides and what it computes.

A merge visits the entries of the override depth first, an entry before all that stands in
it (`Value.places`). It ends where the base has another kind of value at the same path
(`Clash`), or where a key cannot be written out, since every key visited becomes part of a
path (`Stops`). The first such entry tells the error. Where there is none, at every path to
dicts on both sides one dict has been laid over the other (`LaidOver`): the keys of the base
in their order and spelling and then the new ones, under each of them the override's value,
or what the merge of two dicts gives, or the base's where the override has none
(`Value.merge_decides`). -/
namespace MigrationSetup

/-- A dict without double keys all the way down through dicts, and whatever is no dict. -/
inductive Value.Keyed : Value → Prop
  | dict {es : Entries} (distinct : Table.Distinct es) (parts : ∀ e ∈ es, Keyed e.2) :
    Keyed (.dict es)
  | other {v : Value} (plain : ∀ es, v ≠ .dict es) : Keyed v

namespace Value.Keyed
variable {es : Entries}

theorem distinct (h : Keyed (.dict es)) : Table.Distinct es := by
  cases h with
  | dict distinct _ => exact distinct
  | other plain => exact absurd rfl (plain es)

theorem part {e : Value × Value} (h : Keyed (.dict es)) (he : e ∈ es) : Keyed e.2 := by
  cases h with
  | dict _ parts => exact parts e he
  | other plain => exact absurd rfl (plain es)

theorem of_get? (h : Keyed (.dict es)) {k v : Value} (hv : Table.get? k es = some v) :
    Keyed v := by
  obtain ⟨k', hm, -⟩ := Table.mem_of_get? hv
  exact h.part hm

theorem single {k v : Value} (hv : ∀ es, v ≠ .dict es) : Keyed (.dict [(k, v)]) :=
  .dict (List.pairwise_singleton _ _) (List.forall_mem_singleton.2 (.other hv))

theorem pair {k l v w : Value} (hkeys : Value.sameKey k l = false) (hv : Keyed v) (hw : Keyed w) :
    Keyed (.dict [(k, v), (l, w)]) :=
  .dict (List.pairwise_pair.2 hkeys) (List.forall_mem_cons.2 ⟨hv, List.forall_mem_singleton.2 hw⟩)

end Value.Keyed

namespace Value
variable {b o m : Entries} {k c v : Value} {path : List Value}

/-! ### Paths -/

/-- What a path of keys leads to through dicts. -/
def at? : List Value → Value → Option Value
  | [], v => some v
  | k :: path, .dict es => (Table.get? k es).bind (at? path)
  | _ :: _, _ => none

theorem at?_cons (k : Value) (path : List Value) (b : Entries) :
    at? (k :: path) (.dict b) = (Table.get? k b).bind (at? path) := rfl

theorem at?_cons_of (h : Table.get? k b = some c) (path : List Value) :
    at? (k :: path) (.dict b) = at? path c := by
  rw [at?_cons, h]
  rfl

theorem at?_cons_plain (h : ∀ es, c ≠ .dict es) (k : Value) (path : List Value) :
    at? (k :: path) c = none := by
  cases c with
  | dict es => exact absurd rfl (h es)
  | _ => rfl

/-- Only a dict leads on to a dict. -/
theorem exists_dict_of_at? {path : List Value} (h : at? path c = some (.dict b)) :
    ∃ es, c = .dict es := by
  cases path with
  | nil => exact ⟨b, Option.some.inj h⟩
  | cons k path =>
    cases c with
    | dict es => exact ⟨es, rfl⟩
    | _ => cases h

/-- What has a value under a key is a dict. -/
theorem exists_dict_of_at?_concat {path : List Value} {base : Value}
    (h : at? (path ++ [k]) base = some c) : ∃ b, at? path base = some (.dict b) := by
  induction path generalizing base with
  | nil =>
    cases base with
    | dict es => exact ⟨es, rfl⟩
    | _ => cases h
  | cons l path ih =>
    cases base with
    | dict es =>
      obtain ⟨d, hd, h⟩ := Option.bind_eq_some_iff.1 h
      obtain ⟨b, hb⟩ := ih h
      exact ⟨b, (at?_cons_of hd path).trans hb⟩
    | _ => cases h

mutual

/-- All that stands in the dicts of a value, depth first, each with the path that leads
there. -/
def places : Value → List (List Value × Value)
  | .dict es => placesIn es
  | _ => []

def placesIn : List (Value × Value) → List (List Value × Value)
  | [] => []
  | (k, v) :: rest =>
    ([k], v) :: ((places v).map fun p => (k :: p.1, p.2)) ++ placesIn rest

end

/-- An entry comes with all that stands in it. -/
theorem placesIn_eq (es : Entries) :
    placesIn es = es.flatMap fun e =>
      ([e.1], e.2) :: (places e.2).map fun p => (e.1 :: p.1, p.2) := by
  induction es with
  | nil => rfl
  | cons e es ih =>
    obtain ⟨k, v⟩ := e
    rw [placesIn, ih, List.flatMap_cons]

theorem places_plain (h : ∀ es, v ≠ .dict es) : places v = [] := by
  cases v with
  | dict es => exact absurd rfl (h es)
  | _ => rfl

/-! ### What ends a merge -/

/-- Two values are there, of two kinds, and neither are both read as lists nor is one a text
that is read as the truth value it takes the place of. -/
structure Clash (c v : Value) : Prop where
  base_held : c.isNull = false
  override_held : v.isNull = false
  unlisted : ¬(c.isListed = true ∧ v.isListed = true)
  unswitched : ¬(c.isBool = true ∧ v.isText = true)
  kinds : c.kind ≠ v.kind

/-- The path of a place leads in the base to a value that clashes with the one at the place,
and the text says so. -/
def Conflicts (base : Value) (place : List Value × Value) (text : Text) : Prop :=
  ∃ c, base.at? place.1 = some c ∧ Clash c place.2 ∧
    text = "Conflito de tipo em '" ++ Text.between "." (place.1.map spelled) ++ "': " ++
      c.kind.name ++ " vs " ++ place.2.kind.name

/-- What ends a merge at a place of the override, if it gets that far. -/
inductive Stops (base : Value) (place : List Value × Value) : SettingError → Prop
  | unnamed {path : List Value} {k : Value} {b : Entries} (last : place.1 = path ++ [k])
    (within : base.at? path = some (.dict b)) (long : k.hasLong = true) :
    Stops base place .longNumber
  | conflict {path : List Value} {k c : Value} (last : place.1 = path ++ [k])
    (held : base.at? place.1 = some c) (named : k.hasLong = false) (clash : Clash c place.2) :
    Stops base place (.conflict (place.1.map spelled) c.kind place.2.kind)

theorem clash_iff : Clash c v ↔ c.yieldsTo v = false := by
  simp only [yieldsTo, replaces, Bool.or_eq_false_iff, Bool.and_eq_false_iff,
    beq_eq_false_iff_ne]
  constructor
  · intro h
    refine ⟨⟨h.override_held, h.base_held⟩, ⟨?_, ?_⟩, h.kinds⟩
    · have hl := h.unlisted
      cases hv : v.isListed <;> simp_all
    · have hs := h.unswitched
      cases hv : v.isText <;> simp_all
  · rintro ⟨⟨hv, hc⟩, ⟨hl, hs⟩, hk⟩
    refine ⟨hc, hv, ?_, ?_, hk⟩ <;> rintro ⟨h, h'⟩ <;> simp_all

/-- Two dicts never clash. -/
theorem not_clash_dicts (b o : Entries) : ¬Clash (.dict b) (.dict o) := fun h => h.kinds rfl

/-- At an entry of the override itself. -/
theorem stops_here_iff {e : SettingError} :
    Stops (.dict b) ([k], v) e ↔ k.hasLong = true ∧ e = .longNumber ∨
      k.hasLong = false ∧ ∃ c, Table.get? k b = some c ∧ Clash c v ∧
        e = .conflict [k.spelled] c.kind v.kind := by
  have hat : at? [k] (.dict b) = Table.get? k b := Option.bind_fun_some _
  have hone {path : List Value} {l : Value} (last : [k] = path ++ [l]) : l = k := by
    have hlast := congrArg List.getLast? last
    rw [List.getLast?_concat] at hlast
    exact (Option.some.inj hlast).symm
  constructor
  · rintro (⟨last, within, long⟩ | ⟨last, held, named, clash⟩)
    · cases hone last
      exact .inl ⟨long, rfl⟩
    · cases hone last
      exact .inr ⟨named, _, hat.symm.trans held, clash, rfl⟩
  · rintro (⟨long, rfl⟩ | ⟨named, c, held, clash, rfl⟩)
    · exact .unnamed (show [k] = [] ++ [k] from rfl) rfl long
    · exact .conflict (show [k] = [] ++ [k] from rfl) (hat.trans held) named clash

/-- At what stands below an entry under which the base has something. -/
theorem stops_below_iff {place : List Value × Value} (hplace : place.1 ≠ [])
    {e : SettingError} :
    Stops (.dict b) (k :: place.1, place.2) e ↔ ∃ c e', Table.get? k b = some c ∧
      Stops c place e' ∧ e'.under [k.spelled] = e := by
  have hbelow {path : List Value} {l : Value} (last : k :: place.1 = path ++ [l]) :
      ∃ path', path = k :: path' ∧ place.1 = path' ++ [l] := by
    cases path with
    | nil => exact absurd (List.cons.inj last).2 hplace
    | cons k' path' =>
      obtain ⟨rfl, hlast⟩ := List.cons.inj last
      exact ⟨path', rfl, hlast⟩
  constructor
  · rintro (⟨last, within, long⟩ | ⟨last, held, named, clash⟩)
    · obtain ⟨path, rfl, hlast⟩ := hbelow last
      obtain ⟨c, hk, within⟩ := Option.bind_eq_some_iff.1 within
      exact ⟨c, _, hk, .unnamed hlast within long, rfl⟩
    · obtain ⟨path, rfl, hlast⟩ := hbelow last
      obtain ⟨c, hk, held⟩ := Option.bind_eq_some_iff.1 held
      exact ⟨c, _, hk, .conflict hlast held named clash, rfl⟩
  · rintro ⟨c, e', hk, ⟨last, within, long⟩ | ⟨last, held, named, clash⟩, rfl⟩
    · exact .unnamed (congrArg (k :: ·) last) ((at?_cons_of hk _).trans within) long
    · have last' : k :: place.1 = (k :: _) ++ [_] := congrArg (k :: ·) last
      exact .conflict last' ((at?_cons_of hk _).trans held) named clash

/-- Nothing below a value that is no dict ends a merge. -/
theorem not_stops_plain (h : ∀ es, c ≠ .dict es) {place : List Value × Value}
    {e : SettingError} : ¬Stops c place e := by
  intro hstops
  cases hstops with
  | @unnamed path k b _ within _ =>
    cases path with
    | nil => exact h b (Option.some.inj within)
    | cons l path => cases (at?_cons_plain h l path).symm.trans within
  | @conflict path k _ last held _ _ =>
    rw [last] at held
    cases path with
    | nil => cases (at?_cons_plain h k []).symm.trans held
    | cons l path => cases (at?_cons_plain h l (path ++ [k])).symm.trans held

/-- Below values that clash nothing ends a merge. -/
theorem not_first_of_clash (h : Clash c v) {e : SettingError} :
    ¬First (Stops c) (places v) e := by
  by_cases hc : ∃ b, c = .dict b
  · obtain ⟨b, rfl⟩ := hc
    rw [places_plain fun o hv => not_clash_dicts b o (hv ▸ h)]
    exact not_first_nil
  · intro h
    obtain ⟨place, -, hstops⟩ := h.exists_mem
    exact not_stops_plain (fun b hb => hc ⟨b, hb⟩) hstops

theorem ne_nil_of_mem_placesIn {es : Entries} {place : List Value × Value}
    (h : place ∈ placesIn es) : place.1 ≠ [] := by
  rw [placesIn_eq, List.mem_flatMap] at h
  obtain ⟨entry, -, h⟩ := h
  rcases List.mem_cons.1 h with rfl | h
  · exact List.cons_ne_nil _ _
  · obtain ⟨p, -, rfl⟩ := List.mem_map.1 h
    exact List.cons_ne_nil _ _

/-- Every path to what stands in a value has a key. -/
theorem ne_nil_of_mem_places {place : List Value × Value} (h : place ∈ places v) :
    place.1 ≠ [] := by
  cases v with
  | dict es => exact ne_nil_of_mem_placesIn h
  | _ => cases h

/-! ### Where a merge ends -/

/-- How an entry cannot be laid over a dict. -/
def EntryFails (path : List Text) (b : Entries) (entry : Value × Value) (e : SettingError) :
    Prop :=
  entry.1.hasLong = true ∧ e = .longNumber ∨
    entry.1.hasLong = false ∧ ∃ c, Table.get? entry.1 b = some c ∧
      mergeValue (path ++ [entry.1.spelled]) c entry.2 = .error e

/-- What was laid before an entry has nothing to do with it. -/
theorem entryFails_put {path : List Text} {entry : Value × Value} {e : SettingError} {w : Value}
    (h : sameKey k entry.1 = false) :
    EntryFails path (Table.put k w b) entry e ↔ EntryFails path b entry e := by
  rw [EntryFails, EntryFails, Table.get?_put_of_ne h]

/-- The first entry that cannot be laid over the base ends the merge. -/
theorem mergeEntries_eq_error_iff {path : List Text} {e : SettingError}
    (ho : Table.Distinct o) :
    mergeEntries path b o = .error e ↔ First (EntryFails path b) o e := by
  induction o generalizing b with
  | nil => exact iff_of_false nofun not_first_nil
  | cons entry rest ih =>
    obtain ⟨k, v⟩ := entry
    have hrest (w : Value) : mergeEntries path (Table.put k w b) rest = .error e ↔
        First (EntryFails path b) rest e :=
      ih ho.tail |>.trans <| First.congr fun entry he _ =>
        entryFails_put ((List.pairwise_cons.1 ho).1 entry he)
    rw [first_cons]
    cases hn : k.hasLong with
    | true => simp [mergeEntries, EntryFails, hn, eq_comm]
    | false =>
      cases hk : Table.get? k b with
      | none =>
        rw [mergeEntries_new hn hk, ← Table.put_of_new hk, hrest v]
        simp [EntryFails, hn, hk]
      | some c =>
        rw [mergeEntries_held hn hk]
        simp only [EntryFails, hn, hk, Option.some.injEq, exists_eq_left', Bool.false_eq_true,
          false_and, false_or, true_and]
        cases hc : mergeValue (path ++ [k.spelled]) c v with
        | error e' => simp [Except.bind]
        | ok w => simpa [Except.bind] using hrest w

/-- What stands below an entry ends a merge as it does within what the base has there. -/
theorem first_below_iff {e : SettingError} :
    First (fun p => Stops (.dict b) (k :: p.1, p.2)) (places v) e ↔
      ∃ c, Table.get? k b = some c ∧ ∃ e', First (Stops c) (places v) e' ∧
        e'.under [k.spelled] = e := by
  cases hk : Table.get? k b with
  | none =>
    refine iff_of_false ?_ (by simp)
    intro h
    obtain ⟨place, hmem, hstops⟩ := h.exists_mem
    obtain ⟨c, -, hc, -⟩ := (stops_below_iff (ne_nil_of_mem_places hmem)).1 hstops
    cases hk.symm.trans hc
  | some c =>
    simp only [Option.some.injEq, exists_eq_left', ← first_image]
    refine First.congr fun place hmem e => (stops_below_iff (ne_nil_of_mem_places hmem)).trans ?_
    simp [hk]

/-- An entry fails as what the merge visits from it on ends it. -/
theorem entryFails_iff {entry : Value × Value} {e : SettingError}
    (below : ∀ c e', Table.get? entry.1 b = some c →
      (mergeValue [] c entry.2 = .error e' ↔
        Clash c entry.2 ∧ e' = .conflict [] c.kind entry.2.kind ∨
          First (Stops c) (places entry.2) e')) :
    EntryFails [] b entry e ↔
      First (Stops (.dict b))
        (([entry.1], entry.2) :: (places entry.2).map fun p => (entry.1 :: p.1, p.2)) e := by
  obtain ⟨k, v⟩ := entry
  rw [first_cons, first_map, first_below_iff, EntryFails]
  simp only [stops_here_iff, List.nil_append, mergeValue_eq_error [k.spelled]]
  cases hn : k.hasLong with
  | true => simp
  | false =>
    cases hk : Table.get? k b with
    | none => simp
    | some c =>
      simp only [Bool.false_eq_true, false_and, true_and, false_or, Option.some.injEq,
        exists_eq_left', fun e' => below c e' hk]
      by_cases hclash : Clash c v
      · have hnone (e' : SettingError) : ¬First (Stops c) (places v) e' :=
          not_first_of_clash hclash
        simp [hclash, hnone, SettingError.under, eq_comm]
      · simp [hclash]

/-- A merge ends at the first place of the override that stops it. -/
theorem mergeValue_eq_error_iff {e : SettingError} (hc : c.Keyed) (hv : v.Keyed) :
    mergeValue [] c v = .error e ↔
      Clash c v ∧ e = .conflict [] c.kind v.kind ∨ First (Stops c) (places v) e := by
  induction v using dictInduction generalizing c e with
  | other v h =>
    rw [mergeValue_plain [] (.inl h), replace, places_plain h, clash_iff]
    cases c.yieldsTo v <;> simp [not_first_nil, eq_comm]
  | whole o ih =>
    by_cases hb : ∃ b, c = .dict b
    · obtain ⟨b, rfl⟩ := hb
      rw [mergeValue_dicts, map_eq_error, mergeEntries_eq_error_iff hv.distinct, places,
        placesIn_eq, first_flatMap, or_iff_right fun h => not_clash_dicts b o h.1]
      exact First.congr fun entry he e => entryFails_iff fun c e' hk =>
        ih entry he (hc.of_get? hk) (hv.part he)
    · have hplain : ∀ b, c ≠ .dict b := fun b h => hb ⟨b, h⟩
      have hnone : ¬First (Stops c) (places (.dict o)) e := by
        intro h
        obtain ⟨_, _, hstops⟩ := h.exists_mem
        exact not_stops_plain hplain hstops
      rw [mergeValue_plain [] (.inr hplain), replace, clash_iff, or_iff_left hnone]
      cases c.yieldsTo (.dict o) <;> simp [eq_comm]

/-- Where a key that is visited can be written out, what stops a merge is a conflict. -/
theorem conflicts_iff_stops {base : Value} {place : List Value × Value} {text : Text}
    (hplace : place.1 ≠ []) (hnamed : ¬Stops base place .longNumber) :
    Conflicts base place text ↔ ∃ e, Stops base place e ∧ e.message = text := by
  constructor
  · rintro ⟨c, held, clash, rfl⟩
    obtain ⟨path, k, last⟩ := (List.eq_nil_or_concat _).resolve_left hplace
    rw [List.concat_eq_append] at last
    have hk : k.hasLong = false := by
      rw [← Bool.not_eq_true]
      intro long
      obtain ⟨b, within⟩ := exists_dict_of_at?_concat (last ▸ held)
      exact hnamed (.unnamed last within long)
    exact ⟨_, .conflict last held hk clash, rfl⟩
  · rintro ⟨e, ⟨last, within, long⟩ | ⟨last, held, named, clash⟩, rfl⟩
    · exact absurd (.unnamed last within long) hnamed
    · exact ⟨_, held, clash, rfl⟩

/-! ### What comes out of a merge -/

/-- One dict laid over another. The keys of the base come first, in their order and spelling,
then those that only the override has. Under each stands what the override has, or else what
the base has; where both have a dict the two are merged in turn. -/
structure LaidOver (base override result : Entries) : Prop where
  keys : Table.keys result =
    Table.keys base ++ (Table.keys override).filter fun k => !Table.has k base
  only_override : ∀ {k}, Table.get? k base = none → Table.get? k result = Table.get? k override
  only_base : ∀ {k}, Table.get? k override = none → Table.get? k result = Table.get? k base
  taken : ∀ {k c v}, Table.get? k base = some c → Table.get? k override = some v →
    ((∀ es, c ≠ .dict es) ∨ ∀ es, v ≠ .dict es) → Table.get? k result = some v
  merged : ∀ {k b o}, Table.get? k base = some (.dict b) → Table.get? k override = some (.dict o) →
    ∃ m, Table.get? k result = some (.dict m) ∧ merge (.dict b) (.dict o) = .ok (.dict m)

theorem merge_eq_mergeValue (b o : Entries) :
    merge (.dict b) (.dict o) = mergeValue [] (.dict b) (.dict o) :=
  (mergeValue_dicts [] b o).symm

theorem merge_eq_ok {b o m : Entries} :
    merge (.dict b) (.dict o) = .ok (.dict m) ↔ mergeEntries [] b o = .ok m := by
  simp [merge, map_eq_ok]

theorem laidOver_of_merge (hb : Table.Distinct b) (ho : Table.Distinct o)
    (h : merge (.dict b) (.dict o) = .ok (.dict m)) : LaidOver b o m := by
  obtain ⟨hall, rfl⟩ := (mergeEntries_eq_ok hb ho).1 (merge_eq_ok.1 h)
  constructor
  · rw [keys_layEntries]
    simp only [Table.has_eq_any]
  · intro k hk
    simp [get?_layEntries, hk]
  · intro k hk
    simp [get?_layEntries, hk]
  · intro k c v hc hv hplain
    simp [get?_layEntries, hc, hv, laid_plain hplain.symm]
  · intro k b' o' hc hv
    obtain ⟨l, hl, hs⟩ := Table.mem_of_get? hv
    obtain ⟨w, hw⟩ := (hall _ hl).2 _ ((Table.get?_congr hs b).trans hc)
    have hlaid := eq_laid hw
    rw [mergeValue_eq_ok, mergeValue_dicts] at hw
    obtain ⟨m', hm', rfl⟩ := map_eq_ok.1 hw
    exact ⟨m', by simp [get?_layEntries, hc, hv, hlaid], merge_eq_ok.2 hm'⟩

/-- At every path to dicts on both sides one has been laid over the other. -/
theorem laidOver_at {path : List Value} {b' o' : Entries} (hb : Keyed (.dict b))
    (ho : Keyed (.dict o)) (h : merge (.dict b) (.dict o) = .ok (.dict m))
    (hb' : at? path (.dict b) = some (.dict b')) (ho' : at? path (.dict o) = some (.dict o')) :
    ∃ m', at? path (.dict m) = some (.dict m') ∧ LaidOver b' o' m' := by
  have hlaid := laidOver_of_merge hb.distinct ho.distinct h
  induction path generalizing b o m with
  | nil =>
    cases hb'
    cases ho'
    exact ⟨m, rfl, hlaid⟩
  | cons k path ih =>
    obtain ⟨c, hc, hb'⟩ := Option.bind_eq_some_iff.1 hb'
    obtain ⟨v, hv, ho'⟩ := Option.bind_eq_some_iff.1 ho'
    obtain ⟨b'', rfl⟩ := exists_dict_of_at? hb'
    obtain ⟨o'', rfl⟩ := exists_dict_of_at? ho'
    obtain ⟨m'', hm, h⟩ := hlaid.merged hc hv
    have hb := hb.of_get? hc
    have ho := ho.of_get? hv
    obtain ⟨m', hm', hlaid⟩ := ih hb ho h hb' ho' (laidOver_of_merge hb.distinct ho.distinct h)
    exact ⟨m', (at?_cons_of hm path).trans hm', hlaid⟩

/-! ### Both together -/

theorem merge_eq_error_iff {e : SettingError} (hb : Keyed (.dict b)) (ho : Keyed (.dict o)) :
    merge (.dict b) (.dict o) = .error e ↔
      First (Stops (.dict b)) (places (.dict o)) e := by
  rw [merge_eq_mergeValue, mergeValue_eq_error_iff hb ho,
    or_iff_right fun h => not_clash_dicts b o h.1]

/-- **A merge is decided by the first place of the override that stops it, and otherwise lays
dict over dict.** Where all keys visited can be written out, it fails exactly if there is a
conflict, always with a conflict of kinds and in the words of the first. -/
theorem merge_decides (hb : Keyed (.dict b)) (ho : Keyed (.dict o)) :
    (∀ e, merge (.dict b) (.dict o) = .error e ↔
      First (Stops (.dict b)) (places (.dict o)) e) ∧
    ((∀ place ∈ places (.dict o), ¬Stops (.dict b) place .longNumber) →
      ((∃ e, merge (.dict b) (.dict o) = .error e) ↔
        ∃ place ∈ places (.dict o), ∃ text, Conflicts (.dict b) place text) ∧
      ∀ e, merge (.dict b) (.dict o) = .error e → e.fault = .typeConflict ∧
        First (Conflicts (.dict b)) (places (.dict o)) e.message) ∧
    ∀ r, merge (.dict b) (.dict o) = .ok r → ∀ path b' o',
      at? path (.dict b) = some (.dict b') → at? path (.dict o) = some (.dict o') →
        ∃ m', r.at? path = some (.dict m') ∧ LaidOver b' o' m' := by
  refine ⟨fun e => merge_eq_error_iff hb ho, fun hnamed => ?_, ?_⟩
  · have htold (text : Text) : First (Conflicts (.dict b)) (places (.dict o)) text ↔
        ∃ e, First (Stops (.dict b)) (places (.dict o)) e ∧ e.message = text :=
      (First.congr fun place hmem _ =>
        conflicts_iff_stops (ne_nil_of_mem_places hmem) (hnamed place hmem)).trans first_image
    constructor
    · rw [← exists_first_iff]
      simp only [htold, merge_eq_error_iff hb ho]
      exact ⟨fun ⟨e, h⟩ => ⟨_, e, h, rfl⟩, fun ⟨_, e, h, _⟩ => ⟨e, h⟩⟩
    · intro e h
      have hfirst := (merge_eq_error_iff hb ho).1 h
      refine ⟨?_, (htold _).2 ⟨e, hfirst, rfl⟩⟩
      obtain ⟨place, hmem, hstops⟩ := hfirst.exists_mem
      cases hstops with
      | unnamed last within long => exact absurd (.unnamed last within long) (hnamed place hmem)
      | conflict => rfl
  · intro r h path b' o' hb' ho'
    obtain ⟨m, -, rfl⟩ := map_eq_ok.1 h
    exact laidOver_at hb ho h hb' ho'

/-- A text takes the place of a truth value, the conflict below the next entry ends the merge,
and without it the sub-dicts are merged. -/
theorem merge_decides_nested :
    let base : Entries := [(.text "a", .dict [(.text "x", .int 1)]), (.text "b", .bool true)]
    let bad : Entries := [(.text "b", .text "off"), (.text "a", .dict [(.text "x", .text "s")])]
    let good : Entries := [(.text "b", .text "off"), (.text "a", .dict [(.text "y", .null)])]
    Keyed (.dict base) ∧ Keyed (.dict bad) ∧ Keyed (.dict good) ∧
      (∀ place ∈ places (.dict bad), ¬Stops (.dict base) place .longNumber) ∧
      First (Conflicts (.dict base)) (places (.dict bad))
        "Conflito de tipo em 'a.x': int vs str" ∧
      LaidOver [(.text "x", .int 1)] [(.text "y", .null)]
        [(.text "x", .int 1), (.text "y", .null)] := by
  intro base bad good
  have hbase : Keyed (.dict base) := .dict (List.pairwise_pair.2 rfl)
    (List.forall_mem_cons.2 ⟨.single nofun, List.forall_mem_singleton.2 (.other nofun)⟩)
  have hbad : Keyed (.dict bad) := .dict (List.pairwise_pair.2 rfl)
    (List.forall_mem_cons.2 ⟨.other nofun, List.forall_mem_singleton.2 (.single nofun)⟩)
  have hgood : Keyed (.dict good) := .dict (List.pairwise_pair.2 rfl)
    (List.forall_mem_cons.2 ⟨.other nofun, List.forall_mem_singleton.2 (.single nofun)⟩)
  have hkeys : ∀ place ∈ places (.dict bad), ∀ k ∈ place.1, k.hasLong = false := by
    simp [bad, places, placesIn, hasLong]
  have hnamed : ∀ place ∈ places (.dict bad), ¬Stops (.dict base) place .longNumber := by
    rintro place hplace ⟨last, within, long⟩
    rw [hkeys place hplace _ (last ▸ List.mem_concat_self)] at long
    cases long
  have hfails : merge (.dict base) (.dict bad) =
      .error (.conflict ["a", "x"] .int .text) := rfl
  have hgives : merge (.dict base) (.dict good) = .ok (.dict [(.text "a",
      .dict [(.text "x", .int 1), (.text "y", .null)]), (.text "b", .text "off")]) := rfl
  have htext : (SettingError.conflict ["a", "x"] .int .text).message =
      "Conflito de tipo em 'a.x': int vs str" := by decide
  have hfirst := (((merge_decides hbase hbad).2.1 hnamed).2 _ hfails).2
  rw [htext] at hfirst
  obtain ⟨m, hm, hlaid⟩ := (merge_decides hbase hgood).2.2 _ hgives [.text "a"]
    [(.text "x", .int 1)] [(.text "y", .null)] rfl rfl
  cases hm
  exact ⟨hbase, hbad, hgood, hnamed, hfirst, hlaid⟩

end Value
end MigrationSetup
