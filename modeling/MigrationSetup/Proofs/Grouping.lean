import MigrationSetup.Proofs.Repeating

/-! Three layers, laid over one another in either grouping.

A value bears another if that can be laid over it (`Value.Bears`). Of three layers it makes no
difference which two are laid together first, where both groupings can be laid and something
stands under every key of the middle one (`Value.merge_regroups`). The order and the spelling
of the keys come out alike whatever the values are (`Value.layEntries_regroup`), so it is enough
to look at one key at a time and to go down where dicts meet on all three sides
(`Value.laid_regroup`). A middle layer that holds nothing under a key takes the place of a dict
of the first layer in one grouping and gives way to the last one in the other. -/
namespace MigrationSetup.Value

/-- `v` can be laid over `c`. -/
def Bears (c v : Value) : Prop := ∃ w, mergeValue [] c v = .ok w

/-- Something, and no dict that holds itself. -/
def Stands (v : Value) : Prop := v ≠ .null ∧ v ≠ .loop false

variable {a b c o : Entries} {x y z : Value}

/-! ### One key at a time -/

/-- What stands in a dict stands under its keys or in what stands there. -/
theorem forall_places_dict {P : Value → Prop} :
    (∀ place ∈ places (.dict b), P place.2) ↔
      ∀ e ∈ b, P e.2 ∧ ∀ place ∈ places e.2, P place.2 := by
  simp only [places, placesIn_eq, List.mem_flatMap, List.mem_cons, List.mem_map]
  constructor
  · intro h e he
    exact ⟨h _ ⟨e, he, .inl rfl⟩, fun place hplace =>
      h (e.1 :: place.1, place.2) ⟨e, he, .inr ⟨place, hplace, rfl⟩⟩⟩
  · rintro h _ ⟨e, he, rfl | ⟨place, hplace, rfl⟩⟩
    · exact (h e he).1
    · exact (h e he).2 place hplace

theorem has_layEntries (put : Value → Value → Value) (k : Value) (b o : Entries) :
    Table.has k (layEntries put b o) = (Table.has k b || Table.has k o) := by
  rw [Table.has, Table.has, Table.has, get?_layEntries]
  cases Table.get? k b <;> simp

/-- Keys come in one order and spelling in either grouping. What stands under them is the same
where it is for each key that all three have. -/
theorem layEntries_regroup {put : Value → Value → Value}
    (h : ∀ e ∈ a, ∀ y z, Table.get? e.1 b = some y → Table.get? e.1 c = some z →
      put (put e.2 y) z = put e.2 (put y z)) :
    layEntries put (layEntries put a b) c = layEntries put a (layEntries put b c) := by
  have hfirst : ∀ e ∈ a,
      (e.1, ((Table.get? e.1 c).map (put (((Table.get? e.1 b).map (put e.2)).getD e.2))).getD
        (((Table.get? e.1 b).map (put e.2)).getD e.2)) =
      (e.1, ((Table.get? e.1 (layEntries put b c)).map (put e.2)).getD e.2) := by
    intro e he
    rw [get?_layEntries]
    cases hy : Table.get? e.1 b with
    | none => cases Table.get? e.1 c <;> rfl
    | some y =>
      cases hz : Table.get? e.1 c with
      | none => rfl
      | some z => exact congrArg (Prod.mk e.1) (h e he y z hy hz)
  have hlast : (c.filter fun e => !Table.has e.1 (layEntries put a b)) =
      (c.filter fun e => !Table.has e.1 b).filter fun e => !Table.has e.1 a := by
    rw [List.filter_filter]
    exact List.filter_congr fun e _ => by rw [has_layEntries, Bool.not_or]
  rw [layEntries, hlast]
  simp only [layEntries, List.map_append, List.map_map, List.filter_append, List.filter_map,
    List.append_assoc]
  exact congrArg (· ++ _) (List.map_congr_left hfirst)

/-! ### Values -/

/-- A dict bears another only if what it has under a key bears what comes over it there. -/
theorem bears_dicts (hb : Table.Distinct b) (ho : Table.Distinct o)
    (h : Bears (.dict b) (.dict o)) :
    (∀ {k c v}, Table.get? k b = some c → Table.get? k o = some v → Bears c v) ∧
      laid (.dict b) (.dict o) = .dict (layEntries laid b o) := by
  obtain ⟨w, hw⟩ := h
  have hlaid := eq_laid hw
  rw [mergeValue_dicts, map_eq_ok] at hw
  obtain ⟨m, hm, rfl⟩ := hw
  obtain ⟨hall, rfl⟩ := (mergeEntries_eq_ok hb ho).1 hm
  refine ⟨fun hc hv => ?_, hlaid.symm⟩
  obtain ⟨l, hl, hs⟩ := Table.mem_of_get? hv
  obtain ⟨w, hw⟩ := (hall _ hl).2 _ ((Table.get?_congr hs b).trans hc)
  exact ⟨w, (mergeValue_eq_ok _).1 hw⟩

/-- Of what stands only a dict bears a dict. -/
theorem dict_of_bears (hy : Stands y) (h : Bears y (.dict o)) : ∃ b, y = .dict b := by
  cases y with
  | dict b => exact ⟨b, rfl⟩
  | null => exact absurd rfl hy.1
  | loop isList =>
    cases isList with
    | false => exact absurd rfl hy.2
    | true => obtain ⟨_, hw⟩ := h; cases hw
  | _ => obtain ⟨_, hw⟩ := h; cases hw

/-- What comes of three layers is the same in either grouping. -/
theorem laid_regroup (hx : x.Keyed) (hy : y.Keyed) (hz : z.Keyed) (hstands : Stands y)
    (hfull : ∀ place ∈ places y, Stands place.2) (hxy : Bears x y) (hyz : Bears y z)
    (hleft : Bears (laid x y) z) (hright : Bears x (laid y z)) :
    laid (laid x y) z = laid x (laid y z) := by
  induction z using dictInduction generalizing x y with
  | other z hplain => simp only [laid_plain (.inl hplain)]
  | whole c ih =>
    obtain ⟨b, rfl⟩ := dict_of_bears hstands hyz
    by_cases hdict : ∃ a, x = .dict a
    · obtain ⟨a, rfl⟩ := hdict
      have ha := hx.distinct
      have hb := hy.distinct
      have hc := hz.distinct
      rw [forall_places_dict] at hfull
      obtain ⟨hunder, hab⟩ := bears_dicts ha hb hxy
      obtain ⟨hover, hbc⟩ := bears_dicts hb hc hyz
      rw [hab] at hleft ⊢
      rw [hbc] at hright ⊢
      obtain ⟨hlast, hresult⟩ := bears_dicts (distinct_layEntries laid ha hb) hc hleft
      obtain ⟨hfirst, hresult'⟩ := bears_dicts ha (distinct_layEntries laid hb hc) hright
      rw [hresult, hresult']
      refine congrArg dict (layEntries_regroup fun e he v w hv hw => ?_)
      obtain ⟨l, hl, -⟩ := Table.mem_of_get? hv
      obtain ⟨l', hl', hs⟩ := Table.mem_of_get? hw
      have hself : sameKey e.1 e.1 = true := sameKey_trans ((sameKey_comm e.1 l').trans hs) hs
      have hu : Table.get? e.1 a = some e.2 := ha.get?_of_mem he hself
      refine ih _ hl' (hx.part he) (hy.part hl) (hz.part hl') (hfull _ hl).1 (hfull _ hl).2
        (hunder hu hv) (hover hv hw) ?_ ?_
      · exact hlast (by simp [get?_layEntries, hu, hv]) hw
      · exact hfirst hu (by simp [get?_layEntries, hv, hw])
    · have hplain : ∀ a, x ≠ .dict a := fun a h => hdict ⟨a, h⟩
      simp only [laid_plain (.inr hplain)]

/-! ### Dicts -/

/-- **Three layers give the same in either grouping**, the order and the spelling of all keys
included, where the middle one has something under every key and no dict in it holds itself. -/
theorem merge_regroups (ha : Keyed (.dict a)) (hb : Keyed (.dict b)) (hc : Keyed (.dict c))
    (hfull : ∀ place ∈ places (.dict b), Stands place.2) {ab bc l r : Value}
    (hab : merge (.dict a) (.dict b) = .ok ab) (hl : merge ab (.dict c) = .ok l)
    (hbc : merge (.dict b) (.dict c) = .ok bc) (hr : merge (.dict a) bc = .ok r) : l = r := by
  have hdict {b o : Entries} {w : Value} (h : merge (.dict b) (.dict o) = .ok w) :
      ∃ m, w = .dict m := have ⟨m, _, h⟩ := map_eq_ok.1 h; ⟨m, h.symm⟩
  obtain ⟨ab, rfl⟩ := hdict hab
  obtain ⟨bc, rfl⟩ := hdict hbc
  rw [merge_eq_mergeValue] at hab hl hbc hr
  have hleft := hl
  have hright := hr
  rw [eq_laid hab] at hleft
  rw [eq_laid hbc] at hright
  rw [eq_laid hleft, eq_laid hright]
  exact laid_regroup ha hb hc ⟨nofun, nofun⟩ hfull ⟨_, hab⟩ ⟨_, hbc⟩ ⟨_, hleft⟩ ⟨_, hright⟩

/-- A text over a truth value, a key in two spellings, and sub-dicts on all three sides. -/
theorem merge_regroups_nested :
    let a : Entries := [(.text "sub", .dict [(.text "x", .int 1), (.text "on", .bool true)]),
      (.mode .perStatement, .text "p")]
    let b : Entries := [(.text "PER_STATEMENT", .list []),
      (.text "sub", .dict [(.text "on", .text "no"), (.text "new", .int 2)])]
    let c : Entries := [(.text "sub", .dict [(.text "new", .int 3), (.text "x", .null)]),
      (.text "last", .null)]
    let ab : Entries := [(.text "sub", .dict [(.text "x", .int 1), (.text "on", .text "no"),
      (.text "new", .int 2)]), (.mode .perStatement, .list [])]
    let bc : Entries := [(.text "PER_STATEMENT", .list []),
      (.text "sub", .dict [(.text "on", .text "no"), (.text "new", .int 3), (.text "x", .null)]),
      (.text "last", .null)]
    let abc : Entries := [(.text "sub", .dict [(.text "x", .null), (.text "on", .text "no"),
      (.text "new", .int 3)]), (.mode .perStatement, .list []), (.text "last", .null)]
    Keyed (.dict a) ∧ Keyed (.dict b) ∧ Keyed (.dict c) ∧
      (∀ place ∈ places (.dict b), Stands place.2) ∧
      merge (.dict a) (.dict b) = .ok (.dict ab) ∧ merge (.dict b) (.dict c) = .ok (.dict bc) ∧
      ∃ l r, merge (.dict ab) (.dict c) = .ok l ∧ merge (.dict a) (.dict bc) = .ok r ∧
        l = r ∧ r = .dict abc := by
  intro a b c ab bc abc
  have hsub {k l v w : Value} (hkeys : sameKey k l = false) (hv : ∀ es, v ≠ .dict es)
      (hw : ∀ es, w ≠ .dict es) : Keyed (.dict [(k, v), (l, w)]) :=
    .pair hkeys (.other hv) (.other hw)
  have ha : Keyed (.dict a) := .pair rfl (hsub rfl nofun nofun) (.other nofun)
  have hb : Keyed (.dict b) := .pair rfl (.other nofun) (hsub rfl nofun nofun)
  have hc : Keyed (.dict c) := .pair rfl (hsub rfl nofun nofun) (.other nofun)
  have hfull : ∀ place ∈ places (.dict b), Stands place.2 := by
    simp [b, places, placesIn, Stands]
  have hab : merge (.dict a) (.dict b) = .ok (.dict ab) := rfl
  have hbc : merge (.dict b) (.dict c) = .ok (.dict bc) := rfl
  have hl : merge (.dict ab) (.dict c) = .ok (.dict abc) := rfl
  have hr : merge (.dict a) (.dict bc) = .ok (.dict abc) := rfl
  exact ⟨ha, hb, hc, hfull, hab, hbc, _, _, hl, hr,
    merge_regroups ha hb hc hfull hab hl hbc hr, rfl⟩

/-- Nothing in the middle layer keeps the first dict out in one grouping and not in the other. -/
example :
    let layer (v : Value) : Value := .dict [(.text "x", v)]
    let first := layer (.dict [(.text "p", .int 1)])
    let last := layer (.dict [(.text "q", .int 2)])
    (merge first (layer .null)).bind (merge · last) = .ok last ∧
      (merge (layer .null) last).bind (merge first) =
        .ok (layer (.dict [(.text "p", .int 1), (.text "q", .int 2)])) := ⟨rfl, rfl⟩

end MigrationSetup.Value
