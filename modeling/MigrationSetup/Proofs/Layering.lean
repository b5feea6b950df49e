import MigrationSetup.Proofs.Result
import MigrationSetup.Proofs.Table
import MigrationSetup.Settings.Merge

/-! What laying one dict over another gives, and when it fails.

Two layers meet at a path if dicts on both sides lead there (`Meets`). One can be laid over
the other exactly if the value of the base gives way wherever they meet and every key that
has to be named there can be named (`Compatible`). What comes out is then given in one step
(`layEntries`): the entries of the base in their order and spelling, each with what the
override has under its key, and after them the entries that only the override has
(`mergeEntries_ok_iff`). Where in a larger dict the two stand shows in the path of a
conflict and in nothing else (`mergeEntries_under`). -/
namespace MigrationSetup

/-- The error of what stands under `outer`. -/
def SettingError.under (outer : List Text) : SettingError → SettingError
  | .conflict path base override => .conflict (outer ++ path) base override
  | e => e

namespace Value

/-- The name of a result that is no number, or 0. -/
def name : Value → Nat
  | .nan n => n
  | _ => 0

/-- A dict without double keys all the way down through dicts, and whatever is no dict. No
result that is no number has a name there. -/
inductive Tidy : Value → Prop
  | dict {es : Entries} (distinct : Table.Distinct es) (unnamed : ∀ e ∈ es, e.1.name = 0)
      (parts : ∀ e ∈ es, Tidy e.2) : Tidy (.dict es)
  | other {v : Value} (plain : ∀ es, v ≠ .dict es) (unnamed : v.name = 0) : Tidy v

namespace Tidy
variable {es : Entries}

theorem distinct (h : Tidy (.dict es)) : Table.Distinct es := by
  cases h with
  | dict distinct _ _ => exact distinct
  | other plain => exact absurd rfl (plain es)

theorem key {e : Value × Value} (h : Tidy (.dict es)) (he : e ∈ es) : e.1.name = 0 := by
  cases h with
  | dict _ unnamed _ => exact unnamed e he
  | other plain => exact absurd rfl (plain es)

theorem part {e : Value × Value} (h : Tidy (.dict es)) (he : e ∈ es) : Tidy e.2 := by
  cases h with
  | dict _ _ parts => exact parts e he
  | other plain => exact absurd rfl (plain es)

theorem of_get? (h : Tidy (.dict es)) {k v : Value} (hv : Table.get? k es = some v) :
    Tidy v := by
  obtain ⟨k', hm, -⟩ := Table.mem_of_get? hv
  exact h.part hm

end Tidy

/-- Values by their dicts: a dict after all that stands in it. -/
@[elab_as_elim]
theorem dictInduction {P : Value → Prop} (other : ∀ v, (∀ es, v ≠ .dict es) → P v)
    (whole : ∀ es : Entries, (∀ e ∈ es, P e.2) → P (.dict es)) (v : Value) : P v := by
  by_cases h : ∃ es, v = .dict es
  · obtain ⟨es, hv⟩ := h
    rw [hv]
    exact whole es fun e he => dictInduction other whole e.2
  · exact other v fun es hv => h ⟨es, hv⟩
termination_by sizeOf v
decreasing_by
  have hlt := List.sizeOf_lt_of_mem he
  obtain ⟨k, w⟩ := e
  simp only [hv, Prod.mk.sizeOf_spec, dict.sizeOf_spec] at hlt ⊢
  omega

/-! ### Single values -/

/-- Unless both are dicts, a value is taken as it is, or not at all. -/
theorem mergeValue_plain (path : List Text) {c v : Value}
    (h : (∀ es, v ≠ .dict es) ∨ ∀ es, c ≠ .dict es) :
    mergeValue path c v = replace path c v := by
  cases v with
  | dict es =>
    cases c with
    | dict b => exact absurd rfl (h.resolve_left (fun hv => hv es rfl) b)
    | _ => rfl
  | _ => rfl

theorem mergeValue_dicts (path : List Text) (b o : Entries) :
    mergeValue path (.dict b) (.dict o) = (mergeEntries path b o).map .dict := by
  simp only [mergeValue]

/-! ### Entries -/

theorem mergeEntries_new {path : List Text} {b : Entries} {k v : Value} {rest : Entries}
    (hn : k.hasLong = false) (hk : Table.get? k b = none) :
    mergeEntries path b ((k, v) :: rest) = mergeEntries path (b ++ [(k, v)]) rest := by
  simp [mergeEntries, hn, hk, Table.put_of_new]

theorem mergeEntries_held {path : List Text} {b : Entries} {k v c : Value} {rest : Entries}
    (hn : k.hasLong = false) (hk : Table.get? k b = some c) :
    mergeEntries path b ((k, v) :: rest) =
      (mergeValue (path ++ [k.spelled]) c v).bind fun w =>
        mergeEntries path (Table.put k w b) rest := by
  simp only [mergeEntries, hn, hk]
  cases mergeValue (path ++ [k.spelled]) c v <;> rfl

/-- Where the two stand shows in the path of a conflict only. -/
theorem mergeEntries_under_of {outer : List Text} {es : Entries}
    (h : ∀ e ∈ es, ∀ path c,
      mergeValue (outer ++ path) c e.2 = (mergeValue path c e.2).mapError (.under outer))
    (path : List Text) (b : Entries) :
    mergeEntries (outer ++ path) b es = (mergeEntries path b es).mapError (.under outer) := by
  induction es generalizing b with
  | nil => rfl
  | cons e rest ih =>
    obtain ⟨k, v⟩ := e
    have ih := ih fun e he => h e (List.mem_cons_of_mem _ he)
    cases hn : k.hasLong with
    | true =>
      simp only [mergeEntries, hn]
      rfl
    | false =>
      cases hk : Table.get? k b with
      | none => rw [mergeEntries_new hn hk, mergeEntries_new hn hk, ih]
      | some c =>
        rw [mergeEntries_held hn hk, mergeEntries_held hn hk, List.append_assoc,
          h _ List.mem_cons_self]
        cases mergeValue (path ++ [k.spelled]) c v with
        | error e => rfl
        | ok w => exact ih _

theorem replace_under (outer path : List Text) (c v : Value) :
    replace (outer ++ path) c v = (replace path c v).mapError (.under outer) := by
  unfold replace
  split <;> rfl

theorem mergeValue_under (outer path : List Text) (c v : Value) :
    mergeValue (outer ++ path) c v = (mergeValue path c v).mapError (.under outer) := by
  induction v using dictInduction generalizing path c with
  | other v hv =>
    rw [mergeValue_plain _ (.inl hv), mergeValue_plain _ (.inl hv), replace_under]
  | whole es ih =>
    by_cases hc : ∃ b, c = .dict b
    · obtain ⟨b, rfl⟩ := hc
      rw [mergeValue_dicts, mergeValue_dicts,
        mergeEntries_under_of fun e he path c => ih e he path c]
      cases mergeEntries path b es <;> rfl
    · have hplain : ∀ b, c ≠ .dict b := fun b h => hc ⟨b, h⟩
      rw [mergeValue_plain _ (.inr hplain), mergeValue_plain _ (.inr hplain), replace_under]

theorem mergeEntries_under (outer path : List Text) (b es : Entries) :
    mergeEntries (outer ++ path) b es = (mergeEntries path b es).mapError (.under outer) :=
  mergeEntries_under_of (fun e _ path c => mergeValue_under outer path c e.2) path b

/-! ### What comes out -/

/-- What stands where `v` was laid over `c`. -/
def laid (c v : Value) : Value := (mergeValue [] c v).toOption.getD v

/-- The entries of the base, each with what the override has under its key, and after them
those that only the override has. What stands where both have something is up to `put`. -/
def layEntries (put : Value → Value → Value) (base override : Entries) : Entries :=
  (base.map fun e => (e.1, ((Table.get? e.1 override).map (put e.2)).getD e.2)) ++
    override.filter fun e => !Table.has e.1 base

/-- Where the two stand does not matter for what comes out. -/
theorem mergeValue_eq_ok (path : List Text) {c v w : Value} :
    mergeValue path c v = .ok w ↔ mergeValue [] c v = .ok w := by
  have hunder := mergeValue_under path [] c v
  rw [List.append_nil] at hunder
  rw [hunder, mapError_eq_ok]

/-- What went wrong is told with where the two stand. -/
theorem mergeValue_eq_error (path : List Text) {c v : Value} {e : SettingError} :
    mergeValue path c v = .error e ↔ ∃ e', mergeValue [] c v = .error e' ∧ e'.under path = e := by
  have hunder := mergeValue_under path [] c v
  rw [List.append_nil] at hunder
  rw [hunder, mapError_eq_error]

theorem eq_laid {path : List Text} {c v w : Value} (h : mergeValue path c v = .ok w) :
    w = laid c v := by
  rw [laid, (mergeValue_eq_ok path).1 h]
  rfl

/-- Unless both are dicts, what is laid over something stands there as it is. -/
theorem laid_plain {c v : Value} (h : (∀ es, v ≠ .dict es) ∨ ∀ es, c ≠ .dict es) :
    laid c v = v := by
  rw [laid, mergeValue_plain [] h, replace]
  split <;> rfl

theorem laid_eq_or_dicts (c v : Value) :
    laid c v = v ∨ ∃ b o, c = .dict b ∧ v = .dict o := by
  by_cases hv : ∃ o, v = .dict o
  · by_cases hc : ∃ b, c = .dict b
    · obtain ⟨b, rfl⟩ := hc
      obtain ⟨o, rfl⟩ := hv
      exact .inr ⟨b, o, rfl, rfl⟩
    · exact .inl (laid_plain (.inr fun b h => hc ⟨b, h⟩))
  · exact .inl (laid_plain (.inl fun o h => hv ⟨o, h⟩))

theorem laid_dicts (b o : Entries) : ∃ es, laid (.dict b) (.dict o) = .dict es := by
  rw [laid, mergeValue_dicts]
  cases mergeEntries [] b o with
  | error e => exact ⟨o, rfl⟩
  | ok m => exact ⟨m, rfl⟩

/-- A key that comes no more is entered for good. -/
theorem layEntries_new {put : Value → Value → Value} {b o : Entries} {k v : Value}
    (hk : Table.get? k b = none) (ho : Table.Distinct ((k, v) :: o)) :
    layEntries put (b ++ [(k, v)]) o = layEntries put b ((k, v) :: o) := by
  have hgo : Table.get? k o = none := ho.head_new
  have hbase : ∀ e ∈ b, Table.get? e.1 ((k, v) :: o) = Table.get? e.1 o := fun e he => by
    have hne := Table.get?_eq_none_iff.1 hk e he
    rw [sameKey_comm] at hne
    simp [Table.get?, hne]
  have hrest : ∀ e ∈ o, Table.has e.1 (b ++ [(k, v)]) = Table.has e.1 b := fun e he => by
    have hne : sameKey k e.1 = false := (List.pairwise_cons.1 ho).1 e he
    simp [Table.has, Table.get?_append, Table.get?, hne]
  have hfilter : (o.filter fun e => !Table.has e.1 (b ++ [(k, v)])) =
      o.filter fun e => !Table.has e.1 b :=
    List.filter_congr fun e he => by rw [hrest e he]
  have hmap : (b.map fun e => (e.1, ((Table.get? e.1 ((k, v) :: o)).map (put e.2)).getD e.2)) =
      b.map fun e => (e.1, ((Table.get? e.1 o).map (put e.2)).getD e.2) :=
    List.map_congr_left fun e he => by rw [hbase e he]
  have hnot : Table.has k b = false := Table.has_eq_false_iff.2 hk
  simp only [layEntries, hmap, hfilter, List.map_append, List.map_cons, List.map_nil, hgo,
    List.filter_cons, hnot, Option.map_none, Option.getD_none, Bool.not_false, if_true,
    List.append_assoc, List.singleton_append]

/-- What the base has under a key changes in its place. -/
theorem layEntries_held {put : Value → Value → Value} {b o : Entries} {k v c : Value}
    (hb : Table.Distinct b) (hk : Table.get? k b = some c) (ho : Table.Distinct ((k, v) :: o)) :
    layEntries put (Table.put k (put c v) b) o = layEntries put b ((k, v) :: o) := by
  have hgo : Table.get? k o = none := ho.head_new
  have hhas : Table.has k b = true := by simp [Table.has, hk]
  have hfilter : (o.filter fun e => !Table.has e.1 (Table.put k (put c v) b)) =
      ((k, v) :: o).filter fun e => !Table.has e.1 b := by
    simp only [List.filter_cons, hhas, Bool.not_true, Bool.false_eq_true, if_false]
    refine List.filter_congr fun e _ => ?_
    rw [Table.has_eq_any, Table.has_eq_any, Table.keys_put_of_held hk]
  rw [layEntries, layEntries, hfilter, Table.put_of_held hb hk, List.map_map]
  refine congrArg (· ++ _) (List.map_congr_left fun e he => ?_)
  by_cases hs : sameKey e.1 k = true
  · have hc : e.2 = c := by
      have hself : sameKey e.1 e.1 = true := sameKey_trans hs ((sameKey_comm k e.1).trans hs)
      have hget := hb.get?_of_mem he hself
      rw [Table.get?_congr hs, hk] at hget
      exact (Option.some.inj hget).symm
    have hks : sameKey k e.1 = true := (sameKey_comm k e.1).trans hs
    simp [hs, hc, Table.get?, hks, Table.get?_congr hs, hgo]
  · have hks : sameKey k e.1 = false := by
      rw [sameKey_comm]
      exact Bool.not_eq_true _ ▸ hs
    simp [hs, Table.get?, hks]

theorem layEntries_nil (put : Value → Value → Value) (b : Entries) : layEntries put b [] = b := by
  simp [layEntries]

/-- Entries can be laid over a dict exactly if each can: its key can be named, and what
stands there takes it. -/
theorem mergeEntries_eq_ok {path : List Text} {b o m : Entries} (hb : Table.Distinct b)
    (ho : Table.Distinct o) :
    mergeEntries path b o = .ok m ↔
      (∀ e ∈ o, e.1.hasLong = false ∧ ∀ c, Table.get? e.1 b = some c →
        ∃ w, mergeValue (path ++ [e.1.spelled]) c e.2 = .ok w) ∧
      m = layEntries laid b o := by
  induction o generalizing b with
  | nil =>
    rw [layEntries_nil]
    constructor
    · intro h
      cases h
      exact ⟨fun e he => (nomatch he), rfl⟩
    · rintro ⟨-, rfl⟩
      rfl
  | cons e o ih =>
    obtain ⟨k, v⟩ := e
    have hother (w : Value) : ∀ e ∈ o, Table.get? e.1 (Table.put k w b) = Table.get? e.1 b :=
      fun e he => Table.get?_put_of_ne ((List.pairwise_cons.1 ho).1 e he) w b
    have hrest (w : Value) := ih (hb.put k w) ho.tail
    simp only [List.forall_mem_cons]
    cases hn : k.hasLong with
    | true => simp [mergeEntries, hn]
    | false =>
      cases hk : Table.get? k b with
      | none =>
        rw [mergeEntries_new hn hk, ← Table.put_of_new hk, hrest v, Table.put_of_new hk,
          layEntries_new hk ho, ← Table.put_of_new hk]
        constructor
        · rintro ⟨h, hm⟩
          exact ⟨⟨⟨rfl, nofun⟩, fun e he => hother v e he ▸ h e he⟩, hm⟩
        · rintro ⟨⟨-, h⟩, hm⟩
          exact ⟨fun e he => (hother v e he).symm ▸ h e he, hm⟩
      | some c =>
        rw [mergeEntries_held hn hk]
        constructor
        · intro h
          obtain ⟨w, hw, h⟩ := bind_eq_ok.1 h
          obtain ⟨h, hm⟩ := (hrest w).1 h
          rw [eq_laid hw, layEntries_held hb hk ho] at hm
          exact ⟨⟨⟨rfl, fun c' hc' => ⟨w, Option.some.inj hc' ▸ hw⟩⟩,
            fun e he => hother w e he ▸ h e he⟩, hm⟩
        · rintro ⟨⟨⟨-, hc⟩, h⟩, hm⟩
          obtain ⟨w, hw⟩ := hc c rfl
          refine bind_eq_ok.2 ⟨w, hw, (hrest w).2 ⟨fun e he => (hother w e he).symm ▸ h e he, ?_⟩⟩
          rw [hm, eq_laid hw, layEntries_held hb hk ho]

theorem get?_filter {k : Value} {o : Entries} {keep : Value × Value → Bool}
    (h : ∀ e ∈ o, sameKey e.1 k = true → keep e = true) :
    Table.get? k (o.filter keep) = Table.get? k o := by
  induction o with
  | nil => rfl
  | cons e o ih =>
    have ih := ih fun e he => h e (List.mem_cons_of_mem _ he)
    obtain ⟨l, v⟩ := e
    by_cases hl : sameKey l k = true
    · have hkeep : keep (l, v) = true := h _ List.mem_cons_self hl
      simp [hkeep, Table.get?, hl]
    · by_cases hkeep : keep (l, v) = true <;> simp [hkeep, Table.get?, hl, ih]

/-- The keys of one dict over another, whatever values stand there. -/
theorem keys_layEntries (put : Value → Value → Value) (b o : Entries) :
    Table.keys (layEntries put b o) =
      Table.keys b ++ (Table.keys o).filter fun k => !(Table.keys b).any (sameKey · k) := by
  have hfilter : (o.filter fun e => !Table.has e.1 b) =
      o.filter ((fun k => !(Table.keys b).any (sameKey · k)) ∘ Prod.fst) :=
    List.filter_congr fun e _ => by rw [Table.has_eq_any]; rfl
  simp only [layEntries, hfilter, Table.keys, List.map_append, List.map_map, List.filter_map]
  rfl

/-- What stands under a key once one dict is laid over the other. -/
theorem get?_layEntries (put : Value → Value → Value) (k : Value) (b o : Entries) :
    Table.get? k (layEntries put b o) =
      ((Table.get? k b).map fun c => ((Table.get? k o).map (put c)).getD c).or
        (Table.get? k o) := by
  have hbase : Table.get? k (b.map fun e =>
      (e.1, ((Table.get? e.1 o).map (put e.2)).getD e.2)) =
      (Table.get? k b).map fun c => ((Table.get? k o).map (put c)).getD c := by
    induction b with
    | nil => rfl
    | cons e b ih =>
      obtain ⟨l, c⟩ := e
      by_cases hl : sameKey l k = true
      · simp [Table.get?, hl, Table.get?_congr hl]
      · simp only [Table.get?, hl, List.map_cons] at ih ⊢
        exact ih
  rw [layEntries, Table.get?_append, hbase]
  cases hk : Table.get? k b with
  | some c => rfl
  | none =>
    refine congrArg (Option.or _) (get?_filter fun e _ he => ?_)
    have hhas : Table.has e.1 b = false :=
      Table.has_eq_false_iff.2 ((Table.get?_congr he b).trans hk)
    rw [hhas]
    rfl

/-! ### Which layers go together -/

/-- At a path into both, `c` stands in the base and `v` in the override: dicts lead there on
either side. The path is spelled as in the override. -/
inductive Meets : Value → Value → List Text → Value → Value → Prop
  | here (c v : Value) : Meets c v [] c v
  | within {b o : Entries} {k v c v' c' : Value} {path : List Text} (mem : (k, v) ∈ o)
      (held : Table.get? k b = some c) (below : Meets c v path c' v') :
      Meets (.dict b) (.dict o) (k.spelled :: path) c' v'

/-- Wherever the two meet the value of the base gives way, and all keys there that become
part of a path can be named. -/
structure Compatible (base override : Value) : Prop where
  yields : ∀ {path c v}, Meets base override path c v → c.yieldsTo v = true
  named : ∀ {path b o}, Meets base override path (.dict b) (.dict o) →
    ∀ e ∈ o, e.1.hasLong = false

theorem compatible_plain_iff {c v : Value} (h : (∀ es, v ≠ .dict es) ∨ ∀ es, c ≠ .dict es) :
    Compatible c v ↔ c.yieldsTo v = true := by
  have hhere {path c' v'} (hm : Meets c v path c' v') : c' = c ∧ v' = v := by
    cases hm with
    | here => exact ⟨rfl, rfl⟩
    | within => exact (h.elim (fun h => h _ rfl) fun h => h _ rfl).elim
  constructor
  · exact fun hc => hc.yields (.here c v)
  · intro hy
    constructor
    · intro path c' v' hm
      obtain ⟨rfl, rfl⟩ := hhere hm
      exact hy
    · intro path b o hm
      obtain ⟨rfl, rfl⟩ := hhere hm
      exact (h.elim (fun h => h _ rfl) fun h => h _ rfl).elim

theorem compatible_dicts_iff {b o : Entries} :
    Compatible (.dict b) (.dict o) ↔ ∀ e ∈ o, e.1.hasLong = false ∧
      ∀ c, Table.get? e.1 b = some c → Compatible c e.2 := by
  constructor
  · intro h e he
    refine ⟨h.named (.here _ _) e he, fun c hc => ⟨fun hm => ?_, fun hm => ?_⟩⟩
    · exact h.yields (.within he hc hm)
    · exact h.named (.within he hc hm)
  · intro h
    constructor
    · intro path c v hm
      cases hm with
      | here => rfl
      | within mem held below => exact ((h _ mem).2 _ held).yields below
    · intro path b' o' hm
      cases hm with
      | here => exact fun e he => (h e he).1
      | within mem held below => exact ((h _ mem).2 _ held).named below

/-- Of two dicts without double keys one can be laid over the other exactly if they are
compatible. -/
theorem mergeValue_ok_iff {path : List Text} {c v : Value} (hc : c.Tidy) (hv : v.Tidy) :
    (∃ w, mergeValue path c v = .ok w) ↔ Compatible c v := by
  induction v using dictInduction generalizing path c with
  | other v h =>
    rw [compatible_plain_iff (.inl h), mergeValue_plain path (.inl h), replace]
    split <;> simp [*]
  | whole o ih =>
    by_cases hb : ∃ b, c = .dict b
    · obtain ⟨b, rfl⟩ := hb
      rw [compatible_dicts_iff, mergeValue_dicts]
      constructor
      · rintro ⟨w, hw⟩
        obtain ⟨m, hm, -⟩ := map_eq_ok.1 hw
        have hall := ((mergeEntries_eq_ok hc.distinct hv.distinct).1 hm).1
        exact fun e he => ⟨(hall e he).1, fun c' hc' =>
          (ih e he (hc.of_get? hc') (hv.part he)).1 ((hall e he).2 c' hc')⟩
      · intro h
        exact ⟨_, map_eq_ok.2 ⟨_, (mergeEntries_eq_ok hc.distinct hv.distinct).2
          ⟨fun e he => ⟨(h e he).1, fun c' hc' =>
            (ih e he (hc.of_get? hc') (hv.part he)).2 ((h e he).2 c' hc')⟩, rfl⟩, rfl⟩⟩
    · have hplain : ∀ es, c ≠ .dict es := fun es h => hb ⟨es, h⟩
      rw [compatible_plain_iff (.inr hplain), mergeValue_plain path (.inr hplain), replace]
      split <;> simp [*]

/-- What comes out of laying entries over entries, and when anything does. -/
theorem mergeEntries_ok_iff {path : List Text} {b o m : Entries} (hb : Tidy (.dict b))
    (ho : Tidy (.dict o)) :
    mergeEntries path b o = .ok m ↔
      Compatible (.dict b) (.dict o) ∧ m = layEntries laid b o := by
  rw [mergeEntries_eq_ok hb.distinct ho.distinct, compatible_dicts_iff]
  refine and_congr_left fun _ => forall₂_congr fun e he => and_congr_right fun _ =>
    forall₂_congr fun c hc => mergeValue_ok_iff (hb.of_get? hc) (ho.part he)

theorem laid_of_compatible {b o : Entries} (hb : Tidy (.dict b)) (ho : Tidy (.dict o))
    (h : Compatible (.dict b) (.dict o)) :
    laid (.dict b) (.dict o) = .dict (layEntries laid b o) := by
  have hm : mergeEntries [] b o = .ok (layEntries laid b o) :=
    (mergeEntries_ok_iff hb ho).2 ⟨h, rfl⟩
  rw [laid, mergeValue_dicts, hm]
  rfl

end Value
end MigrationSetup
