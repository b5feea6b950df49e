import MigrationSetup.Proofs.Joining
import MigrationSetup.Proofs.Loading

/-! How a merge fails.

The first entry of the override that cannot be laid over the base ends the merge, whatever
was laid before it (`Value.clashOf_mergeEntries`). So two plain files load alike if their
merges fail in one way, or if neither does and the results bind alike
(`Settings.ofLayers_plain_alike`). The same holds of graphs where no dict that the merge
changes stands in two places (`Graph.failureOf_mergeInto`). -/
namespace MigrationSetup

/-- The class of an error, if there is one. -/
def clashOf {α : Type} : Except SettingError α → Option Fault
  | .ok _ => none
  | .error e => some e.fault

theorem clashOf_map {α β : Type} (f : α → β) (x : Except SettingError α) :
    clashOf (x.map f) = clashOf x := by
  cases x <;> rfl

theorem clashOf_eq_none_iff {α : Type} {x : Except SettingError α} :
    clashOf x = none ↔ ∃ a, x = .ok a := by
  cases x <;> simp [clashOf]

namespace Value
variable {path : List Text} {b o : Entries} {c v : Value}

/-- How laying one value over another fails. -/
def clash? (c v : Value) : Option Fault := clashOf (mergeValue [] c v)

/-- How an entry cannot be laid over a dict. -/
def entryClash? (b : Entries) (e : Value × Value) : Option Fault :=
  if e.1.hasLong then some .longNumber else (Table.get? e.1 b).bind (clash? · e.2)

/-- Where the two stand does not matter. -/
theorem clashOf_mergeValue (path : List Text) (c v : Value) :
    clashOf (mergeValue path c v) = clash? c v := by
  have hunder := mergeValue_under path [] c v
  rw [List.append_nil] at hunder
  rw [hunder, clash?]
  cases mergeValue [] c v with
  | ok w => rfl
  | error e => cases e <;> rfl

theorem clash?_eq_none_of_yields (h : (∀ es, v ≠ .dict es) ∨ ∀ es, c ≠ .dict es)
    (hy : c.yieldsTo v = true) : clash? c v = none := by
  rw [clash?, mergeValue_plain [] h, replace, if_pos hy]
  rfl

/-- What was laid before an entry has nothing to do with it. -/
theorem entryClash?_put {k w : Value} {rest : Entries} (h : ∀ e ∈ rest, sameKey k e.1 = false) :
    rest.findSome? (entryClash? (Table.put k w b)) = rest.findSome? (entryClash? b) := by
  induction rest with
  | nil => rfl
  | cons e rest ih =>
    have hentry : entryClash? (Table.put k w b) e = entryClash? b e := by
      rw [entryClash?, entryClash?, Table.get?_put_of_ne (h e List.mem_cons_self)]
    rw [List.findSome?_cons, List.findSome?_cons, hentry,
      ih fun e he => h e (List.mem_cons_of_mem _ he)]

/-- The first entry that cannot be laid over the base ends the merge. -/
theorem clashOf_mergeEntries (path : List Text) (b : Entries) (ho : Table.Distinct o) :
    clashOf (mergeEntries path b o) = o.findSome? (entryClash? b) := by
  induction o generalizing b with
  | nil => rfl
  | cons e rest ih =>
    obtain ⟨k, v⟩ := e
    have hrest (w : Value) : clashOf (mergeEntries path (Table.put k w b) rest) =
        rest.findSome? (entryClash? b) :=
      (ih _ ho.tail).trans (entryClash?_put (List.pairwise_cons.1 ho).1)
    rw [List.findSome?_cons]
    cases hn : k.hasLong with
    | true =>
      simp only [mergeEntries, entryClash?, hn]
      rfl
    | false =>
      cases hk : Table.get? k b with
      | none =>
        rw [mergeEntries_new hn hk, ← Table.put_of_new hk, hrest v]
        simp [entryClash?, hn, hk]
      | some c =>
        have hvalue := clashOf_mergeValue (path ++ [k.spelled]) c v
        have hentry : entryClash? b (k, v) = clash? c v := by
          simp [entryClash?, hn, hk]
        rw [mergeEntries_held hn hk, hentry, ← hvalue]
        cases mergeValue (path ++ [k.spelled]) c v with
        | ok w => exact hrest w
        | error e => rfl

theorem clash?_dicts (b : Entries) (ho : Table.Distinct o) :
    clash? (.dict b) (.dict o) = o.findSome? (entryClash? b) := by
  rw [clash?, mergeValue_dicts, clashOf_map, clashOf_mergeEntries [] b ho]

theorem clash?_eq_none_iff (hc : c.Tidy) (hv : v.Tidy) : clash? c v = none ↔ Compatible c v :=
  clashOf_eq_none_iff.trans (mergeValue_ok_iff hc hv)

end Value

/-! ### Graphs -/

/-- The failure of what fails. -/
def failureOf {α : Type} : Except Failure α → Option Failure
  | .ok _ => none
  | .error f => some f

namespace Graph

/-- How an entry cannot be laid over the dict `i`. Where dicts meet `below` tells. -/
def entryClash? (a o : Objects) (below : List Text → Nat → Table Ref → Option Failure)
    (path : List Text) (i : Nat) (e : Value × Ref) : Option Failure :=
  if e.1.hasLong then some (.setting .longNumber)
  else (Table.get? e.1 (a.entries i)).bind fun current =>
    match e.2.dict? o, current.dict? a with
    | some d, some c => below (path ++ [e.1.spelled]) c (o.entries d)
    | _, _ =>
      if (current.face a).yieldsTo (e.2.face o) then none
      else some (.setting
        (.conflict (path ++ [e.1.spelled]) (current.face a).kind (e.2.face o).kind))

/-- How entries cannot be laid over the dict `i`, told from what is there before any is. -/
def clash? (a o : Objects) : Nat → List Text → Nat → Table Ref → Option Failure
  | 0, _, _, _ => some .endlessMerge
  | depth + 1, path, i, es => es.findSome? (entryClash? a o (clash? a o depth) path i)

variable {A o a : Objects} {i j : Nat} {e : Value × Ref} {es : Table Ref}
  {below : List Text → Nat → Table Ref → Objects → Except Failure Objects}
  {told : List Text → Nat → Table Ref → Option Failure}

/-- What was laid before an entry has nothing to do with it. -/
theorem failureOf_mergeEntry (hA : A.Proper) (path : List Text)
    (hbelow : ∀ {c d} (path : List Text), A.Child i e.1 c → e.2.dict? o = some d →
      failureOf (below path c (o.entries d) a) = told path c (o.entries d))
    (h : Ready A o i (e :: es) a) :
    failureOf (mergeEntry o below path i a e) = entryClash? A o told path i e := by
  obtain ⟨k, r⟩ := e
  simp only [mergeEntry, entryClash?, h.held _ List.mem_cons_self]
  cases k.hasLong with
  | true => rfl
  | false =>
    cases hk : Table.get? k (A.entries i) with
    | none => rfl
    | some current =>
      have hcurrent := hA.of_get? hk
      have hplain (x y : Value) : failureOf (if x.yieldsTo y then .ok (putCopy o i k r a)
          else .error (.setting (.conflict (path ++ [k.spelled]) x.kind y.kind))) =
          if x.yieldsTo y then none
          else some (.setting (.conflict (path ++ [k.spelled]) x.kind y.kind)) := by
        split <;> rfl
      simp only [Bool.false_eq_true, if_false, h.akin.dict? hcurrent, h.akin.face hcurrent,
        Option.bind_some]
      cases hd : r.dict? o with
      | none => exact hplain _ _
      | some d =>
        cases hc : current.dict? A with
        | none => exact hplain _ _
        | some c => exact hbelow _ ⟨current, hk, hc⟩ hd

theorem failureOf_foldlM {depth : Nat} (hA : A.Proper) (ho : o.Proper)
    (hbelow : ∀ {a c d} (path : List Text), Unshared A o c d → Ready A o c (o.entries d) a →
      failureOf (mergeInto o depth path c (o.entries d) a) = told path c (o.entries d))
    (hone : Unshared A o i j) (hsub : ∀ e ∈ es, e ∈ o.entries j) (hd : Table.Distinct es)
    (h : Ready A o i es a) (path : List Text) :
    failureOf (es.foldlM (mergeEntry o (mergeInto o depth) path i) a) =
      es.findSome? (entryClash? A o told path i) := by
  induction es generalizing a with
  | nil => rfl
  | cons e es ih =>
    have he := hsub e List.mem_cons_self
    have hjoins := mergeEntry_joins hA ho
      (fun path hone h => mergeInto_joins hA ho hone h depth path) hone he h path
    have hentry := failureOf_mergeEntry hA path
      (fun path hc hd => hbelow path (hone.child he hc hd) (h.child hA hc hd)) h
    rw [List.foldlM_cons, List.findSome?_cons, ← hentry]
    cases hm : mergeEntry o (mergeInto o depth) path i a e with
    | error f => rfl
    | ok b =>
      exact ih (fun e he => hsub e (List.mem_cons_of_mem _ he)) hd.tail
        (h.next hone hsub hd (hjoins.joined hm))

/-- The first entry that cannot be laid over a dict ends the merge, as long as no dict that
changes stands in two places. -/
theorem failureOf_mergeInto (hA : A.Proper) (ho : o.Proper) (hone : Unshared A o i j)
    (h : Ready A o i (o.entries j) a) (depth : Nat) (path : List Text) :
    failureOf (mergeInto o depth path i (o.entries j) a) =
      clash? A o depth path i (o.entries j) := by
  induction depth generalizing i j a path with
  | zero => rfl
  | succ depth ih =>
    exact failureOf_foldlM hA ho (fun path hone h => ih hone h path) hone (fun _ => id)
      (ho.distinct j) h path

end Graph

namespace Settings

/-- Plain files load alike if their merges fail in one way, or end in entries that bind
alike. -/
theorem ofLayers_plain_alike {D L D' L' : Entries} (hD : Value.Tidy (.dict D))
    (hL : Value.Tidy (.dict L)) (hD' : Value.Tidy (.dict D')) (hL' : Value.Tidy (.dict L'))
    (hclash : Value.clash? (.dict D) (.dict L) = Value.clash? (.dict D') (.dict L'))
    (hbind : Value.Compatible (.dict D) (.dict L) → Value.Compatible (.dict D') (.dict L') →
      ofValue (.dict (Value.layEntries Value.laid D L)) =
        ofValue (.dict (Value.layEntries Value.laid D' L'))) :
    Alike (ofLayers (.plain (.dict D)) (.plain (.dict L)))
      (ofLayers (.plain (.dict D')) (.plain (.dict L'))) := by
  rw [Value.clash?, Value.clash?, Value.mergeValue_dicts, Value.mergeValue_dicts, clashOf_map,
    clashOf_map] at hclash
  rw [ofLayers_plain, ofLayers_plain]
  cases hm : Value.mergeEntries [] D L with
  | error e =>
    cases hm' : Value.mergeEntries [] D' L' with
    | error f =>
      rw [hm, hm'] at hclash
      exact .rejected (Option.some.inj hclash)
    | ok m =>
      rw [hm, hm'] at hclash
      cases hclash
  | ok m =>
    cases hm' : Value.mergeEntries [] D' L' with
    | error f =>
      rw [hm, hm'] at hclash
      cases hclash
    | ok m' =>
      obtain ⟨hc, rfl⟩ := (Value.mergeEntries_ok_iff hD hL).1 hm
      obtain ⟨hc', rfl⟩ := (Value.mergeEntries_ok_iff hD' hL').1 hm'
      show Alike ((ofValue _).mapError _) ((ofValue _).mapError _)
      rw [hbind hc hc']
      exact .same _

end Settings
end MigrationSetup
