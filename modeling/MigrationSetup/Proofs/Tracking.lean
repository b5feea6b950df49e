import MigrationSetup.Proofs.Growing

/-! Laying over shared parts as over copies of them.

If one way alone leads to each dict of the base that meets one of the override
(`Graph.Alone`), nothing that is laid over one part shows in another. The merge then goes, entry
by entry (`Graph.mergeEntry_tracks`) and in the end (`Graph.mergeInto_tracks`), as that of the
values that the two graphs mean: it gives what means the same, or it fails with the same error,
unless it does not end. -/
namespace MigrationSetup

namespace Value

/-- Whether one value gives way to another is told by their kinds. -/
theorem yieldsTo_congr {c c' v v' : Value} (hc : c.kind = c'.kind) (hv : v.kind = v'.kind) :
    c.yieldsTo v = c'.yieldsTo v' := by
  have hnull (v : Value) : v.isNull = (v.kind == .null) := by
    cases v with
    | loop isList => cases isList <;> rfl
    | _ => rfl
  have hbool (v : Value) : v.isBool = (v.kind == .bool) := by
    cases v with
    | loop isList => cases isList <;> rfl
    | _ => rfl
  have htext (v : Value) : v.isText = (v.kind == .text || v.kind == .mode) := by
    cases v with
    | loop isList => cases isList <;> rfl
    | _ => rfl
  have hlisted (v : Value) : v.isListed = (v.kind == .list || v.isText) := by
    cases v with
    | loop isList => cases isList <;> rfl
    | _ => rfl
  simp only [yieldsTo, replaces, hnull, hlisted, htext, hbool, hc, hv]

/-- Entries are laid over others one after the other. -/
theorem mergeEntries_cons (path : List Text) (b : Entries) (e : Value × Value) (es : Entries) :
    mergeEntries path b (e :: es) =
      (mergeEntries path b [e]).bind fun m => mergeEntries path m es := by
  obtain ⟨k, v⟩ := e
  simp only [mergeEntries]
  split
  · rfl
  · split
    · rfl
    · split <;> rfl

end Value

theorem Objects.Leads.way {a : Objects} {i j : Nat} {path : List Value} (h : a.Leads i path j) :
    a.Way i (path.map some) j := by
  induction h with
  | here => exact .here _
  | within mem dict _ ih =>
    rw [(Ref.dict?_eq_some_iff.1 dict).1] at mem
    exact .within (mem_held_of_entries mem) ih

namespace Graph
variable {A o a b : Objects} {depth i j c d n m m' : Nat} {k : Value} {e : Value × Ref}
  {es : Table Ref}

/-! ### Dicts to which one way leads -/

/-- No dict below `i` that meets one below `j` stands in two places, not even in lists. -/
def Alone (A o : Objects) (i j : Nat) : Prop :=
  ∀ ⦃n m m' : Nat⦄, Meets A o i j n m m' → ∀ ⦃way way' : List (Option Value)⦄,
    A.Way i way m → A.Way i way' m → way = way'

namespace Alone
variable (h : Alone A o i j)
include h

theorem unshared : Unshared A o i j := fun _ _ _ hm _ _ hp hp' =>
  List.map_injective_iff.2 (fun _ _ => Option.some.inj) (h hm hp.way hp'.way)

variable (he : e ∈ o.entries j) (hc : A.Child i e.1 c) (hd : e.2.dict? o = some d)
include he hc hd

theorem child : Alone A o c d := by
  obtain ⟨l, -, hleads⟩ := hc.leads
  have hfirst := (hleads (.here c)).way
  intro n m m' hm way way' hw hw'
  exact List.append_cancel_left (h (.within he hd hc hm) (hfirst.trans hw) (hfirst.trans hw'))

/-- What meets below one key is not reached from another. -/
theorem apart (hm : Meets A o c d n m m') {k : Value} (hk : Value.sameKey k e.1 = false)
    {way : List (Option Value)} : ¬A.Way i (some k :: way) m := by
  obtain ⟨l, hl, hleads⟩ := hc.leads
  obtain ⟨path, hp⟩ := hm.leads
  intro hw
  cases h (.within he hd hc hm) hw (hleads hp).way
  cases hk.symm.trans hl

end Alone

/-! ### Steps of a merge -/

/-- The two sides of a merge. No key of the override that has a name is one of the base. -/
structure Sides (A o : Objects) : Prop where
  base : A.Proper
  override : o.Proper
  sound : o.Sound
  names : ∀ j, ∀ e ∈ o.entries j, e.1.name = 0 ∨ ∀ i, Table.get? e.1 (A.entries i) = none

/-- The dicts `i` and `j` of the two sides, of which the second is to be laid over the first. -/
structure Meeting (A o : Objects) (i j : Nat) : Prop where
  alone : Alone A o i j
  grounded : (Ref.object j).Grounded o

theorem Meeting.child (h : Meeting A o i j) (he : e ∈ o.entries j) (hc : A.Child i e.1 c)
    (hd : e.2.dict? o = some d) : Meeting A o c d where
  alone := h.alone.child he hc hd
  grounded := (Ref.dict?_eq_some_iff.1 hd).1 ▸ h.grounded.entry he

/-- What comes of laying something over the dict `i`, and what comes of laying what it means
over what `i` means, if the first merge ends. -/
inductive Tracks (A : Objects) (i : Nat) :
    Except Failure Objects → Except SettingError Entries → Prop
  | done {b : Objects} (follows : Follows A i b) :
    Tracks A i (.ok b) (.ok (b.meanings (b.entries i)))
  | failed (e : SettingError) : Tracks A i (.error (.setting e)) (.error e)
  | endless (x : Except SettingError Entries) : Tracks A i (.error .endlessMerge) x

section
variable (hsides : Sides A o)
include hsides

theorem Ready.named (hready : Ready A o i (e :: es) a) (he : e ∈ o.entries j) :
    e.1.name = 0 ∨ Table.get? e.1 (a.entries i) = none :=
  (hsides.names j e he).imp_right fun hnone => (hready.held e List.mem_cons_self).trans (hnone i)

/-- An entry is put under its key as what it means is put there. -/
theorem Ready.put_tracks (hready : Ready A o i (e :: es) a) (he : e ∈ o.entries j)
    (hr : e.2.Grounded o) (h : Follows A i a) :
    Tracks A i (.ok (putCopy o i e.1 e.2 a))
      (.ok (Table.put e.1.anonymous (e.2.meaning o) (a.meanings (a.entries i)))) := by
  obtain ⟨hfollows, hmeanings⟩ :=
    h.putCopy hready.dict hready.distinct hsides.sound he hr (hready.named hsides he)
  rw [← hmeanings]
  exact .done hfollows

/-- Where an entry meets no dict, or is none, it is put in place or refused. -/
theorem Ready.replace_tracks (hready : Ready A o i (e :: es) a) (he : e ∈ o.entries j)
    (hr : e.2.Grounded o) (h : Follows A i a) {x : Ref} (hx : (k, x) ∈ a.entries i)
    (hnot : ∀ d c, e.2.dict? o = some d → x.dict? a = some c → False) (path : List Text) :
    Tracks A i
      (if (x.face a).yieldsTo (e.2.face o) then .ok (putCopy o i e.1 e.2 a)
        else .error (.setting (.conflict path (x.face a).kind (e.2.face o).kind)))
      ((Value.mergeValue path (x.meaning a) (e.2.meaning o)).map fun w =>
        Table.put e.1.anonymous w (a.meanings (a.entries i))) := by
  have hxg : x.Grounded a := h.grounded.entry hx
  have hother : (∀ es, e.2.meaning o ≠ .dict es) ∨ ∀ es, x.meaning a ≠ .dict es := by
    cases hd : e.2.dict? o with
    | none =>
      exact .inl (Ref.meaning_other hr hd
        (hsides.sound.plain j _ (Objects.mem_held_of_entries he)))
    | some d =>
      refine .inr (Ref.meaning_other hxg ?_
        (h.sound.plain i _ (Objects.mem_held_of_entries hx)))
      exact Option.eq_none_iff_forall_not_mem.2 fun c => hnot d c hd
  have hkx := Ref.kind_meaning hxg
  have hkr := Ref.kind_meaning hr
  rw [Value.mergeValue_plain _ hother, Value.replace, Value.yieldsTo_congr hkx hkr, hkx, hkr]
  split
  · exact hready.put_tracks hsides he hr h
  · exact .failed _

/-- Where an entry was merged into a dict, that one alone means something else. -/
theorem Follows.merged (h : Follows A i a) (halone : Alone A o i j)
    (hready : Ready A o i (e :: es) a) (he : e ∈ o.entries j) (hc : A.Child i e.1 c)
    (hd : e.2.dict? o = some d) (hb : Follows A c b) (hj : Joined A o c (o.entries d) a b) :
    Tracks A i (.ok b) (.ok (Table.put e.1.anonymous (.dict (b.meanings (b.entries c)))
      (a.meanings (a.entries i)))) := by
  have hheld := hready.held e List.mem_cons_self
  obtain ⟨x, hx, hxc⟩ := id hc
  obtain ⟨rfl, -⟩ := Ref.dict?_eq_some_iff.1 hxc
  rw [hx] at hheld
  have hshape : b.shape i = a.shape i :=
    hj.kept_outside (Ref.lt_size_of_dict? hready.dict) fun _ _ => halone.unshared.not_back hc
  have hcb : (Ref.object c).dict? b = some c := by
    rw [(hready.akin.trans hj.akin).dict? (hsides.base.of_get? hx), hxc]
  -- What has changed is not reached from another key.
  have hrest (f) (hf : f ∈ a.entries i) (hne : Value.sameKey f.1 e.1 = false) :
      f.2.Grounded b ∧ f.2.meaning b = f.2.meaning a := by
    have hmem := Objects.mem_held_of_entries hf
    refine (h.grounded.entry hf).frame fun c' way m hc' hway => ?_
    obtain ⟨l, s⟩ := f
    cases hc'
    refine hj.kept_outside (h.sound.way (h.sound.bounds i _ hmem c' rfl) hway) fun n m' hm => ?_
    exact halone.apart he hc hd hm hne
      (h.grows.way (Ref.lt_size_of_dict? (hm.dict hc.dict)) (.within hmem hway))
  have hgrounded : (Ref.object i).Grounded b := by
    refine .object ?_
    rw [hshape, (Ref.dict?_eq_some_iff.1 hready.dict).2]
    refine List.forall_mem_map.2 fun f hf => ?_
    cases hs : Value.sameKey f.1 e.1 with
    | false => exact (hrest f hf hs).1
    | true =>
      have hself := Value.sameKey_trans hs ((Value.sameKey_comm _ _).trans hs)
      have hget := (Table.get?_congr hs _).symm.trans (hready.distinct.get?_of_mem hf hself)
      rw [Option.some.inj (hget.symm.trans hheld)]
      exact hb.grounded
  have hmeanings := Objects.meanings_put hready.distinct (hready.named hsides he)
    (Ref.meaning_dict hb.grounded hcb) fun f hf hne => (hrest f hf hne).2
  rw [Table.put_get? hheld, ← Objects.entries_congr hshape] at hmeanings
  rw [← Objects.entries_congr hshape, ← hmeanings]
  exact .done ⟨hb.grows, hb.sound, hgrounded⟩

variable (hbelow : ∀ {a c d} (path : List Text), Meeting A o c d →
  Ready A o c (o.entries d) a → Follows A c a →
    Tracks A c (mergeInto o depth path c (o.entries d) a)
      (Value.mergeEntries path (a.meanings (a.entries c)) (o.meanings (o.entries d))))
include hbelow

/-- One entry is laid over a dict as what it means is laid over what the dict means. -/
theorem mergeEntry_tracks (hm : Meeting A o i j) (he : e ∈ o.entries j)
    (hready : Ready A o i (e :: es) a) (h : Follows A i a) (path : List Text) :
    Tracks A i (mergeEntry o (mergeInto o depth) path i a e)
      (Value.mergeEntries path (a.meanings (a.entries i)) (o.meanings [e])) := by
  obtain ⟨k, r⟩ := e
  have hr : r.Grounded o := hm.grounded.entry he
  have hheld := hready.held _ List.mem_cons_self
  have hget := Objects.get?_meanings (a := a) (hready.named hsides he)
  have hlong := Value.hasLong_anonymous k
  show Tracks A i _ (Value.mergeEntries path _ [(k.anonymous, r.meaning o)])
  cases hn : k.hasLong with
  | true =>
    simp only [mergeEntry, Value.mergeEntries, hlong, hn]
    exact .failed _
  | false =>
    rw [hn] at hlong
    cases hk : Table.get? k (a.entries i) with
    | none =>
      rw [hk, Option.map_none] at hget
      rw [Value.mergeEntries_new hlong hget, ← Table.put_of_new hget]
      simp only [mergeEntry, hn, hk]
      exact hready.put_tracks hsides he hr h
    | some x =>
      obtain ⟨l, hmem, -⟩ := Table.mem_of_get? hk
      rw [hk, Option.map_some] at hget
      rw [Value.mergeEntries_held hlong hget, Value.spelled_anonymous]
      simp only [mergeEntry, hn, hk, Bool.false_eq_true, if_false]
      split
      · next d c hd hc =>
        have hx := hheld.symm.trans hk
        have hchild : A.Child i k c := by
          refine ⟨x, hx, ?_⟩
          rw [← hready.akin.dict? (hsides.base.of_get? hx), hc]
        have hxg : x.Grounded a := h.grounded.entry hmem
        have hmeeting := hm.child he hchild hd
        have hready' := hready.child hsides.base hchild hd
        have htracks := hbelow (path ++ [k.spelled]) hmeeting hready'
          ⟨h.grows, h.sound, (Ref.dict?_eq_some_iff.1 hc).1 ▸ hxg⟩
        have hjoins := mergeInto_joins hsides.base hsides.override hmeeting.alone.unshared hready'
          depth (path ++ [k.spelled])
        rw [Ref.meaning_dict hxg hc, Ref.meaning_dict hr hd, Value.mergeValue_dicts]
        generalize mergeInto o depth _ c (o.entries d) a = y at htracks hjoins ⊢
        generalize Value.mergeEntries _ _ (o.meanings (o.entries d)) = z at htracks ⊢
        cases htracks with
        | failed e => exact .failed e
        | endless => exact .endless _
        | done hb => exact h.merged hsides hm.alone hready he hchild hd hb (hjoins.joined rfl)
      · next hnot =>
        exact hready.replace_tracks hsides he hr h hmem hnot (path ++ [k.spelled])

theorem foldlM_tracks (hm : Meeting A o i j) (hsub : ∀ e ∈ es, e ∈ o.entries j)
    (hd : Table.Distinct es) (hready : Ready A o i es a) (h : Follows A i a)
    (path : List Text) :
    Tracks A i (es.foldlM (mergeEntry o (mergeInto o depth) path i) a)
      (Value.mergeEntries path (a.meanings (a.entries i)) (o.meanings es)) := by
  induction es generalizing a with
  | nil => exact .done h
  | cons e es ih =>
    have he := hsub e List.mem_cons_self
    have hone := hm.alone.unshared
    have hstep := mergeEntry_tracks hsides hbelow hm he hready h path
    have hjoins := mergeEntry_joins hsides.base hsides.override
      (fun path hone h => mergeInto_joins hsides.base hsides.override hone h depth path) hone he
      hready path
    have hsplit : Value.mergeEntries path (a.meanings (a.entries i)) (o.meanings (e :: es)) =
        (Value.mergeEntries path (a.meanings (a.entries i)) (o.meanings [e])).bind fun m =>
          Value.mergeEntries path m (o.meanings es) := Value.mergeEntries_cons _ _ _ _
    rw [List.foldlM_cons, hsplit]
    generalize mergeEntry o (mergeInto o depth) path i a e = y at hstep hjoins ⊢
    generalize Value.mergeEntries path _ (o.meanings [e]) = z at hstep ⊢
    cases hstep with
    | failed e => exact .failed e
    | endless => exact .endless _
    | done hb =>
      exact ih (fun f hf => hsub f (List.mem_cons_of_mem _ hf)) hd.tail
        (hready.next hone hsub hd (hjoins.joined rfl)) hb

end

/-- One dict is laid over another as what it means is laid over what the other one means. -/
theorem mergeInto_tracks (hsides : Sides A o) (hm : Meeting A o i j)
    (hready : Ready A o i (o.entries j) a) (h : Follows A i a) (path : List Text) :
    Tracks A i (mergeInto o depth path i (o.entries j) a)
      (Value.mergeEntries path (a.meanings (a.entries i)) (o.meanings (o.entries j))) := by
  induction depth generalizing i j a path with
  | zero => exact .endless _
  | succ depth ih =>
    rw [mergeInto]
    exact foldlM_tracks hsides (fun path hm hready h => ih hm hready h path) hm (fun _ => id)
      (hsides.override.distinct j) hready h path

end Graph
end MigrationSetup
