import Mathlib.Data.List.Forall2
import MigrationSetup.Proofs.Binding
import MigrationSetup.Proofs.Layering
import MigrationSetup.Proofs.Naming

/-! Settings in two layers.

In the overlay of two layers each value is taken whole (`overlay`). Entries that every setting
takes alike are as good as one another (`AsGood`). Where both layers bind on their own, all
that can still go wrong in the overlay is a value that the override itself had replaced under
another spelling (`overlay_binds`). -/
namespace MigrationSetup

/-- A list mapped in two ways goes in step with itself. -/
theorem forall₂_map_same {α β γ : Type} {A : β → γ → Prop} {f : α → β} {g : α → γ} {xs : List α}
    (h : ∀ x ∈ xs, A (f x) (g x)) : List.Forall₂ A (xs.map f) (xs.map g) :=
  List.forall₂_map_left_iff.2 (List.forall₂_map_right_iff.2 (List.forall₂_same.2 h))

namespace Settings

/-- One layer of settings over another, value for value. -/
def overlay (base override : Entries) : Entries := Value.layEntries (fun _ v => v) base override

theorem lastOf_append (s : Setting) (last : Value) (a b : Entries) :
    lastOf s last (a ++ b) = lastOf s (lastOf s last a) b := by
  induction a generalizing last with
  | nil => rfl
  | cons e a ih => exact ih _

/-! ### Entries as good as others -/

/-- Entries under the same keys, of values that every setting takes alike. -/
def AsGood : Entries → Entries → Prop :=
  List.Forall₂ fun e f => e.1 = f.1 ∧ ∀ s : Setting, s.accepts e.2 = s.accepts f.2

namespace AsGood
variable {es fs b b' o o' : Entries}

theorem lastOf (h : AsGood es fs) {s : Setting} {last last' : Value}
    (hl : s.accepts last = s.accepts last') :
    s.accepts (lastOf s last es) = s.accepts (lastOf s last' fs) := by
  induction h generalizing last last' with
  | nil => exact hl
  | @cons e f es fs he _ ih =>
    obtain ⟨k, v⟩ := e
    obtain ⟨l, w⟩ := f
    obtain ⟨rfl, hvw⟩ := he
    simp only [Settings.lastOf]
    split
    · exact ih (hvw s)
    · exact ih hl

theorem keys (h : AsGood es fs) : Table.keys es = Table.keys fs := by
  induction h with
  | nil => rfl
  | cons he _ ih => exact List.cons_eq_cons.2 ⟨he.1, ih⟩

theorem stranger? (h : AsGood es fs) : stranger? es = none ↔ stranger? fs = none := by
  have hkeys (es : Entries) : Settings.stranger? es = none ↔
      ∀ k ∈ Table.keys es, (Setting.ofKey? k).isSome = true := by
    rw [stranger?_eq_none_iff, Table.keys, List.forall_mem_map]
  rw [hkeys, hkeys, h.keys]

theorem binds_iff (h : AsGood es fs) :
    (∃ s, ofEntries es = .ok s) ↔ ∃ s, ofEntries fs = .ok s := by
  rw [Settings.binds_iff, Settings.binds_iff, h.stranger?]
  exact and_congr_right fun _ => forall_congr' fun s => by rw [h.lastOf rfl]

theorem symm (h : AsGood es fs) : AsGood fs es :=
  h.flip.imp fun _ _ he => ⟨he.1.symm, fun s => (he.2 s).symm⟩

theorem trans {gs : Entries} (h : AsGood es fs) (h' : AsGood fs gs) : AsGood es gs := by
  induction h generalizing gs with
  | nil => exact h'
  | cons he _ ih =>
    cases h' with
    | cons hf hrest => exact .cons ⟨he.1.trans hf.1, fun s => (he.2 s).trans (hf.2 s)⟩ (ih hrest)

/-- What stands under a key is as good on both sides. -/
theorem get? (h : AsGood es fs) (k : Value) :
    Option.Rel (fun v w => ∀ s : Setting, s.accepts v = s.accepts w) (Table.get? k es)
      (Table.get? k fs) := by
  induction h with
  | nil => exact .none
  | @cons e f es fs he _ ih =>
    obtain ⟨l, v⟩ := e
    obtain ⟨l', w⟩ := f
    obtain ⟨rfl, hvw⟩ := he
    simp only [Table.get?]
    split
    · exact .some hvw
    · exact ih

theorem overlay (hb : AsGood b b') (ho : AsGood o o') : AsGood (overlay b o) (overlay b' o') := by
  refine List.rel_append ?_ ?_
  · refine List.rel_map (fun e f he => ⟨he.1, fun s => ?_⟩) hb
    have hget := ho.get? e.1
    rw [← he.1]
    generalize Table.get? e.1 o = x at hget
    generalize Table.get? e.1 o' = y at hget
    cases hget with
    | none => exact he.2 s
    | some hvw => exact hvw s
  · refine List.rel_filter (fun e f he => ?_) ho
    show (!Table.has e.1 b) = true ↔ (!Table.has f.1 b') = true
    rw [he.1, Table.has_eq_any, Table.has_eq_any, hb.keys]

end AsGood

/-- Laying entries over entries brings no keys but theirs. -/
theorem stranger?_layEntries (put : Value → Value → Value) (b o : Entries) :
    stranger? (Value.layEntries put b o) = none ↔
      stranger? b = none ∧ stranger? (o.filter fun e => !Table.has e.1 b) = none := by
  simp only [stranger?_eq_none_iff, Value.layEntries, List.forall_mem_append,
    List.forall_mem_map]

/-! ### Settings that are spelled once -/

/-- No setting is given under two spellings. -/
def SpelledOnce (es : Entries) : Prop :=
  es.Pairwise fun e f => Setting.ofKey? e.1 ≠ Setting.ofKey? f.1

/-- What is given under the only spelling of a setting is its value. -/
theorem lastOf_of_mem {es : Entries} (h : SpelledOnce es) {k v : Value} {s : Setting}
    (hm : (k, v) ∈ es) (hk : Setting.ofKey? k = some s) (last : Value) :
    lastOf s last es = v := by
  induction es generalizing last with
  | nil => cases hm
  | cons e es ih =>
    obtain ⟨l, w⟩ := e
    obtain ⟨hfirst, hrest⟩ := List.pairwise_cons.1 h
    rcases List.mem_cons.1 hm with heq | hm
    · cases heq
      -- The setting is not named again, so its value stays.
      have hstay : ∀ fs : Entries, (∀ f ∈ fs, Setting.ofKey? f.1 ≠ some s) →
          lastOf s v fs = v := fun fs hfs => by
        induction fs with
        | nil => rfl
        | cons f fs ihf =>
          rw [lastOf, if_neg (hfs f List.mem_cons_self)]
          exact ihf fun f hf => hfs f (List.mem_cons_of_mem _ hf)
      rw [lastOf, if_pos hk]
      exact hstay es fun f hf => hk ▸ (hfirst f hf).symm
    · exact ih hrest hm _

/-- A setting takes the last of several values if it takes each of them. -/
theorem accepts_lastOf_of_all {s : Setting} {last : Value} (hl : s.accepts last = true)
    {es : Entries} (h : ∀ e ∈ es, Setting.ofKey? e.1 = some s → s.accepts e.2 = true) :
    s.accepts (lastOf s last es) = true := by
  induction es generalizing last with
  | nil => exact hl
  | cons e es ih =>
    have hrest : ∀ e ∈ es, Setting.ofKey? e.1 = some s → s.accepts e.2 = true :=
      fun e he => h e (List.mem_cons_of_mem _ he)
    rw [lastOf]
    split
    · next hk => exact ih (h e List.mem_cons_self hk) hrest
    · exact ih hl hrest

/-- If a setting takes the last value of the base, it does so after some values have given
way to others that it takes. -/
theorem accepts_lastOf_replaced {s : Setting} {f : Value × Value → Value} {b : Entries}
    (hf : ∀ e ∈ b, Setting.ofKey? e.1 = some s → s.accepts e.2 = true → s.accepts (f e) = true)
    {last last' : Value} (hl : s.accepts last = true → s.accepts last' = true)
    (h : s.accepts (lastOf s last b) = true) :
    s.accepts (lastOf s last' (b.map fun e => (e.1, f e))) = true := by
  induction b generalizing last last' with
  | nil => exact hl h
  | cons e b ih =>
    have hrest : ∀ e ∈ b, Setting.ofKey? e.1 = some s → s.accepts e.2 = true →
        s.accepts (f e) = true := fun e he => hf e (List.mem_cons_of_mem _ he)
    rw [lastOf] at h
    rw [List.map_cons, lastOf]
    split at h
    · next hk =>
      rw [if_pos hk]
      exact ih hrest (hf e List.mem_cons_self hk) h
    · next hk =>
      rw [if_neg hk]
      exact ih hrest hl h

/-- Two layers that bind on their own bind together, if the upper one spells each setting
once. -/
theorem overlay_binds {b o : Entries} (hb : ∃ s, ofEntries b = .ok s)
    (ho : ∃ s, ofEntries o = .ok s) (h : SpelledOnce o) : ∃ s, ofEntries (overlay b o) = .ok s := by
  obtain ⟨hbs, hba⟩ := binds_iff.1 hb
  obtain ⟨hos, hoa⟩ := binds_iff.1 ho
  have hvalue : ∀ s, ∀ e ∈ o, Setting.ofKey? e.1 = some s → s.accepts e.2 = true :=
    fun s e he hk => lastOf_of_mem h he hk .null ▸ hoa s
  refine binds_iff.2 ⟨(stranger?_layEntries _ b o).2 ⟨hbs, ?_⟩, fun s => ?_⟩
  · exact stranger?_eq_none_iff.2 fun e he =>
      stranger?_eq_none_iff.1 hos e (List.mem_filter.1 he).1
  · rw [overlay, Value.layEntries, lastOf_append]
    refine accepts_lastOf_of_all (accepts_lastOf_replaced (fun e _ hk he => ?_) id (hba s))
      fun e he => hvalue s e (List.mem_filter.1 he).1
    cases hg : Table.get? e.1 o with
    | none => exact he
    | some v =>
      obtain ⟨k, hm, hs⟩ := Table.mem_of_get? hg
      obtain ⟨s', hk'⟩ := Option.isSome_iff_exists.1 (stranger?_eq_none_iff.1 hos _ hm)
      rw [Value.eq_of_sameKey hs hk] at hm
      exact hvalue s _ hm hk

end Settings
end MigrationSetup
