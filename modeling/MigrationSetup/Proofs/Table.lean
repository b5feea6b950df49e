import MigrationSetup.Value.Key

/-! Tables whose keys are all different.

A dict never holds a key twice (`Table.Distinct`). Looking up and putting then have plain
descriptions: a key that a table lacks is put at its end (`put_of_new`), and a key that it
holds keeps its place and its spelling while the value under it changes (`put_of_held`). -/
namespace MigrationSetup.Table
variable {α : Type}

/-- No two keys are one key. -/
def Distinct (t : Table α) : Prop := t.Pairwise fun e f => Value.sameKey e.1 f.1 = false

/-! ### Looking up -/

theorem get?_congr {k l : Value} (h : Value.sameKey k l = true) (t : Table α) :
    t.get? k = t.get? l := by
  induction t with
  | nil => rfl
  | cons e t ih =>
    obtain ⟨k', a⟩ := e
    have hk : Value.sameKey k' k = Value.sameKey k' l := by
      rw [Bool.eq_iff_iff]
      exact ⟨fun hk => Value.sameKey_trans hk h,
        fun hl => Value.sameKey_trans hl ((Value.sameKey_comm l k).trans h)⟩
    simp only [get?, hk, ih]

theorem get?_append (k : Value) (t u : Table α) :
    get? k (t ++ u) = (t.get? k).or (u.get? k) := by
  induction t with
  | nil => rfl
  | cons e t ih =>
    obtain ⟨k', a⟩ := e
    by_cases hk : Value.sameKey k' k = true <;> simp [get?, hk, ih]

theorem get?_eq_none_iff {k : Value} {t : Table α} :
    t.get? k = none ↔ ∀ e ∈ t, Value.sameKey e.1 k = false := by
  induction t with
  | nil => simp
  | cons e t ih =>
    obtain ⟨k', a⟩ := e
    by_cases hk : Value.sameKey k' k = true <;> simp [get?, hk, ih]

/-- What is found under a key stands in an entry of that key. -/
theorem mem_of_get? {k : Value} {t : Table α} {a : α} (h : t.get? k = some a) :
    ∃ k', (k', a) ∈ t ∧ Value.sameKey k' k = true := by
  induction t with
  | nil => cases h
  | cons e t ih =>
    obtain ⟨k', b⟩ := e
    by_cases hk : Value.sameKey k' k = true
    · simp only [get?, hk, if_true, Option.some.injEq] at h
      exact ⟨k', h ▸ List.mem_cons_self, hk⟩
    · simp only [get?, hk] at h
      obtain ⟨l, hl, hs⟩ := ih h
      exact ⟨l, List.mem_cons_of_mem _ hl, hs⟩

theorem has_eq_false_iff {k : Value} {t : Table α} : t.has k = false ↔ t.get? k = none := by
  simp [has]

/-! ### Putting -/

theorem put_of_new {k : Value} {t : Table α} (h : t.get? k = none) (a : α) :
    t.put k a = t ++ [(k, a)] := by
  induction t with
  | nil => rfl
  | cons e t ih =>
    obtain ⟨k', b⟩ := e
    by_cases hk : Value.sameKey k' k = true
    · simp [get?, hk] at h
    · simp only [get?, hk] at h
      simp [put, hk, ih h]

namespace Distinct
variable {t : Table α} {e : Value × α}

theorem tail (h : Distinct (e :: t)) : Distinct t := (List.pairwise_cons.1 h).2

/-- The first key does not come again. -/
theorem head_new (h : Distinct (e :: t)) : t.get? e.1 = none :=
  get?_eq_none_iff.2 fun f hf => by
    rw [Value.sameKey_comm]
    exact (List.pairwise_cons.1 h).1 f hf

/-- What is entered under a key is found under it, if the key can be one at all. -/
theorem get?_of_mem (h : Distinct t) {k : Value} {a : α} (hm : (k, a) ∈ t)
    (hk : Value.sameKey k k = true) : t.get? k = some a := by
  induction t with
  | nil => cases hm
  | cons f t ih =>
    obtain ⟨k', b⟩ := f
    rcases List.mem_cons.1 hm with heq | hm
    · cases heq
      simp [get?, hk]
    · have hne : Value.sameKey k' k = false := (List.pairwise_cons.1 h).1 _ hm
      simp [get?, hne, ih h.tail hm]

end Distinct

/-- A key that a table holds keeps its place, and the value under it changes. -/
theorem put_of_held {k : Value} {t : Table α} (h : Distinct t) {b : α}
    (hk : t.get? k = some b) (a : α) :
    t.put k a = t.map fun e => if Value.sameKey e.1 k then (e.1, a) else e := by
  induction t with
  | nil => cases hk
  | cons e t ih =>
    obtain ⟨k', c⟩ := e
    by_cases hs : Value.sameKey k' k = true
    · have hrest : ∀ f ∈ t, Value.sameKey f.1 k = false := fun f hf => by
        have hne := (List.pairwise_cons.1 h).1 f hf
        rw [← Bool.not_eq_true] at hne ⊢
        exact fun hf' => hne (Value.sameKey_trans hs ((Value.sameKey_comm k f.1).trans hf'))
      have hmap : (t.map fun e => if Value.sameKey e.1 k then (e.1, a) else e) = t :=
        (List.map_congr_left fun f hf => by simp [hrest f hf]).trans (List.map_id t)
      simp [put, hs, hmap]
    · simp only [get?, hs] at hk
      simp [put, hs, ih h.tail hk]

/-- Putting brings nothing but what is put, under the key or a spelling of it. -/
theorem mem_put {k : Value} {a : α} {t : Table α} {e : Value × α} (h : e ∈ t.put k a) :
    e ∈ t ∨ e.2 = a ∧ (e.1 = k ∨ e.1 ∈ t.keys) := by
  induction t with
  | nil =>
    rw [List.mem_singleton.1 h]
    exact .inr ⟨rfl, .inl rfl⟩
  | cons f t ih =>
    obtain ⟨l, b⟩ := f
    rw [put] at h
    split at h
    · rcases List.mem_cons.1 h with rfl | h
      · exact .inr ⟨rfl, .inr List.mem_cons_self⟩
      · exact .inl (List.mem_cons_of_mem _ h)
    · rcases List.mem_cons.1 h with rfl | h
      · exact .inl List.mem_cons_self
      · refine (ih h).imp (List.mem_cons_of_mem _) ?_
        rintro ⟨he, hk⟩
        exact ⟨he, hk.imp_right (List.mem_cons_of_mem _)⟩

/-- What holds of all keys, and of all that stands under them, stays so if it holds of what
is put. -/
theorem forall_put {P : Value → Prop} {Q : α → Prop} {t : Table α}
    (h : ∀ e ∈ t, P e.1 ∧ Q e.2) {k : Value} {a : α} (hk : P k) (ha : Q a) :
    ∀ e ∈ t.put k a, P e.1 ∧ Q e.2 := by
  intro e he
  rcases mem_put he with he | ⟨hunder, hkey | hkey⟩
  · exact h e he
  · exact ⟨hkey ▸ hk, hunder ▸ ha⟩
  · obtain ⟨f, hf, hfe⟩ := List.mem_map.1 hkey
    exact ⟨hfe ▸ (h f hf).1, hunder ▸ ha⟩

/-- Whether a table holds a key is a matter of its keys. -/
theorem has_eq_any (k : Value) (t : Table α) : t.has k = t.keys.any (Value.sameKey · k) := by
  induction t with
  | nil => rfl
  | cons e t ih =>
    obtain ⟨k', b⟩ := e
    by_cases hk : Value.sameKey k' k = true
    · simp [has, get?, keys, hk]
    · simp only [has, get?, keys, hk, List.map_cons, List.any_cons, Bool.false_or] at ih ⊢
      exact ih

theorem distinct_iff_keys {t : Table α} :
    t.Distinct ↔ t.keys.Pairwise fun k l => Value.sameKey k l = false := by
  rw [Distinct, keys, List.pairwise_map]

theorem keys_put_of_held {k : Value} {t : Table α} {b : α} (hk : t.get? k = some b) (a : α) :
    (t.put k a).keys = t.keys := by
  rw [keys_put, has, hk]
  rfl

theorem Distinct.put {t : Table α} (h : t.Distinct) (k : Value) (a : α) :
    (t.put k a).Distinct := by
  cases hk : t.get? k with
  | some b =>
    rw [distinct_iff_keys, keys_put_of_held hk, ← distinct_iff_keys]
    exact h
  | none =>
    rw [put_of_new hk, Distinct, List.pairwise_append]
    refine ⟨h, List.pairwise_singleton _ _, fun e he f hf => ?_⟩
    rw [List.mem_singleton.1 hf]
    exact get?_eq_none_iff.1 hk e he

end MigrationSetup.Table
