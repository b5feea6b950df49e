import MigrationSetup.Config
import MigrationSetup.Proofs.Result

/-! Which values have a canonical text.

A dict whose keys are all texts has a canonical text as soon as everything under them has
one, for such keys can always be put in order. The record of a configuration is such a
dict, so a configuration made of texts has a canonical text
(`Config.writable_of_textual`). -/
namespace MigrationSetup.Canonical

/-- The value has a canonical text. -/
def Writable (v : Value) : Prop := ∃ cs, write v = .ok cs

theorem writable_of_isText {v : Value} (h : v.isText = true) : Writable v := by
  rcases Value.isText_iff.1 h with ⟨s, rfl⟩ | ⟨m, rfl⟩
  · exact ⟨_, rfl⟩
  · exact ⟨_, rfl⟩

theorem gather_of_all {ts : List (Except Unwritable Text)}
    (h : ∀ t ∈ ts, ∃ cs, t = .ok cs) : ∃ css, gather ts = .ok css := by
  induction ts with
  | nil => exact ⟨[], rfl⟩
  | cons t ts ih =>
    obtain ⟨cs, rfl⟩ := h t List.mem_cons_self
    obtain ⟨css, hcss⟩ := ih fun t ht => h t (List.mem_cons_of_mem _ ht)
    exact ⟨cs :: css, by simp only [gather, hcss]; rfl⟩

theorem array_of_all {ts : List (Except Unwritable Text)}
    (h : ∀ t ∈ ts, ∃ cs, t = .ok cs) : ∃ cs, array ts = .ok cs := by
  obtain ⟨css, hcss⟩ := gather_of_all h
  exact ⟨_, by simp only [array, hcss]; rfl⟩

theorem writeAll_eq_map (xs : List Value) : writeAll xs = xs.map write := by
  induction xs with
  | nil => rfl
  | cons x xs ih => simp only [writeAll, ih, List.map_cons]

theorem writeEntries_eq_map (es : Entries) :
    writeEntries es = es.map fun e => (e.1, write e.2) := by
  induction es with
  | nil => rfl
  | cons e es ih =>
    obtain ⟨k, v⟩ := e
    simp only [writeEntries, ih, List.map_cons]

theorem writable_list {xs : List Value} (h : ∀ x ∈ xs, Writable x) : Writable (.list xs) := by
  simp only [Writable, write, writeAll_eq_map]
  exact array_of_all fun t ht => by
    obtain ⟨x, hx, rfl⟩ := List.mem_map.1 ht
    exact h x hx

/-- Keys that are all texts can be put in order, and none is lost. -/
theorem sortByKey_of_texts {α : Type} {es : List (Value × α)}
    (h : ∀ e ∈ es, e.1.isText = true) :
    ∃ sorted, Value.sortByKey es = .ok sorted ∧ ∀ e, e ∈ sorted ↔ e ∈ es := by
  have hall : (es.all fun e => e.1.isText) = true := List.all_eq_true.2 h
  exact ⟨_, if_pos hall, fun e => List.mem_mergeSort⟩

theorem key_of_isText {k : Value} (h : k.isText = true) : ∃ cs, key k = .ok cs := by
  rcases Value.isText_iff.1 h with ⟨s, rfl⟩ | ⟨m, rfl⟩
  · exact ⟨_, rfl⟩
  · exact ⟨_, rfl⟩

theorem object_of_texts {es : List (Value × Except Unwritable Text)}
    (hk : ∀ e ∈ es, e.1.isText = true) (hv : ∀ e ∈ es, ∃ cs, e.2 = .ok cs) :
    ∃ cs, object es = .ok cs := by
  obtain ⟨sorted, hs, hmem⟩ := sortByKey_of_texts hk
  have hentries : ∀ t ∈ sorted.map fun e => entry e.1 e.2, ∃ cs, t = .ok cs := by
    intro t ht
    obtain ⟨e, he, rfl⟩ := List.mem_map.1 ht
    obtain ⟨name, hname⟩ := key_of_isText (hk e ((hmem e).1 he))
    obtain ⟨cs, hcs⟩ := hv e ((hmem e).1 he)
    exact ⟨_, by simp only [entry, hname, hcs]; rfl⟩
  obtain ⟨css, hcss⟩ := gather_of_all hentries
  exact ⟨_, by simp only [object, hs, hcss]; rfl⟩

theorem writable_dict {es : Entries} (hk : ∀ e ∈ es, e.1.isText = true)
    (hv : ∀ e ∈ es, Writable e.2) : Writable (.dict es) := by
  simp only [Writable, write, writeEntries_eq_map]
  apply object_of_texts
  · intro t ht
    obtain ⟨e, he, rfl⟩ := List.mem_map.1 ht
    exact hk e he
  · intro t ht
    obtain ⟨e, he, rfl⟩ := List.mem_map.1 ht
    exact hv e he

end Canonical

/-- What a configuration says is said in texts, except that nothing may stand for the
default database. -/
structure Config.Textual (c : Config) : Prop where
  packages : ∀ x ∈ c.packages, x.isText = true
  locations : ∀ x ∈ c.locations, x.isText = true
  database : c.database.isNull = true ∨ c.database.isText = true
  installedBy : c.installedBy.isText = true

/-- A configuration made of texts has a canonical text. -/
theorem Config.writable_of_textual {c : Config} (h : c.Textual) : Canonical.Writable c.record := by
  have hlist (xs : List Value) (hx : ∀ x ∈ xs, x.isText = true) : Canonical.Writable (.list xs) :=
    Canonical.writable_list fun x hm => Canonical.writable_of_isText (hx x hm)
  have hdatabase : Canonical.Writable c.database := by
    rcases h.database with hn | ht
    · rw [Value.isNull_iff.1 hn]
      exact ⟨_, rfl⟩
    · exact Canonical.writable_of_isText ht
  apply Canonical.writable_dict
  · intro e he
    simp only [List.mem_cons, List.not_mem_nil, or_false] at he
    rcases he with rfl | rfl | rfl | rfl | rfl <;> rfl
  · intro e he
    simp only [List.mem_cons, List.not_mem_nil, or_false] at he
    rcases he with rfl | rfl | rfl | rfl | rfl
    · exact hlist _ h.packages
    · exact hlist _ h.locations
    · exact ⟨_, rfl⟩
    · exact hdatabase
    · exact Canonical.writable_of_isText h.installedBy

end MigrationSetup
