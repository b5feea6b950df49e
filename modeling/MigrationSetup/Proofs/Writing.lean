import Mathlib.Data.List.Lex
import Mathlib.Data.List.Pairwise
import Mathlib.Data.List.Perm.Basic
import MigrationSetup.Proofs.Canonical
import MigrationSetup.Proofs.SameTree

/-! How plain values are written.

Rows and dicts are written between marks and with commas between their parts (`enclosed`).
A dict has its entries in the order of their keys (`write_dict`), and sorting by keys that
are all different forgets in which order they came (`mergeSort_congr`). A plain value has a
text unless a number in it is too long to be written out (`write_ok_iff`). -/
namespace MigrationSetup.Canonical
open Value (Plain)

theorem forall₂_mem_left {α β : Type} {R : α → β → Prop} {xs : List α} {ys : List β}
    (h : List.Forall₂ R xs ys) {x : α} (hx : x ∈ xs) : ∃ y, y ∈ ys ∧ R x y := by
  induction h with
  | nil => cases hx
  | cons hxy _ ih =>
    rcases List.mem_cons.1 hx with rfl | hx
    · exact ⟨_, List.mem_cons_self, hxy⟩
    · exact (ih hx).imp fun y hy => ⟨List.mem_cons_of_mem _ hy.1, hy.2⟩

theorem forall₂_mem_right {α β : Type} {R : α → β → Prop} {xs : List α} {ys : List β}
    (h : List.Forall₂ R xs ys) {y : β} (hy : y ∈ ys) : ∃ x, x ∈ xs ∧ R x y :=
  forall₂_mem_left h.flip hy

/-! ### Sorted entries -/

/-- Letters in the order of their code points. -/
instance : LT Letter := ⟨fun c d => c.code < d.code⟩

instance : LinearOrder Letter := LinearOrder.lift' Letter.code fun _ _ => Letter.code_injective

theorem lt_iff {c d : Letter} : Letter.lt c d = true ↔ c < d := decide_eq_true_iff

theorem lexLt_iff {cs ds : Text} : lexLt Letter.lt cs ds = true ↔ cs < ds := by
  induction cs generalizing ds with
  | nil => cases ds <;> simp [lexLt]
  | cons c cs ih =>
    cases ds with
    | nil => simp [lexLt]
    | cons d ds =>
      rw [List.cons_lt_cons_iff, ← ih, lexLt]
      simp only [lt_iff]
      rcases lt_trichotomy c d with h | rfl | h
      · simp [h]
      · simp
      · have hnot : ¬c < d := fun h' => absurd (lt_trans h h') (lt_irrefl d)
        have hne : c ≠ d := fun h' => lt_irrefl c (h'.symm ▸ h)
        simp [h, hnot, hne]

/-- Whether one entry may stand before another. -/
def keyLe {α : Type} (p q : Text × α) : Bool := !lexLt Letter.lt q.1 p.1

theorem keyLe_iff {α : Type} {p q : Text × α} : keyLe p q = true ↔ p.1 ≤ q.1 := by
  rw [keyLe, Bool.not_eq_true', ← Bool.not_eq_true, lexLt_iff]
  exact not_lt

/-- Under keys that are all different the order of entries is forgotten. -/
theorem mergeSort_congr {α : Type} {ps qs : List (Text × α)} (h : ps.Perm qs)
    (hd : ps.Pairwise fun p q => p.1 ≠ q.1) : ps.mergeSort keyLe = qs.mergeSort keyLe := by
  have htrans (p q r : Text × α) (hpq : keyLe p q = true) (hqr : keyLe q r = true) :
      keyLe p r = true := keyLe_iff.2 (le_trans (keyLe_iff.1 hpq) (keyLe_iff.1 hqr))
  have htotal (p q : Text × α) : (keyLe p q || keyLe q p) = true := by
    rw [Bool.or_eq_true, keyLe_iff, keyLe_iff]
    exact le_total p.1 q.1
  have hsorted (rs : List (Text × α)) :
      (rs.mergeSort keyLe).Pairwise fun p q => keyLe p q = true :=
    List.pairwise_mergeSort htrans htotal rs
  refine List.Perm.eq_of_pairwise ?_ (hsorted ps) (hsorted qs)
    ((List.mergeSort_perm ps keyLe).trans (h.trans (List.mergeSort_perm qs keyLe).symm))
  intro p q hp hq hpq hqp
  have hkeys : p.1 = q.1 := le_antisymm (keyLe_iff.1 hpq) (keyLe_iff.1 hqp)
  by_contra hne
  have : Std.Symm fun p q : Text × α => p.1 ≠ q.1 := ⟨fun _ _ h => h.symm⟩
  exact hd.forall (List.mem_mergeSort.1 hp) (h.mem_iff.2 (List.mem_mergeSort.1 hq)) hne hkeys

/-- Entries under texts are put in the order of the letters of their keys. -/
theorem sortByKey_texts {α β : Type} {es : List (Value × α)} (h : ∀ e ∈ es, e.1.isText = true)
    (f : Value × α → β) :
    (Value.sortByKey es).map (List.map fun e => (e.1.letters, f e)) =
      .ok ((es.map fun e => (e.1.letters, f e)).mergeSort keyLe) := by
  have hmap : (es.map fun e => (e.1.letters, f e)).mergeSort keyLe = _ :=
    (List.map_mergeSort (r := fun e g => !lexLt Letter.lt g.1.letters e.1.letters)
      fun _ _ _ _ => rfl).symm
  rw [Value.sortByKey, if_pos (List.all_eq_true.2 h), hmap]
  rfl

/-! ### How plain values are written -/

theorem gather_ok_iff {ts : List (Except Unwritable Text)} {us : List Text} :
    gather ts = .ok us ↔ List.Forall₂ (fun t u => t = .ok u) ts us := by
  induction ts generalizing us with
  | nil =>
    rw [List.forall₂_nil_left_iff]
    exact ⟨fun h => (Except.ok.inj h).symm, fun h => congrArg Except.ok h.symm⟩
  | cons t ts ih =>
    rw [List.forall₂_cons_left_iff, gather, bind_eq_ok]
    constructor
    · rintro ⟨u, hu, h⟩
      obtain ⟨us', hus, h⟩ := bind_eq_ok.1 h
      exact ⟨u, us', hu, ih.1 hus, (Except.ok.inj h).symm⟩
    · rintro ⟨u, us', hu, hus, rfl⟩
      exact ⟨u, hu, bind_eq_ok.2 ⟨us', ih.2 hus, rfl⟩⟩

/-- Parts with commas between them, from one mark to another. -/
def enclosed (first last : Letter) (texts : List (Except Unwritable Text)) :
    Except Unwritable Text := do
  return first :: (commaJoin (← gather texts) ++ [last])

theorem enclosed_ok_iff {first last : Letter} {texts : List (Except Unwritable Text)}
    {t : Text} : enclosed first last texts = .ok t ↔
      ∃ us, List.Forall₂ (fun t u => t = .ok u) texts us ∧
        t = first :: (commaJoin us ++ [last]) := by
  rw [enclosed, bind_eq_ok]
  constructor
  · rintro ⟨us, hus, h⟩
    exact ⟨us, gather_ok_iff.1 hus, (Except.ok.inj h).symm⟩
  · rintro ⟨us, hus, rfl⟩
    exact ⟨us, gather_ok_iff.2 hus, rfl⟩

theorem whole_ok_iff {n : Int} {t : Text} :
    whole n = .ok t ↔ isTooLong n = false ∧ t = toString n := by
  rw [whole]
  split
  · next h => simp [h]
  · next h => simp [h, eq_comm]

theorem write_text {v : Value} {s : Text} (h : v.text? = some s) :
    write v = .ok (quote s) := by
  rcases Value.text?_iff.1 h with rfl | ⟨m, rfl, rfl⟩
  · rfl
  · rfl

theorem key_text {v : Value} {s : Text} (h : v.text? = some s) : key v = .ok s := by
  rcases Value.text?_iff.1 h with rfl | ⟨m, rfl, rfl⟩
  · rfl
  · rfl

theorem write_row {v : Value} {xs : List Value} (h : v.row? = some xs) :
    write v = enclosed '[' ']' (xs.map write) := by
  rcases Value.row?_iff.1 h with rfl | rfl
  · rw [write, writeAll_eq_map, array, enclosed]
  · rw [write, writeAll_eq_map, array, enclosed]

/-- The text of an entry. -/
def entryText (e : Value × Value) : Except Unwritable Text := entry e.1 (write e.2)

/-- An entry where its key has been spelled out. -/
def placed (e : Value × Value) : Text × Except Unwritable Text :=
  (e.1.letters, entryText e)

/-- Dicts are written in the order of their keys. -/
theorem write_dict {es : Entries} (h : ∀ e ∈ es, e.1.isText = true) :
    write (.dict es) =
      enclosed '\x7b' '\x7d' (((es.map placed).mergeSort keyLe).map Prod.snd) := by
  have hkeys : ∀ e ∈ es.map fun e => (e.1, write e.2), e.1.isText = true := by
    intro t ht
    obtain ⟨e, he, rfl⟩ := List.mem_map.1 ht
    exact h e he
  obtain ⟨sorted, hsorted, hmap⟩ := map_eq_ok.1 (sortByKey_texts hkeys fun e => entry e.1 e.2)
  have hplaced : sorted.map (fun e => (e.1.letters, entry e.1 e.2)) =
      (es.map placed).mergeSort keyLe := by
    rw [hmap, List.map_map]
    rfl
  have htexts : ((es.map placed).mergeSort keyLe).map Prod.snd =
      sorted.map fun e => entry e.1 e.2 := by
    rw [← hplaced, List.map_map]
    rfl
  rw [write, writeEntries_eq_map, object, hsorted, htexts, enclosed]

theorem entryText_ok_iff {e : Value × Value} {s : Text} (h : e.1.text? = some s)
    {t : Text} :
    entryText e = .ok t ↔ ∃ u, write e.2 = .ok u ∧ t = quote s ++ .char ':' :: u := by
  rw [entryText, entry, key_text h]
  constructor
  · intro ht
    obtain ⟨name, hname, ht⟩ := bind_eq_ok.1 ht
    obtain ⟨u, hu, ht⟩ := bind_eq_ok.1 ht
    rw [← Except.ok.inj hname] at ht
    exact ⟨u, hu, (Except.ok.inj ht).symm⟩
  · rintro ⟨u, hu, rfl⟩
    rw [hu]
    rfl

/-- The order in which entries are written is an order of the entries. -/
theorem exists_sorted (es : Entries) :
    ∃ gs : Entries, gs.Perm es ∧ (es.map placed).mergeSort keyLe = gs.map placed := by
  obtain ⟨gs, hgs, hperm⟩ := (congrFun₂ (List.eq_map_comp_perm placed) _ es).mpr
    (List.mergeSort_perm (es.map placed) keyLe)
  exact ⟨gs, hperm, hgs⟩

/-- Keys that are different texts have different letters. -/
theorem distinct_placed {es : Entries} (hk : ∀ e ∈ es, e.1.isText = true)
    (hd : Table.Distinct es) : (es.map placed).Pairwise fun p q => p.1 ≠ q.1 := by
  rw [List.pairwise_map]
  refine List.Pairwise.imp_of_mem ?_ hd
  intro e f he hf hne hsame
  obtain ⟨s, hs⟩ := Option.isSome_iff_exists.1 (hk e he)
  obtain ⟨u, hu⟩ := Option.isSome_iff_exists.1 (hk f hf)
  simp only [placed, Value.letters, hs, hu, Option.getD_some] at hsame
  have hkey : Value.sameKey e.1 f.1 = true :=
    Value.sameKey_iff.2 ⟨_, Value.atoms?_of_text? hs,
      hsame ▸ Value.atoms?_of_text? hu⟩
  rw [hne] at hkey
  cases hkey

/-- Dicts with one set of entries under texts have one text. -/
theorem write_perm {es fs : Entries} (hk : ∀ e ∈ es, e.1.isText = true)
    (hd : Table.Distinct es) (h : es.Perm fs) : write (.dict es) = write (.dict fs) := by
  rw [write_dict hk, write_dict fun f hf => hk f (h.mem_iff.2 hf),
    mergeSort_congr (h.map placed) (distinct_placed hk hd)]

/-! ### What has a text -/

theorem exists_enclosed_iff {α : Type} {first last : Letter}
    {f : α → Except Unwritable Text} {xs : List α} :
    (∃ t, enclosed first last (xs.map f) = .ok t) ↔ ∀ x ∈ xs, ∃ u, f x = .ok u := by
  constructor
  · rintro ⟨t, ht⟩
    obtain ⟨us, hus, -⟩ := enclosed_ok_iff.1 ht
    rw [List.forall₂_map_left_iff] at hus
    exact fun x hx => (forall₂_mem_left hus hx).imp fun u hu => hu.2
  · intro h
    have hall : ∀ t ∈ xs.map f, ∃ cs, t = .ok cs := by
      intro t ht
      obtain ⟨x, hx, rfl⟩ := List.mem_map.1 ht
      exact h x hx
    obtain ⟨us, hus⟩ := gather_of_all hall
    exact ⟨_, enclosed_ok_iff.2 ⟨us, gather_ok_iff.1 hus, rfl⟩⟩

/-- A plain value has a text unless a number in it is too long. -/
theorem write_ok_iff {v : Value} (h : Plain v) :
    (∃ t, write v = .ok t) ↔ v.hasLong = false := by
  induction h with
  | null => exact ⟨fun _ => rfl, fun _ => ⟨_, rfl⟩⟩
  | bool b => exact ⟨fun _ => rfl, fun _ => ⟨_, rfl⟩⟩
  | int n => simp [write, whole_ok_iff, Value.hasLong]
  | text ht => exact ⟨fun _ => Value.hasLong_of_isText ht, fun _ => writable_of_isText ht⟩
  | @row v xs hrow _ ih =>
    have hlong : v.hasLong = Value.hasLongIn xs := by
      rcases Value.row?_iff.1 hrow with rfl | rfl <;> rfl
    rw [write_row hrow, exists_enclosed_iff, hlong, Bool.eq_false_iff, ne_eq,
      Value.hasLongIn_iff, not_exists]
    refine forall_congr' fun x => ?_
    rw [not_and, Bool.not_eq_true]
    exact forall_congr' fun hx => ih x hx
  | @dict es hk _ _ ih =>
    obtain ⟨gs, hperm, hsorted⟩ := exists_sorted es
    have hentry (e : Value × Value) (he : e ∈ es) :
        (∃ t, entryText e = .ok t) ↔ ¬ (e.1.hasLong = true ∨ e.2.hasLong = true) := by
      obtain ⟨s, hs⟩ := Option.isSome_iff_exists.1 (hk e he)
      simp only [entryText_ok_iff hs, Value.hasLong_of_isText (hk e he), Bool.false_eq_true,
        false_or, Bool.not_eq_true, ← ih e he]
      constructor
      · intro h
        obtain ⟨t, u, hu, -⟩ := h
        exact ⟨u, hu⟩
      · intro h
        obtain ⟨u, hu⟩ := h
        exact ⟨_, u, hu, rfl⟩
    rw [write_dict hk, hsorted, List.map_map, exists_enclosed_iff, Value.hasLong,
      Bool.eq_false_iff, ne_eq, Value.hasLongUnder_iff, not_exists]
    refine forall_congr' fun e => ?_
    rw [not_and, hperm.mem_iff]
    exact forall_congr' fun he => hentry e he

end MigrationSetup.Canonical
