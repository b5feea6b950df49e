import Mathlib.Data.List.TakeWhile
import MigrationSetup.Proofs.Grammar
import MigrationSetup.Proofs.Restoring

/-! Scan lists as rows and as texts.

A scan list is written as texts in a row or as one text with commas between them. Either way
each item loses the blanks at its ends and is left out if nothing remains (`Kept`). So a row of
texts without commas may be written as one text that has commas between them, and what a scan
list binds to may be given again in either form (`scan_lists_bind`). -/
namespace MigrationSetup
namespace Text

/-! ### Blanks -/

theorem exists_stripEnd_append (cs : Text) :
    ∃ back, cs = stripEnd cs ++ back ∧ ∀ c ∈ back, isBlank c = true := by
  induction cs with
  | nil => exact ⟨[], rfl, List.forall_mem_nil _⟩
  | cons c cs ih =>
    obtain ⟨back, hcs, hback⟩ := ih
    cases hrest : stripEnd cs with
    | nil =>
      rw [hrest, List.nil_append] at hcs
      by_cases hc : isBlank c = true
      · refine ⟨c :: cs, by simp [stripEnd, hrest, hc], List.forall_mem_cons.2 ⟨hc, ?_⟩⟩
        rw [hcs]
        exact hback
      · have hend : stripEnd (c :: cs) = [c] := by simp [stripEnd, hrest, hc]
        exact ⟨back, by rw [hend, hcs]; rfl, hback⟩
    | cons d ds =>
      refine ⟨back, ?_, hback⟩
      rw [stripEnd, hrest]
      exact congrArg (c :: ·) (hrest ▸ hcs)

/-- Stripping takes blanks off both ends and nothing else. -/
theorem exists_strip_append (cs : Text) :
    ∃ front back, cs = front ++ strip cs ++ back ∧ (∀ c ∈ front, isBlank c = true) ∧
      ∀ c ∈ back, isBlank c = true := by
  obtain ⟨back, hcs, hback⟩ := exists_stripEnd_append (cs.dropWhile isBlank)
  refine ⟨cs.takeWhile isBlank, back, ?_, fun c hc => List.mem_takeWhile_imp hc, hback⟩
  rw [List.append_assoc, strip, ← hcs, List.takeWhile_append_dropWhile]

theorem strip_eq_nil {cs : Text} : strip cs = [] ↔ ∀ c ∈ cs, isBlank c = true := by
  constructor
  · intro h
    obtain ⟨front, back, hcs, hfront, hback⟩ := exists_strip_append cs
    rw [h, List.append_nil] at hcs
    rw [hcs]
    exact List.forall_mem_append.2 ⟨hfront, hback⟩
  · intro h
    rw [strip, List.dropWhile_eq_nil_iff.2 h]
    rfl

end Text

namespace Settings

/-- What remains of an item once the blanks at its ends are dropped. -/
structure Stripped (item cs : Text) : Prop where
  nonempty : cs ≠ []
  within : ∃ front back, item = front ++ cs ++ back ∧ (∀ c ∈ front, Text.isBlank c = true) ∧
    ∀ c ∈ back, Text.isBlank c = true
  first : ∀ c ∈ cs.head?, Text.isBlank c = false
  last : ∀ c ∈ cs.getLast?, Text.isBlank c = false

/-- The items that are not blank, one by one and each stripped. -/
inductive Kept : List Text → List Value → Prop
  | nil : Kept [] []
  | blank {item : Text} {items : List Text} {xs : List Value}
    (blank : ∀ c ∈ item, Text.isBlank c = true) (rest : Kept items xs) : Kept (item :: items) xs
  | item {item cs : Text} {items : List Text} {xs : List Value}
    (stripped : Stripped item cs) (rest : Kept items xs) :
    Kept (item :: items) (.text cs :: xs)

/-- Both values give a setting the list `xs`, and wherever one of them stands the other may. -/
structure Interchangeable (s : Setting) (v w : Value) (xs : List Value) : Prop where
  left : s.read v = .ok (.items (some xs))
  right : s.read w = .ok (.items (some xs))
  bound : ∀ {x y k : Value} {before after : Entries}, k.Names s →
    Section x (before ++ (k, v) :: after) → Section y (before ++ (k, w) :: after) →
      ofValue x = ofValue y

variable {s : Setting} {v w k : Value} {xs : List Value} {ts : List Text}

/-! ### What is kept -/

theorem stripped_strip {item : Text} (h : Text.strip item ≠ []) :
    Stripped item (Text.strip item) where
  nonempty := h
  within := Text.exists_strip_append item
  first := fun _ => Text.head_strip
  last := fun _ => Text.getLast_strip

theorem kept_keepItems (items : List Text) : Kept items (keepItems items) := by
  induction items with
  | nil => exact .nil
  | cons item items ih =>
    by_cases h : Text.strip item = []
    · have hsame : keepItems (item :: items) = keepItems items := by
        simp [keepItems, h]
      rw [hsame]
      exact .blank (Text.strip_eq_nil.1 h) ih
    · have hkept : keepItems (item :: items) =
          .text (Text.strip item) :: keepItems items := by
        simp [keepItems, h]
      rw [hkept]
      exact .item (stripped_strip h) ih

/-! ### Rows and texts -/

theorem read_scan (hs : s = .packages ∨ s = .locations) {o : Option (List Value)} :
    s.read v = .ok (.items o) ↔ ScanList v o := by
  rw [Setting.read_eq_ok_iff]
  rcases hs with rfl | rfl <;> simp [Setting.Takes]

/-- A row without commas in its texts has the pieces of the text that joins them. -/
theorem scanList_joined (hrow : v.row? = some xs) (htexts : xs.map Value.text? = ts.map some)
    (hcommas : ∀ t ∈ ts, .char ',' ∉ t) :
    ∃ ys, ScanList v (some ys) ∧ ScanList (.text (Text.between "," ts)) (some ys) := by
  by_cases hts : ts = []
  · rw [hts] at htexts ⊢
    have hempty : Items (.text "") [[]] := .text rfl ⟨by simp, by simp, rfl⟩
    exact ⟨[], .items (.row hrow htexts), .items hempty⟩
  · refine ⟨_, .items (.row hrow htexts), .items (.text rfl ⟨?_, ?_, ?_⟩)⟩
    · simpa using hts
    · simpa using hcommas
    · rfl

/-! ### In place of one another -/

theorem lastOf_exchange (hk : k.Names s) (h : s.read v = s.read w) (t : Setting)
    (before after : Entries) :
    t.read (lastOf t .null (before ++ (k, v) :: after)) =
      t.read (lastOf t .null (before ++ (k, w) :: after)) := by
  simp only [lastOf_append, lastOf, Setting.ofKey?_eq_some_iff.2 hk]
  by_cases ht : s = t
  · subst ht
    simp only [if_true, lastOf_eq]
    cases given? s after with
    | none => exact h
    | some _ => rfl
  · simp only [Option.some.injEq, ht, if_false]

/-- Where a setting makes the same of two values, so do entries that give it one or the other. -/
theorem ofEntries_exchange (hk : k.Names s) (h : s.read v = s.read w) (before after : Entries) :
    ofEntries (before ++ (k, v) :: after) = ofEntries (before ++ (k, w) :: after) := by
  have hkeys : stranger? (before ++ (k, v) :: after) = stranger? (before ++ (k, w) :: after) :=
    stranger?_congr (by simp [Table.keys])
  refine agree_eq_iff.1 (ofEntries_agree ?_ fun t => ?_)
  · rw [hkeys]
    cases stranger? (before ++ (k, w) :: after) with
    | none => exact .none
    | some l => exact .some rfl
  · exact agree_eq_iff.2 (lastOf_exchange hk h t before after)

theorem interchangeable_of_scanList (hs : s = .packages ∨ s = .locations)
    (hv : ScanList v (some xs)) (hw : ScanList w (some xs)) : Interchangeable s v w xs where
  left := (read_scan hs).2 hv
  right := (read_scan hs).2 hw
  bound := fun hk hx hy => by
    rw [ofValue_of_section hx, ofValue_of_section hy]
    exact ofEntries_exchange hk (((read_scan hs).2 hv).trans ((read_scan hs).2 hw).symm) _ _

/-! ### What was bound -/

theorem scanList_unique {o o' : Option (List Value)} (h : ScanList v o) (h' : ScanList v o') :
    o = o' :=
  Except.ok.inj ((scanList_eq_ok_iff (s := .packages).2 h).symm.trans (scanList_eq_ok_iff.2 h'))

theorem Settled.list (h : Settled xs) : ScanList (.list xs) (some xs) :=
  scanList_eq_ok_iff.1 (h.scanList .packages)

/-- A row is read alike as a list and as a tuple. -/
theorem scanList_tuple {o : Option (List Value)} (h : ScanList (.list xs) o) :
    ScanList (.tuple xs) o := by
  cases h with
  | items written =>
    cases written with
    | text isText => cases isText
    | row isRow texts =>
      cases isRow
      exact .items (.row rfl texts)

theorem Settled.joined (h : Settled xs) (hxs : xs = ts.map .text)
    (hcommas : ∀ t ∈ ts, .char ',' ∉ t) :
    ScanList (.text (Text.between "," ts)) (some xs) := by
  have htexts : xs.map Value.text? = ts.map some := by
    rw [hxs, List.map_map]
    rfl
  obtain ⟨ys, hlist, hjoined⟩ := scanList_joined (v := .list xs) rfl htexts hcommas
  cases scanList_unique hlist h.list
  exact hjoined

/-- **A scan list binds alike as a row and as a text with commas, and what it binds to binds
again.** Rows of texts and texts are what is taken. What comes out are the items that are not
blank, stripped and in their order, and it may stand in place of what was given. -/
theorem scan_lists_bind (hs : s = .packages ∨ s = .locations) :
    (∀ {v xs ts}, v.row? = some xs → xs.map Value.text? = ts.map some →
      (∀ t ∈ ts, .char ',' ∉ t) → ∃ ys, Interchangeable s v (.text (Text.between "," ts)) ys) ∧
    Interchangeable s (.list []) (.text "") [] ∧ Interchangeable s (.tuple []) (.text "") [] ∧
    (∀ v, (∃ xs, s.read v = .ok (.items (some xs))) ↔ ∃ items, Items v items) ∧
    ∀ {v items}, Items v items → ∃ xs, Kept items xs ∧ Settled xs ∧
      (∀ {x es l}, Section x es → Last s es v → ofValue x = .ok l →
        l.part s = .items (some xs)) ∧
      Interchangeable s v (.list xs) xs ∧ Interchangeable s v (.tuple xs) xs ∧
      ∀ ts, xs = ts.map .text → (∀ t ∈ ts, .char ',' ∉ t) →
        Interchangeable s v (.text (Text.between "," ts)) xs := by
  have hnone : Items (.text "") [[]] := .text rfl ⟨by simp, by simp, rfl⟩
  have hempty {v : Value} (hv : v.row? = some []) : Interchangeable s v (.text "") [] :=
    have hrow : Items v ([]) := .row hv rfl
    interchangeable_of_scanList hs (.items hrow) (.items hnone)
  refine ⟨fun hrow htexts hcommas => ?_, hempty rfl, hempty rfl, fun v => ?_,
    fun {v items} hitems => ?_⟩
  · obtain ⟨ys, hv, hw⟩ := scanList_joined hrow htexts hcommas
    exact ⟨ys, interchangeable_of_scanList hs hv hw⟩
  · simp only [read_scan hs]
    constructor
    · rintro ⟨xs, hv⟩
      cases hv with
      | items written => exact ⟨_, written⟩
    · rintro ⟨items, hitems⟩
      exact ⟨_, .items hitems⟩
  · have hv : ScanList v (some (keepItems items)) := .items hitems
    have hsettled := settled_keepItems items
    refine ⟨_, kept_keepItems items, hsettled, fun hsection hlast hx => ?_,
      interchangeable_of_scanList hs hv hsettled.list,
      interchangeable_of_scanList hs hv (scanList_tuple hsettled.list),
      fun ts hts hcommas => interchangeable_of_scanList hs hv (hsettled.joined hts hcommas)⟩
    have hread := (ofEntries_eq_ok_iff.1 ((ofValue_of_section hsection).symm.trans hx)).2 s
    rw [lastOf_iff.2 hlast, (read_scan hs).2 hv] at hread
    exact (Except.ok.inj hread).symm

/-- Blanks around items, an item without anything in it, and one that comes twice. -/
theorem scan_lists_bind_blanks :
    let ts : List Text := [" a", "", "b c ", " a"]
    let row : Value := .list (ts.map .text)
    let kept : List Value := [.text "a", .text "b c", .text "a"]
    (∀ t ∈ ts, .char ',' ∉ t) ∧ Items row ts ∧
      (∃ ys, Interchangeable .locations row (.text " a,,b c , a") ys) ∧
      Interchangeable .locations row (.list kept) kept ∧
      Interchangeable .locations row (.text "a,b c,a") kept ∧
      ofValue (.dict [(.text "locations-to-scan", row)]) =
        ofValue (.dict [(.text "locations-to-scan", .text "a,b c,a")]) := by
  intro ts row kept
  have hcommas : ∀ t ∈ ts, .char ',' ∉ t := by decide
  have hkept : ∀ t ∈ (["a", "b c", "a"] : List Text), .char ',' ∉ t := by decide
  have hrow : Items row ts := .row rfl rfl
  obtain ⟨hjoined, -, -, -, hbound⟩ := scan_lists_bind (s := .locations) (.inr rfl)
  obtain ⟨xs, -, -, -, hlist, -, htext⟩ := hbound hrow
  have hxs : (Setting.locations.read row) = .ok (.items (some kept)) := rfl
  cases hlist.left.symm.trans hxs
  have hagain := htext _ rfl hkept
  have hnamed : (Value.text "locations-to-scan").Names .locations := ⟨_, rfl, by decide⟩
  have hbare (v : Value) : Section (.dict [(.text "locations-to-scan", v)])
      ([] ++ (.text "locations-to-scan", v) :: []) := .bare rfl
  exact ⟨hcommas, hrow, hjoined rfl rfl hcommas, hlist, hagain,
    hagain.bound hnamed (hbare _) (hbare _)⟩

end Settings
end MigrationSetup
