import MigrationSetup.Proofs.Delimiting
import MigrationSetup.Proofs.Restoring
import MigrationSetup.Proofs.Writing

/-! What a canonical text says.

A plain value has a canonical text unless a number is too long to be written out
(`write_ok_iff`). The text says which tree the value is and nothing else. Sorting forgets
the order of entries, so one tree has one text (`write_eq`). The first character shows the
form of a value (`form?_of_write`) and every part shows where it ends, so one text has one
tree (`delimited`). For configurations of texts one tree means equal fields, and thus a
fingerprint is taken of a text that identifies its configuration (`write_identifies`). -/
namespace MigrationSetup

namespace Canonical
open Value (Plain SameTree SameEntry)

/-! ### One tree has one text -/

theorem map_congr_forall₂ {α β : Type} {R : α → α → Prop} {f : α → β} {xs ys : List α}
    (h : List.Forall₂ R xs ys) (hf : ∀ x ∈ xs, ∀ {y}, R x y → f x = f y) :
    xs.map f = ys.map f := by
  induction h with
  | nil => rfl
  | cons hxy _ ih =>
    rw [List.map_cons, List.map_cons, hf _ List.mem_cons_self hxy,
      ih fun x hx => hf x (List.mem_cons_of_mem _ hx)]

/-- Entries are placed by their keys' letters and what is written under them. -/
theorem placed_congr {e f : Value × Value} (he : e.1.isText = true) (hk : e.1.text? = f.1.text?)
    (hw : write e.2 = write f.2) : placed e = placed f := by
  obtain ⟨s, hs⟩ := Option.isSome_iff_exists.1 he
  simp only [placed, entryText, entry, Value.letters, key_text hs, key_text (hk ▸ hs), hk, hw]

/-- Values that are one tree have one text. -/
theorem write_eq {v w : Value} (hv : Plain v) (h : SameTree v w) : write v = write w := by
  induction hv generalizing w with
  | null =>
    cases h with
    | null => rfl
    | text left => cases left
    | row left => cases left
  | bool b =>
    cases h with
    | bool => rfl
    | text left => cases left
    | row left => cases left
  | int n =>
    cases h with
    | int => rfl
    | text left => cases left
    | row left => cases left
  | text ht =>
    obtain ⟨s, hs⟩ := Option.isSome_iff_exists.1 ht
    rw [write_text hs, write_text (h.of_text hs)]
  | row hrow _ ih =>
    obtain ⟨ys, hw, hparts⟩ := h.of_row hrow
    rw [write_row hrow, write_row hw, map_congr_forall₂ hparts ih]
  | @dict es hk hd _ ih =>
    obtain ⟨gs, fs, rfl, hperm, hparts⟩ := h.of_dict
    have hplaced : gs.map placed = fs.map placed :=
      map_congr_forall₂ hparts fun e he f hef =>
        have he := hperm.mem_iff.2 he
        placed_congr (hk e he) hef.1 (ih e he hef.2)
    have hkeys : ∀ f ∈ fs, f.1.isText = true := by
      have htexts := (Value.forall₂_sameEntry_iff.1 hparts).1
      intro f hf
      obtain ⟨e, he, hef⟩ := List.mem_map.1 (htexts ▸ List.mem_map_of_mem hf)
      rw [Value.isText, ← hef]
      exact hk e (hperm.mem_iff.2 he)
    rw [write_perm hk hd hperm, write_dict fun e he => hk e (hperm.mem_iff.2 he),
      write_dict hkeys, hplaced]

/-! ### One text has one tree -/

/-- The form that a text shows by its first character. -/
def formAt (c : Letter) : Option Form :=
  if isNumeralLetter c then some .whole
  else match c with
    | .char 'n' => some .null
    | .char 't' => some (.bool true)
    | .char 'f' => some (.bool false)
    | .char '"' => some .text
    | .char '[' => some .row
    | .char '\x7b' => some .dict
    | _ => none

/-- The text is that of the plain value. -/
def Writes (v : Value) (t : Text) : Prop := Plain v ∧ write v = .ok t

theorem Writes.form? {v : Value} {t : Text} (h : Writes v t) :
    ∃ c u, t = c :: u ∧ v.form? = formAt c := by
  obtain ⟨hv, hw⟩ := h
  cases hv with
  | null => exact ⟨.char 'n', _, (Except.ok.inj hw).symm, rfl⟩
  | bool b =>
    cases b with
    | true => exact ⟨.char 't', _, (Except.ok.inj hw).symm, rfl⟩
    | false => exact ⟨.char 'f', _, (Except.ok.inj hw).symm, rfl⟩
  | int n =>
    rw [write] at hw
    obtain ⟨-, rfl⟩ := whole_ok_iff.1 hw
    cases ht : Text.ofString (toString n) with
    | nil => exact absurd (List.map_eq_nil_iff.1 ht) (toString_ne_nil n)
    | cons c u =>
      refine ⟨c, u, rfl, ?_⟩
      have hc : isNumeralLetter c = true := isNumeralLetter_of_mem (ht ▸ List.mem_cons_self)
      exact (if_pos hc).symm
  | text ht =>
    obtain ⟨s, hs⟩ := Option.isSome_iff_exists.1 ht
    rw [write_text hs] at hw
    exact ⟨.char '"', _, (Except.ok.inj hw).symm, Value.form?_of_isText ht⟩
  | row hrow =>
    rw [write_row hrow] at hw
    obtain ⟨us, -, rfl⟩ := enclosed_ok_iff.1 hw
    exact ⟨.char '[', _, rfl, Value.form?_of_row hrow⟩
  | dict hk =>
    rw [write_dict hk] at hw
    obtain ⟨us, -, rfl⟩ := enclosed_ok_iff.1 hw
    exact ⟨.char '\x7b', _, rfl, rfl⟩

/-- Texts that begin alike are texts of values of one form. -/
theorem Writes.form?_eq {v w : Value} {t u r s : Text} (hv : Writes v t) (hw : Writes w u)
    (h : t ++ r = u ++ s) : w.form? = v.form? := by
  obtain ⟨c, t, rfl, hc⟩ := hv.form?
  obtain ⟨d, u, rfl, hd⟩ := hw.form?
  rw [hc, hd, (List.cons.inj h).1]

/-- No text is empty or begins with a mark that closes. -/
theorem Writes.opens {v : Value} {t : Text} (h : Writes v t) {close : Letter}
    (hclose : formAt close = none) {r : Text} : t ≠ close :: r ∧ t ≠ [] := by
  obtain ⟨c, u, rfl, hc⟩ := h.form?
  refine ⟨fun heq => ?_, List.cons_ne_nil c u⟩
  have hform := h.1.isSome_form?
  rw [hc, (List.cons.inj heq).1, hclose] at hform
  cases hform

/-- The text is that of the entry. -/
def WritesEntry (e : Value × Value) (t : Text) : Prop :=
  e.1.isText = true ∧ Plain e.2 ∧ entryText e = .ok t

/-- An entry shows where it ends if what stands under its key does. -/
theorem delimited_entry {e : Value × Value} (h : Delimited Writes SameTree e.2) :
    Delimited WritesEntry SameEntry e := by
  rintro f t u r s ⟨he, hpe, hte⟩ ⟨hf, hpf, htf⟩ hr hs heq
  obtain ⟨a, ha⟩ := Option.isSome_iff_exists.1 he
  obtain ⟨b, hb⟩ := Option.isSome_iff_exists.1 hf
  obtain ⟨t, ht, rfl⟩ := (entryText_ok_iff ha).1 hte
  obtain ⟨u, hu, rfl⟩ := (entryText_ok_iff hb).1 htf
  rw [List.append_assoc, List.append_assoc] at heq
  obtain ⟨hkey, hrest⟩ := quote_append heq
  obtain ⟨htree, hend⟩ := h ⟨hpe, ht⟩ ⟨hpf, hu⟩ hr hs (List.cons.inj hrest).2
  rw [hkey, ← hb] at ha
  exact ⟨⟨ha, htree⟩, hend⟩

theorem enclosed_append {first close : Letter} {ts us : List Text} {r s : Text}
    (h : first :: (commaJoin ts ++ [close]) ++ r = first :: (commaJoin us ++ [close]) ++ s) :
    commaJoin ts ++ close :: r = commaJoin us ++ close :: s := by
  simpa using h

theorem forall₂_writes {xs : List Value} {ts : List Text} (h : ∀ x ∈ xs, Plain x)
    (hts : List.Forall₂ (fun t u => t = .ok u) (xs.map write) ts) : List.Forall₂ Writes xs ts :=
  (List.forall₂_and_left _ _).2 ⟨h, List.forall₂_map_left_iff.1 hts⟩

/-- A row shows where it ends if its items do. -/
theorem delimited_row {v : Value} {xs : List Value} (hv : v.row? = some xs)
    (h : ∀ x ∈ xs, Delimited Writes SameTree x) : Delimited Writes SameTree v := by
  intro w t u r s ht hu hr hs he
  obtain ⟨ys, hw⟩ := Value.row_of_form? ((ht.form?_eq hu he).trans (Value.form?_of_row hv))
  obtain ⟨ts, hts, rfl⟩ := enclosed_ok_iff.1 ((write_row hv).symm.trans ht.2)
  obtain ⟨us, hus, rfl⟩ := enclosed_ok_iff.1 ((write_row hw).symm.trans hu.2)
  obtain ⟨hall, hend⟩ := commaJoin_append (.inl rfl) (fun hy => hy.opens rfl) h
    (forall₂_writes (ht.1.of_row hv) hts) (forall₂_writes (hu.1.of_row hw) hus)
    (enclosed_append he)
  exact ⟨.row hv hw hall, hend⟩

/-- The entries of a plain dict in the order in which they are written. -/
theorem Writes.dict {es : Entries} {t : Text} (h : Writes (.dict es) t) :
    ∃ (gs : Entries) (ts : List Text), gs.Perm es ∧ List.Forall₂ WritesEntry gs ts ∧
      t = .char '\x7b' :: (commaJoin ts ++ [.char '\x7d']) := by
  obtain ⟨hk, -, hparts⟩ := h.1.of_dict
  obtain ⟨gs, hperm, hsorted⟩ := exists_sorted es
  obtain ⟨ts, hts, rfl⟩ := enclosed_ok_iff.1 ((write_dict hk).symm.trans h.2)
  rw [hsorted, List.map_map, List.forall₂_map_left_iff] at hts
  have hgs : ∀ e ∈ gs, e.1.isText = true ∧ Plain e.2 := fun e he =>
    have he := hperm.mem_iff.1 he
    ⟨hk e he, hparts e he⟩
  exact ⟨gs, ts, hperm,
    ((List.forall₂_and_left _ _).2 ⟨hgs, hts⟩).imp fun _ _ h => ⟨h.1.1, h.1.2, h.2⟩, rfl⟩

theorem WritesEntry.opens {e : Value × Value} {t : Text} (h : WritesEntry e t)
    {r : Text} : t ≠ .char '\x7d' :: r ∧ t ≠ [] := by
  obtain ⟨s, hs⟩ := Option.isSome_iff_exists.1 h.1
  obtain ⟨u, -, rfl⟩ := (entryText_ok_iff hs).1 h.2.2
  exact ⟨fun heq => absurd (List.cons.inj heq).1 (by decide), List.cons_ne_nil _ _⟩

/-- A dict shows where it ends if its entries do. -/
theorem delimited_dict {es : Entries} (h : ∀ e ∈ es, Delimited Writes SameTree e.2) :
    Delimited Writes SameTree (.dict es) := by
  intro w t u r s ht hu hr hs he
  obtain ⟨fs, rfl⟩ := Value.dict_of_form? (ht.form?_eq hu he)
  obtain ⟨gs, ts, hgs, hts, rfl⟩ := ht.dict
  obtain ⟨gs', us, hgs', hus, rfl⟩ := hu.dict
  obtain ⟨hall, hend⟩ := commaJoin_append (.inr rfl) (fun hy => hy.opens)
    (fun e he => delimited_entry (h e (hgs.mem_iff.1 he))) hts hus (enclosed_append he)
  -- Read back are the entries in written order; the dicts have them in orders of their own.
  have hback : Relation.Comp (List.Forall₂ SameEntry) List.Perm gs fs := ⟨gs', hall, hgs'⟩
  rw [List.forall₂_comp_perm_eq_perm_comp_forall₂] at hback
  obtain ⟨hs, hperm, hparts⟩ := hback
  obtain ⟨hkeys, htrees⟩ := Value.forall₂_sameEntry_iff.1 hparts
  exact ⟨.dict (hgs.symm.trans hperm) hkeys htrees, hend⟩

/-- A plain value shows what it is and where it ends. -/
theorem delimited {v : Value} (h : Plain v) : Delimited Writes SameTree v := by
  -- Whatever is written as a value without parts is that value.
  have hsame {w : Value} {t u r s : Text} (ht : Writes w t) (hu : Writes w u)
      (he : t ++ r = u ++ s) : r = s := by
    rw [Except.ok.inj (ht.2.symm.trans hu.2)] at he
    exact List.append_cancel_left he
  induction h with
  | null =>
    intro w t u r s ht hu hr hs he
    obtain rfl := Value.null_of_form? (ht.form?_eq hu he)
    exact ⟨.null, hsame ht hu he⟩
  | bool b =>
    intro w t u r s ht hu hr hs he
    obtain rfl := Value.bool_of_form? (ht.form?_eq hu he)
    exact ⟨.bool b, hsame ht hu he⟩
  | int n =>
    intro w t u r s ht hu hr hs he
    obtain ⟨m, rfl⟩ := Value.int_of_form? (ht.form?_eq hu he)
    obtain ⟨-, rfl⟩ := whole_ok_iff.1 ht.2
    obtain ⟨-, rfl⟩ := whole_ok_iff.1 hu.2
    obtain ⟨rfl, hend⟩ := whole_append hr hs he
    exact ⟨.int n, hend⟩
  | text htext =>
    intro w t u r s ht hu hr hs he
    have hw := Value.isText_of_form? ((ht.form?_eq hu he).trans (Value.form?_of_isText htext))
    obtain ⟨a, ha⟩ := Option.isSome_iff_exists.1 htext
    obtain ⟨b, hb⟩ := Option.isSome_iff_exists.1 hw
    rw [← Except.ok.inj ((write_text ha).symm.trans ht.2),
      ← Except.ok.inj ((write_text hb).symm.trans hu.2)] at he
    obtain ⟨hletters, hend⟩ := quote_append he
    exact ⟨.text ha (hletters ▸ hb), hend⟩
  | row hrow _ ih => exact delimited_row hrow ih
  | dict _ _ _ ih => exact delimited_dict ih

/-- Values with one text are one tree. -/
theorem sameTree_of_write {v w : Value} {t : Text} (hv : Writes v t) (hw : Writes w t) :
    SameTree v w := by
  have hends : Ends [] := fun c hc => by cases hc
  exact (delimited hv.1 hv hw hends hends rfl).1

end Canonical

/-! ### Configurations -/

namespace Value

theorem plain_of_texts {xs : List Value} (h : ∀ x ∈ xs, x.isText = true) : Plain (.list xs) :=
  .row rfl fun x hx => .text (h x hx)

theorem sameTree_text_iff {v w : Value} {s : Text} (h : v.text? = some s) :
    SameTree v w ↔ w.text? = some s :=
  ⟨fun hvw => hvw.of_text h, .text h⟩

theorem sameTree_list_iff {xs ys : List Value} :
    SameTree (.list xs) (.list ys) ↔ List.Forall₂ SameTree xs ys := by
  constructor
  · intro h
    obtain ⟨zs, hz, hparts⟩ := h.of_row rfl
    obtain rfl := Option.some.inj hz
    exact hparts
  · exact .row rfl rfl

/-- Nothing and texts are equal if they are one tree. -/
theorem equal_iff_sameTree {v w : Value} (hv : v.isNull = true ∨ v.isText = true)
    (hw : w.isNull = true ∨ w.isText = true) : v.equal w = true ↔ SameTree v w := by
  rcases hv with hv | hv
  · obtain rfl := isNull_iff.1 hv
    rcases hw with hw | hw
    · obtain rfl := isNull_iff.1 hw
      exact ⟨fun _ => .null, fun _ => rfl⟩
    · obtain ⟨s, hs⟩ := Option.isSome_iff_exists.1 hw
      constructor
      · intro h
        obtain ⟨x, hx, hx'⟩ := sameKey_iff.1 h
        rw [atoms?_of_text? hs] at hx'
        cases hx.trans hx'.symm
      · intro h
        cases h with
        | null => cases hs
        | text left => cases left
        | row left => cases left
  · obtain ⟨s, hs⟩ := Option.isSome_iff_exists.1 hv
    have hkey : v.equal w = sameKey v w := by
      rcases isText_iff.1 hv with ⟨a, rfl⟩ | ⟨m, rfl⟩ <;> rfl
    rw [sameTree_text_iff hs, hkey, sameKey_iff, atoms?_of_text? hs]
    rcases hw with hw | hw
    · obtain rfl := isNull_iff.1 hw
      exact ⟨fun ⟨x, hx, hx'⟩ => (nomatch hx.trans hx'.symm), (nomatch ·)⟩
    · obtain ⟨a, ha⟩ := Option.isSome_iff_exists.1 hw
      rw [ha, atoms?_of_text? ha]
      simp [eq_comm]

theorem equalAll_iff {xs ys : List Value} (hx : ∀ x ∈ xs, x.isText = true)
    (hy : ∀ y ∈ ys, y.isText = true) : equalAll xs ys = true ↔ List.Forall₂ SameTree xs ys := by
  induction xs generalizing ys with
  | nil => cases ys <;> simp [equalAll]
  | cons x xs ih =>
    cases ys with
    | nil => simp [equalAll]
    | cons y ys =>
      rw [List.forall_mem_cons] at hx hy
      rw [equalAll, Bool.and_eq_true, List.forall₂_cons, ih hx.2 hy.2,
        equal_iff_sameTree (.inr hx.1) (.inr hy.1)]

end Value

namespace Config

/-- The settings that a record has values for. -/
def recordedSettings : List Setting :=
  [.packages, .locations, .mode, .database, .installedBy]

theorem recordEntries_eq (c : Config) :
    c.recordEntries = recordedSettings.map fun s => (.text s.name, c.recorded s) := rfl

theorem mem_recordEntries {c : Config} {e : Value × Value} :
    e ∈ c.recordEntries ↔ ∃ s ∈ recordedSettings, (.text s.name, c.recorded s) = e := by
  rw [recordEntries_eq, List.mem_map]

theorem isText_key (c : Config) : ∀ e ∈ c.recordEntries, e.1.isText = true := by
  intro e he
  obtain ⟨s, -, rfl⟩ := mem_recordEntries.1 he
  rfl

theorem distinct_recordEntries (c : Config) : Table.Distinct c.recordEntries := by
  rw [recordEntries_eq, Table.Distinct, List.pairwise_map]
  show recordedSettings.Pairwise fun a b => Value.sameKey (.text a.name) (.text b.name) = false
  decide

theorem Textual.plain {c : Config} (h : c.Textual) : c.record.Plain := by
  have hdatabase : c.database.Plain := by
    rcases h.database with hn | ht
    · rw [Value.isNull_iff.1 hn]
      exact .null
    · exact .text ht
  rw [record_eq]
  refine .dict c.isText_key c.distinct_recordEntries fun e he => ?_
  obtain ⟨s, -, rfl⟩ := mem_recordEntries.1 he
  cases s with
  | packages => exact Value.plain_of_texts h.packages
  | locations => exact Value.plain_of_texts h.locations
  | mode => exact .text rfl
  | database => exact hdatabase
  | installedBy => exact .text h.installedBy
  | enabled => exact .null
  | checkLocation => exact .null

theorem record_sameTree_iff {c d : Config} : Value.SameTree c.record d.record ↔
    ∀ s ∈ recordedSettings, Value.SameTree (c.recorded s) (d.recorded s) := by
  constructor
  · intro h s hs
    obtain ⟨gs, fs, hfs, hperm, hparts⟩ := h.of_dict
    obtain rfl := Value.dict.inj hfs
    obtain ⟨f, hf, hkey, htree⟩ := Canonical.forall₂_mem_left hparts
      (hperm.mem_iff.1 (mem_recordEntries.2 ⟨s, hs, rfl⟩))
    obtain ⟨s', -, rfl⟩ := mem_recordEntries.1 hf
    have hname : s.name = s'.name := Text.ofString_inj.1 (Option.some.inj hkey)
    have hsame : s = s' := by
      rw [← Option.some.injEq, ← Setting.ofName?_name, hname, Setting.ofName?_name]
    rw [hsame] at htree ⊢
    exact htree
  · intro h
    have hparts : List.Forall₂ Value.SameEntry
        (recordedSettings.map fun s => (.text s.name, c.recorded s))
        (recordedSettings.map fun s => (.text s.name, d.recorded s)) :=
      List.forall₂_map_left_iff.2 (List.forall₂_map_right_iff.2
        (List.forall₂_same.2 fun s hs => ⟨rfl, h s hs⟩))
    obtain ⟨hkeys, htrees⟩ := Value.forall₂_sameEntry_iff.1 hparts
    exact .dict (List.Perm.refl _) hkeys htrees

/-- Configurations are equal field by field. -/
theorem equal_eq (c d : Config) :
    c.equal d = (Value.equalAll c.packages d.packages &&
      (Value.equalAll c.locations d.locations && ((Value.mode c.mode).equal (.mode d.mode) &&
        (c.database.equal d.database && (c.installedBy.equal d.installedBy && true))))) := rfl

theorem equal_mode_iff {m n : TransactionMode} : (Value.mode m).equal (.mode n) = true ↔
    Value.SameTree (.text m.name) (.text n.name) := by
  rw [Value.equal_iff_sameTree (.inr rfl) (.inr rfl), Value.sameTree_text_iff rfl,
    Value.sameTree_text_iff rfl]
  rfl

/-- Configurations of texts are equal if their records are one tree. -/
theorem equal_iff_sameTree {c d : Config} (hc : c.Textual) (hd : d.Textual) :
    c.equal d = true ↔ Value.SameTree c.record d.record := by
  simp only [equal_eq, Bool.and_eq_true, Value.equalAll_iff hc.packages hd.packages,
    Value.equalAll_iff hc.locations hd.locations, equal_mode_iff,
    Value.equal_iff_sameTree hc.database hd.database,
    Value.equal_iff_sameTree (.inr hc.installedBy) (.inr hd.installedBy), record_sameTree_iff,
    recordedSettings, List.forall_mem_cons, recorded, Value.sameTree_list_iff, and_true,
    List.not_mem_nil, false_imp_iff, implies_true]

/-- A record's entries have one fingerprint in whatever order they come. -/
theorem fingerprint_perm {c : Config} {es : Entries} (h : es.Perm c.recordEntries) :
    (Value.dict es).fingerprint = c.fingerprint := by
  have hwrite : Canonical.write (.dict es) = Canonical.write c.record :=
    (Canonical.write_perm c.isText_key c.distinct_recordEntries h.symm).symm
  rw [Value.fingerprint, hwrite]
  rfl

/-- What is owed of the text of a configuration: it is that of its record, and the fingerprint is
its digest, or fails as writing it as bytes does. Where all texts of the configuration are whole,
it can be written. -/
structure HasText (c : Config) (t : Text) : Prop where
  record : Canonical.write c.record = .ok t
  fingerprint : c.fingerprint =
    ((Text.Utf8.encodeText t).mapError .unencodable).map Sha256.digest
  whole : c.IsWhole → ∃ bytes, Text.Utf8.encodeText t = .ok bytes ∧
    c.fingerprint = .ok (Sha256.digest bytes)

theorem exists_text {c : Config} (h : c.Textual) : ∃ t, c.HasText t := by
  obtain ⟨t, ht⟩ := writable_of_textual h
  have hf : c.fingerprint = _ := Value.fingerprint_of_write ht
  refine ⟨t, ht, hf, fun hwhole => ?_⟩
  obtain ⟨u, hu, hbytes⟩ := (hasBytes_of_textual h).2 hwhole
  obtain rfl := Except.ok.inj (ht.symm.trans hu)
  obtain ⟨bytes, hbytes⟩ := Text.Utf8.encodeText_ok_iff.2 hbytes
  exact ⟨bytes, hbytes, by rw [hf, hbytes]; rfl⟩

end Config

namespace Canonical
open Value (Plain SameTree)

/-- **A canonical text identifies what it is the text of.** A plain value has one unless a
number in it is too long. One tree has one text, and one text has one tree. The records of
configurations made of texts always have one, the fingerprint is its digest if it is whole, and
the texts are equal exactly if the configurations are, whatever letters they are made of. A record
has its fingerprint in whatever order its entries come. -/
theorem write_identifies {v w : Value} (hv : Plain v) (hw : Plain w) {c d : Config}
    (hc : c.Textual) (hd : d.Textual) :
    ((∃ t, write v = .ok t) ↔ v.hasLong = false) ∧
    (SameTree v w → write v = write w) ∧
    (∀ t, write v = .ok t → write w = .ok t → SameTree v w) ∧
    (∃ t u, c.HasText t ∧ d.HasText u ∧ (t = u ↔ c.equal d = true)) ∧
    ∀ es, es.Perm c.recordEntries → (Value.dict es).fingerprint = c.fingerprint := by
  obtain ⟨t, ht⟩ := Config.exists_text hc
  obtain ⟨u, hu⟩ := Config.exists_text hd
  have htexts : t = u ↔ c.equal d = true := by
    rw [Config.equal_iff_sameTree hc hd]
    constructor
    · rintro rfl
      exact sameTree_of_write ⟨hc.plain, ht.record⟩ ⟨hd.plain, hu.record⟩
    · intro h
      exact Except.ok.inj (ht.record.symm.trans ((write_eq hc.plain h).trans hu.record))
  exact ⟨write_ok_iff hv, write_eq hv, fun t hvt hwt => sameTree_of_write ⟨hv, hvt⟩ ⟨hw, hwt⟩,
    ⟨t, u, ht, hu, htexts⟩, fun es => Config.fingerprint_perm⟩

/-- A dict and one with its entries the other way round have one text. Two locations are
told apart from one that looks like both. -/
theorem write_identifies_quoted :
    let v : Value := .dict [(.text "b", .list [.bool true, .null]), (.text "a", .int 1)]
    let w : Value := .dict [(.text "a", .int 1), (.text "b", .tuple [.bool true, .null])]
    let one : Config := ⟨[], [.text "x\",\"y"], .perMigration, .null, .text "deploy"⟩
    let two : Config := ⟨[], [.text "x", .text "y"], .perMigration, .null, .text "deploy"⟩
    Plain v ∧ Plain w ∧ one.Textual ∧ two.Textual ∧ SameTree v w ∧ write v = write w ∧
      ∃ t u, write one.record = .ok t ∧ write two.record = .ok u ∧ t ≠ u := by
  intro v w one two
  have hrow {x : Value} (h : x.row? = some [.bool true, .null]) : Plain x :=
    .row h (List.forall_mem_cons.2 ⟨.bool true, List.forall_mem_singleton.2 .null⟩)
  have hv : Plain v := .dict (List.forall_mem_cons.2 ⟨rfl, List.forall_mem_singleton.2 rfl⟩)
    (List.pairwise_pair.2 rfl)
    (List.forall_mem_cons.2 ⟨hrow rfl, List.forall_mem_singleton.2 (.int 1)⟩)
  have hw : Plain w := .dict (List.forall_mem_cons.2 ⟨rfl, List.forall_mem_singleton.2 rfl⟩)
    (List.pairwise_pair.2 rfl)
    (List.forall_mem_cons.2 ⟨.int 1, List.forall_mem_singleton.2 (hrow rfl)⟩)
  have hone : one.Textual :=
    ⟨List.forall_mem_nil _, List.forall_mem_singleton.2 rfl, .inl rfl, rfl⟩
  have htwo : two.Textual :=
    ⟨List.forall_mem_nil _, List.forall_mem_cons.2 ⟨rfl, List.forall_mem_singleton.2 rfl⟩,
      .inl rfl, rfl⟩
  have htree : SameTree v w := .dict (List.Perm.swap _ _ _) rfl
    (.cons (.int 1) (.cons (.row rfl rfl (.cons (.bool true) (.cons .null .nil))) .nil))
  obtain ⟨-, heq, -, ⟨t, u, ht, hu, hsame⟩, -⟩ := write_identifies hv hw hone htwo
  have hne : one.equal two = false := by decide
  refine ⟨hv, hw, hone, htwo, htree, heq htree, t, u, ht.record, hu.record, fun h => ?_⟩
  rw [hsame.1 h] at hne
  cases hne

end Canonical
end MigrationSetup
