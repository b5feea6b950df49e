import MigrationSetup.Proofs.Grammar
import MigrationSetup.Proofs.Identifying
import MigrationSetup.Proofs.Visiting

/-! Settings in another order.

Two dicts are equal if they hold equal values under the same keys, in whatever order
(`Value.SameEntries`). Equal values are read alike (`Value.Like`): the same text, rows of the
same texts, or something that is neither. So equal dicts bind alike
(`Settings.ofValue_reordered`), but for what equality does not tell: which of several spellings
of a setting comes last, where they do not all mean the same; whether yes is meant where the
number one is written; and which of several strange keys comes first, where one of them is too
long to be shown. -/
namespace MigrationSetup
namespace Value

/-- Values that are read alike: both nothing, one text, rows of the same texts with whatever
else between them, or none of these. -/
inductive Like : Value → Value → Prop
  | null : Like .null .null
  | text {v w : Value} {t : Text} (left : v.text? = some t) (right : w.text? = some t) : Like v w
  | row {v w : Value} {xs ys : List Value} (left : v.row? = some xs) (right : w.row? = some ys)
    (texts : xs.map text? = ys.map text?) : Like v w
  | other {v w : Value} (left : v.isNull = false ∧ v.text? = none ∧ v.row? = none)
    (right : w.isNull = false ∧ w.text? = none ∧ w.row? = none) : Like v w

/-- One value, or two that are held to be one. A value that is no number or that holds itself
may not even be held to be one with itself. -/
def Same (eq : Value → Value → Bool) (v w : Value) : Prop := v = w ∨ eq v w = true

/-- Entries under the same keys with equal values, in any order. -/
structure SameEntries (es fs : Entries) : Prop where
  left : ∀ e ∈ es, ∃ f ∈ fs, Same sameKey e.1 f.1 ∧ Same equal e.2 f.2
  right : ∀ f ∈ fs, ∃ e ∈ es, Same sameKey e.1 f.1 ∧ Same equal e.2 f.2

variable {v w : Value} {xs ys : List Value} {es fs : Entries}

/-! ### Equal values are read alike -/

/-- What the first atom of a key shows. -/
def Heads (v : Value) : Atom → Prop
  | .null => v = .null
  | .text t => v.text? = some t
  | .tuple _ => v.row?.isSome = true
  | _ => v.isNull = false ∧ v.text? = none ∧ v.row? = none

theorem exists_heads {as : List Atom} (h : v.atoms? = some as) :
    ∃ a rest, as = a :: rest ∧ v.Heads a := by
  cases v with
  | float x =>
    cases x with
    | nan => cases h
    | infinite => cases h; exact ⟨_, _, rfl, rfl, rfl, rfl⟩
    | finite =>
      obtain ⟨n, -, rfl⟩ := Option.map_eq_some_iff.1 (by simpa [atoms?, floatAtom?] using h)
      exact ⟨_, _, rfl, rfl, rfl, rfl⟩
  | moment =>
    cases h
    refine ⟨_, _, rfl, ?_⟩
    split <;> exact ⟨rfl, rfl, rfl⟩
  | tuple xs =>
    obtain ⟨rest, -, rfl⟩ := Option.map_eq_some_iff.1 h
    exact ⟨_, _, rfl, rfl⟩
  | null => cases h; exact ⟨_, _, rfl, rfl⟩
  | text => cases h; exact ⟨_, _, rfl, rfl⟩
  | mode => cases h; exact ⟨_, _, rfl, rfl⟩
  | list => cases h
  | dict => cases h
  | set => cases h
  | loop => cases h
  | _ => cases h; exact ⟨_, _, rfl, rfl, rfl, rfl⟩

/-- One key in two spellings is read alike. -/
theorem like_of_sameKey (h : sameKey v w = true) (hv : v.row? = none) : Like v w := by
  obtain ⟨as, hvs, hws⟩ := sameKey_iff.1 h
  obtain ⟨a, rest, rfl, hva⟩ := exists_heads hvs
  obtain ⟨_, _, heq, hwa⟩ := exists_heads hws
  cases heq
  cases a with
  | null => rw [show v = .null from hva, show w = .null from hwa]; exact .null
  | text => exact .text hva hwa
  | tuple => rw [Heads, hv] at hva; cases hva
  | _ => exact .other hva hwa

/-- Equal values are one key, or rows of equal values, or dicts or sets. -/
theorem equal_cases (h : v.equal w = true) :
    (sameKey v w = true ∧ v.row? = none) ∨
    (∃ xs ys, v.row? = some xs ∧ w.row? = some ys ∧ equalAll xs ys = true) ∨
    ((v.isNull = false ∧ v.text? = none ∧ v.row? = none) ∧
      w.isNull = false ∧ w.text? = none ∧ w.row? = none) := by
  cases v with
  | list xs =>
    cases w with
    | list ys => exact .inr (.inl ⟨xs, ys, rfl, rfl, by simpa only [equal] using h⟩)
    | _ => simp [equal] at h
  | tuple xs =>
    cases w with
    | tuple ys => exact .inr (.inl ⟨xs, ys, rfl, rfl, by simpa only [equal] using h⟩)
    | _ => simp [equal] at h
  | dict es =>
    cases w with
    | dict fs => exact .inr (.inr ⟨⟨rfl, rfl, rfl⟩, rfl, rfl, rfl⟩)
    | _ => simp [equal] at h
  | set xs =>
    cases w with
    | set ys => exact .inr (.inr ⟨⟨rfl, rfl, rfl⟩, rfl, rfl, rfl⟩)
    | _ => simp [equal] at h
  | loop => simp [equal] at h
  | _ => exact .inl ⟨by simpa only [equal] using h, rfl⟩

theorem text?_of_row (h : v.row? = some xs) : v.text? = none := by
  rcases row?_iff.1 h with rfl | rfl <;> rfl

theorem Like.text?_eq (h : Like v w) : v.text? = w.text? := by
  cases h with
  | null => rfl
  | text left right => rw [left, right]
  | row left right => rw [text?_of_row left, text?_of_row right]
  | other left right => rw [left.2.1, right.2.1]

theorem text?_of_equal (h : v.equal w = true) : v.text? = w.text? := by
  rcases equal_cases h with ⟨hkey, hv⟩ | ⟨xs, ys, hv, hw, -⟩ | ⟨hv, hw⟩
  · exact (like_of_sameKey hkey hv).text?_eq
  · rw [text?_of_row hv, text?_of_row hw]
  · rw [hv.2.1, hw.2.1]

theorem texts_of_equalAll (h : equalAll xs ys = true) : xs.map text? = ys.map text? := by
  induction xs generalizing ys with
  | nil =>
    cases ys with
    | nil => rfl
    | cons => simp [equalAll] at h
  | cons x xs ih =>
    cases ys with
    | nil => simp [equalAll] at h
    | cons y ys =>
      obtain ⟨hxy, h⟩ := Bool.and_eq_true_iff.1 (by simpa only [equalAll] using h)
      rw [List.map_cons, List.map_cons, text?_of_equal hxy, ih h]

theorem Like.refl (v : Value) : Like v v := by
  cases htext : v.text? with
  | some t => exact .text htext htext
  | none =>
    cases hrow : v.row? with
    | some xs => exact .row hrow hrow rfl
    | none =>
      cases v with
      | null => exact .null
      | _ => exact .other ⟨rfl, htext, hrow⟩ ⟨rfl, htext, hrow⟩

theorem like_of_equal (h : v.equal w = true) : Like v w := by
  rcases equal_cases h with ⟨hkey, hv⟩ | ⟨xs, ys, hv, hw, h⟩ | ⟨hv, hw⟩
  · exact like_of_sameKey hkey hv
  · exact .row hv hw (texts_of_equalAll h)
  · exact .other hv hw

theorem like_of_same (h : Same equal v w) : Like v w := by
  rcases h with rfl | h
  · exact .refl v
  · exact like_of_equal h

theorem intAtom_injective {m n : Int} (h : intAtom m = intAtom n) : m = n := by
  have hunits (k : Nat) : Int.pow 2 k ≠ 0 := by
    induction k with
    | zero => decide
    | succ k ih => exact Int.mul_ne_zero ih (by decide : (2 : Int) ≠ 0)
  exact Int.eq_of_mul_eq_mul_right (hunits 1074) (Atom.number.inj h)

/-- Equal truth values are one. -/
theorem bool_of_same {a b : Bool} (h : Same equal (.bool a) (.bool b)) : a = b := by
  rcases h with h | h
  · exact Value.bool.inj h
  · rw [equal] at h
    obtain ⟨as, ha, hb⟩ := sameKey_iff.1 h
    have hatoms := intAtom_injective (List.head_eq_of_cons_eq (Option.some.inj (ha.trans hb.symm)))
    cases a with
    | false =>
      cases b with
      | false => rfl
      | true => cases hatoms
    | true =>
      cases b with
      | false => cases hatoms
      | true => rfl

namespace Like

theorem symm (h : Like v w) : Like w v := by
  cases h with
  | null => exact .null
  | text left right => exact .text right left
  | row left right texts => exact .row right left texts.symm
  | other left right => exact .other right left

theorem of_null (h : Like .null w) : w = .null := by
  cases h with
  | null => rfl
  | text left => cases left
  | row left => cases left
  | other left => cases left.1

theorem of_text {t : Text} (h : Like v w) (hv : v.text? = some t) : w.text? = some t := by
  cases h with
  | null => cases hv
  | text left right => rw [right, ← left, hv]
  | row left => cases left.symm.trans (row?_of_isText (isText_of_text? hv))
  | other left => cases hv.symm.trans left.2.1

theorem of_row (h : Like v w) (hv : v.row? = some xs) :
    ∃ ys, w.row? = some ys ∧ xs.map text? = ys.map text? := by
  cases h with
  | null => cases hv
  | text left => cases hv.symm.trans (row?_of_isText (isText_of_text? left))
  | row left right texts =>
    cases left.symm.trans hv
    exact ⟨_, right, texts⟩
  | other left => cases hv.symm.trans left.2.2

/-- Only what is nothing or a text is like what is. -/
theorem textual (h : Like v w) (hv : v = .null ∨ v.isText = true) :
    w = .null ∨ w.isText = true := by
  rcases hv with rfl | hv
  · exact .inl h.of_null
  · obtain ⟨t, ht⟩ := Option.isSome_iff_exists.1 hv
    exact .inr (isText_of_text? (h.of_text ht))

end Like

/-- Equal texts are equal however they are held. -/
theorem equal_of_text? (hv : v.isNull = true ∨ v.isText = true)
    (hw : w.isNull = true ∨ w.isText = true) (h : v.text? = w.text?) : v.equal w = true := by
  rw [equal_iff_sameTree hv hw]
  rw [isNull_iff] at hv hw
  rcases hv with rfl | hv
  · rcases hw with rfl | hw
    · exact .null
    · obtain ⟨t, ht⟩ := Option.isSome_iff_exists.1 hw
      cases h.trans ht
  · obtain ⟨t, ht⟩ := Option.isSome_iff_exists.1 hv
    exact .text ht (h.symm.trans ht)

/-- Both are the same truth value, or neither is one. -/
def SameSwitch (v w : Value) : Prop := ∀ b, v = .bool b ↔ w = .bool b

theorem sameSwitch_of_same (h : Same equal v w) (hbool : v.isBool = w.isBool) :
    SameSwitch v w := by
  intro b
  constructor
  · rintro rfl
    cases w with
    | bool c => rw [bool_of_same h]
    | _ => cases hbool
  · rintro rfl
    cases v with
    | bool c => rw [bool_of_same h]
    | _ => cases hbool

/-! ### Equal dicts have the same entries -/

theorem equalUnder_iff : equalUnder es fs = true ↔
    ∀ e ∈ es, ∃ w, Table.get? e.1 fs = some w ∧ e.2.equal w = true := by
  induction es with
  | nil => simp [equalUnder]
  | cons e es ih =>
    obtain ⟨k, v⟩ := e
    rw [equalUnder, Bool.and_eq_true, ih, List.forall_mem_cons]
    cases Table.get? k fs <;> simp

/-- Where as many entries are looked up under different keys as there are, each is found. -/
theorem exists_of_lookups (hes : Table.Distinct es) (hlength : es.length = fs.length)
    (h : ∀ e ∈ es, ∃ w, Table.get? e.1 fs = some w ∧ e.2.equal w = true) :
    ∀ f ∈ fs, ∃ e ∈ es, sameKey e.1 f.1 = true ∧ e.2.equal f.2 = true := by
  induction es generalizing fs with
  | nil =>
    rw [List.length_eq_zero_iff.1 hlength.symm]
    exact List.forall_mem_nil _
  | cons e es ih =>
    obtain ⟨w, hw, hequal⟩ := h e List.mem_cons_self
    obtain ⟨l, hl, hkey⟩ := Table.mem_of_get? hw
    obtain ⟨before, after, rfl⟩ := List.append_of_mem hl
    -- the others are looked up among the rest
    have hrest : ∀ e' ∈ es, ∃ w, Table.get? e'.1 (before ++ after) = some w ∧
        e'.2.equal w = true := by
      intro e' he'
      have hother : sameKey l e'.1 = false := by
        rw [← Bool.not_eq_true]
        intro hs
        have hne := (List.pairwise_cons.1 hes).1 e' he'
        rw [sameKey_trans ((sameKey_comm e.1 l).trans hkey) hs] at hne
        cases hne
      obtain ⟨w', hw', hequal'⟩ := h e' (List.mem_cons_of_mem _ he')
      refine ⟨w', ?_, hequal'⟩
      rw [← hw', Table.get?_append, Table.get?_append, Table.get?, hother]
      rfl
    have hlength' : es.length = (before ++ after).length := by
      simp only [List.length_cons, List.length_append] at hlength ⊢
      omega
    intro f hf
    have hf' : f = (l, w) ∨ f ∈ before ++ after := by
      simpa [or_left_comm] using hf
    rcases hf' with rfl | hf'
    · exact ⟨e, List.mem_cons_self, (sameKey_comm e.1 l).trans hkey, hequal⟩
    · obtain ⟨e', he', hsame⟩ := ih hes.tail hlength' hrest f hf'
      exact ⟨e', List.mem_cons_of_mem _ he', hsame⟩

theorem SameEntries.refl (es : Entries) : SameEntries es es where
  left := fun e he => ⟨e, he, .inl rfl, .inl rfl⟩
  right := fun e he => ⟨e, he, .inl rfl, .inl rfl⟩

/-- A dict is equal to dicts with the same entries. -/
theorem exists_sameEntries (hes : Table.Distinct es) (h : Same equal (.dict es) w) :
    ∃ fs, w = .dict fs ∧ SameEntries es fs := by
  rcases h with rfl | h
  · exact ⟨es, rfl, .refl es⟩
  · cases w with
    | dict fs =>
      rw [equal, Bool.and_eq_true, equalUnder_iff] at h
      obtain ⟨hlength, h⟩ := h
      refine ⟨fs, rfl, fun e he => ?_, fun f hf => ?_⟩
      · obtain ⟨w, hw, hequal⟩ := h e he
        obtain ⟨l, hl, hkey⟩ := Table.mem_of_get? hw
        exact ⟨_, hl, .inr ((sameKey_comm e.1 l).trans hkey), .inr hequal⟩
      · obtain ⟨e, he, hkey, hequal⟩ := exists_of_lookups hes (eq_of_beq hlength) h f hf
        exact ⟨e, he, .inr hkey, .inr hequal⟩
    | _ => simp [equal] at h

/-- Only dicts are equal to a dict. -/
theorem exists_dict_of_same (h : Same equal v (.dict fs)) : ∃ es, v = .dict es := by
  rcases h with rfl | h
  · exact ⟨fs, rfl⟩
  · cases v with
    | dict es => exact ⟨es, rfl⟩
    | _ => simp [equal, sameKey, atoms?] at h

/-- Where one of two spellings of a key is, the other is. -/
theorem sameKey_of_same {k l : Value} (h : Same sameKey k l) (n : Value) :
    sameKey k n = sameKey l n := by
  rcases h with rfl | h
  · rfl
  · rw [Bool.eq_iff_iff]
    exact ⟨sameKey_trans ((sameKey_comm l k).trans h), sameKey_trans h⟩

/-- Lookups in the same entries give equal values. -/
theorem get?_of_sameEntries (hes : Table.Distinct es) (h : SameEntries es fs) (k : Value) :
    Option.Rel (Same equal) (Table.get? k es) (Table.get? k fs) := by
  cases hw : Table.get? k fs with
  | none =>
    cases hv : Table.get? k es with
    | none => exact .none
    | some v =>
      obtain ⟨l, hl, hkey⟩ := Table.mem_of_get? hv
      obtain ⟨f, hf, hsame, -⟩ := h.left _ hl
      have hne := Table.get?_eq_none_iff.1 hw f hf
      cases hkey.symm.trans ((sameKey_of_same hsame k).trans hne)
  | some w =>
    obtain ⟨l, hl, hkey⟩ := Table.mem_of_get? hw
    obtain ⟨e, he, hsame, hequal⟩ := h.right _ hl
    have hek : sameKey e.1 k = true := (sameKey_of_same hsame k).trans hkey
    have hself : sameKey e.1 e.1 = true := sameKey_trans hek ((sameKey_comm k e.1).trans hek)
    rw [← Table.get?_congr hek, hes.get?_of_mem he hself]
    exact .some hequal

end Value

/-- A part that spells out its text, which may be held as a mode. -/
def Part.plain : Part → Part
  | .text v => .text (Value.orNull (v.text?.map .text))
  | p => p

/-- What a setting makes of a value, however that holds its text. -/
def Setting.makes (s : Setting) (v : Value) : Option Part := (s.seen v).map Part.plain

theorem Setting.makes_eq_some_iff {s : Setting} {v : Value} {p : Part} :
    s.makes v = some p ↔ ∃ q, s.Takes v q ∧ q.plain = p := by
  simp only [makes, Option.map_eq_some_iff, seen_eq_some_iff, read_eq_ok_iff]

namespace Settings
variable {es fs : Entries} {s : Setting} {v w : Value}

/-! ### What is made of values -/

theorem scanList_like {o : Option (List Value)} (h : v.Like w) (hv : ScanList v o) :
    ScanList w o := by
  cases hv with
  | unset => rw [h.of_null]; exact .unset
  | items written =>
    cases written with
    | text isText cut => exact .items (.text (h.of_text isText) cut)
    | row isRow texts =>
      obtain ⟨ys, hys, htexts⟩ := h.of_row isRow
      exact .items (.row hys (htexts.symm.trans texts))

theorem mode_some_iff {m : TransactionMode} :
    Mode v (some m) ↔ ∃ t, v.text? = some t ∧ TransactionMode.ofText? t = some m := by
  constructor
  · intro h
    cases h with
    | given => exact ⟨_, rfl, TransactionMode.ofText?_name m⟩
    | named name => exact ⟨_, rfl, TransactionMode.ofText?_eq_some_iff.2 name⟩
  · rintro ⟨t, ht, hm⟩
    cases v with
    | text => cases ht; exact .named (TransactionMode.ofText?_eq_some_iff.1 hm)
    | mode n =>
      cases ht
      rw [TransactionMode.ofText?_name] at hm
      cases hm
      exact .given m
    | _ => cases ht

theorem mode_like {o : Option TransactionMode} (h : v.Like w) (hv : Mode v o) : Mode w o := by
  cases o with
  | none =>
    cases hv
    rw [h.of_null]
    exact .unset
  | some m =>
    obtain ⟨t, ht, hm⟩ := mode_some_iff.1 hv
    exact mode_some_iff.2 ⟨t, h.of_text ht, hm⟩

theorem switch_like {b : Bool} (h : v.Like w) (hb : v.SameSwitch w) (hv : Switch v b) :
    Switch w b := by
  cases hv with
  | unset => rw [h.of_null]; exact .unset
  | given => rw [(hb b).1 rfl]; exact .given b
  | named isText name => exact .named (h.of_text isText) name

/-- A setting that takes a value takes what is alike, for the same. -/
theorem takes_like {p : Part} (h : v.Like w)
    (hb : s = .enabled ∨ s = .checkLocation → v.SameSwitch w) (hv : s.Takes v p) :
    ∃ q, s.Takes w q ∧ q.plain = p.plain := by
  have htext (ht : (v = .null ∨ v.isText = true) ∧ p = .text v) :
      ∃ q : Part, ((w = .null ∨ w.isText = true) ∧ q = .text w) ∧ q.plain = p.plain := by
    obtain ⟨htextual, rfl⟩ := ht
    refine ⟨.text w, ⟨h.textual htextual, rfl⟩, ?_⟩
    rw [Part.plain, Part.plain, h.text?_eq]
  cases s with
  | packages => obtain ⟨o, ho, rfl⟩ := hv; exact ⟨_, ⟨o, scanList_like h ho, rfl⟩, rfl⟩
  | locations => obtain ⟨o, ho, rfl⟩ := hv; exact ⟨_, ⟨o, scanList_like h ho, rfl⟩, rfl⟩
  | mode => obtain ⟨o, ho, rfl⟩ := hv; exact ⟨_, ⟨o, mode_like h ho, rfl⟩, rfl⟩
  | database => exact htext hv
  | installedBy => exact htext hv
  | enabled =>
    obtain ⟨b, hv, rfl⟩ := hv
    exact ⟨_, ⟨b, switch_like h (hb (.inl rfl)) hv, rfl⟩, rfl⟩
  | checkLocation =>
    obtain ⟨b, hv, rfl⟩ := hv
    exact ⟨_, ⟨b, switch_like h (hb (.inr rfl)) hv, rfl⟩, rfl⟩

/-- A setting makes the same of values that are alike. -/
theorem makes_like (h : v.Like w) (hb : s = .enabled ∨ s = .checkLocation → v.SameSwitch w) :
    s.makes v = s.makes w := by
  have hof {v w : Value} (h : v.Like w)
      (hb : s = .enabled ∨ s = .checkLocation → v.SameSwitch w) {p : Part}
      (hp : s.makes v = some p) : s.makes w = some p := by
    obtain ⟨q, hq, rfl⟩ := Setting.makes_eq_some_iff.1 hp
    exact Setting.makes_eq_some_iff.2 (takes_like h hb hq)
  exact Option.ext fun p => ⟨hof h hb, hof h.symm fun hs b => (hb hs b).symm⟩

/-! ### What entries hold -/

theorem names_iff_of_same {k l : Value} (h : Value.Same Value.sameKey k l) :
    k.Names s ↔ l.Names s := by
  have hnames {k l : Value} (h : Value.sameKey k l = true) (hl : l.Names s) : k.Names s := by
    rw [← Setting.ofKey?_eq_some_iff] at hl ⊢
    rw [Value.eq_of_sameKey h hl, hl]
  rcases h with rfl | h
  · rfl
  · exact ⟨hnames ((Value.sameKey_comm l k).trans h), hnames h⟩

/-- A setting makes the same of all values that are given for it, in whatever spelling. -/
def OneMeaning (es : Entries) : Prop :=
  ∀ s, ∀ e ∈ es, ∀ f ∈ es, e.1.Names s → f.1.Names s → s.makes e.2 = s.makes f.2

/-- No switch is given a truth value in one place and a number in the other. -/
def SameSwitches (es fs : Entries) : Prop :=
  ∀ e ∈ es, ∀ f ∈ fs, Value.Same Value.sameKey e.1 f.1 →
    e.1.Names .enabled ∨ e.1.Names .checkLocation → e.2.isBool = f.2.isBool

/-- Where entries are the same a setting makes the same of what comes last. -/
theorem makes_of_last (h : Value.SameEntries es fs) (hone : OneMeaning es)
    (hswitch : SameSwitches es fs) (hv : Last s es v) (hw : Last s fs w) :
    s.makes v = s.makes w := by
  cases hw with
  | unset unnamed =>
    cases hv with
    | unset => rfl
    | given entry named =>
      obtain ⟨f, hf, hsame, -⟩ := h.left _ (entry ▸ List.mem_append_cons_self)
      exact absurd ((names_iff_of_same hsame).1 named) (unnamed f hf)
  | given entry named =>
    have hf := entry ▸ List.mem_append_cons_self
    obtain ⟨e, he, hsame, hequal⟩ := h.right _ hf
    have hnamed := (names_iff_of_same hsame).2 named
    cases hv with
    | unset unnamed => exact absurd hnamed (unnamed e he)
    | given entry' named' =>
      have hmem := entry' ▸ List.mem_append_cons_self
      have hmakes : s.makes v = s.makes e.2 := hone s _ hmem e he named' hnamed
      rw [hmakes]
      refine makes_like (Value.like_of_same hequal) fun hs => ?_
      refine Value.sameSwitch_of_same hequal (hswitch e he _ hf hsame ?_)
      rcases hs with rfl | rfl
      · exact .inl hnamed
      · exact .inr hnamed

/-- Entries of which all settings make the same. -/
structure ReadAlike (es fs : Entries) : Prop where
  named : (∀ e ∈ es, ∃ s, e.1.Names s) ↔ ∀ f ∈ fs, ∃ s, f.1.Names s
  makes : ∀ {s v w}, Last s es v → Last s fs w → s.makes v = s.makes w

theorem ReadAlike.symm (h : ReadAlike es fs) : ReadAlike fs es where
  named := h.named.symm
  makes := fun hv hw => (h.makes hw hv).symm

theorem readAlike_of_sameEntries (h : Value.SameEntries es fs) (hone : OneMeaning es)
    (hswitch : SameSwitches es fs) : ReadAlike es fs where
  named := by
    constructor
    · intro hnamed f hf
      obtain ⟨e, he, hsame, -⟩ := h.right f hf
      obtain ⟨s, hs⟩ := hnamed e he
      exact ⟨s, (names_iff_of_same hsame).1 hs⟩
    · intro hnamed e he
      obtain ⟨f, hf, hsame, -⟩ := h.left e he
      obtain ⟨s, hs⟩ := hnamed f hf
      exact ⟨s, (names_iff_of_same hsame).2 hs⟩
  makes := makes_of_last h hone hswitch

/-! ### What comes out -/

/-- Settings that are equal field by field. -/
structure SameFields (l m : Settings) : Prop where
  enabled : l.enabled = m.enabled
  checkLocation : l.checkLocation = m.checkLocation
  options : l.options.equal m.options = true

theorem equal_texts {o : Option (List Value)} (h : ∀ xs, o = some xs → ∀ x ∈ xs, x.isText = true) :
    (Value.orNull (o.map .tuple)).equal (Value.orNull (o.map .tuple)) = true := by
  cases o with
  | none => rfl
  | some xs =>
    have htexts := h xs rfl
    show Value.equalAll xs xs = true
    refine (Value.equalAll_iff htexts htexts).2 (List.forall₂_same.2 fun x hx => ?_)
    obtain ⟨t, ht⟩ := Option.isSome_iff_exists.1 (htexts x hx)
    exact .text ht ht

theorem sameFields_of_parts {l m : Settings} (hl : Textual l.options) (hm : Textual m.options)
    (h : ∀ s, (l.part s).plain = (m.part s).plain) : l.SameFields m where
  enabled := Part.switch.inj (h .enabled)
  checkLocation := Part.switch.inj (h .checkLocation)
  options := by
    have hmode (o : Option TransactionMode) :
        (Value.orNull (o.map .mode)).equal (Value.orNull (o.map .mode)) = true := by
      cases o with
      | none => rfl
      | some mode => cases mode <;> rfl
    have htext {v w : Value} (h : (Part.text v).plain = (Part.text w).plain) :
        v.text? = w.text? := by
      have hheld (v : Value) : (Value.orNull (v.text?.map .text)).text? = v.text? := by
        cases v.text? <;> rfl
      rw [← hheld v, Part.text.inj h, hheld]
    simp only [Options.equal, Options.fields, Value.equal, Value.equalAll, Bool.and_eq_true,
      and_true, ← Part.items.inj (h .packages), ← Part.items.inj (h .locations),
      ← Part.mode.inj (h .mode)]
    exact ⟨equal_texts hl.packages, equal_texts hl.locations, hmode _,
      Value.equal_of_text? hl.database hm.database (htext (h .database)),
      Value.equal_of_text? hl.installedBy hm.installedBy (htext (h .installedBy))⟩

theorem ReadAlike.bound (h : ReadAlike es fs) {l : Settings} (hl : ofEntries es = .ok l) :
    ∃ m, ofEntries fs = .ok m ∧ l.SameFields m := by
  obtain ⟨hnamed, htakes⟩ := ofEntries_grammar.1 hl
  have hmakes (s : Setting) (w : Value) (hw : Last s fs w) :
      ∃ q, s.Takes w q ∧ q.plain = (l.part s).plain := by
    have hv : Last s es (lastOf s .null es) := lastOf_iff.1 rfl
    rw [← Setting.makes_eq_some_iff, ← h.makes hv hw]
    exact Setting.makes_eq_some_iff.2 ⟨_, htakes s _ hv, rfl⟩
  have hbinds : ∀ s w, Last s fs w → ∃ q, s.Takes w q := by
    intro s w hw
    obtain ⟨q, hq, -⟩ := hmakes s w hw
    exact ⟨q, hq⟩
  obtain ⟨m, hm⟩ := ofEntries_binds_iff.2 ⟨h.named.1 hnamed, hbinds⟩
  have htextual := (ofEntries_eq_ok.1 hl).2.textual
  refine ⟨m, hm, sameFields_of_parts htextual (ofEntries_eq_ok.1 hm).2.textual fun s => ?_⟩
  have hw : Last s fs (lastOf s .null fs) := lastOf_iff.1 rfl
  obtain ⟨q, hq, hplain⟩ := hmakes s _ hw
  have hpart := Setting.read_eq_ok_iff.2 ((ofEntries_grammar.1 hm).2 s _ hw)
  rw [Setting.read_eq_ok_iff.2 hq] at hpart
  rw [← hplain, Except.ok.inj hpart]

/-! ### Dicts -/

theorem not_section {root : Entries} (h : Table.get? (.text sectionKey) root = some v)
    (hnull : v ≠ .null) (hdict : ¬∃ es, v = .dict es) : ∀ es, ¬Section (.dict root) es := by
  intro es hes
  cases hes with
  | bare absent => cases h.symm.trans absent
  | empty nothing => exact hnull (Option.some.inj (h.symm.trans nothing))
  | own held => exact hdict ⟨_, Option.some.inj (h.symm.trans held)⟩

/-- Dicts with the same entries have their settings in the same place, or none has any. -/
theorem sections_of_sameEntries {root other : Entries} (hroot : Value.Keyed (.dict root))
    (h : Value.SameEntries root other) :
    (∃ es fs, Section (.dict root) es ∧ Section (.dict other) fs ∧ Value.SameEntries es fs) ∨
      (∀ es, ¬Section (.dict root) es) ∧ ∀ fs, ¬Section (.dict other) fs := by
  have hlookup := Value.get?_of_sameEntries hroot.distinct h (.text sectionKey)
  cases hv : Table.get? (.text sectionKey) root with
  | none =>
    cases hw : Table.get? (.text sectionKey) other with
    | none => exact .inl ⟨_, _, .bare hv, .bare hw, h⟩
    | some w => rw [hv, hw] at hlookup; cases hlookup
  | some v =>
    cases hw : Table.get? (.text sectionKey) other with
    | none => rw [hv, hw] at hlookup; cases hlookup
    | some w =>
      rw [hv, hw] at hlookup
      cases hlookup with
      | some hsame =>
        by_cases hnull : v = .null
        · subst hnull
          rw [(Value.like_of_same hsame).of_null] at hw
          exact .inl ⟨_, _, .empty hv, .empty hw, .refl _⟩
        · by_cases hdict : ∃ a, v = .dict a
          · obtain ⟨a, rfl⟩ := hdict
            obtain ⟨b, rfl, hab⟩ := Value.exists_sameEntries (hroot.of_get? hv).distinct hsame
            exact .inl ⟨_, _, .own hv, .own hw, hab⟩
          · refine .inr ⟨not_section hv hnull hdict, not_section hw ?_ ?_⟩
            · rintro rfl
              exact hnull (Value.like_of_same hsame).symm.of_null
            · rintro ⟨b, rfl⟩
              exact hdict (Value.exists_dict_of_same hsame)

/-- No message about the settings of a value would have to show too long a number. -/
def Showable (x : Value) : Prop := ∀ es, Section x es → ¬Unshowable es

/-- What a value without a section is refused for, and one that has one. -/
theorem fault_of_section {x : Value} {e : SettingError} (h : ofValue x = .error e) :
    (∀ es, ¬Section x es) ∧ e.fault = .invalidRoot ∨
      (∃ es, Section x es) ∧ e.fault ≠ .invalidRoot ∧
        (Showable x → e.fault = .invalidSetting) := by
  rcases bind_eq_error.1 h with hroot | ⟨es, hes, hentries⟩
  · refine .inl ⟨fun es hes => ?_, sectionOf_fault hroot⟩
    cases hroot.symm.trans (sectionOf_eq_ok_iff.2 hes)
  · have hsection := sectionOf_eq_ok_iff.1 hes
    rcases ofEntries_fault hentries with ⟨hlong, hfault⟩ | ⟨-, hfault⟩
    · exact .inr ⟨⟨es, hsection⟩, by simp [hfault], fun hshow => absurd hlong (hshow es hsection)⟩
    · exact .inr ⟨⟨es, hsection⟩, by simp [hfault], fun _ => hfault⟩

theorem exists_error_of_no_section {x : Value} (h : ∀ es, ¬Section x es) :
    ∃ e, ofValue x = .error e ∧ e.fault = .invalidRoot := by
  cases hx : ofValue x with
  | ok l =>
    obtain ⟨es, hes, -⟩ := bind_eq_ok.1 hx
    exact absurd (sectionOf_eq_ok_iff.1 hes) (h es)
  | error e =>
    rcases fault_of_section hx with ⟨-, hfault⟩ | ⟨⟨es, hes⟩, -⟩
    · exact ⟨e, rfl, hfault⟩
    · exact absurd hes (h es)

/-- **Equal dicts bind alike.** Where all spellings of a setting mean the same, and no switch is
a truth value in one of the dicts and a number in the other, they bind to equal settings or are
both refused: for the same, unless a message would show too long a number. -/
theorem ofValue_reordered {root other : Entries} (hroot : Value.Keyed (.dict root))
    (hsame : Value.SameEntries root other)
    (hone : ∀ es, Section (.dict root) es → OneMeaning es)
    (hswitch : ∀ es fs, Section (.dict root) es → Section (.dict other) fs → SameSwitches es fs) :
    (∃ l m, ofValue (.dict root) = .ok l ∧ ofValue (.dict other) = .ok m ∧ l.SameFields m) ∨
    ∃ e f, ofValue (.dict root) = .error e ∧ ofValue (.dict other) = .error f ∧
      (e.fault = .invalidRoot ↔ f.fault = .invalidRoot) ∧
      (Showable (.dict root) → Showable (.dict other) → e.fault = f.fault) := by
  rcases sections_of_sameEntries hroot hsame with ⟨es, fs, hes, hfs, hentries⟩ | ⟨hes, hfs⟩
  · have halike := readAlike_of_sameEntries hentries (hone es hes) (hswitch es fs hes hfs)
    cases hl : ofValue (.dict root) with
    | ok l =>
      rw [ofValue_of_section hes] at hl
      obtain ⟨m, hm, hfields⟩ := halike.bound hl
      exact .inl ⟨l, m, rfl, (ofValue_of_section hfs).trans hm, hfields⟩
    | error e =>
      cases hm : ofValue (.dict other) with
      | ok m =>
        rw [ofValue_of_section hfs] at hm
        obtain ⟨l, hl', -⟩ := halike.symm.bound hm
        cases hl.symm.trans ((ofValue_of_section hes).trans hl')
      | error f =>
        have he := (fault_of_section hl).resolve_left fun h => h.1 es hes
        have hf := (fault_of_section hm).resolve_left fun h => h.1 fs hfs
        exact .inr ⟨e, f, rfl, rfl, iff_of_false he.2.1 hf.2.1,
          fun hshow hshow' => (he.2.2 hshow).trans (hf.2.2 hshow').symm⟩
  · obtain ⟨e, he, hfault⟩ := exists_error_of_no_section hes
    obtain ⟨f, hf, hfault'⟩ := exists_error_of_no_section hfs
    exact .inr ⟨e, f, he, hf, iff_of_true hfault hfault', fun _ _ => hfault.trans hfault'.symm⟩

/-- Entries in another order at the root and in the section, a setting in two spellings, a mode
and its name, and a list that holds itself. -/
theorem ofValue_reordered_section :
    let es : Entries := [(.text "check-location", .text "False"),
      (.text "database", .mode .standard), (.text "check_location", .text " false")]
    let fs : Entries := [(.text "check_location", .text " false"),
      (.text "database", .text "PER_MIGRATION"), (.text "check-location", .text "False")]
    let root : Entries := [(.text "x", .loop true), (.text sectionKey, .dict es)]
    let other : Entries := [(.text sectionKey, .dict fs), (.text "x", .loop true)]
    Value.Keyed (.dict root) ∧ Value.SameEntries root other ∧
      (∀ es, Section (.dict root) es → OneMeaning es) ∧
      (∀ es fs, Section (.dict root) es → Section (.dict other) fs → SameSwitches es fs) ∧
      ∃ l m, ofValue (.dict root) = .ok l ∧ ofValue (.dict other) = .ok m ∧ l.SameFields m := by
  intro es fs root other
  have hloop : Value.Keyed (.loop true) := .other nofun
  have hkeys : Table.Distinct es := by
    simp [Table.Distinct, es, Value.sameKey, Value.atoms?]
  have hparts : ∀ e ∈ es, Value.Keyed e.2 := by
    simp [es, Value.Keyed.other]
  have hroot : Value.Keyed (.dict root) := .pair rfl hloop (.dict hkeys hparts)
  have hsame : Value.SameEntries root other := by
    constructor <;> refine List.forall_mem_cons.2 ⟨?_, List.forall_mem_singleton.2 ?_⟩
    · exact ⟨_, List.mem_pair.2 (.inr rfl), .inl rfl, .inl rfl⟩
    · exact ⟨_, List.mem_pair.2 (.inl rfl), .inl rfl, .inr rfl⟩
    · exact ⟨_, List.mem_pair.2 (.inr rfl), .inl rfl, .inr rfl⟩
    · exact ⟨_, List.mem_pair.2 (.inl rfl), .inl rfl, .inl rfl⟩
  have hsection {x : Entries} (h : Section (.dict root) x) : x = es :=
    (Except.ok.inj (sectionOf_eq_ok_iff.2 h)).symm
  have hsection' {x : Entries} (h : Section (.dict other) x) : x = fs :=
    (Except.ok.inj (sectionOf_eq_ok_iff.2 h)).symm
  have hcheck : Setting.ofKey? (.text "check-location") = some .checkLocation := rfl
  have hcheck' : Setting.ofKey? (.text "check_location") = some .checkLocation := rfl
  have hdatabase : Setting.ofKey? (.text "database") = some .database := rfl
  have hmakes : ∀ e ∈ es, ∀ s, e.1.Names s → s.makes e.2 =
      some (if s = .database then .text (.text "PER_MIGRATION") else .switch false) := by
    simp only [es, List.forall_mem_cons, ← Setting.ofKey?_eq_some_iff, hcheck, hcheck', hdatabase]
    refine ⟨?_, ?_, ?_, List.forall_mem_nil _⟩
    · rintro _ ⟨⟩
      rfl
    · rintro _ ⟨⟩
      rfl
    · rintro _ ⟨⟩
      rfl
  have hone : ∀ es, Section (.dict root) es → OneMeaning es := by
    intro x hx s e he f hf hse hsf
    rw [hsection hx] at he hf
    exact (hmakes e he s hse).trans (hmakes f hf s hsf).symm
  have hswitch : ∀ es fs, Section (.dict root) es → Section (.dict other) fs →
      SameSwitches es fs := by
    intro x y hx hy e he f hf _ _
    rw [hsection hx] at he
    rw [hsection' hy] at hf
    have hes : ∀ e ∈ es, e.2.isBool = false := by decide
    have hfs : ∀ f ∈ fs, f.2.isBool = false := by decide
    rw [hes e he, hfs f hf]
  refine ⟨hroot, hsame, hone, hswitch, ?_⟩
  refine (ofValue_reordered hroot hsame hone hswitch).resolve_right ?_
  rintro ⟨e, f, he, -⟩
  cases he

/-- Where two spellings mean different things the order decides: the last one counts, and one
that is overwritten is not even looked at. -/
example :
    let es : Entries := [(.text "check_location", .list []), (.text "check-location", .bool true)]
    ofValue (.dict es) = .ok standard ∧
      ofValue (.dict es.reverse) = .error (.notBool .checkLocation (.list [])) := ⟨rfl, rfl⟩

end Settings
end MigrationSetup
