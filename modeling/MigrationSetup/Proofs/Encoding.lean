import MigrationSetup.Proofs.Delimiting
import MigrationSetup.Proofs.Writing

/-! Which canonical texts can be written as bytes.

A digest is taken of bytes, and half of a pair has none. So a text can be written exactly if it
is whole, that is, if no letter of it is a half (`Utf8.encodeText_ok_iff`); otherwise the first
half is reported with its position (`Utf8.FirstHalf`). What is put around letters and
between parts is whole and takes nothing away, so a canonical text is whole exactly if all texts
that it says are (`Canonical.hasBytes_dict_iff`). A configuration made of texts has a
fingerprint exactly if these are whole (`Config.fingerprint_of_textual`). -/
namespace MigrationSetup

/-! ### Whole texts -/

namespace Text

/-- No letter is half of a pair. -/
def IsWhole (t : Text) : Prop := ∀ c ∈ t, c.isHalf = false

instance (t : Text) : Decidable t.IsWhole :=
  inferInstanceAs (Decidable (∀ c ∈ t, c.isHalf = false))

theorem isWhole_cons {c : Letter} {t : Text} :
    IsWhole (c :: t) ↔ c.isHalf = false ∧ t.IsWhole :=
  List.forall_mem_cons

theorem isWhole_char_cons {c : Char} {t : Text} : IsWhole (.char c :: t) ↔ t.IsWhole :=
  isWhole_cons.trans (and_iff_right rfl)

theorem isWhole_append {t u : Text} : IsWhole (t ++ u) ↔ t.IsWhole ∧ u.IsWhole :=
  List.forall_mem_append

theorem isWhole_ofChars (cs : List Char) : IsWhole (ofChars cs) := by
  intro c hc
  obtain ⟨d, -, rfl⟩ := List.mem_map.1 hc
  rfl

theorem isWhole_ofString (s : String) : IsWhole (ofString s) := isWhole_ofChars s.toList

namespace Utf8

theorem firstHalves?_eq_none_iff {start : Nat} {t : Text} :
    firstHalves? start t = none ↔ t.IsWhole := by
  induction t generalizing start with
  | nil => exact iff_of_true rfl (List.forall_mem_nil _)
  | cons c t ih =>
    rw [isWhole_cons]
    cases c with
    | char c => exact ih.trans (and_iff_right rfl).symm
    | half n => exact iff_of_false nofun fun h => nomatch h.1

/-- The fault tells of the first half in a text that is counted from `start`: it stands behind
whole letters, and it is reported where it stands. -/
structure FirstHalf (start : Nat) (t : Text) (f : Unencodable) : Prop where
  half : f.first.isHalf = true
  place : ∃ before after, t = before ++ f.first :: after ∧ before.IsWhole ∧
    f.position = start + before.length

theorem firstHalves?_eq_some {start : Nat} {t : Text} {f : Unencodable}
    (h : firstHalves? start t = some f) : FirstHalf start t f := by
  induction t generalizing start with
  | nil => cases h
  | cons c t ih =>
    cases c with
    | char c =>
      obtain ⟨hhalf, before, after, rfl, hwhole, hposition⟩ := ih h
      refine ⟨hhalf, .char c :: before, after, rfl, isWhole_char_cons.2 hwhole, ?_⟩
      rw [hposition, List.length_cons]
      omega
    | half n =>
      cases h
      exact ⟨rfl, [], t, rfl, List.forall_mem_nil _, rfl⟩

/-- Exactly the whole texts can be written. -/
theorem encodeText_ok_iff {t : Text} : (∃ bytes, encodeText t = .ok bytes) ↔ t.IsWhole := by
  have hnone : firstHalves? 0 t = none ↔ t.IsWhole := firstHalves?_eq_none_iff
  rw [← hnone, encodeText]
  cases firstHalves? 0 t <;> simp

/-- A text that is not whole fails for its first half. -/
theorem encodeText_of_not_isWhole {t : Text} (h : ¬t.IsWhole) :
    ∃ f, encodeText t = .error f ∧ FirstHalf 0 t f := by
  cases hfirst : firstHalves? 0 t with
  | none => exact absurd (firstHalves?_eq_none_iff.1 hfirst) h
  | some f => exact ⟨f, by rw [encodeText, hfirst], firstHalves?_eq_some hfirst⟩

end Utf8
end Text

/-- The value is no text, or a whole one. -/
def Value.IsWhole (v : Value) : Prop := ∀ t, v.text? = some t → t.IsWhole

instance (v : Value) : Decidable v.IsWhole :=
  inferInstanceAs (Decidable (∀ t ∈ v.text?, t.IsWhole))

theorem Value.isWhole_of_text? {v : Value} {t : Text} (h : v.text? = some t) :
    v.IsWhole ↔ t.IsWhole := by
  simp only [IsWhole, h, Option.some.injEq, forall_eq']

/-! ### Canonical texts -/

namespace Canonical
open Text

/-- Escaping makes no halves and leaves none out. -/
theorem isWhole_escape_iff (c : Letter) : IsWhole (escape c) ↔ c.isHalf = false := by
  have hchars (cs : List Char) (hc : c.isHalf = false) :
      IsWhole (ofChars cs) ↔ c.isHalf = false := iff_of_true (isWhole_ofChars cs) hc
  have h := escaped c
  generalize escape c = t at h ⊢
  cases h with
  | plain => exact List.forall_mem_singleton
  | letter _ is => exact hchars ['\\', _] (is ▸ rfl)
  | code small =>
    refine hchars ('\\' :: 'u' :: hex 4 c.code) ?_
    cases c with
    | char => rfl
    | half n =>
      simp only [Letter.code, Letter.firstHalf] at small
      omega

theorem isWhole_quote_iff (t : Text) : IsWhole (quote t) ↔ t.IsWhole := by
  have hescaped : IsWhole (t.flatMap escape) ↔ t.IsWhole := by
    induction t with
    | nil => rfl
    | cons c t ih => rw [List.flatMap_cons, isWhole_append, isWhole_escape_iff, ih, isWhole_cons]
  have hquote : IsWhole [.char '"'] := isWhole_ofChars ['"']
  rw [quote, isWhole_char_cons, isWhole_append, hescaped, and_iff_left hquote]

theorem isWhole_commaJoin_iff (ts : List Text) :
    IsWhole (commaJoin ts) ↔ ∀ t ∈ ts, t.IsWhole := by
  induction ts with
  | nil => exact iff_of_true (List.forall_mem_nil _) (List.forall_mem_nil _)
  | cons t ts ih =>
    cases ts with
    | nil => exact List.forall_mem_singleton.symm
    | cons u us =>
      rw [commaJoin, isWhole_append, isWhole_char_cons, ih]
      exact List.forall_mem_cons.symm

/-- The value has a canonical text that can be written as bytes. -/
def HasBytes (v : Value) : Prop := ∃ t, write v = .ok t ∧ t.IsWhole

/-- Parts between marks can be written exactly if every part can. -/
theorem exists_whole_enclosed_iff {α : Type} {first last : Char}
    {f : α → Except Unwritable Text} {xs : List α} :
    (∃ t, enclosed first last (xs.map f) = .ok t ∧ t.IsWhole) ↔
      ∀ x ∈ xs, ∃ u, f x = .ok u ∧ u.IsWhole := by
  have hmarks (us : List Text) :
      IsWhole (.char first :: (commaJoin us ++ [.char last])) ↔ ∀ u ∈ us, u.IsWhole := by
    rw [isWhole_char_cons, isWhole_append, isWhole_commaJoin_iff]
    exact and_iff_left (isWhole_ofChars [last])
  constructor
  · rintro ⟨t, ht, hwhole⟩ x hx
    obtain ⟨us, hus, rfl⟩ := enclosed_ok_iff.1 ht
    rw [List.forall₂_map_left_iff] at hus
    obtain ⟨u, hu, hxu⟩ := forall₂_mem_left hus hx
    exact ⟨u, hxu, (hmarks us).1 hwhole u hu⟩
  · intro h
    obtain ⟨t, ht⟩ := exists_enclosed_iff.2 fun x hx => (h x hx).imp fun _ hu => hu.1
    obtain ⟨us, hus, rfl⟩ := enclosed_ok_iff.1 ht
    refine ⟨_, ht, (hmarks us).2 fun u hu => ?_⟩
    rw [List.forall₂_map_left_iff] at hus
    obtain ⟨x, hx, hxu⟩ := forall₂_mem_right hus hu
    obtain ⟨w, hw, hwhole⟩ := h x hx
    rwa [Except.ok.inj (hxu.symm.trans hw)]

theorem hasBytes_text_iff {v : Value} {s : Text} (h : v.text? = some s) :
    HasBytes v ↔ v.IsWhole := by
  simp only [HasBytes, write_text h, Except.ok.injEq, exists_eq_left', isWhole_quote_iff,
    Value.isWhole_of_text? h]

theorem hasBytes_texts_iff {xs : List Value} (h : ∀ x ∈ xs, x.isText = true) :
    (∀ x ∈ xs, HasBytes x) ↔ ∀ x ∈ xs, x.IsWhole := by
  refine forall₂_congr fun x hx => ?_
  obtain ⟨s, hs⟩ := Option.isSome_iff_exists.1 (h x hx)
  exact hasBytes_text_iff hs

theorem hasBytes_null : HasBytes .null := ⟨_, rfl, isWhole_ofString "null"⟩

theorem hasBytes_row_iff {v : Value} {xs : List Value} (h : v.row? = some xs) :
    HasBytes v ↔ ∀ x ∈ xs, HasBytes x := by
  rw [HasBytes, write_row h]
  exact exists_whole_enclosed_iff

/-- A dict under texts can be written exactly if all its keys and all that stands under them
can. -/
theorem hasBytes_dict_iff {es : Entries} (hk : ∀ e ∈ es, e.1.isText = true) :
    HasBytes (.dict es) ↔ ∀ e ∈ es, e.1.IsWhole ∧ HasBytes e.2 := by
  obtain ⟨gs, hperm, hsorted⟩ := exists_sorted es
  have hentry (e : Value × Value) (he : e ∈ es) :
      (∃ t, entryText e = .ok t ∧ t.IsWhole) ↔ e.1.IsWhole ∧ HasBytes e.2 := by
    obtain ⟨s, hs⟩ := Option.isSome_iff_exists.1 (hk e he)
    have htext (u : Text) : IsWhole (quote s ++ .char ':' :: u) ↔ e.1.IsWhole ∧ u.IsWhole := by
      rw [isWhole_append, isWhole_quote_iff, isWhole_char_cons, Value.isWhole_of_text? hs]
    constructor
    · rintro ⟨t, ht, hwhole⟩
      obtain ⟨u, hu, rfl⟩ := (entryText_ok_iff hs).1 ht
      exact ⟨((htext u).1 hwhole).1, u, hu, ((htext u).1 hwhole).2⟩
    · rintro ⟨hkey, u, hu, hwhole⟩
      exact ⟨_, (entryText_ok_iff hs).2 ⟨u, hu, rfl⟩, (htext u).2 ⟨hkey, hwhole⟩⟩
  rw [HasBytes, write_dict hk, hsorted, List.map_map]
  refine exists_whole_enclosed_iff.trans ?_
  simp only [hperm.mem_iff]
  exact forall₂_congr hentry

end Canonical

/-! ### Fingerprints -/

open Canonical

namespace Value

/-- The fingerprint of a dict with a canonical text is the digest of the bytes of that text. -/
theorem fingerprint_of_write {es : Entries} {t : Text} (h : write (.dict es) = .ok t) :
    (Value.dict es).fingerprint =
      ((Text.Utf8.encodeText t).mapError .unencodable).map Sha256.digest := by
  rw [fingerprint, h]
  show ((Text.Utf8.encodeText t).mapError Failure.unencodable >>= fun bytes =>
    Except.ok (Sha256.digest bytes)) = _
  cases Text.Utf8.encodeText t <;> rfl

/-- A dict has a fingerprint exactly if its canonical text can be written as bytes. -/
theorem fingerprint_ok_iff {es : Entries} :
    (∃ f, (Value.dict es).fingerprint = .ok f) ↔ HasBytes (.dict es) := by
  constructor
  · rintro ⟨f, hf⟩
    obtain ⟨t, ht, -⟩ := bind_eq_ok.1 hf
    rw [mapError_eq_ok] at ht
    rw [fingerprint_of_write ht, map_eq_ok] at hf
    obtain ⟨bytes, hbytes, -⟩ := hf
    exact ⟨t, ht, Text.Utf8.encodeText_ok_iff.1 ⟨bytes, mapError_eq_ok.1 hbytes⟩⟩
  · rintro ⟨t, ht, hwhole⟩
    obtain ⟨bytes, hbytes⟩ := Text.Utf8.encodeText_ok_iff.2 hwhole
    exact ⟨_, by rw [fingerprint_of_write ht, hbytes]; rfl⟩

end Value

namespace Config

/-- No text of the configuration has a half of a pair. -/
structure IsWhole (c : Config) : Prop where
  packages : ∀ x ∈ c.packages, x.IsWhole
  locations : ∀ x ∈ c.locations, x.IsWhole
  database : c.database.IsWhole
  installedBy : c.installedBy.IsWhole

/-- A record can be written exactly if its four free fields can. -/
theorem hasBytes_record_iff (c : Config) : HasBytes c.record ↔
    (∀ x ∈ c.packages, HasBytes x) ∧ (∀ x ∈ c.locations, HasBytes x) ∧
      HasBytes c.database ∧ HasBytes c.installedBy := by
  have hname (s : Setting) : Value.IsWhole (.text s.name) :=
    (Value.isWhole_of_text? rfl).2 (Text.isWhole_ofString _)
  have hmode : HasBytes (.text c.mode.name) :=
    (hasBytes_text_iff rfl).2 ((Value.isWhole_of_text? rfl).2 (Text.isWhole_ofString _))
  rw [record, hasBytes_dict_iff (by simp [Value.isText, Value.text?])]
  simp only [List.forall_mem_cons, List.not_mem_nil, false_imp_iff, forall_const, and_true, hname,
    hmode, true_and, hasBytes_row_iff (v := .list c.packages) rfl,
    hasBytes_row_iff (v := .list c.locations) rfl]

theorem hasBytes_of_textual {c : Config} (h : c.Textual) : HasBytes c.record ↔ c.IsWhole := by
  have htext {v : Value} (hv : v.isText = true) : HasBytes v ↔ v.IsWhole := by
    obtain ⟨s, hs⟩ := Option.isSome_iff_exists.1 hv
    exact hasBytes_text_iff hs
  have hdatabase : HasBytes c.database ↔ c.database.IsWhole := by
    rcases h.database with hn | ht
    · rw [Value.isNull_iff.1 hn]
      exact iff_of_true hasBytes_null fun _ h => nomatch h
    · exact htext ht
  rw [hasBytes_record_iff, hasBytes_texts_iff h.packages, hasBytes_texts_iff h.locations,
    hdatabase, htext h.installedBy]
  exact ⟨fun ⟨hp, hl, hd, hi⟩ => ⟨hp, hl, hd, hi⟩,
    fun ⟨hp, hl, hd, hi⟩ => ⟨hp, hl, hd, hi⟩⟩

/-- A configuration of texts has a fingerprint exactly if they are whole. -/
theorem fingerprint_of_textual {c : Config} (h : c.Textual) :
    (∃ f, c.fingerprint = .ok f) ↔ c.IsWhole :=
  Value.fingerprint_ok_iff.trans (hasBytes_of_textual h)

/-- The canonical text of a configuration cannot be written for the first half in it. -/
def Unencodable (c : Config) (fault : Text.Utf8.Unencodable) : Prop :=
  ∃ t, write c.record = .ok t ∧ Text.Utf8.FirstHalf 0 t fault

/-- Taking the fingerprint of a configuration of texts that are not all whole fails. -/
theorem fingerprint_unencodable {c : Config} (h : c.Textual) (hw : ¬c.IsWhole) :
    ∃ fault, c.fingerprint = .error (.unencodable fault) ∧ c.Unencodable fault := by
  obtain ⟨t, ht⟩ := writable_of_textual h
  have hhalf : ¬t.IsWhole := fun hwhole => hw ((hasBytes_of_textual h).1 ⟨t, ht, hwhole⟩)
  obtain ⟨fault, hfault, hfirst⟩ := Text.Utf8.encodeText_of_not_isWhole hhalf
  exact ⟨fault, by rw [fingerprint, record, Value.fingerprint_of_write ht, hfault]; rfl,
    t, ht, hfirst⟩

end Config
end MigrationSetup
