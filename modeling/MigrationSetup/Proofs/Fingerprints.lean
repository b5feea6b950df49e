import MigrationSetup.Proofs.Building
import MigrationSetup.Proofs.Identifying

/-! Which configurations have a fingerprint, and when two have the same.

The canonical text of a configuration's record has its five fields in one fixed order
(`Config.write_record`), so it is there exactly if each field has a text, and it is the same
exactly if the fields are written alike. Scan lists that a builder has accepted are texts and
are written alike if they are equal. The database and the identity are taken as they are
given, and there both can fail: bytes have no text, and the number one and the truth value
are equal but not written alike. Where they are given as texts, or not at all, and no text has
half of a pair, every configuration that is built has a fingerprint and equal ones have the same
(`Builder.builds_have_fingerprints`). -/
namespace MigrationSetup

/-! ### Digests of short messages -/

namespace Sha256

/-- Takes in the words of a message of at most so many blocks. -/
def absorbBlocks : Nat → State → List UInt32 → State
  | 0, s, _ => s
  | _ + 1, s, [] => s
  | n + 1, s, w :: rest =>
    absorbBlocks n (compress s ((w :: rest).take 16)) ((w :: rest).drop 16)

theorem absorb_eq_absorbBlocks {n : Nat} {s : State} {ws : List UInt32}
    (h : ws.length ≤ 16 * n) : absorb s ws = absorbBlocks n s ws := by
  induction n generalizing s ws with
  | zero =>
    rw [List.length_eq_zero_iff.1 (Nat.le_zero.1 h), absorb]
    rfl
  | succ n ih =>
    cases ws with
    | nil =>
      rw [absorb]
      rfl
    | cons w rest =>
      rw [absorb, ih (by simp only [List.length_drop]; omega)]
      rfl

end Sha256

/-! ### The text of a record -/

namespace Config
open Canonical

/-- The settings that a record has values for, in the order of their names. -/
def writtenSettings : List Setting :=
  [.database, .installedBy, .locations, .packages, .mode]

/-- The fields of a record written one after the other in the order of their names. -/
def written (c : Config) : Except Unwritable Text :=
  enclosed '\x7b' '\x7d' (writtenSettings.map fun s => entryText (.text s.name, c.recorded s))

/-- The text of a record has the fields in the order of their names. -/
theorem write_record (c : Config) : write c.record = c.written := by
  have hsettings : writtenSettings.Perm recordedSettings := by decide
  have hperm : (writtenSettings.map fun s => (Value.text s.name, c.recorded s)).Perm
      c.recordEntries := hsettings.map _
  have hsorted : ((writtenSettings.map fun s => (Value.text s.name, c.recorded s)).map
      placed).Pairwise fun p q => keyLe p q = true := by
    rw [List.pairwise_map, List.pairwise_map]
    show writtenSettings.Pairwise fun s t =>
      (!lexLt Letter.lt (Text.ofString t.name) s.name) = true
    decide
  rw [record_eq, write_dict c.isText_key, mergeSort_congr (hperm.symm.map placed)
    (distinct_placed c.isText_key c.distinct_recordEntries), List.mergeSort_of_pairwise hsorted,
    List.map_map, List.map_map]
  rfl

/-- Fields that are written alike give one text. -/
theorem write_record_congr {c d : Config}
    (h : ∀ s ∈ writtenSettings, write (c.recorded s) = write (d.recorded s)) :
    write c.record = write d.record := by
  have hentries : (writtenSettings.map fun s => entryText (.text s.name, c.recorded s)) =
      writtenSettings.map fun s => entryText (.text s.name, d.recorded s) :=
    List.map_congr_left fun s hs => by rw [entryText, entryText, h s hs]
  rw [write_record, write_record, written, written, hentries]

theorem fingerprint_eq (c : Config) : c.fingerprint =
    (write c.record).mapError .unwritable >>= fun t =>
      ((Text.Utf8.encodeText t).mapError .unencodable).map Sha256.digest := by
  cases hw : write c.record with
  | ok t => exact Value.fingerprint_of_write hw
  | error e =>
    rw [record] at hw
    rw [fingerprint, record, Value.fingerprint, hw]
    rfl

/-- The bytes that a fingerprint is taken of, if there are any. -/
def bytes? (c : Config) : Option (List UInt8) :=
  c.written.toOption.bind fun t => (Text.Utf8.encodeText t).toOption

/-- The fingerprint of a record that can be written, from the bytes themselves. -/
theorem fingerprint_of_bytes? {c : Config} (h : c.bytes?.isSome = true) :
    c.fingerprint = .ok (Sha256.digest (c.bytes?.getD [])) := by
  rw [fingerprint_eq, write_record]
  unfold bytes? at h ⊢
  cases hw : c.written with
  | error e =>
    rw [hw] at h
    cases h
  | ok t =>
    rw [hw] at h
    cases hb : Text.Utf8.encodeText t with
    | ok bytes => simp [Except.toOption, Except.mapError, Except.map, bind, Except.bind, hb]
    | error fault => simp [Except.toOption, hb] at h

/-- The scan lists are lists of texts. -/
structure ListsTexts (c : Config) : Prop where
  packages : ∀ x ∈ c.packages, x.isText = true
  locations : ∀ x ∈ c.locations, x.isText = true

/-- The database is a text or nothing, and the identity is a text. -/
structure IsWorded (c : Config) : Prop where
  database : c.database.isNull = true ∨ c.database.isText = true
  installedBy : c.installedBy.isText = true

theorem IsWorded.textual {c : Config} (h : c.IsWorded) (hl : c.ListsTexts) : c.Textual :=
  ⟨hl.packages, hl.locations, h.database, h.installedBy⟩

/-- With scan lists of texts there is a fingerprint exactly if these are whole and the database
and the identity can be written. -/
theorem fingerprint_iff_hasBytes {c : Config} (h : c.ListsTexts) :
    (∃ f, c.fingerprint = .ok f) ↔ (∀ x ∈ c.packages, x.IsWhole) ∧
      (∀ x ∈ c.locations, x.IsWhole) ∧ HasBytes c.database ∧ HasBytes c.installedBy := by
  rw [← hasBytes_texts_iff h.packages, ← hasBytes_texts_iff h.locations, ← hasBytes_record_iff]
  exact Value.fingerprint_ok_iff

/-- Equal configurations with scan lists of texts have one fingerprint if their databases and
their identities are written alike. -/
theorem fingerprint_eq_of_written {c d : Config} (hc : c.ListsTexts) (hd : d.ListsTexts)
    (h : c.equal d = true) (hdatabase : write c.database = write d.database)
    (hidentity : write c.installedBy = write d.installedBy) : c.fingerprint = d.fingerprint := by
  have hlist {xs ys : List Value} (hx : ∀ x ∈ xs, x.isText = true)
      (hy : ∀ y ∈ ys, y.isText = true) (hxy : Value.equalAll xs ys = true) :
      write (.list xs) = write (.list ys) :=
    write_eq (Value.plain_of_texts hx)
      (Value.sameTree_list_iff.2 ((Value.equalAll_iff hx hy).1 hxy))
  simp only [equal_eq, Bool.and_eq_true, equal_mode_iff] at h
  obtain ⟨hpackages, hlocations, hmode, -⟩ := h
  have hfields : ∀ s ∈ writtenSettings, write (c.recorded s) = write (d.recorded s) := by
    intro s _
    cases s with
    | packages => exact hlist hc.packages hd.packages hpackages
    | locations => exact hlist hc.locations hd.locations hlocations
    | mode => exact write_eq (.text rfl) hmode
    | database => exact hdatabase
    | installedBy => exact hidentity
    | enabled => rfl
    | checkLocation => rfl
  rw [fingerprint_eq, fingerprint_eq, write_record_congr hfields]

/-- Equal configurations of texts have one fingerprint. -/
theorem fingerprint_eq_of_equal {c d : Config} (hc : c.Textual) (hd : d.Textual)
    (h : c.equal d = true) : c.fingerprint = d.fingerprint := by
  rw [fingerprint_eq, fingerprint_eq, write_eq hc.plain ((equal_iff_sameTree hc hd).1 h)]

end Config

/-! ### What is built -/

/-- Every answer is a text. -/
def Provider.AnswersTexts (provider : Provider) : Prop :=
  ∀ n, ∃ v, provider n = .ok v ∧ v.isText = true

namespace Builder
open Canonical

/-- A database or an identity that is given is a text or nothing. -/
def Call.IsWorded (call : Call) : Prop :=
  ∀ v, call.database? = some v ∨ call.installedBy? = some v → v.isNull = true ∨ v.isText = true

/-- A scan list that is given is a list of texts. -/
def OfTexts (o : Option (List Value)) : Prop := ∀ xs, o = some xs → ∀ x ∈ xs, x.isText = true

theorem OfTexts.getD {o : Option (List Value)} (h : OfTexts o) {standard : List Value}
    (hs : ∀ x ∈ standard, x.isText = true) : ∀ x ∈ o.getD standard, x.isText = true := by
  cases o with
  | none => exact hs
  | some xs => exact h xs rfl

theorem ofTexts_none : OfTexts none := nofun

theorem ofTexts_of_givenList {items : List Value} {o : Option (List Value)}
    (h : givenList items = some o) : OfTexts o := by
  unfold givenList at h
  split at h
  · next hall =>
    rintro xs rfl
    cases h
    exact List.all_eq_true.1 hall
  · split at h
    · cases h
      exact ofTexts_none
    · cases h

theorem Call.ofTexts_packages {call : Call} {o : Option (List Value)}
    (h : call.packages? = some o) : OfTexts o := by
  unfold Call.packages? at h
  split at h
  · exact ofTexts_of_givenList h
  · cases h

theorem Call.ofTexts_locations {call : Call} {o : Option (List Value)}
    (h : call.locations? = some o) : OfTexts o := by
  unfold Call.locations? at h
  split at h
  · exact ofTexts_of_givenList h
  · cases h

/-- What holds before and of all that is given holds of the last that is given. -/
theorem lastGiven_of_forall {α : Type} {P : α → Prop} {given? : Call → Option α} {before : α}
    {calls : List Call} (hbefore : P before) (h : ∀ c ∈ calls, ∀ a, given? c = some a → P a) :
    P (lastGiven given? before calls) := by
  unfold lastGiven
  cases hlast : (calls.filterMap given?).getLast? with
  | none => exact hbefore
  | some a =>
    obtain ⟨c, hc, ha⟩ := List.mem_filterMap.1 (List.mem_of_getLast? hlast)
    exact h c hc a ha

section Built
variable {provider : Provider} {calls : List Call} {c : Config}

theorem filled_built (h : ((new .empty provider).run calls).build.1 = .ok c) :
    Filled ((new .empty provider).run calls).options
      (provider ((new .empty provider).run calls).asked) c := by
  rcases build_run_cases .empty provider calls with ⟨d, hd, hfilled⟩ | ⟨e, he, -⟩
  · cases hd.symm.trans h
    exact hfilled
  · cases he.symm.trans h

/-- The scan lists that are built are lists of texts. -/
theorem listsTexts_built (h : ((new .empty provider).run calls).build.1 = .ok c) :
    c.ListsTexts := by
  have hfilled := filled_built h
  rw [options_run] at hfilled
  constructor
  · rw [hfilled.packages]
    have hlast : OfTexts (lastGiven Call.packages? none calls) :=
      lastGiven_of_forall ofTexts_none fun call _ _ => call.ofTexts_packages
    exact hlast.getD nofun
  · rw [hfilled.locations]
    have hlast : OfTexts (lastGiven Call.locations? none calls) :=
      lastGiven_of_forall ofTexts_none fun call _ _ => call.ofTexts_locations
    exact hlast.getD (List.forall_mem_singleton.2 rfl)

/-- From texts a configuration of texts is built. -/
theorem isWorded_built (h : ((new .empty provider).run calls).build.1 = .ok c)
    (hp : provider.AnswersTexts) (hcalls : ∀ call ∈ calls, call.IsWorded) : c.IsWorded := by
  have hfilled := filled_built h
  rw [options_run] at hfilled
  have hdatabase : (lastGiven Call.database? .null calls).isNull = true ∨
      (lastGiven Call.database? .null calls).isText = true :=
    lastGiven_of_forall (.inl rfl) fun call hc v hv => hcalls call hc v (.inl hv)
  have hidentity : (lastGiven Call.installedBy? .null calls).isNull = true ∨
      (lastGiven Call.installedBy? .null calls).isText = true :=
    lastGiven_of_forall (.inl rfl) fun call hc v hv => hcalls call hc v (.inr hv)
  refine ⟨hfilled.database ▸ hdatabase, ?_⟩
  cases hn : (lastGiven Call.installedBy? .null calls).isNull with
  | true =>
    obtain ⟨v, hv, htext⟩ := hp ((new .empty provider).run calls).asked
    cases (hfilled.unnamed hn).symm.trans hv
    exact htext
  | false =>
    rw [hfilled.named hn]
    exact hidentity.resolve_left fun h => by cases hn.symm.trans h

/-- Where the provider answers a configuration is built. -/
theorem exists_built (hp : provider.AnswersTexts) (calls : List Call) :
    ∃ c, ((new .empty provider).run calls).build.1 = .ok c := by
  obtain ⟨v, hv, -⟩ := hp ((new .empty provider).run calls).asked
  rcases build_run_cases .empty provider calls with ⟨c, hc, -⟩ | ⟨e, -, -, he⟩
  · exact ⟨c, hc⟩
  · cases hv.symm.trans he

end Built

/-- **What is built from whole texts has a fingerprint, and equal configurations have the same.**
Whatever is given, what is built has one exactly if its scan lists are whole and its database and
its identity can be written, and equal configurations have the same if both are written alike. -/
theorem builds_have_fingerprints (provider provider' : Provider) (calls calls' : List Call) :
    (provider.AnswersTexts → ∃ c, ((new .empty provider).run calls).build.1 = .ok c ∧
      ((∀ call ∈ calls, call.IsWorded) → c.IsWorded)) ∧
    ∀ c c', ((new .empty provider).run calls).build.1 = .ok c →
      ((new .empty provider').run calls').build.1 = .ok c' →
        (c.IsWorded → c'.IsWorded →
          ((∃ f, c.fingerprint = .ok f) ↔ c.IsWhole) ∧
          ((∃ f, c'.fingerprint = .ok f) ↔ c'.IsWhole) ∧
          (c.equal c' = true → c.fingerprint = c'.fingerprint)) ∧
        ((∃ f, c.fingerprint = .ok f) ↔ (∀ x ∈ c.packages, x.IsWhole) ∧
          (∀ x ∈ c.locations, x.IsWhole) ∧ HasBytes c.database ∧ HasBytes c.installedBy) ∧
        (c.equal c' = true → write c.database = write c'.database →
          write c.installedBy = write c'.installedBy → c.fingerprint = c'.fingerprint) := by
  refine ⟨fun hp => ?_, fun c c' hc hc' => ?_⟩
  · obtain ⟨c, hc⟩ := exists_built hp calls
    exact ⟨c, hc, isWorded_built hc hp⟩
  · have hlists := listsTexts_built hc
    have hlists' := listsTexts_built hc'
    refine ⟨fun hworded hworded' => ?_, Config.fingerprint_iff_hasBytes hlists,
      Config.fingerprint_eq_of_written hlists hlists'⟩
    have htextual := hworded.textual hlists
    have htextual' := hworded'.textual hlists'
    exact ⟨Config.fingerprint_of_textual htextual, Config.fingerprint_of_textual htextual',
      Config.fingerprint_eq_of_equal htextual htextual'⟩

/-- A mode and the text of its name are equal and written alike. -/
theorem builds_have_fingerprints_mode :
    let provider : Provider := fun _ => .ok (.text "x")
    let calls : List Call := [.change (.packages [.text "p"]), .build,
      .change (.database (.mode .perStatement))]
    let calls' : List Call := [.change (.database (.text "PER_STATEMENT")),
      .change (.packages [.text "p"])]
    provider.AnswersTexts ∧ (∀ call ∈ calls, call.IsWorded) ∧ (∀ call ∈ calls', call.IsWorded) ∧
      ∃ c c', ((new .empty provider).run calls).build.1 = .ok c ∧
        ((new .empty provider).run calls').build.1 = .ok c' ∧ c.equal c' = true ∧
        ∃ f, c.fingerprint = .ok f ∧ c'.fingerprint = .ok f := by
  intro provider calls calls'
  have hp : provider.AnswersTexts := fun n => ⟨_, rfl, rfl⟩
  have hother {call : Call} (hd : call.database? = none) (hi : call.installedBy? = none) :
      call.IsWorded := by
    rintro v (h | h)
    · cases hd.symm.trans h
    · cases hi.symm.trans h
  have hdatabase {v : Value} (hv : v.isText = true) : (Call.change (.database v)).IsWorded := by
    rintro w (h | h)
    · exact .inr (Option.some.inj h ▸ hv)
    · cases h
  have hworded : ∀ call ∈ calls, call.IsWorded := List.forall_mem_cons.2 ⟨hother rfl rfl,
    List.forall_mem_cons.2 ⟨hother rfl rfl, List.forall_mem_singleton.2 (hdatabase rfl)⟩⟩
  have hworded' : ∀ call ∈ calls', call.IsWorded := List.forall_mem_cons.2 ⟨hdatabase rfl,
    List.forall_mem_singleton.2 (hother rfl rfl)⟩
  obtain ⟨hbuilt, hpair⟩ := builds_have_fingerprints provider provider calls calls'
  obtain ⟨c, hc, hcworded⟩ := hbuilt hp
  obtain ⟨c', hc', hcworded'⟩ := (builds_have_fingerprints provider provider calls' calls).1 hp
  obtain ⟨hwhole, -, hsame⟩ := (hpair c c' hc hc').1 (hcworded hworded) (hcworded' hworded')
  obtain ⟨f, hf⟩ := hwhole.2 (by cases hc; exact ⟨by decide, by decide, by decide, by decide⟩)
  have hequal : c.equal c' = true := by
    cases hc
    cases hc'
    decide
  exact ⟨hp, hworded, hworded', c, c', hc, hc', hequal, f, hf, (hsame hequal).symm.trans hf⟩

/-- The number one and the truth value are accepted as databases and make equal
configurations with two fingerprints. Bytes and half of a pair are accepted too and leave none. -/
theorem equal_builds_apart :
    let provider : Provider := fun _ => .ok (.text "x")
    let built (v : Value) := ((new .empty provider).run [.change (.database v)]).build.1
    (∀ v, (Change.database v).isAccepted = true) ∧
      (∃ c c' f f', built (.int 1) = .ok c ∧ built (.bool true) = .ok c' ∧ c.equal c' = true ∧
        c.fingerprint = .ok f ∧ c'.fingerprint = .ok f' ∧ f ≠ f') ∧
      (∃ c, built (.bytes []) = .ok c ∧ c.fingerprint = .error (.unwritable (.value .bytes))) ∧
      ∃ c fault, built (.text [.half 0]) = .ok c ∧
        c.fingerprint = .error (.unencodable fault) := by
  intro provider built
  let config (v : Value) : Config := ⟨[], Config.defaultLocations, .perMigration, v, .text "x"⟩
  have hone := Config.fingerprint_of_bytes? (c := config (.int 1)) (by decide +kernel)
  have htrue := Config.fingerprint_of_bytes? (c := config (.bool true)) (by decide +kernel)
  have hequal : (config (.int 1)).equal (config (.bool true)) = true := by decide +kernel
  have hbytes : (config (.bytes [])).fingerprint = .error (.unwritable (.value .bytes)) := by
    rw [Config.fingerprint_eq, Config.write_record]
    rfl
  have hhalf : (config (.text [.half 0])).Textual :=
    ⟨by decide, by decide, by decide, by decide⟩
  obtain ⟨fault, hfault, -⟩ :=
    Config.fingerprint_unencodable hhalf fun h => absurd h.database (by decide)
  refine ⟨fun _ => rfl, ⟨_, _, _, _, rfl, rfl, hequal, hone, htrue, ?_⟩, ⟨_, rfl, hbytes⟩,
    _, fault, rfl, hfault⟩
  rw [Sha256.digest, Sha256.digest, Sha256.absorb_eq_absorbBlocks (n := 3) (by decide +kernel),
    Sha256.absorb_eq_absorbBlocks (n := 3) (by decide +kernel)]
  decide +kernel

end Builder
end MigrationSetup
