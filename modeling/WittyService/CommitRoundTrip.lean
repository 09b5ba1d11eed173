import WittyService.CommitAcceptance

/-! When a list of commits that `validate_commit_entries` accepts is read again from the CSV that
`serialize_commit_entries` makes of it. -/
namespace WittyService

open Utf8Text

namespace CommitImport

variable {tables : UnicodeTables} {items : List ImportItem} {entry : CommitEntry}
  {entries : List CommitEntry}

/-- An entry as it is returned: nothing would be stripped or made small any more. -/
structure Normal (tables : UnicodeTables) (entry : CommitEntry) : Prop where
  valid : isEntry entry.commit entry.commitTitle
  strip_commit : RuntimeSkills.strip entry.commit = entry.commit
  strip_title : RuntimeSkills.strip entry.commitTitle = entry.commitTitle
  lower : tables.lower entry.commit = entry.commit

theorem hexDigit_facts : ∀ c < 128, isHexDigit c → isHexDigit (asciiLower c) ∧
    asciiLower (asciiLower c) = asciiLower c ∧ RuntimeSkills.isSpace (asciiLower c) = false := by
  decide

theorem lt_of_isHexDigit {c : ℕ} (h : isHexDigit c) : c < 128 := by
  simp only [isHexDigit, Bool.or_eq_true, Bool.and_eq_true, decide_eq_true_eq] at h
  omega

variable {t : CodePoints} {bytes : List ℕ}

theorem strip_of_no_space (h : ∀ c ∈ t, RuntimeSkills.isSpace c = false) :
    RuntimeSkills.strip t = t := by
  have hleft : t.dropWhile RuntimeSkills.isSpace = t := by
    refine List.dropWhile_eq_self_iff.mpr fun hpos => ?_
    rw [h _ (List.getElem_mem hpos)]
    exact Bool.false_ne_true
  rw [RuntimeSkills.strip, hleft]
  refine List.rdropWhile_eq_self_iff.mpr fun hne => ?_
  rw [h _ (List.getLast_mem hne)]
  exact Bool.false_ne_true

theorem isSha_lower (tables : UnicodeTables) (h : isSha t) :
    tables.lower t = t.map asciiLower ∧ isSha (tables.lower t) := by
  rw [isSha, Bool.and_eq_true, List.all_eq_true] at h
  have hlower := tables.lower_ascii t fun c hc => lt_of_isHexDigit (h.2 c hc)
  refine ⟨hlower, ?_⟩
  rw [hlower, isSha, List.length_map, Bool.and_eq_true, List.all_eq_true]
  refine ⟨h.1, fun c hc => ?_⟩
  obtain ⟨c, hmem, rfl⟩ := List.mem_map.mp hc
  exact (hexDigit_facts c (lt_of_isHexDigit (h.2 c hmem)) (h.2 c hmem)).1

theorem normal_of_entryOf {item : ImportItem} (h : entryOf tables item = some entry) :
    Normal tables entry := by
  obtain ⟨members, -, hentry⟩ := Option.bind_eq_some_iff.mp h
  dsimp only at hentry
  split at hentry
  · next hisEntry =>
    obtain rfl := Option.some.inj hentry
    rw [isEntry, Bool.and_eq_true, Bool.and_eq_true] at hisEntry
    obtain ⟨hlower, hsha⟩ := isSha_lower tables hisEntry.1.1
    have hdigits := hisEntry.1.1
    rw [isSha, Bool.and_eq_true, List.all_eq_true] at hdigits
    have hfacts := fun c hc => hexDigit_facts c (lt_of_isHexDigit (hdigits.2 c hc)) (hdigits.2 c hc)
    refine ⟨?_, strip_of_no_space fun c hc => ?_, ?_, ?_⟩
    · rw [isEntry, Bool.and_eq_true, Bool.and_eq_true]
      exact ⟨⟨hsha, hisEntry.1.2⟩, hisEntry.2⟩
    · rw [hlower] at hc
      obtain ⟨c, hmem, rfl⟩ := List.mem_map.mp hc
      exact (hfacts c hmem).2.2
    · dsimp only
      unfold stripped
      split
      · exact RuntimeSkills.strip_strip _
      · rfl
    · rw [(isSha_lower tables hsha).1, hlower, List.map_map]
      exact List.map_congr_left fun c hc => (hfacts c hc).2.1
  · cases hentry

theorem entryOf_rawEntry (h : Normal tables entry) (row : ℕ) :
    entryOf tables (rawEntry 0 1 (row, [entry.commit, entry.commitTitle])) = some entry := by
  have hmembers : membersOf (rawEntry 0 1 (row, [entry.commit, entry.commitTitle])) =
      some [(text "commit", .str entry.commit), (text "commit_title", .str entry.commitTitle)] :=
    rfl
  have hcommit : stripped (ChannelCredentialStore.get
      [(text "commit", .str entry.commit), (text "commit_title", .str entry.commitTitle)]
      "commit") = entry.commit := h.strip_commit
  have htitle : stripped (ChannelCredentialStore.get
      [(text "commit", .str entry.commit), (text "commit_title", .str entry.commitTitle)]
      "commit_title") = entry.commitTitle := h.strip_title
  rw [entryOf, hmembers, Option.bind_some]
  simp [hcommit, htitle, h.valid, h.lower]

def header : List CodePoints := [text "commit_id", text "commit_title"]

theorem normalizeHeader_ascii {value : CodePoints}
    (h : ∀ c ∈ (RuntimeSkills.strip value).map asciiLower, c < 128)
    (h' : ∀ c ∈ RuntimeSkills.strip value, c < 128) :
    normalizeHeader tables value =
      ((RuntimeSkills.strip value).map asciiLower).filter isAsciiAlnum := by
  rw [normalizeHeader, tables.lower_ascii _ h']
  exact List.filter_congr fun c hc => tables.isAlnum_ascii c (h c hc)

theorem resolveHeaderColumns_header : resolveHeaderColumns tables header = some (0, 1) := by
  have hcommit : normalizeHeader tables (text "commit_id") = text "commitid" := by
    rw [normalizeHeader_ascii (by decide) (by decide)]
    decide
  have htitle : normalizeHeader tables (text "commit_title") = text "committitle" := by
    rw [normalizeHeader_ascii (by decide) (by decide)]
    decide
  have hmap : header.map (normalizeHeader tables) = [text "commitid", text "committitle"] := by
    rw [header, List.map_cons, List.map_singleton, hcommit, htitle]
  simp only [resolveHeaderColumns, hmap]
  decide

def rowsOf (entries : List CommitEntry) : List (List CodePoints) :=
  entries.map fun entry => [entry.commit, entry.commitTitle]

theorem numberedRows_cons (h : ∀ entry ∈ entries, Normal tables entry) :
    numberedRows (header :: rowsOf entries) =
      (1, header) :: ((rowsOf entries).zipIdx 2).map fun item => (item.2, item.1) := by
  have hkept : ∀ item ∈ (header :: rowsOf entries).zipIdx 1,
      item.1.any fun cell => RuntimeSkills.strip cell ≠ [] := by
    intro item hitem
    obtain hrow | hrow := List.mem_cons.mp (List.fst_mem_of_mem_zipIdx hitem)
    · rw [hrow]
      decide
    · obtain ⟨entry, hentry, heq⟩ := List.mem_map.mp hrow
      have hne := (h entry hentry).valid
      rw [isEntry, Bool.and_eq_true, Bool.and_eq_true, decide_eq_true_eq] at hne
      refine List.any_eq_true.mpr ⟨entry.commitTitle, ?_, ?_⟩
      · rw [← heq]
        exact List.mem_cons_of_mem _ (List.mem_singleton_self _)
      · rw [(h entry hentry).strip_title]
        exact decide_eq_true hne.1.2
  rw [numberedRows, List.filter_eq_self.mpr hkept, List.zipIdx_cons, List.map_cons]

def rawEntries (start : ℕ) (entries : List CommitEntry) : List ImportItem :=
  (((rowsOf entries).zipIdx start).map fun item => (item.2, item.1)).map (rawEntry 0 1)

theorem entryOf_rawEntries (h : ∀ entry ∈ entries, Normal tables entry) (start : ℕ) :
    (rawEntries start entries).map (entryOf tables) = entries.map some := by
  induction entries generalizing start with
  | nil => rfl
  | cons entry entries ih =>
    obtain ⟨hentry, hentries⟩ := List.forall_mem_cons.mp h
    have hrest := ih hentries (start + 1)
    have hcons : rawEntries start (entry :: entries) =
        rawEntry 0 1 (start, [entry.commit, entry.commitTitle]) ::
          rawEntries (start + 1) entries := rfl
    rw [hcons, List.map_cons, List.map_cons, hrest, entryOf_rawEntry hentry]

theorem filterMap_rawEntries (h : ∀ entry ∈ entries, Normal tables entry) (start : ℕ) :
    (rawEntries start entries).filterMap (entryOf tables) = entries := by
  have hmap := congrArg (List.filterMap id) (entryOf_rawEntries h start)
  rw [List.filterMap_map, List.filterMap_map] at hmap
  exact hmap.trans (List.filterMap_some)

section

variable (h : ∀ entry ∈ entries, Normal tables entry) (hne : entries ≠ [])
  (hlength : entries.length ≤ MAX_COMMIT_IMPORT_ENTRIES)
  (hnodup : (entries.map CommitEntry.commit).Nodup)
include h hne hlength hnodup

theorem importable_rawEntries (start : ℕ) :
    Importable tables (rawEntries start entries) := by
  have hsize : (rawEntries start entries).length = entries.length := by
    have hmap := congrArg List.length (entryOf_rawEntries h start)
    rwa [List.length_map, List.length_map] at hmap
  refine ⟨hsize ▸ hlength, ?_, fun item hitem => ?_, ?_⟩
  · rw [← List.length_pos_iff, hsize]
    exact List.length_pos_iff.mpr hne
  · have hmem := List.mem_map_of_mem (f := entryOf tables) hitem
    rw [entryOf_rawEntries h] at hmem
    obtain ⟨entry, -, heq⟩ := List.mem_map.mp hmem
    rw [← heq]
    rfl
  · rw [filterMap_rawEntries h]
    intro first hfirst other hother hcommit
    rw [List.inj_on_of_nodup_map hnodup hfirst hother hcommit]

theorem importRows_rowsOf {bytes : List ℕ}
    (hbytes : encode (serializeCommitEntries entries) = some bytes)
    (hsize : bytes.length ≤ MAX_COMMIT_IMPORT_BYTES) :
    ∃ result, importRows tables (header :: rowsOf entries) = some result ∧
      result.entries = entries ∧ result.errors = [] ∧ result.warnings = [] := by
  have himportable := importable_rawEntries h hne hlength hnodup 2
  have himported : importedEntries tables (rawEntries 2 entries) = entries := by
    rw [importedEntries, filterMap_rawEntries h,
      firstOccurrences_of_nodup (List.Nodup.of_map _ hnodup)]
  have hchecked := checked_check tables (rawEntries 2 entries)
  have hwarnings : (check tables (rawEntries 2 entries)).warnings = [] := by
    refine hchecked.warnings (hchecked.errors.mpr himportable.accepted) ?_
    rw [filterMap_rawEntries h]
    exact hnodup
  have hvalidated : validateCommitEntries tables (rawEntries 2 entries) =
      some { entries := entries } := by
    rw [himportable.validateCommitEntries_eq, himported, hbytes, Option.map_some,
      if_neg (Nat.not_lt.mpr hsize), hwarnings]
  have hwide : ∀ item ∈ ((rowsOf entries).zipIdx 2).map fun item => (item.2, item.1),
      item.2.length = 2 := by
    intro item hitem
    obtain ⟨row, hrow, rfl⟩ := List.mem_map.mp hitem
    obtain ⟨entry, -, heq⟩ := List.mem_map.mp (List.fst_mem_of_mem_zipIdx hrow)
    rw [← heq]
    rfl
  have hrows : withoutHeader tables (numberedRows (header :: rowsOf entries)) =
      (0, 1, ((rowsOf entries).zipIdx 2).map fun item => (item.2, item.1)) := by
    rw [numberedRows_cons h, withoutHeader]
    simp only [resolveHeaderColumns_header]
  have hkept := List.filter_eq_self.mpr fun item hitem => decide_eq_true (hwide item hitem)
  have herrors := List.filter_eq_nil_iff.mpr fun item hitem =>
    (decide_eq_false_iff_not.mpr (not_not.mpr (hwide item hitem)) ▸ Bool.false_ne_true :
      ¬ decide (item.2.length ≠ 2) = true)
  rw [importRows, hrows]
  dsimp only
  rw [hkept, herrors, ← rawEntries, hvalidated]
  exact ⟨_, rfl, rfl, rfl, rfl⟩

end

theorem serializeCommitEntries_eq (entries : List CommitEntry) :
    serializeCommitEntries entries = CsvText.write (dialect .csv) (header :: rowsOf entries) := rfl

theorem Normal.hexDigits (h : Normal tables entry) : ∀ c ∈ entry.commit, isHexDigit c := by
  have hentry := h.valid
  rw [isEntry, Bool.and_eq_true, Bool.and_eq_true, isSha, Bool.and_eq_true, List.all_eq_true]
    at hentry
  exact hentry.1.1.2

theorem isSome_encodeOne {c : ℕ} (h : c < 128) : (encodeOne c).isSome := by
  rw [encodeOne, if_pos h]
  rfl

def TitlesEncodable (entries : List CommitEntry) : Prop :=
  ∀ entry ∈ entries, ∀ c ∈ entry.commitTitle, (encodeOne c).isSome

theorem isSome_encode_serialize (h : ∀ entry ∈ entries, Normal tables entry) :
    (encode (serializeCommitEntries entries)).isSome ↔ TitlesEncodable entries := by
  rw [serializeCommitEntries_eq, isSome_encode_iff]
  constructor
  · intro hall entry hentry c hc
    have hrow : [entry.commit, entry.commitTitle] ∈ header :: rowsOf entries :=
      List.mem_cons_of_mem _ (List.mem_map_of_mem hentry)
    exact hall c (CsvText.mem_write hrow (List.mem_cons_of_mem _ (List.mem_singleton_self _)) hc)
  · intro htitles c hc
    obtain hmark | ⟨row, hrow, field, hfield, hc⟩ := CsvText.of_mem_write hc
    · have hmarks : ∀ c ∈ [44, 34, 13, 10], (encodeOne c).isSome := by decide
      exact hmarks c hmark
    · obtain rfl | hrow := List.mem_cons.mp hrow
      · have hheader : ∀ field ∈ header, ∀ c ∈ field, (encodeOne c).isSome := by decide
        exact hheader field hfield c hc
      · obtain ⟨entry, hentry, rfl⟩ := List.mem_map.mp hrow
        obtain rfl | hfield := List.mem_cons.mp hfield
        · exact isSome_encodeOne (lt_of_isHexDigit ((h entry hentry).hexDigits c hc))
        · rw [List.mem_singleton.mp hfield] at hc
          exact htitles entry hentry c hc

/-- The bytes of the CSV of some entries: the header, and for each entry its two fields, the comma
and the line end. A field with a comma or a quote has its quotes doubled and two around it. -/
def csvSize (entries : List CommitEntry) : ℕ :=
  24 + (entries.map fun entry => CsvText.fieldWeight width (dialect .csv) entry.commit +
    CsvText.fieldWeight width (dialect .csv) entry.commitTitle + 3).sum

theorem length_encode_serialize
    (h : encode (serializeCommitEntries entries) = some bytes) :
    bytes.length = csvSize entries := by
  have hrows : ∀ entries : List CommitEntry,
      ((CsvText.write (dialect .csv) (rowsOf entries)).map width).sum =
        (entries.map fun entry => CsvText.fieldWeight width (dialect .csv) entry.commit +
          CsvText.fieldWeight width (dialect .csv) entry.commitTitle + 3).sum := by
    intro entries
    induction entries with
    | nil => rfl
    | cons entry entries ih =>
      have hcons : CsvText.write (dialect .csv) (rowsOf (entry :: entries)) =
          CsvText.writeRow (dialect .csv) [entry.commit, entry.commitTitle] ++
            CsvText.write (dialect .csv) (rowsOf entries) := List.flatMap_cons
      rw [hcons, List.map_append, List.sum_append, CsvText.sum_writeRow, ih, List.map_cons,
        List.sum_cons]
      rfl
  have hheader : ((CsvText.writeRow (dialect .csv) header).map width).sum = 24 := by decide
  have hcons : serializeCommitEntries entries = CsvText.writeRow (dialect .csv) header ++
      CsvText.write (dialect .csv) (rowsOf entries) := List.flatMap_cons
  rw [length_encode h, hcons, List.map_append, List.sum_append, hheader, hrows, csvSize]

/-- No field is longer than the `csv` module reads. -/
def FieldsReadable (entries : List CommitEntry) : Prop :=
  ∀ entry ∈ entries, entry.commit.length ≤ FIELD_SIZE_LIMIT ∧
    entry.commitTitle.length ≤ FIELD_SIZE_LIMIT

theorem read_serialize (h : ∀ entry ∈ entries, Normal tables entry) :
    (FieldsReadable entries → CsvText.read (dialect .csv) FIELD_SIZE_LIMIT
      (serializeCommitEntries entries) = .ok (header :: rowsOf entries)) ∧
    (¬ FieldsReadable entries → CsvText.read (dialect .csv) FIELD_SIZE_LIMIT
      (serializeCommitEntries entries) = .error .fieldTooLong) := by
  have hinline : ∀ row ∈ header :: rowsOf entries, ∀ field ∈ row,
      CsvText.Inline (dialect .csv) field := by
    intro row hrow field hfield c hc
    obtain rfl | hrow := List.mem_cons.mp hrow
    · have hheader : ∀ field ∈ header, ∀ c ∈ field, (dialect .csv).isLineEnd c = false := by
        decide
      exact hheader field hfield c hc
    · obtain ⟨entry, hentry, rfl⟩ := List.mem_map.mp hrow
      have hentry := h entry hentry
      obtain rfl | hfield := List.mem_cons.mp hfield
      · have hdigit : ∀ c < 128, isHexDigit c → (dialect .csv).isLineEnd c = false := by decide
        exact hdigit c (lt_of_isHexDigit (hentry.hexDigits c hc)) (hentry.hexDigits c hc)
      · have hline := hentry.valid
        rw [isEntry, Bool.and_eq_true, isSingleLine, Bool.and_eq_true, Bool.and_eq_true,
          decide_eq_true_eq, decide_eq_true_eq, decide_eq_true_eq,
            ← List.mem_singleton.mp hfield] at hline
        rw [CsvText.Dialect.isLineEnd, Bool.or_eq_false_iff, decide_eq_false_iff_not,
          decide_eq_false_iff_not]
        refine ⟨fun heq => hline.2.2 ?_, fun heq => hline.2.1 ?_⟩
        · rwa [heq] at hc
        · rwa [heq] at hc
  have hwide : ∀ row ∈ header :: rowsOf entries, 2 ≤ row.length := by
    intro row hrow
    obtain rfl | hrow := List.mem_cons.mp hrow
    · exact Nat.le_refl 2
    · obtain ⟨entry, -, rfl⟩ := List.mem_map.mp hrow
      exact Nat.le_refl 2
  have hfits : (∀ row ∈ header :: rowsOf entries, ∀ field ∈ row, field.length ≤ FIELD_SIZE_LIMIT) ↔
      FieldsReadable entries := by
    have hheader : ∀ field ∈ header, field.length ≤ FIELD_SIZE_LIMIT := by decide
    simp only [List.forall_mem_cons, rowsOf, List.forall_mem_map, List.not_mem_nil,
      false_imp_iff, implies_true, and_true, FieldsReadable]
    exact and_iff_right hheader
  have hread := CsvText.read_write FIELD_SIZE_LIMIT hinline hwide
  rw [serializeCommitEntries_eq, hread]
  exact ⟨fun hreadable => if_pos (hfits.mpr hreadable), fun hlong =>
    if_neg fun hall => hlong (hfits.mp hall)⟩

theorem decodeSig_serialize (h : encode (serializeCommitEntries entries) = some bytes) :
    decodeSig bytes = some (serializeCommitEntries entries) := by
  have hhead : (serializeCommitEntries entries).head? = some 99 := rfl
  have hmark : ¬ (some 99 : Option ℕ) = some 0xFEFF := by decide
  rw [decodeSig, decode_encode h, Option.map_some, hhead, if_neg hmark]

theorem normal_importedEntries (tables : UnicodeTables) (items : List ImportItem) :
    ∀ entry ∈ importedEntries tables items, Normal tables entry := by
  intro entry hentry
  obtain ⟨item, -, hitem⟩ := List.mem_filterMap.mp (mem_importedEntries.mp hentry)
  exact normal_of_entryOf hitem

theorem parseCommitImport_serialize (h : Importable tables items)
    (hbytes : encode (serializeCommitEntries (importedEntries tables items)) = some bytes)
    (hsize : bytes.length ≤ MAX_COMMIT_IMPORT_BYTES) :
    (∃ again, parseCommitImport tables bytes .csv = some again ∧
      again.entries = importedEntries tables items ∧ again.errors = [] ∧ again.warnings = []) ↔
      FieldsReadable (importedEntries tables items) := by
  have hsmall : ¬ MAX_COMMIT_IMPORT_BYTES < bytes.length := Nat.not_lt.mpr hsize
  have hread := read_serialize (normal_importedEntries tables items)
  by_cases hfields : FieldsReadable (importedEntries tables items)
  · refine iff_of_true ?_ hfields
    have hlength := (length_importedEntries_le tables items).trans h.length_le
    simp only [parseCommitImport, if_neg hsmall, decodeSig_serialize hbytes, hread.1 hfields]
    exact importRows_rowsOf (normal_importedEntries tables items)
      h.importedEntries_ne_nil hlength h.nodup_commits
      hbytes hsize
  · refine iff_of_false ?_ hfields
    rintro ⟨again, hagain, -, herrors, -⟩
    simp only [parseCommitImport, if_neg hsmall, decodeSig_serialize hbytes, hread.2 hfields,
      Option.some.injEq] at hagain
    rw [← hagain] at herrors
    exact List.cons_ne_nil _ _ herrors

end CommitImport

open CommitImport

/-- `validate_commit_entries` returns for these values, and the entries that it returns without an
error are imported again from their CSV, without an error or a warning. -/
def RoundTrips (tables : UnicodeTables) (values : List JsonText.Value) : Prop :=
  ∃ result, validateCommitEntries tables (values.map .value) = some result ∧
    (result.errors = [] → ∃ bytes, encode (serializeCommitEntries result.entries) = some bytes ∧
      ∃ again, parseCommitImport tables bytes .csv = some again ∧
        again.entries = result.entries ∧ again.errors = [] ∧ again.warnings = [])

/-- When the values are commits to import, their titles have bytes, and unless the CSV of the
different ones is too large no field is longer than the `csv` module reads. -/
def ReadableAgain (tables : UnicodeTables) (values : List JsonText.Value) : Prop :=
  Importable tables (values.map .value) →
    TitlesEncodable ((values.map .value).filterMap (entryOf tables)) ∧
      (csvSize (importedEntries tables (values.map .value)) ≤ MAX_COMMIT_IMPORT_BYTES →
        FieldsReadable ((values.map .value).filterMap (entryOf tables)))

theorem roundTrips_iff (tables : UnicodeTables) (values : List JsonText.Value) :
    RoundTrips tables values ↔ ReadableAgain tables values := by
  by_cases h : Importable tables (values.map .value)
  · have htitles : TitlesEncodable ((values.map .value).filterMap (entryOf tables)) ↔
        TitlesEncodable (importedEntries tables (values.map .value)) :=
      forall_congr' fun entry => imp_congr_left mem_importedEntries.symm
    have hfields : FieldsReadable ((values.map .value).filterMap (entryOf tables)) ↔
        FieldsReadable (importedEntries tables (values.map .value)) :=
      forall_congr' fun entry => imp_congr_left mem_importedEntries.symm
    have hencode := isSome_encode_serialize
      (normal_importedEntries tables (values.map .value))
    rw [RoundTrips, ReadableAgain, htitles, hfields, h.validateCommitEntries_eq, ← hencode]
    cases hbytes : encode (serializeCommitEntries (importedEntries tables (values.map .value))) with
    | none =>
      refine iff_of_false ?_ fun hreadable => Bool.false_ne_true (hreadable h).1
      rintro ⟨result, hresult, -⟩
      cases hresult
    | some bytes =>
      rw [← length_encode_serialize hbytes, Option.map_some]
      by_cases hsize : MAX_COMMIT_IMPORT_BYTES < bytes.length
      · rw [if_pos hsize]
        refine iff_of_true ⟨_, rfl, fun herrors => absurd herrors (List.cons_ne_nil _ _)⟩ ?_
        exact fun _ => ⟨rfl, fun hle => absurd hle (Nat.not_le.mpr hsize)⟩
      · rw [if_neg hsize]
        have hparse := parseCommitImport_serialize h hbytes (Nat.not_lt.mp hsize)
        constructor
        · rintro ⟨result, hresult, hagain⟩
          cases hresult
          obtain ⟨bytes', hbytes', hagain⟩ := hagain rfl
          obtain rfl := Option.some.inj (hbytes.symm.trans hbytes')
          exact fun _ => ⟨rfl, fun _ => hparse.mp hagain⟩
        · intro hreadable
          refine ⟨_, rfl, fun _ => ⟨bytes, hbytes, ?_⟩⟩
          exact hparse.mpr ((hreadable h).2 (Nat.not_lt.mp hsize))
  · obtain ⟨result, hresult, herrors⟩ := validateCommitEntries_of_not_importable h
    exact iff_of_true ⟨result, hresult, fun hnone => absurd hnone herrors⟩ fun himportable =>
      absurd himportable h

namespace CommitImport

def asciiTables : UnicodeTables := ⟨isAsciiAlnum, fun t => t.map asciiLower, fun _ _ => rfl,
  fun _ _ => rfl⟩

/-- `{"commit": "deadbeef", "commit_title": "\ud800"}`. -/
def surrogateTitle : List JsonText.Value :=
  [.obj [(text "commit", .str (text "deadbeef")), (text "commit_title", .str [0xD800])]]

/-- For a title that is a lone surrogate the function raises. -/
theorem surrogateTitle_not_roundTrips : ¬ RoundTrips asciiTables surrogateTitle := by
  rintro ⟨result, hresult, -⟩
  have hraises : validateCommitEntries asciiTables (surrogateTitle.map .value) = none := by decide
  cases hresult

end CommitImport

end WittyService
