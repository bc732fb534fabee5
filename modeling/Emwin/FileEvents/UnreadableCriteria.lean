/-
# Unreadable criteria

A file that passes the filter of a request has the property that a field names exactly when the
field can be read (`criterion_iff_readable`).  A field that cannot be read is dropped without an
error: the filter is that of the request without it (`tryFromInput_readablePart`), and a request
with nothing but such fields is for every file.
-/
import Emwin.FileEvents.CriteriaKept

namespace FileEvents

open Parser Query Floats Live

variable {F : Type}

/-! ## What is dropped -/

/-- A text for presence, unless it cannot be read. -/
def readableBool (raw : Option Str) : Option Str :=
  if (parseOptionalBool raw).isSome then raw else none

/-- A list of numbers, unless nothing of it can be read. -/
def readableNumbers (raw : Option Str) : Option Str :=
  if (csvNumbers raw).isSome then raw else none

/-- A request without its unreadable fields. -/
def FileFilterInput.readablePart (input : FileFilterInput F) : FileFilterInput F :=
  { input with
    hasIssues := readableBool input.hasIssues
    hasVtec := readableBool input.hasVtec
    hasUgc := readableBool input.hasUgc
    hasHvtec := readableBool input.hasHvtec
    hasLatlon := readableBool input.hasLatlon
    hasTimeMotLoc := readableBool input.hasTimeMotLoc
    hasWindHail := readableBool input.hasWindHail
    etn := readableNumbers input.etn }

theorem parseOptionalBool_readableBool (raw : Option Str) :
    parseOptionalBool (readableBool raw) = parseOptionalBool raw := by
  unfold readableBool
  split_ifs with h
  · rfl
  · rw [Option.not_isSome_iff_eq_none.mp h]
    rfl

theorem csvNumbers_readableNumbers (raw : Option Str) :
    csvNumbers (readableNumbers raw) = csvNumbers raw := by
  unfold readableNumbers
  split_ifs with h
  · rfl
  · rw [Option.not_isSome_iff_eq_none.mp h]
    rfl

/-- **Dropped.**  Unreadable fields change neither the filter nor the error. -/
theorem tryFromInput_readablePart [FloatArith F] (input : FileFilterInput F) :
    FileEventFilter.tryFromInput input.readablePart = FileEventFilter.tryFromInput input := by
  have hissues : readIssues input.readablePart = readIssues input := by
    simp only [readIssues, FileFilterInput.readablePart, parseOptionalBool_readableBool]
  have hvtec : readVtec input.readablePart = readVtec input := by
    simp only [readVtec, FileFilterInput.readablePart, csvNumbers_readableNumbers]
  have hhvtec : readHvtec input.readablePart = readHvtec input := by
    simp only [readHvtec, FileFilterInput.readablePart, parseOptionalBool_readableBool]
  have hwindHail : readWindHail input.readablePart = readWindHail input := by
    simp only [readWindHail, FileFilterInput.readablePart, parseOptionalBool_readableBool]
  have hpresence : readPresence input.readablePart = readPresence input := by
    simp only [readPresence, FileFilterInput.readablePart, parseOptionalBool_readableBool]
  have hlocation : LocationFilter.tryFromInput input.readablePart =
      LocationFilter.tryFromInput input := rfl
  unfold FileEventFilter.tryFromInput
  rw [hissues, hvtec, hhvtec, hwindHail, hpresence, hlocation]
  rfl

/-! ## Without constraints -/

variable [FloatMath F]

/-- A filter without constraints passes every file. -/
theorem matchesMetadata_of_not_hasConstraints {f : FileEventFilter F}
    (h : f.hasConstraints = false) (metadata : CompletedFileMetadata F) :
    f.matchesMetadata metadata = true := by
  simp only [FileEventFilter.hasConstraints, Bool.or_eq_false_iff] at h
  obtain ⟨⟨⟨⟨⟨⟨⟨⟨⟨⟨hfilename, hsize⟩, hproduct⟩, hheader⟩, hissues⟩, hgeo⟩, hvtec⟩, hhvtec⟩,
    hwindHail⟩, hlocation⟩, hpresence⟩ := h
  refine matchesMetadata_eq_true.mpr ⟨?_, ?_, ?_, ?_, ?_, ?_, ?_, ?_, ?_, ?_, ?_⟩
  · rintro pattern hsome
    rw [hsome] at hfilename
    cases hfilename
  · simp only [SizeRange.hasConstraints, Bool.or_eq_false_iff, Option.isSome_eq_false_iff,
      Option.isNone_iff_eq_none] at hsize
    simp [SizeRange.accepts, hsize]
  · simp only [ProductFilter.hasConstraints, Bool.or_eq_false_iff, Option.isSome_eq_false_iff,
      Option.isNone_iff_eq_none] at hproduct
    simp [ProductFilter.accepts, hproduct, matchesSerializedOption, matchesOptionSet]
  · unfold HeaderFilter.accepts
    rw [if_pos hheader]
  · simp only [IssueFilter.hasConstraints, Bool.or_eq_false_iff, Option.isSome_eq_false_iff,
      Option.isNone_iff_eq_none] at hissues
    simp [IssueFilter.accepts, hissues]
  · unfold LocationFilter.accepts
    rw [if_pos hlocation]
  · simp only [BodyPresenceFilter.hasConstraints, Bool.or_eq_false_iff, Option.isSome_eq_false_iff,
      Option.isNone_iff_eq_none] at hpresence
    simp [BodyPresenceFilter.accepts, hpresence, matchesOptionalPresence]
  · unfold GeoFilter.accepts
    rw [if_pos hgeo]
  · unfold VtecFilter.accepts
    rw [if_pos hvtec]
  · unfold HvtecFilter.accepts
    rw [if_pos hhvtec]
  · unfold WindHailFilter.accepts
    rw [if_pos hwindHail]

/-! ## Criteria -/

variable {input : FileFilterInput F} {metadata : CompletedFileMetadata F} {field : Field}

/-- **Criteria.**  A file that passes has the property that a field names exactly when the
field can be read. -/
theorem criterion_iff_readable {filter : FileEventFilter F}
    (hread : FileEventFilter.tryFromInput input = .ok filter)
    (haccepts : filter.matchesMetadata metadata = true) (hholds : Holds input field) :
    Named input metadata field ↔ Readable input field := by
  obtain ⟨hlocation, heq⟩ := FileEventFilter.tryFromInput_eq_ok hread
  have h := matchesMetadata_eq_true.mp haccepts
  have hplace := h.location
  rw [heq] at h
  cases hpart : field.part with
  | filename =>
      exact iff_of_true (named_of_filename hpart hholds h.filename) (readable_of_part hpart rfl)
  | size => exact iff_of_true (named_of_size hpart hholds h.size) (readable_of_part hpart rfl)
  | product =>
      exact iff_of_true (named_of_product hpart hholds h.product) (readable_of_part hpart rfl)
  | header => exact iff_of_true (named_of_header hpart hholds h.header) (readable_of_part hpart rfl)
  | issues => exact named_iff_of_issues hpart hholds h.issues
  | presence => exact named_iff_of_presence hpart h.presence
  | geo => exact iff_of_true (named_of_geo hpart hholds h.geo) (readable_of_part hpart rfl)
  | vtec => exact named_iff_of_vtec hpart hholds h.vtec
  | hvtec => exact iff_of_true (named_of_hvtec hpart hholds h.hvtec) (readable_of_part hpart rfl)
  | windHail =>
      exact iff_of_true (named_of_windHail hpart hholds h.windHail) (readable_of_part hpart rfl)
  | location =>
      exact iff_of_true (named_of_location hpart hholds hlocation hplace)
        (readable_of_part hpart rfl)


/-- Numbers without rounding, with the functions of angles to the first terms of their series. -/
instance : FloatMath Number where
  ofRat := .finite
  toRadians x := x * .finite (355 / (113 * 180))
  sin x := x - x * x * x / const 6
  cos x := const 1 - x * x / const 2
  sqrt x := match x with
    | .finite x => .finite (Nat.sqrt (x * 10 ^ 12).floor.toNat / 10 ^ 6)
    | x => x
  atan2 y x := y / x

/-- A warning with one VTEC code. -/
def warning : CompletedFileMetadata Number where
  filename := "A_WUUS53KOAX051200_C_KWIN_20250305120000_000001-2-SVROAXNE.TXT".toList
  size := 900
  product :=
    { body := some (.vtecEvent [
        { segmentIndex := 0
          vtec := [⟨'O', "NEW".toList, "KOAX".toList, "SV".toList, 'W', 12, none, none⟩]
          ugcSections := []
          hvtec := []
          polygons := []
          timeMotLoc := []
          windHail := [] }])
      issues := []
      source := .textHeader
      family := some "nws_text_product".toList
      container := "raw".toList
      pil := some "SVR".toList
      wmoPrefix := some "WU".toList
      office := none
      header := none
      wmoHeader := none
      bbbKind := none }

/-- A request of which one element cannot be read. -/
def partlyReadable : FileFilterInput Number :=
  { etn := some "abc, 12".toList, hasVtec := some " TRUE".toList }

/-- The warning passes the partly readable request, and has what it asks for. -/
theorem criterion_iff_readable_etn :
    Named partlyReadable warning .etn ↔ Readable partlyReadable .etn :=
  criterion_iff_readable rfl (by decide) (show elements partlyReadable.etn ≠ [] by decide)

/-- A request of which nothing can be read. -/
def unreadable : FileFilterInput Number := { etn := some "abc".toList }

/-- The unreadable request passes every file. -/
theorem unreadable_passes_all : ∃ filter, FileEventFilter.tryFromInput unreadable = .ok filter ∧
    (∀ metadata, filter.matchesMetadata metadata = true) ∧ Holds unreadable .etn ∧
      ¬ Named unreadable warning .etn := by
  have helements : elements unreadable.etn = ["abc".toList] := by decide
  refine ⟨_, rfl, fun metadata => matchesMetadata_of_not_hasConstraints (by decide) metadata,
    by rw [Holds, helements]; decide, ?_⟩
  rintro ⟨code, -, element, helement, hnumber⟩
  rw [helements, List.mem_singleton] at helement
  rw [helement] at hnumber
  cases hnumber

end FileEvents
