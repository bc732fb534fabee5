/-
# Codes between slashes

`body/vtec.rs` and `body/hvtec.rs` read codes such as
`/O.NEW.KDMX.TO.W.0123.250301T1200Z-250301T1300Z/`.  Both look at everything that stands between
two slashes.  The reader of times and the catalog of gauges are parameters.
-/
import Emwin.Parser.Support

namespace Parser

open Calendar Chrono

/-! ## Candidates -/

/-- What stands between the slash in front and the next one, with both. -/
def betweenSlashes (s : Str) : List Str :=
  if '/' ∈ s then ['/' :: s.takeWhile (· ≠ '/') ++ ['/']] else []

/-- `scan_slash_delimited_candidates`.  Its arms for the ends of lines do not stop the search
for the second slash. -/
def scanSlashDelimitedCandidates (predicate : Str → Bool) : Str → List Str
  | [] => []
  | c :: s =>
      (if c = '/' then (betweenSlashes s).filter predicate else []) ++
        scanSlashDelimitedCandidates predicate s

/-- The text between the slashes of a candidate. -/
def innerText (raw : Str) : Option Str := (Str.stripPrefix ['/'] raw).bind (Str.stripSuffix ['/'])

/-- The character of a field of one byte. -/
def singleChar (field : Str) : Option Char := if Str.byteLen field = 1 then field.head? else none

/-- What is read of the time in a code, with chrono's reader. -/
def parseCodeTime (parseFromStr : Str → Option DateTime) (token : Str) : Option DateTime :=
  if Str.byteLen token ≠ 12 then none else parseFromStr token

/-- The time that stands for none. -/
def unspecifiedTime : Str := "000000T0000Z".toList

/-- An issue about a code. -/
def codeIssue (kind code message raw : Str) : ProductParseIssue where
  kind := kind
  code := code
  message := message ++ ": `".toList ++ raw ++ "`".toList
  line := some raw

/-- The codes and the issues of a text, from its candidates. -/
def parseCodes {α : Type} (predicate : Str → Bool) (parse : Str → Except ProductParseIssue α)
    (text : Str) : List α × List ProductParseIssue :=
  let results := (scanSlashDelimitedCandidates predicate text).map parse
  (results.filterMap Except.toOption,
    results.filterMap fun result => match result with
      | .ok _ => none
      | .error issue => some issue)

/-! ## VTEC -/

/-- A VTEC code. -/
structure VtecCode where
  status : Char
  action : Str
  office : Str
  phenomena : Str
  significance : Char
  etn : ℕ
  beginTime : Option DateTime
  endTime : Option DateTime
  deriving DecidableEq

/-- The predicate of `find_vtec_candidates`. -/
def isVtecCandidate (candidate : Str) : Bool :=
  match candidate with
  | _ :: status :: dot :: _ => status.isUpper && dot = '.'
  | _ => false

/-- `invalid_format_issue` of VTEC. -/
def invalidVtecFormat (raw : Str) : ProductParseIssue :=
  codeIssue "vtec_parse".toList "invalid_vtec_format".toList "could not parse VTEC code".toList raw

/-- `invalid_etn_issue`. -/
def invalidVtecEtn (raw : Str) : ProductParseIssue :=
  codeIssue "vtec_parse".toList "invalid_vtec_etn".toList
    "could not parse VTEC ETN from code".toList raw

/-- The issue of a time that cannot be read. -/
def invalidVtecTime (isBegin : Bool) (raw : Str) : ProductParseIssue :=
  if isBegin then
    codeIssue "vtec_parse".toList "invalid_vtec_begin_time".toList
      "could not parse VTEC begin time from code".toList raw
  else
    codeIssue "vtec_parse".toList "invalid_vtec_end_time".toList
      "could not parse VTEC end time from code".toList raw

/-- `parse_vtec_time_or_unspecified`. -/
def parseVtecTimeOrUnspecified (parseFromStr : Str → Option DateTime) (token : Str)
    (isBegin : Bool) (raw : Str) : Except ProductParseIssue (Option DateTime) :=
  if token = unspecifiedTime then .ok none
  else
    match parseCodeTime parseFromStr token with
    | none => .error (invalidVtecTime isBegin raw)
    | some parsed => .ok (if (date parsed).year < 1971 then none else some parsed)

/-- `parse_vtec_candidate`. -/
def parseVtecCandidate (parseFromStr : Str → Option DateTime) (raw : Str) :
    Except ProductParseIssue VtecCode :=
  match (innerText raw).map (·.splitOn '.') with
  | some [status, action, office, phenomena, significance, etn, times] =>
      match singleChar status, singleChar significance with
      | some status, some significance =>
          match Str.parseUnsigned (2 ^ 32 - 1) etn with
          | none => .error (invalidVtecEtn raw)
          | some etn =>
              match Str.splitOnce '-' times with
              | none => .error (invalidVtecFormat raw)
              | some (beginRaw, endRaw) => do
                  let beginTime ← parseVtecTimeOrUnspecified parseFromStr beginRaw true raw
                  let endTime ← parseVtecTimeOrUnspecified parseFromStr endRaw false raw
                  .ok ⟨status, action, office, phenomena, significance, etn, beginTime, endTime⟩
      | _, _ => .error (invalidVtecFormat raw)
  | _ => .error (invalidVtecFormat raw)

/-- `parse_vtec_codes_with_issues`. -/
def parseVtecCodesWithIssues (parseFromStr : Str → Option DateTime) (text : Str) :
    List VtecCode × List ProductParseIssue :=
  parseCodes isVtecCandidate (parseVtecCandidate parseFromStr) text

/-- `parse_vtec_codes`. -/
def parseVtecCodes (parseFromStr : Str → Option DateTime) (text : Str) : List VtecCode :=
  (parseVtecCodesWithIssues parseFromStr text).1

/-! ## HVTEC -/

/-- A gauge of the catalog. -/
structure NwslidEntry where
  nwslid : Str
  latitude : ℚ
  longitude : ℚ
  deriving DecidableEq, Repr

/-- How severe a flood is. -/
inductive HvtecSeverity where
  | none
  | minor
  | moderate
  | major
  | unknown
  deriving DecidableEq, Repr

/-- `HvtecSeverity::from_str`. -/
def HvtecSeverity.fromStr (s : Str) : HvtecSeverity :=
  match s with
  | ['N'] | ['0'] => .none
  | ['1'] => .minor
  | ['2'] => .moderate
  | ['3'] => .major
  | _ => .unknown

/-- What causes a flood. -/
inductive HvtecCause where
  | excessiveRainfall
  | snowmelt
  | rainAndSnowmelt
  | damFailure
  | glacierOutburst
  | iceJam
  | rainSnowmeltIceJam
  | upstreamFloodingStormSurge
  | upstreamFloodingTidalEffects
  | elevatedUpstreamFlowTidalEffects
  | windTidalEffects
  | upstreamDamRelease
  | multipleCauses
  | otherEffects
  | unknown
  | other
  deriving DecidableEq, Repr

/-- `HvtecCause::from_str`. -/
def HvtecCause.fromStr (s : Str) : HvtecCause :=
  match s with
  | ['E', 'R'] => .excessiveRainfall
  | ['S', 'M'] => .snowmelt
  | ['R', 'S'] => .rainAndSnowmelt
  | ['D', 'M'] => .damFailure
  | ['G', 'O'] => .glacierOutburst
  | ['I', 'J'] => .iceJam
  | ['I', 'C'] => .rainSnowmeltIceJam
  | ['F', 'S'] => .upstreamFloodingStormSurge
  | ['F', 'T'] => .upstreamFloodingTidalEffects
  | ['E', 'T'] => .elevatedUpstreamFlowTidalEffects
  | ['W', 'T'] => .windTidalEffects
  | ['D', 'R'] => .upstreamDamRelease
  | ['M', 'C'] => .multipleCauses
  | ['O', 'T'] => .otherEffects
  | ['U', 'U'] => .unknown
  | _ => .other

/-- Whether a flood is one of record. -/
inductive HvtecRecord where
  | noRecord
  | nearRecord
  | notApplicable
  | unavailable
  | unknown
  deriving DecidableEq, Repr

/-- `HvtecRecord::from_str`. -/
def HvtecRecord.fromStr (s : Str) : HvtecRecord :=
  match s with
  | ['N', 'O'] => .noRecord
  | ['N', 'R'] => .nearRecord
  | ['O', 'O'] => .notApplicable
  | ['U', 'U'] => .unavailable
  | _ => .unknown

/-- An HVTEC code. -/
structure HvtecCode where
  nwslid : Str
  location : Option NwslidEntry
  severity : HvtecSeverity
  cause : HvtecCause
  beginTime : Option DateTime
  crestTime : Option DateTime
  endTime : Option DateTime
  record : HvtecRecord
  deriving DecidableEq

/-- `is_valid_nwslid`. -/
def isValidNwslid (field : Str) : Bool :=
  Str.byteLen field == 5 && field.all Char.isAlphanum

/-- `is_structurally_hvtec_candidate`. -/
def isStructurallyHvtecCandidate (candidate : Str) : Bool :=
  match (innerText candidate).map (·.splitOn '.') with
  | some (nwslid :: severity :: cause :: _) =>
      isValidNwslid nwslid && severity ∈ [['N'], ['0'], ['1'], ['2'], ['3'], ['U']] &&
        Str.byteLen cause == 2 && cause.all Char.isUpper
  | _ => false

/-- `invalid_format_issue` of HVTEC. -/
def invalidHvtecFormat (raw : Str) : ProductParseIssue :=
  codeIssue "hvtec_parse".toList "invalid_hvtec_format".toList
    "could not parse HVTEC code".toList raw

/-- `invalid_time_issue`. -/
def invalidHvtecTime (code message : String) (raw : Str) : ProductParseIssue :=
  codeIssue "hvtec_parse".toList code.toList message.toList raw

/-- `parse_hvtec_optional_time`. -/
def parseHvtecOptionalTime (parseFromStr : Str → Option DateTime) (token : Str) :
    Option (Option DateTime) :=
  if token = unspecifiedTime then some none else (parseCodeTime parseFromStr token).map some

/-- `parse_hvtec_candidate`. -/
def parseHvtecCandidate (nwslidEntry : Str → Option NwslidEntry)
    (parseFromStr : Str → Option DateTime) (raw : Str) : Except ProductParseIssue HvtecCode :=
  match (innerText raw).map (·.splitOn '.') with
  | some [nwslid, severity, cause, beginRaw, crestRaw, endRaw, record] =>
      match parseHvtecOptionalTime parseFromStr beginRaw with
      | none => .error (invalidHvtecTime "invalid_hvtec_begin_time"
          "could not parse HVTEC begin time from code" raw)
      | some beginTime =>
          match parseHvtecOptionalTime parseFromStr crestRaw with
          | none => .error (invalidHvtecTime "invalid_hvtec_crest_time"
              "could not parse HVTEC crest time from code" raw)
          | some crestTime =>
              match parseHvtecOptionalTime parseFromStr endRaw with
              | none => .error (invalidHvtecTime "invalid_hvtec_end_time"
                  "could not parse HVTEC end time from code" raw)
              | some endTime =>
                  .ok ⟨nwslid, nwslidEntry nwslid, .fromStr severity, .fromStr cause, beginTime,
                    crestTime, endTime, .fromStr record⟩
  | _ => .error (invalidHvtecFormat raw)

/-- `parse_hvtec_codes_with_issues`. -/
def parseHvtecCodesWithIssues (nwslidEntry : Str → Option NwslidEntry)
    (parseFromStr : Str → Option DateTime) (text : Str) : List HvtecCode × List ProductParseIssue :=
  parseCodes isStructurallyHvtecCandidate (parseHvtecCandidate nwslidEntry parseFromStr) text

/-! ## What stands between slashes -/

variable {α : Type} (predicate : Str → Bool)

/-- The text between slashes does not depend on what follows it. -/
theorem betweenSlashes_append {s : Str} (h : '/' ∈ s) (t : Str) :
    betweenSlashes (s ++ t) = betweenSlashes s := by
  obtain ⟨a, b, rfl, ha⟩ := List.eq_append_cons_of_mem h
  have htake : ∀ r : Str, (a ++ '/' :: r).takeWhile (· ≠ '/') = a := by
    intro r
    rw [List.takeWhile_append_of_pos fun c hc => decide_eq_true (ne_of_mem_of_not_mem hc ha)]
    simp
  have hjoin : a ++ '/' :: b ++ t = a ++ '/' :: (b ++ t) := by simp
  rw [hjoin, betweenSlashes, betweenSlashes, htake, htake]
  simp

/-- Text without slashes has nothing between them. -/
theorem betweenSlashes_of_notMem {s : Str} (h : '/' ∉ s) : betweenSlashes s = [] := if_neg h

/-- Candidates of two texts stay candidates of both together. -/
theorem scanSlashDelimitedCandidates_append (s t : Str) :
    (scanSlashDelimitedCandidates predicate s ++ scanSlashDelimitedCandidates predicate t).Sublist
      (scanSlashDelimitedCandidates predicate (s ++ t)) := by
  induction s with
  | nil => exact List.Sublist.refl _
  | cons c s ih =>
      rw [List.cons_append, scanSlashDelimitedCandidates, scanSlashDelimitedCandidates,
        List.append_assoc]
      refine List.Sublist.append ?_ ih
      by_cases hs : '/' ∈ s
      · rw [betweenSlashes_append hs]
      · rw [betweenSlashes_of_notMem hs]
        simp

/-- Text without slashes has no candidates, and ends none. -/
theorem scanSlashDelimitedCandidates_append_of_notMem (s : Str) {t : Str} (h : '/' ∉ t) :
    scanSlashDelimitedCandidates predicate (s ++ t) = scanSlashDelimitedCandidates predicate s := by
  induction s with
  | nil =>
      rw [List.nil_append]
      induction t with
      | nil => rfl
      | cons c t ih =>
          obtain ⟨hc, ht⟩ : '/' ≠ c ∧ '/' ∉ t := by simpa using h
          show scanSlashDelimitedCandidates predicate (c :: t) = []
          rw [scanSlashDelimitedCandidates.eq_2, if_neg (Ne.symm hc), ih ht]
          rfl
  | cons c s ih =>
      rw [List.cons_append, scanSlashDelimitedCandidates, scanSlashDelimitedCandidates, ih]
      by_cases hs : '/' ∈ s
      · rw [betweenSlashes_append hs]
      · rw [betweenSlashes_of_notMem hs, betweenSlashes_of_notMem (by simp [hs, h])]

variable (parse : Str → Except ProductParseIssue α)

/-- The codes of two texts stay codes of both together. -/
theorem parseCodes_append (s t : Str) :
    ((parseCodes predicate parse s).1 ++ (parseCodes predicate parse t).1).Sublist
      (parseCodes predicate parse (s ++ t)).1 := by
  have := ((scanSlashDelimitedCandidates_append predicate s t).map parse).filterMap Except.toOption
  simpa [parseCodes] using this

/-- Text without slashes has no codes, and ends none. -/
theorem parseCodes_append_of_notMem (s : Str) {t : Str} (h : '/' ∉ t) :
    parseCodes predicate parse (s ++ t) = parseCodes predicate parse s := by
  simp only [parseCodes, scanSlashDelimitedCandidates_append_of_notMem predicate s h]

end Parser
