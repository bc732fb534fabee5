/-
# UGC sections

`body/ugc.rs` reads blocks such as `IAC001-003>005-051200-`: area codes with shorthand and
ranges, broken over any number of lines, and the time when they expire.

`none` is a panic: the offsets of slices are counted in bytes, and some are taken from
lengths alone.  The catalogs that name the areas are a parameter.
-/
import Emwin.Lib.Maps
import Emwin.Parser.Support
import Mathlib.Data.List.Lex

namespace Parser

open Calendar Chrono

/-! ## Areas -/

/-- An entry of a catalog. -/
structure UgcLocationEntry where
  name : Str
  latitude : ℚ
  longitude : ℚ
  deriving DecidableEq, Repr

/-- The catalogs of counties and zones, by area codes. -/
structure UgcCatalog where
  ugcCountyEntry : Str → Option UgcLocationEntry
  ugcZoneEntry : Str → Option UgcLocationEntry

/-- What kind of area a code stands for. -/
inductive UgcClass where
  | county
  | zone
  | fireZone
  | marine
  | unknown
  deriving DecidableEq, Repr

/-- `UgcClass::from_char`. -/
def UgcClass.fromChar (c : Char) : UgcClass :=
  match c with
  | 'C' => .county
  | 'Z' => .zone
  | 'F' => .fireZone
  | 'M' => .marine
  | _ => .unknown

/-- `UgcClass::as_char`. -/
def UgcClass.asChar : UgcClass → Char
  | .county => 'C'
  | .zone => 'Z'
  | .fireZone => 'F'
  | .marine => 'M'
  | .unknown => 'Z'

/-- The code of one area. -/
structure UgcCode where
  state : Str
  geoclass : UgcClass
  number : ℕ
  deriving DecidableEq, Repr

/-- An area with what the catalog knows of it. -/
structure UgcArea where
  id : ℕ
  name : Option Str
  lat : Option ℚ
  lon : Option ℚ
  deriving DecidableEq, Repr

/-- The areas of a section, by kind and state. -/
structure UgcSection where
  counties : OrderedMap Str (List UgcArea)
  zones : OrderedMap Str (List UgcArea)
  fireZones : OrderedMap Str (List UgcArea)
  marineZones : OrderedMap Str (List UgcArea)
  expires : DateTime

/-- A code as it is spelled: state, class, and three digits. -/
def spell (state : Str) (geoclass : Char) (number : ℕ) : Str :=
  state ++ [geoclass] ++ padded 3 number

/-- `build_area`. -/
def buildArea (code : UgcCode) (lookup : Option (Str → Option UgcLocationEntry)) : UgcArea :=
  let entry := lookup.bind fun lookup => lookup (spell code.state code.geoclass.asChar code.number)
  { id := code.number
    name := entry.map (·.name)
    lat := entry.map (·.latitude)
    lon := entry.map (·.longitude) }

/-- `is_marine_zone_state`. -/
def isMarineZoneState (state : Str) : Bool :=
  state ∈ (["AM", "AN", "GM", "LC", "LE", "LH", "LM", "LO", "LS", "PH", "PK", "PM", "PS", "PZ",
    "SL"].map String.toList)

/-- Push an area onto the bucket of a state. -/
def pushArea (bucket : OrderedMap Str (List UgcArea)) (state : Str) (area : UgcArea) :
    OrderedMap Str (List UgcArea) :=
  bucket.insert state ((bucket.lookup state).getD [] ++ [area])

/-- One round of the loop of `UgcSection::from_codes`. -/
def UgcSection.addCode (catalog : UgcCatalog) (s : UgcSection) (code : UgcCode) : UgcSection :=
  match code.geoclass with
  | .county =>
      { s with
        counties := pushArea s.counties code.state (buildArea code (some catalog.ugcCountyEntry)) }
  | .zone | .unknown =>
      let area := buildArea code (some catalog.ugcZoneEntry)
      if isMarineZoneState code.state then
        { s with marineZones := pushArea s.marineZones code.state area }
      else { s with zones := pushArea s.zones code.state area }
  | .fireZone => { s with fireZones := pushArea s.fireZones code.state (buildArea code none) }
  | .marine => { s with marineZones := pushArea s.marineZones code.state (buildArea code none) }

/-- `UgcSection::from_codes`. -/
def UgcSection.fromCodes (catalog : UgcCatalog) (codes : List UgcCode) (expires : DateTime) :
    UgcSection :=
  codes.foldl (UgcSection.addCode catalog) ⟨.empty, .empty, .empty, .empty, expires⟩

/-! ## Candidates -/

/-- `iter_candidate_lines`. -/
def iterCandidateLines (text : Str) : List Str :=
  (Str.lines text).map (Str.trimEndMatches ['\r'])

/-- `compact_ugc_text`. -/
def compactUgcText (text : Str) : Str := text.filter fun c => !Str.isWhitespace c

/-- `is_ugc_start`.  Behind six ASCII characters the next byte is that of a character. -/
def isUgcStart (line : Str) : Bool :=
  match Str.trimStart line with
  | a :: b :: geoclass :: d1 :: d2 :: d3 :: rest =>
      a.isUpper && b.isUpper && (geoclass ∈ ['C', 'Z', 'F', 'M']) && d1.isDigit && d2.isDigit &&
        d3.isDigit && rest.head?.all (· ∈ ['-', '>', ',', ' ', '\t'])
  | _ => false

/-- `has_ugc_expiration_suffix`.  The slice is taken from the length only. -/
def hasUgcExpirationSuffix (text : Str) : Option Bool :=
  if 8 ≤ Str.byteLen text ∧ text.getLast? = some '-' then do
    let digits ← Str.slice (Str.byteLen text - 7) (Str.byteLen text - 1) text
    some (digits.all Char.isDigit && Str.byteAt (Str.byteLen text - 8) text == some 0x2D)
  else some false

/-- `starts_new_section_header`. -/
def startsNewSectionHeader (line : Str) : Bool :=
  let trimmed := Str.trim line
  if trimmed = [] then false
  else if trimmed.getLast? = some ':' ∨ (Str.find "...".toList trimmed).isSome then true
  else
    let firstToken := (Str.splitWhitespace trimmed).head?.getD []
    !isUgcStart trimmed && decide (4 ≤ Str.byteLen firstToken) &&
      firstToken.head?.any Char.isUpper &&
      firstToken.all fun c => c.isUpper || c.isDigit || (c ∈ ['/', '-'])

/-- The loop of `collect_ugc_candidate`: join lines until the text is complete, and count
them. -/
def collectLines (combined : Str) : List Str → Option (Str × ℕ)
  | [] => (hasUgcExpirationSuffix combined).map fun _ => (combined, 0)
  | nextLine :: lines => do
      if ← hasUgcExpirationSuffix combined then some (combined, 0)
      else
        let next := Str.trim nextLine
        if next = [] ∨ startsNewSectionHeader next then some (combined, 0)
        else do
          let (joined, further) ← collectLines (combined ++ compactUgcText next) lines
          some (joined, further + 1)

/-- `collect_ugc_candidate`. -/
def collectUgcCandidate (firstLine : Str) (remainingLines : List Str) :
    Option (Option Str × ℕ) := do
  let (combined, further) ← collectLines (compactUgcText firstLine) remainingLines
  let complete ← hasUgcExpirationSuffix combined
  some (if complete then some combined else none, further)

/-- `extract_ugc_candidates`. -/
def extractUgcCandidates (text : Str) : Option (List Str) :=
  Lines.scan isUgcStart collectUgcCandidate (iterCandidateLines text)

/-! ## Codes -/

/-- `is_three_digit_ugc_token`. -/
def isThreeDigitUgcToken (token : Str) : Bool :=
  Str.byteLen token == 3 && token.all Char.isDigit

/-- `is_one_to_three_digit_ugc_token`. -/
def isOneToThreeDigitUgcToken (token : Str) : Bool :=
  decide (1 ≤ Str.byteLen token ∧ Str.byteLen token ≤ 3) && token.all Char.isDigit

/-- `is_ugc_numeric_sequence`. -/
def isUgcNumericSequence (segment : Str) : Bool :=
  match segment.splitOn '>' with
  | [] => false
  | first :: others =>
      isThreeDigitUgcToken first &&
        match others with
        | [] => true
        | [last] => isOneToThreeDigitUgcToken last
        | others => (others.length + 1) % 2 == 0 && others.all isOneToThreeDigitUgcToken

/-- `parse_ugc_number`. -/
def parseUgcNumber (text : Str) : Option ℕ :=
  if isThreeDigitUgcToken text then Str.parseUnsigned (2 ^ 16 - 1) text else none

/-- `parse_ugc_range_end`. -/
def parseUgcRangeEnd (start : ℕ) (token : Str) : Option ℕ :=
  if isOneToThreeDigitUgcToken token = false then none
  else if Str.byteLen token = 3 then do
    let last ← parseUgcNumber token
    if start ≤ last then some last else none
  else do
    let suffix ← Str.parseUnsigned (2 ^ 16 - 1) token
    let magnitude := 10 ^ Str.byteLen token
    let last := start / magnitude * magnitude + suffix
    if start ≤ last then some last else none

/-- The loop of `parse_ugc_numeric_ranges` over pairs of tokens. -/
def parseUgcRanges : List Str → Option (List (ℕ × ℕ))
  | first :: last :: tokens => do
      let start ← parseUgcNumber first
      let stop ← parseUgcRangeEnd start last
      let ranges ← parseUgcRanges tokens
      some ((start, stop) :: ranges)
  | _ => some []

/-- `parse_ugc_numeric_ranges`. -/
def parseUgcNumericRanges (numeric : Str) : Option (List (ℕ × ℕ)) :=
  match numeric.splitOn '>' with
  | [] => none
  | [token] => do
      let first ← parseUgcNumber token
      some [(first, first)]
  | tokens => do
      let _ ← parseUgcNumber (tokens.headD [])
      if tokens.length % 2 = 0 then parseUgcRanges tokens else none

/-- `parse_full_ugc_segment`.  The state is sliced off before it is looked at. -/
def parseFullUgcSegment (segment : Str) : Option (Option (Str × UgcClass × Str)) :=
  if Str.byteLen segment < 6 then some none
  else do
    let state ← Str.sliceTo 2 segment
    let geoclass := Char.ofNat (((Str.byteAt 2 segment).map UInt8.toNat).getD 0)
    if state.all Char.isUpper = false then some none
    else if geoclass ∉ ['C', 'Z', 'F', 'M'] then some none
    else do
      let numeric ← Str.sliceFrom 3 segment
      some (if isUgcNumericSequence numeric then some (state, .fromChar geoclass, numeric)
        else none)

/-- The codes of a range. -/
def rangeCodes (state : Str) (geoclass : UgcClass) (range : ℕ × ℕ) : List UgcCode :=
  (List.range' range.1 (range.2 + 1 - range.1)).map fun number => ⟨state, geoclass, number⟩

/-- The codes of ranges behind a state and a class. -/
def expandRanges (state : Str) (geoclass : UgcClass) (numeric : Str) : Option (List UgcCode) :=
  (parseUgcNumericRanges numeric).map (List.flatMap (rangeCodes state geoclass))

/-- `parse_ugc_segment`: the codes, and the prefix for the segments behind it. -/
def parseUgcSegment (segment : Str) (currentPrefix : Option (Str × UgcClass)) :
    Option (Option (List UgcCode × Option (Str × UgcClass))) := do
  match ← parseFullUgcSegment segment with
  | some (state, geoclass, numeric) =>
      some ((expandRanges state geoclass numeric).map fun codes => (codes, some (state, geoclass)))
  | none =>
      if isUgcNumericSequence segment then
        match currentPrefix with
        | none => some none
        | some (state, geoclass) =>
            some ((expandRanges state geoclass segment).map fun codes => (codes, currentPrefix))
      else some none

/-- The loop of `expand_ugc_block`. -/
def expandSegments (currentPrefix : Option (Str × UgcClass)) :
    List Str → Option (Option (List UgcCode))
  | [] => some (some [])
  | segment :: segments =>
      if segment = [] then expandSegments currentPrefix segments
      else do
        match ← parseUgcSegment (Str.trim segment) currentPrefix with
        | none => some none
        | some (codes, currentPrefix) =>
            let rest ← expandSegments currentPrefix segments
            some (rest.map (codes ++ ·))

/-- `expand_ugc_block`. -/
def expandUgcBlock (block : Str) : Option (Option (List UgcCode)) := do
  let codes ← expandSegments none (block.splitOnP fun c => c = ',' || c = '-')
  some (codes.filter (· ≠ []))

/-! ## Sections -/

/-- `extract_expiration`. -/
def extractExpiration (text : Str) : Option (Option (Str × Str)) := do
  if ← hasUgcExpirationSuffix text then do
    let codeBlock ← Str.sliceTo (Str.byteLen text - 8) text
    let expireCode ← Str.slice (Str.byteLen text - 7) (Str.byteLen text - 1) text
    some (some (codeBlock, expireCode))
  else some none

/-- Two digits of the expiration code. -/
def expireField (i : ℕ) (expireCode : Str) : Option (Option ℕ) := do
  let digits ← Str.slice i (i + 2) expireCode
  some (Str.parseUnsigned (2 ^ 32 - 1) digits)

/-- `parse_expire_time`. -/
def parseExpireTime (expireCode : Str) (validTime : DateTime) : Option (Option DateTime) :=
  if Str.byteLen expireCode ≠ 6 then some none
  else do
    match ← expireField 0 expireCode with
    | none => some none
    | some day =>
        match ← expireField 2 expireCode with
        | none => some none
        | some hour =>
            match ← expireField 4 expireCode with
            | none => some none
            | some minute => some (resolveDayTimeNotBefore validTime day hour minute)

/-- An issue about a candidate. -/
def ugcIssue (code message text : Str) : ProductParseIssue where
  kind := "ugc_parse".toList
  code := code
  message := message ++ ": `".toList ++ text ++ "`".toList
  line := some text

/-- The issue of a candidate without an expiration suffix. -/
def invalidUgcFormat (text : Str) : ProductParseIssue :=
  ugcIssue "invalid_ugc_format".toList "could not parse UGC section".toList text

/-- The issue of a candidate whose codes cannot be read. -/
def invalidUgcCodes (text : Str) : ProductParseIssue :=
  ugcIssue "invalid_ugc_codes".toList "could not parse UGC codes from section".toList text

/-- The issue of a candidate whose expiration is no time. -/
def invalidUgcExpiration (text : Str) : ProductParseIssue :=
  ugcIssue "invalid_ugc_expiration".toList "could not parse UGC expiration from section".toList text

/-- `parse_ugc_capture`. -/
def parseUgcCapture (catalog : UgcCatalog) (text : Str) (validTime : DateTime) :
    Option (Except ProductParseIssue UgcSection) := do
  match ← extractExpiration text with
  | none => some (.error (invalidUgcFormat text))
  | some (codeBlock, expireCode) =>
      match ← expandUgcBlock codeBlock with
      | none => some (.error (invalidUgcCodes text))
      | some codes =>
          match ← parseExpireTime expireCode validTime with
          | none => some (.error (invalidUgcExpiration text))
          | some expires => some (.ok (UgcSection.fromCodes catalog codes expires))

/-- The sections and the issues among some results. -/
def partitionResults {ε α : Type} (results : List (Except ε α)) : List α × List ε :=
  (results.filterMap Except.toOption,
    results.filterMap fun result => match result with
      | .ok _ => none
      | .error issue => some issue)

/-- `parse_ugc_sections_with_issues`. -/
def parseUgcSectionsWithIssues (catalog : UgcCatalog) (text : Str) (validTime : DateTime) :
    Option (List UgcSection × List ProductParseIssue) := do
  let candidates ← extractUgcCandidates text
  let results ← candidates.mapM fun candidate => parseUgcCapture catalog candidate validTime
  some (partitionResults results)

/-- `parse_ugc_sections`. -/
def parseUgcSections (catalog : UgcCatalog) (text : Str) (validTime : DateTime) :
    Option (List UgcSection) :=
  (parseUgcSectionsWithIssues catalog text validTime).map Prod.fst

end Parser
