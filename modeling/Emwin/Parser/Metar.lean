/-
# METAR bulletins

`specialized/metar.rs` cuts a bulletin at its equals signs and reads each piece as a report: one
that names its kind, one in the SA form, or one that takes its kind from the reports before it.

The outer `none` is a panic.  The only slice that can fail is that of a group for wind, so the
parser panics exactly if a token that is looked at as wind is cut inside a character
(`parseMetarBulletin_eq_none_iff`).
-/
import Emwin.Parser.Aviation

namespace Parser.Metar

open Aviation

/-! ## Reports -/

/-- The kind of a report. -/
inductive MetarReportKind where
  | metar
  | speci
  deriving DecidableEq, Repr

/-- A sky condition. -/
structure MetarSkyCondition where
  cover : Str
  heightFtAgl : Option ℕ
  modifier : Option Str
  deriving DecidableEq, Repr

/-- A report without its text. -/
structure ParsedMetarRef where
  kind : MetarReportKind
  station : Str
  observationTime : Str
  correction : Bool
  wind : Option Wind := none
  visibility : Option Str := none
  weather : List Str := []
  skyConditions : List MetarSkyCondition := []
  temperatureC : Option ℤ := none
  dewpointC : Option ℤ := none
  altimeter : Option Str := none
  remarks : Option Str := none
  deriving DecidableEq, Repr

/-- A report with its text. -/
structure MetarReport extends ParsedMetarRef where
  raw : Str
  deriving DecidableEq, Repr

/-! ## Tokens -/

/-- `normalize_metar_segment`. -/
def normalizeMetarSegment (segment : Str) : Str :=
  Str.compactWhitespace
    (segment.filter fun c => !(Str.isAsciiControl c && !Str.isAsciiWhitespace c))

/-- `is_nil_only_station_segment`. -/
def isNilOnlyStationSegment (segment : Str) : Bool :=
  match Str.splitWhitespace segment with
  | [_, last] => last = "NIL".toList
  | [first, _, last] =>
      (first = "METAR".toList || first = "SPECI".toList) && last = "NIL".toList
  | _ => false

/-- `is_metar_station`. -/
def isMetarStation (token : Str) : Bool :=
  Str.byteLen token == 4 && token.head?.any Char.isUpper && token.all Char.isAlphanum

/-- `is_sa_station`. -/
def isSaStation (token : Str) : Bool :=
  decide (3 ≤ Str.byteLen token ∧ Str.byteLen token ≤ 4) && token.all Char.isUpper

/-- `is_visibility_token`. -/
def isVisibilityToken (token : Str) : Bool :=
  token = "CAVOK".toList || token = "9999".toList || token = "9999NDV".toList ||
    "SM".toList.isSuffixOf token || (token.all Char.isDigit && Str.byteLen token == 4)

/-- `is_altimeter_token`.  The slice begins behind one ASCII character. -/
def isAltimeterToken (token : Str) : Bool :=
  match token with
  | c :: digits => (c = 'Q' || c = 'A') && Str.byteLen token == 5 && digits.all Char.isDigit
  | [] => false

/-- `is_weather_token`. -/
def isWeatherToken (token : Str) : Bool :=
  let token := Str.trimMatches '-' (Str.trimMatches '+' token)
  decide (2 ≤ Str.byteLen token ∧ Str.byteLen token ≤ 8) && token.all Char.isUpper &&
    !isAltimeterToken token &&
    !(token ∈ (["AUTO", "NOSIG", "RMK", "COR", "AO1", "AO2", "CLR", "SKC"].map String.toList))

/-- `parse_sky_condition`. -/
def parseSkyCondition (token : Str) : Option MetarSkyCondition :=
  (parseSky ["SKC", "CLR", "FEW", "SCT", "BKN", "OVC", "VV0", "VV/"] token).map
    fun (cover, height, modifier) => ⟨cover, height, modifier⟩

/-- `parse_signed_temperature`.  The digits have no minus sign in front, so the value can be
negated. -/
def parseSignedTemperature (token : Str) : Option ℤ :=
  if token = [] ∨ token = "//".toList ∨ '/' ∈ token then none
  else
    let negative := token.head? = some 'M' ∨ token.head? = some '-'
    let digits := (token.dropWhile (· = 'M')).dropWhile (· = '-')
    (Str.parseSigned (-2 ^ 15) (2 ^ 15 - 1) digits).map fun value =>
      if negative then -value else value

/-- `parse_temperature_pair`. -/
def parseTemperaturePair (token : Str) : Option (ℤ × Option ℤ) := do
  let (temperature, dewpoint) ← Str.splitOnce '/' token
  let temperature ← parseSignedTemperature temperature
  some (temperature, parseSignedTemperature dewpoint)

/-- `split_observation_suffix`. -/
def splitObservationSuffix (token : Str) : Option (Option (Str × Str)) :=
  match Str.sliceTo 7 token with
  | none => some none
  | some observation => (isTimeToken observation).map fun isTime =>
      if isTime = false ∨ Str.byteLen token = 7 then none
      else some (observation, (Str.sliceFrom 7 token).getD [])

/-- `expand_metar_body_tokens`. -/
def expandMetarBodyTokens : List Str → Option (List Str)
  | [] => some []
  | token :: tokens => do
      let suffix ← splitObservationSuffix token
      let expanded ← expandMetarBodyTokens tokens
      match suffix with
      | none => some (token :: expanded)
      | some (time, suffix) => some (time :: (if suffix = [] then [] else [suffix]) ++ expanded)

/-- `find_metar_start`: the kind, the station that stands with it, and the tokens behind. -/
def findMetarStart : List Str → Option (MetarReportKind × Option Str × List Str)
  | [] => none
  | token :: tokens =>
      if token = "METAR".toList then some (.metar, none, tokens)
      else if token = "SPECI".toList then some (.speci, none, tokens)
      else
        match (Str.stripPrefix "METAR".toList token).filter isMetarStation with
        | some station => some (.metar, some station, tokens)
        | none =>
            match (Str.stripPrefix "SPECI".toList token).filter isMetarStation with
            | some station => some (.speci, some station, tokens)
            | none => findMetarStart tokens

/-! ## The body of a report -/

/-- The variables of the loop of `parse_metar_body`. -/
structure BodyState where
  wind : Option Wind := none
  visibility : Option Str := none
  weather : List Str := []
  skyConditions : List MetarSkyCondition := []
  temperatureC : Option ℤ := none
  dewpointC : Option ℤ := none
  altimeter : Option Str := none
  remarksTokens : List Str := []
  inRemarks : Bool := false

/-- What the loop does with a token that is not wind. -/
def BodyState.pushOther (s : BodyState) (token : Str) : BodyState :=
  if s.visibility = none ∧ isVisibilityToken token = true then
    { s with visibility := some token }
  else
    match if s.temperatureC = none ∧ s.dewpointC = none then parseTemperaturePair token
      else none with
    | some (temperature, dewpoint) =>
        { s with temperatureC := some temperature, dewpointC := dewpoint }
    | none =>
        if s.altimeter = none ∧ isAltimeterToken token = true then
          { s with altimeter := some token }
        else
          match parseSkyCondition token with
          | some condition => { s with skyConditions := s.skyConditions ++ [condition] }
          | none =>
              if isWeatherToken token then { s with weather := s.weather ++ [token] } else s

/-- One round of the loop of `parse_metar_body`. -/
def BodyState.push (s : BodyState) (token : Str) : Option BodyState :=
  if token = "COR".toList then some s
  else if s.inRemarks then some { s with remarksTokens := s.remarksTokens ++ [token] }
  else if token = "RMK".toList then some { s with inRemarks := true }
  else if s.wind.isNone then
    (parseWind false token).map fun
      | some wind => { s with wind := some wind }
      | none => s.pushOther token
  else some (s.pushOther token)

/-- The time of a body behind a possible `COR`, and the tokens behind it. -/
def bodyHeader (tokens : List Str) : Option (Bool × Str × List Str) :=
  match tokens with
  | [] => none
  | first :: rest =>
      if first = "COR".toList then
        match rest with
        | [] => none
        | time :: rest => some (true, time, rest)
      else some (false, first, rest)

/-- `parse_metar_body`. -/
def parseMetarBody (kind : MetarReportKind) (station : Str) (bodyTokens : List Str)
    (correction : Bool) : Option (Option ParsedMetarRef) := do
  let normalizedTokens ← expandMetarBodyTokens bodyTokens
  match bodyHeader normalizedTokens with
  | none => some none
  | some (corrected, time, tokens) => do
      let isTime ← isTimeToken time
      if (isMetarStation station && isTime) = false then some none
      else if tokens.head? = some "NIL".toList then
        some (some ⟨kind, station, time, correction || corrected, none, none, [], [], none, none,
          none, none⟩)
      else do
        let s ← tokens.foldlM BodyState.push {}
        some (some ⟨kind, station, time, correction || corrected, s.wind, s.visibility, s.weather,
          s.skyConditions, s.temperatureC, s.dewpointC, s.altimeter,
          if s.remarksTokens = [] then none
          else some (List.intercalate [' '] s.remarksTokens)⟩)

/-- A body behind a station, or behind `COR` and a station. -/
def parseStation (kind : MetarReportKind) (station : Str) (tokens : List Str) :
    Option (Option ParsedMetarRef) :=
  if station = "COR".toList then
    match tokens with
    | [] => some none
    | next :: tokens =>
        if isMetarStation next then parseMetarBody kind next tokens true else some none
  else parseMetarBody kind station tokens false

/-- The station of a report that names its kind; none stands for an empty token. -/
def reportStation (segment : Str) : Option (MetarReportKind × Str × List Str) :=
  match findMetarStart (segment.splitOn ' ') with
  | none => none
  | some (kind, some station, tokens) => some (kind, station, tokens)
  | some (_, none, []) => none
  | some (kind, none, station :: tokens) =>
      if station = [] then none else some (kind, station, tokens)

/-- `parse_metar_report_ref`. -/
def parseMetarReportRef (segment : Str) : Option (Option ParsedMetarRef) :=
  match reportStation segment with
  | none => some none
  | some (kind, station, tokens) => parseStation kind station tokens

/-- `parse_bare_metar_report_ref`. -/
def parseBareMetarReportRef (segment : Str) (kind : MetarReportKind) :
    Option (Option ParsedMetarRef) :=
  match segment.splitOn ' ' with
  | [] => some none
  | station :: tokens => parseStation kind station tokens

/-- `parse_surface_sa_report_ref`. -/
def parseSurfaceSaReportRef (segment : Str) : Option ParsedMetarRef :=
  match Str.splitWhitespace segment with
  | station :: reportMarker :: hhmm :: _ =>
      if isSaStation station = false ∨ reportMarker ≠ "SA".toList ∨ Str.byteLen hhmm ≠ 4 then none
      else some ⟨.metar, station, hhmm ++ "00Z".toList, false, none, none, [], [], none, none, none,
        none⟩
  | _ => none

/-! ## Bulletins -/

/-- The variables of the loop of `parse_metar_bulletin`. -/
structure BulletinState where
  reports : List MetarReport
  issues : List ProductParseIssue
  collectiveKind : Option MetarReportKind

/-- The issue of a piece that is no report. -/
def invalidMetarReport (normalized : Str) : ProductParseIssue where
  kind := "metar_parse".toList
  code := "invalid_metar_report".toList
  message := "could not parse METAR/SPECI report from bulletin token".toList
  line := some normalized

/-- Report a piece that should have been a report. -/
def BulletinState.reject (s : BulletinState) (normalized : Str) : BulletinState :=
  if (Str.find "METAR".toList normalized).isSome || (Str.find "SPECI".toList normalized).isSome then
    { s with issues := s.issues ++ [invalidMetarReport normalized] }
  else s

/-- Keep a report. -/
def BulletinState.keep (s : BulletinState) (parsed : ParsedMetarRef) (normalized : Str) :
    BulletinState :=
  { s with reports := s.reports ++ [⟨parsed, normalized⟩] }

/-- The round of the loop for a piece that does not name its kind and parse. -/
def BulletinState.pushUnmarked (s : BulletinState) (normalized : Str) : Option BulletinState :=
  let kind := s.collectiveKind.or ((findMetarStart (Str.splitWhitespace normalized)).map Prod.fst)
  if isNilOnlyStationSegment normalized then
    if Str.startsWith "METAR ".toList normalized then some { s with collectiveKind := some .metar }
    else if Str.startsWith "SPECI ".toList normalized then
      some { s with collectiveKind := some .speci }
    else some { s with collectiveKind := kind }
  else
    match parseSurfaceSaReportRef normalized with
    | some parsed => some ({ s with collectiveKind := some .metar }.keep parsed normalized)
    | none =>
        match kind with
        | none => some ({ s with collectiveKind := kind }.reject normalized)
        | some k => (parseBareMetarReportRef normalized k).map fun
            | some parsed => { s with collectiveKind := kind }.keep parsed normalized
            | none => { s with collectiveKind := kind }.reject normalized

/-- One round of the loop of `parse_metar_bulletin`. -/
def BulletinState.push (s : BulletinState) (segment : Str) : Option BulletinState :=
  let normalized := normalizeMetarSegment segment
  if normalized = [] then some s
  else if normalized = "METAR".toList then some { s with collectiveKind := some .metar }
  else if normalized = "SPECI".toList then some { s with collectiveKind := some .speci }
  else do
    match ← parseMetarReportRef normalized with
    | some parsed => some ({ s with collectiveKind := some parsed.kind }.keep parsed normalized)
    | none => s.pushUnmarked normalized

/-- The pieces of a bulletin. -/
def segments (text : Str) : List Str := (normalizeMetarSegment text).splitOn '='

/-- `parse_metar_bulletin`. -/
def parseMetarBulletin (text : Str) : Option (Option (List MetarReport × List ProductParseIssue)) :=
  ((segments text).foldlM BulletinState.push ⟨[], [], none⟩).map fun s =>
    if s.reports = [] then none else some (s.reports, s.issues)

end Parser.Metar
