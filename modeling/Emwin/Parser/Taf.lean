/-
# TAF bulletins

`specialized/taf.rs` reads a bulletin in three steps: the preamble, the station and the times in
front; the tokens behind them, which are cut into segments at the markers of groups; and the
conditions of every segment.

The outer `none` is a panic.
-/
import Emwin.Parser.Aviation

namespace Parser.Taf

open Aviation

/-! ## Reports -/

/-- A sky condition. -/
structure TafSkyCondition where
  cover : Str
  heightFtAgl : Option ℕ
  deriving DecidableEq, Repr

/-- A group for wind shear. -/
structure TafWindShear where
  heightFtAgl : ℕ
  directionDegrees : ℕ
  speedKt : ℕ
  deriving DecidableEq, Repr

/-- The conditions of a report or of a group. -/
structure TafConditions where
  wind : Option Wind := none
  visibility : Option Str := none
  weather : List Str := []
  skyConditions : List TafSkyCondition := []
  windShear : Option TafWindShear := none
  deriving DecidableEq, Repr

/-- The kind of a group. -/
inductive TafForecastGroupKind where
  | fm
  | tempo
  | prob
  | becmg
  | inter
  deriving DecidableEq, Repr

/-- A group. -/
structure TafForecastGroup where
  changeKind : TafForecastGroupKind
  validFrom : Option Str
  validTo : Option Str
  probabilityPercent : Option ℕ
  conditions : TafConditions
  raw : Str
  deriving DecidableEq, Repr

/-- A report. -/
structure TafBulletin where
  station : Str
  issueTime : Str
  validFrom : Option Str
  validTo : Option Str
  amendment : Bool
  correction : Bool
  initialConditions : TafConditions
  groups : List TafForecastGroup
  raw : Str
  deriving DecidableEq, Repr

/-! ## The preamble -/

/-- Whether a report amends or corrects another. -/
structure Preamble where
  amendment : Bool
  correction : Bool
  deriving DecidableEq, Repr

/-- `normalized_prefix`. -/
def Preamble.normalizedPrefix (preamble : Preamble) : Option Str :=
  match preamble.amendment, preamble.correction with
  | true, false => some "TAF AMD".toList
  | false, true => some "TAF COR".toList
  | false, false => some "TAF".toList
  | true, true => none

/-- The preambles that are tried, in this order. -/
def preambles : List (Str × Preamble) :=
  [("TAF TAF AMD".toList, ⟨true, false⟩),
   ("TAF TAF COR".toList, ⟨false, true⟩),
   ("TAF AMD TAF AMD".toList, ⟨true, false⟩),
   ("TAF COR TAF COR".toList, ⟨false, true⟩),
   ("TAF AMD TAF".toList, ⟨true, false⟩),
   ("TAF COR TAF".toList, ⟨false, true⟩),
   ("TAF TAF".toList, ⟨false, false⟩),
   ("TAF AMD".toList, ⟨true, false⟩),
   ("TAF COR".toList, ⟨false, true⟩),
   ("TAF".toList, ⟨false, false⟩)]

/-- `parse_taf_prefix`: the preamble and what follows it. -/
def parseTafPrefix (input : Str) : Option (Preamble × Str) := do
  let (literal, preamble) ← preambles.find? fun (literal, _) => Str.startsWith literal input
  let rest := input.drop literal.length
  some (preamble, if rest.head? = some ' ' then rest.drop 1 else rest)

/-- `is_station_token`. -/
def isStationToken (token : Str) : Bool :=
  decide (3 ≤ Str.byteLen token ∧ Str.byteLen token ≤ 4) && token.all Char.isAlphanum

/-- `looks_like_station_led_taf_report`. -/
def looksLikeStationLedTafReport (text : Str) : Option Bool :=
  match Str.splitWhitespace text with
  | station :: issueTime :: _ =>
      if isStationToken station then isTimeToken issueTime else some false
  | _ => some false

/-- `strip_leading_marker_line`. -/
def stripLeadingMarkerLine (text : Str) : Str :=
  match Str.splitOnce ' ' text with
  | none => text
  | some (first, rest) =>
      if 3 < Str.byteLen first ∧ Str.startsWith "TAF".toList first ∧
          first.all (fun c => c.isUpper || c.isDigit) ∧ Str.startsWith "TAF".toList rest then
        rest
      else text

/-- `next_token`: a token and what follows it. -/
def nextToken (input : Str) : Option (Str × Str) :=
  if input = [] then none else some ((Str.splitOnce ' ' input).getD (input, []))

/-- `parse_validity_range`. -/
def parseValidityRange (token : Str) : Option (Str × Str) := do
  let (validFrom, validTo) ← Str.splitOnce '/' token
  if Str.byteLen validFrom = 4 ∧ Str.byteLen validTo = 4 ∧ validFrom.all Char.isDigit ∧
      validTo.all Char.isDigit then
    some (validFrom, validTo)
  else none

/-- What stands in front of the conditions of a report, and the tokens of these. -/
structure TafHeader where
  preamble : Preamble
  reportBody : Str
  station : Str
  issueTime : Str
  validity : Option (Str × Str)
  remainder : Str

/-- The preamble; a report without one begins with its station. -/
def parsePreamble (text : Str) : Option (Option (Preamble × Str)) :=
  match parseTafPrefix text with
  | some parsed => some (some parsed)
  | none => (looksLikeStationLedTafReport text).map fun led =>
      if led then some (⟨false, false⟩, text) else none

/-- The part of `parse_taf_bulletin` in front of the conditions. -/
def parseTafHeader (text : Str) : Option (Option TafHeader) := do
  let compact := Str.trimEndMatches ['='] (Str.trim (Str.compactWhitespace text))
  match ← parsePreamble (stripLeadingMarkerLine compact) with
  | none => some none
  | some (preamble, reportBody) =>
      match nextToken reportBody with
      | none => some none
      | some (station, input) =>
          match nextToken input with
          | none => some none
          | some (issueTime, input) =>
              if isStationToken station = false then some none
              else (isTimeToken issueTime).map fun isTime =>
                if isTime = false then none
                else
                  let (validity, input) := match nextToken input with
                    | none => (none, input)
                    | some (token, input) => (parseValidityRange token, input)
                  some ⟨preamble, reportBody, station, issueTime, validity, Str.trim input⟩

/-! ## Conditions -/

/-- `is_visibility_token`. -/
def isVisibilityToken (token : Str) : Bool :=
  token = "CAVOK".toList || token = "9999".toList || "SM".toList.isSuffixOf token ||
    (token.head? = some 'P' && "SM".toList.isSuffixOf token)

/-- `parse_wind_shear`. -/
def parseWindShear (token : Str) : Option (Option TafWindShear) :=
  match (Str.stripPrefix "WS".toList token).bind (Str.splitOnce '/') with
  | none => some none
  | some (height, wind) =>
      if Str.byteLen height ≠ 3 then some none
      else
        match Str.parseUnsigned (2 ^ 32 - 1) height, Str.stripSuffix "KT".toList wind with
        | some height, some wind =>
            if Str.byteLen wind ≠ 5 then some none
            else do
              let direction ← Str.sliceTo 3 wind
              match parseU16 direction with
              | none => some none
              | some direction => do
                  let speed ← Str.sliceFrom 3 wind
                  some ((parseU16 speed).map fun speed =>
                    ⟨min (height * 100) (2 ^ 32 - 1), direction, speed⟩)
        | _, _ => some none

/-- `parse_sky_condition`. -/
def parseSkyCondition (token : Str) : Option TafSkyCondition :=
  (parseSky ["SKC", "NSC", "FEW", "SCT", "BKN", "OVC", "VV0"] token).map
    fun (cover, height, _) => ⟨cover, height⟩

/-- `is_weather_token`. -/
def isWeatherToken (token : Str) : Bool :=
  let trimmed := Str.trimMatches '-' (Str.trimMatches '+' token)
  decide (2 ≤ Str.byteLen trimmed ∧ Str.byteLen trimmed ≤ 8) && trimmed.all Char.isUpper &&
    !(trimmed ∈ (["RMK", "AMD", "COR", "TX", "TN", "QNH"].map String.toList)) &&
    !Str.startsWith "QNH".toList trimmed

/-- What the loop of `parse_conditions` does with a token that is neither wind, visibility nor
wind shear. -/
def TafConditions.pushOther (conditions : TafConditions) (token : Str) : TafConditions :=
  match parseSkyCondition token with
  | some sky => { conditions with skyConditions := conditions.skyConditions ++ [sky] }
  | none =>
      if isWeatherToken token then { conditions with weather := conditions.weather ++ [token] }
      else conditions

/-- What the loop does with a token that is not wind. -/
def TafConditions.pushCalm (conditions : TafConditions) (token : Str) : Option TafConditions :=
  if conditions.visibility = none ∧ isVisibilityToken token = true then
    some { conditions with visibility := some token }
  else if conditions.windShear.isNone then
    (parseWindShear token).map fun
      | some shear => { conditions with windShear := some shear }
      | none => conditions.pushOther token
  else some (conditions.pushOther token)

/-- One round of the loop of `parse_conditions`. -/
def TafConditions.push (conditions : TafConditions) (token : Str) : Option TafConditions :=
  if conditions.wind.isNone then do
    match ← parseWind true token with
    | some wind => some { conditions with wind := some wind }
    | none => conditions.pushCalm token
  else conditions.pushCalm token

/-- `parse_conditions`. -/
def parseConditions (tokens : List Str) : Option TafConditions :=
  tokens.foldlM TafConditions.push {}

/-! ## Groups -/

/-- `is_group_marker`. -/
def isGroupMarker (token : Str) : Bool :=
  Str.startsWith "FM".toList token || token = "TEMPO".toList || token = "BECMG".toList ||
    token = "INTER".toList || Str.startsWith "PROB30".toList token ||
    Str.startsWith "PROB40".toList token

/-- Cut tokens in front of every marker; `current` is the segment that has begun. -/
def segmentsFrom (current : List Str) : List Str → List (List Str)
  | [] => if current = [] then [] else [current]
  | token :: tokens =>
      if isGroupMarker token && current ≠ [] then current :: segmentsFrom [token] tokens
      else segmentsFrom (current ++ [token]) tokens

/-- A segment of one token that names a probability. -/
def isLoneProbability (segment : List Str) : Bool :=
  match segment with
  | [token] => Str.startsWith "PROB".toList token
  | _ => false

/-- Whether a segment begins with one of some words. -/
def beginsWith (words : List String) (segment : List Str) : Bool :=
  segment.head?.any fun token => decide (token ∈ words.map String.toList)

/-- A probability behind a group belongs to it. -/
def mergeTrailing (merged : List (List Str)) (segment : List Str) : List (List Str) :=
  if isLoneProbability segment &&
      merged.getLast?.any (beginsWith ["TEMPO", "INTER", "BECMG"]) then
    merged.dropLast ++ [(merged.getLast?.getD []) ++ segment]
  else merged ++ [segment]

/-- A probability in front of a group belongs to it. -/
def mergeLeading (segment : List Str) : List (List Str) → List (List Str)
  | [] => [segment]
  | next :: segments =>
      if isLoneProbability segment && beginsWith ["TEMPO", "INTER"] next then
        mergeLeading (segment ++ next) segments
      else segment :: mergeLeading next segments

/-- The segments of the tokens of a report. -/
def mergedSegments (remainder : Str) : List (List Str) :=
  match (segmentsFrom [] (Str.splitWhitespace remainder)).foldl mergeTrailing [] with
  | [] => []
  | segment :: segments => mergeLeading segment segments

/-- Parse as `u8`. -/
def parseU8 (s : Str) : Option ℕ := Str.parseUnsigned 255 s

/-- What stands in front of the conditions of a group, and their tokens. -/
structure GroupHeader where
  changeKind : TafForecastGroupKind
  validFrom : Option Str
  validTo : Option Str
  probabilityPercent : Option ℕ
  body : List Str

/-- The kind of a group that a marker begins; other words are `unreachable!`. -/
def markerKind (first : Str) : Option TafForecastGroupKind :=
  if first = "TEMPO".toList then some .tempo
  else if first = "BECMG".toList then some .becmg
  else if first = "INTER".toList then some .inter
  else none

/-- A group behind `FM`. -/
def parseFmHeader (start : Str) (body : List Str) : Option (Option GroupHeader) :=
  if Str.byteLen start ≠ 6 ∨ start.all Char.isDigit = false then some none
  else (Str.sliceTo 4 start).map fun validFrom => some ⟨.fm, some validFrom, none, none, body⟩

/-- A group behind a marker; a probability may stand at its end. -/
def parseMarkedHeader (first : Str) (rest : List Str) : Option (Option GroupHeader) :=
  match rest with
  | [] => some none
  | validity :: body =>
      match parseValidityRange validity with
      | none => some none
      | some (validFrom, validTo) =>
          let probability := body.getLast?.bind fun token =>
            (Str.stripPrefix "PROB".toList token).bind parseU8
          (markerKind first).map fun kind => some
            { changeKind := kind, validFrom := some validFrom, validTo := some validTo
              probabilityPercent := probability
              body := if probability.isSome then body.dropLast else body }

/-- A group behind a probability. -/
def parseProbHeader (probability : Str) (rest : List Str) : Option GroupHeader := do
  let probability ← parseU8 probability
  match rest with
  | [] => none
  | next :: rest =>
      if next = "TEMPO".toList ∨ next = "INTER".toList then
        match rest with
        | [] => none
        | validity :: body => do
            let (validFrom, validTo) ← parseValidityRange validity
            some ⟨if next = "TEMPO".toList then .tempo else .inter, some validFrom, some validTo,
              some probability, body⟩
      else do
        let (validFrom, validTo) ← parseValidityRange next
        some ⟨.prob, some validFrom, some validTo, some probability, rest⟩

/-- The part of `parse_group` in front of the conditions. -/
def parseGroupHeader (tokens : List Str) : Option (Option GroupHeader) :=
  match tokens with
  | [] => some none
  | first :: rest =>
      match Str.stripPrefix "FM".toList first with
      | some start => parseFmHeader start rest
      | none =>
          if first ∈ ["TEMPO", "BECMG", "INTER"].map String.toList then parseMarkedHeader first rest
          else
            match Str.stripPrefix "PROB".toList first with
            | some probability => some (parseProbHeader probability rest)
            | none => some none

/-- `parse_group`. -/
def parseGroup (tokens : List Str) : Option (Option TafForecastGroup) := do
  match ← parseGroupHeader tokens with
  | none => some none
  | some header =>
      (parseConditions header.body).map fun conditions => some
        { changeKind := header.changeKind, validFrom := header.validFrom, validTo := header.validTo
          probabilityPercent := header.probabilityPercent, conditions := conditions
          raw := List.intercalate [' '] header.body }

/-- `parse_forecast_groups`. -/
def parseForecastGroups (remainder : Str) : Option (TafConditions × List TafForecastGroup) :=
  match mergedSegments remainder with
  | [] => some ({}, [])
  | initial :: segments => do
      let conditions ← parseConditions initial
      let groups ← segments.mapM parseGroup
      some (conditions, groups.filterMap id)

/-! ## Bulletins -/

/-- `parse_taf_bulletin`. -/
def parseTafBulletin (text : Str) : Option (Option TafBulletin) := do
  match ← parseTafHeader text with
  | none => some none
  | some header => do
      let (conditions, groups) ← parseForecastGroups header.remainder
      let normalized ← header.preamble.normalizedPrefix
      some (some
        { station := header.station, issueTime := header.issueTime
          validFrom := header.validity.map Prod.fst, validTo := header.validity.map Prod.snd
          amendment := header.preamble.amendment, correction := header.preamble.correction
          initialConditions := conditions, groups := groups
          raw := if header.reportBody = [] then normalized
            else normalized ++ [' '] ++ header.reportBody })

end Parser.Taf
