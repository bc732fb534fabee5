/-
# Bulletins of winds and temperatures aloft

`specialized/fd.rs` reads a bulletin line by line: the times of its header, the levels, and one
line of groups for every station.

The outer `none` is a panic.
-/
import Emwin.Lib.Ascii
import Emwin.Parser.Support

namespace Parser.Fd

open Chrono

/-! ## Bulletins -/

/-- What is forecast at a level. -/
structure FdLevelForecast where
  altitudeHundredsFt : ℕ
  windDirectionDegrees : Option ℕ
  windSpeedKt : Option ℕ
  temperatureC : Option ℤ
  deriving DecidableEq, Repr

/-- What is forecast for a station. -/
structure FdForecast where
  station : Str
  groups : List FdLevelForecast
  deriving DecidableEq, Repr

/-- A bulletin. -/
structure FdBulletin where
  basedOnTime : Str
  validTime : Str
  levels : List ℕ
  forecasts : List FdForecast
  deriving DecidableEq, Repr

/-! ## The header -/

/-- The times of a header, the line with the levels, and the lines behind it. -/
structure FdHeaderParts where
  basedOnTime : Str
  validTime : Str
  levelLine : Str
  stationLines : List Str

/-- `iter_nonempty_fd_lines`. -/
def iterNonemptyFdLines (text : Str) : List Str := ((Str.lines text).map Str.trim).filter (· ≠ [])

/-- `parse_ddhhmmz`. -/
def parseDdhhmmz (referenceTime : DateTime) (value : Str) : Option (Option DateTime) :=
  if Str.byteLen value ≠ 7 ∨ value.getLast? ≠ some 'Z' then some none
  else
    andThen (readUnsigned 0 2 value) fun day =>
    andThen (readUnsigned 2 4 value) fun hour =>
    andThen (readUnsigned 4 6 value) fun minute =>
      some ((resolveDayTimeNearest referenceTime day hour minute).filter fun resolved =>
        decide ((numDays (resolved - referenceTime)).natAbs ≤ 5))

/-- The loop of `parse_fd_header`. -/
def parseFdHeader (referenceTime : DateTime) (basedOnTime validTime : Option Str) :
    List Str → Option (Option FdHeaderParts)
  | [] => some none
  | line :: lines =>
      match Str.stripPrefix "DATA BASED ON ".toList line, Str.stripPrefix "VALID ".toList line with
      | some time, _ =>
          andThen (some (Str.splitWhitespace time).head?) fun time =>
          andThen (parseDdhhmmz referenceTime time) fun _ =>
            parseFdHeader referenceTime (some time) validTime lines
      | none, some time =>
          andThen (some (Str.splitWhitespace time).head?) fun time =>
          andThen (parseDdhhmmz referenceTime time) fun _ =>
            parseFdHeader referenceTime basedOnTime (some time) lines
      | none, none =>
          if Str.startsWith "FT ".toList line then
            some do
              let basedOnTime ← basedOnTime
              let validTime ← validTime
              some ⟨basedOnTime, validTime, line, lines⟩
          else parseFdHeader referenceTime basedOnTime validTime lines

/-- `parse_levels`. -/
def parseLevels (line : Str) : Option (List ℕ) :=
  match Str.splitWhitespace line with
  | first :: tokens =>
      if first = "FT".toList then tokens.mapM (Str.parseUnsigned (2 ^ 32 - 1)) else none
  | [] => none

/-! ## Stations -/

/-- `normalize_station`. -/
def normalizeStation (raw : Str) (routingCode : Option Str) : Str :=
  if 4 ≤ Str.byteLen raw then raw
  else
    let country := Str.toAsciiUppercase ((routingCode.bind (Str.slice 3 5)).getD [])
    let initial :=
      if country = "US".toList then 'K'
      else if country = "CN".toList then 'C'
      else 'P'
    initial :: raw

/-- A group that has been decoded. -/
structure DecodedGroup where
  windDirectionDegrees : Option ℕ
  windSpeedKt : Option ℕ
  temperatureC : Option ℤ
  deriving DecidableEq, Repr

/-- The last two bytes of a group of more than four, with their sign; digits in the place of a
sign make them negative. -/
def decodeTemperature (text : Str) : Option (Option ℤ) :=
  (Str.sliceFrom (Str.byteLen text - 2) text).map fun magnitude =>
    (Str.parseSigned (-2 ^ 15) (2 ^ 15 - 1) magnitude).map fun magnitude =>
      if Str.byteAt 4 text = some 45 ∨ Str.byteLen text = 6 then -magnitude else magnitude

/-- The direction and the speed that are encoded by two numbers. -/
def decodeWind (text : Str) (direction speed : ℕ) : ℕ × ℕ :=
  let (direction, speed) :=
    if Str.startsWith "9900".toList text then (0, 0) else (min (direction * 10) 65535, speed)
  if 500 ≤ direction then (direction - 500, min (speed + 100) 65535) else (direction, speed)

/-- `decode_group`. -/
def decodeGroup (text : Str) : Option (Option DecodedGroup) :=
  if Str.byteLen text ∉ [4, 6, 7] ∨
      text.all (fun c => c.isDigit || c = '+' || c = '-') = false then
    some none
  else
    andThen ((Str.slice 0 2 text).map (Str.parseUnsigned 65535)) fun direction =>
    andThen ((Str.slice 2 4 text).map (Str.parseUnsigned 65535)) fun speed =>
      let (direction, speed) := decodeWind text direction speed
      if 4 < Str.byteLen text then
        (decodeTemperature text).map fun temperature => temperature.map fun temperature =>
          ⟨some direction, some speed, some temperature⟩
      else some (some ⟨some direction, some speed, none⟩)

/-- The levels of a line that has a group for each of the last of them. -/
def parseGroups : List (ℕ × Str) → Option (Option (List FdLevelForecast))
  | [] => some (some [])
  | (level, token) :: groups =>
      andThen (decodeGroup token) fun decoded =>
      andThen (parseGroups groups) fun groups =>
        some (some (⟨level, decoded.windDirectionDegrees, decoded.windSpeedKt,
          decoded.temperatureC⟩ :: groups))

/-- `parse_fd_station_line`. -/
def parseFdStationLine (levels : List ℕ) (routingCode : Option Str) (line : Str) :
    Option (Option FdForecast) :=
  match Str.splitWhitespace line with
  | [] => some none
  | raw :: encoded =>
      let takeCount := min encoded.length levels.length
      if takeCount = 0 then some none
      else
        andThen (parseGroups ((levels.drop (levels.length - takeCount)).zip encoded)) fun groups =>
          some (some ⟨normalizeStation raw routingCode, groups⟩)

/-- `parse_fd_bulletin`. -/
def parseFdBulletin (text : Str) (routingCode : Option Str) (referenceTime : DateTime) :
    Option (Option FdBulletin) :=
  andThen (parseFdHeader referenceTime none none (iterNonemptyFdLines text)) fun header =>
  andThen (some ((parseLevels header.levelLine).filter (· ≠ []))) fun levels =>
    (header.stationLines.mapM (parseFdStationLine levels routingCode)).map fun forecasts =>
      let forecasts := (forecasts.filterMap id).filter fun forecast => forecast.groups ≠ []
      if forecasts = [] then none
      else some ⟨header.basedOnTime, header.validTime, levels, forecasts⟩

end Parser.Fd
