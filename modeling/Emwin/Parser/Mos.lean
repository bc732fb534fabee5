/-
# Bulletins of model guidance

`specialized/mos.rs` cuts a bulletin into sections at their headers.  The first line of a section
names the station, the model and the time of its run, a line behind it the hours of the
forecasts, and every further line the values of one variable.

The outer `none` is a panic.
-/
import Emwin.Lib.Ascii
import Emwin.Lib.Chrono
import Emwin.Lib.Lines
import Emwin.Lib.Maps
import Mathlib.Data.Char
import Mathlib.Data.List.Lex

namespace Parser.Mos

open Calendar Chrono

/-! ## Bulletins -/

/-- The values of all variables at one time. -/
structure MosForecastRow where
  valid : Str
  values : OrderedMap Str Str

/-- A section. -/
structure MosSection where
  station : Str
  model : Str
  runtime : Str
  forecasts : List MosForecastRow

/-- A bulletin. -/
structure MosBulletin where
  sections : List MosSection

/-! ## Times in texts -/

/-- A number of a fixed count of digits, and what follows it. -/
def scanNumber (width : ℕ) (s : Str) : Option (ℕ × Str) :=
  let digits := s.take width
  if digits.length = width ∧ digits.all Char.isDigit then
    some (Str.digitsValue digits, s.drop width)
  else none

/-- What follows a character. -/
def scanChar (c : Char) (s : Str) : Option Str := if s.head? = some c then some s.tail else none

/-- `DateTime::parse_from_rfc3339`, for whole seconds in UTC. -/
def parseFromRfc3339 (s : Str) : Option DateTime := do
  let (year, s) ← scanNumber 4 s
  let s ← scanChar '-' s
  let (month, s) ← scanNumber 2 s
  let s ← scanChar '-' s
  let (day, s) ← scanNumber 2 s
  let s ← scanChar 'T' s
  let (hour, s) ← scanNumber 2 s
  let s ← scanChar ':' s
  let (minute, s) ← scanNumber 2 s
  let s ← scanChar ':' s
  let (second, s) ← scanNumber 2 s
  let s ← scanChar 'Z' s
  if s = [] then do
    let date ← fromYmdOpt year month day
    let time ← fromHmsOpt hour minute second
    some (utc date time)
  else none

/-- `to_rfc3339`, of a whole second. -/
def toRfc3339 (t : DateTime) : Str :=
  printYear (date t).year ++ ['-'] ++ padded 2 (date t).month ++ ['-'] ++ padded 2 (date t).day ++
    ['T'] ++ padded 2 (hour t) ++ [':'] ++ padded 2 (minute t) ++ [':'] ++ padded 2 (second t) ++
    "+00:00".toList

/-- `with_hour`. -/
def withHour (t : DateTime) (h : ℕ) : Option DateTime :=
  if h < 24 then some (t + ((h : ℤ) - hour t) * HOUR) else none

/-! ## Sections -/

/-- `strip_control_chars`. -/
def stripControlChars (text : Str) : Str :=
  text.filter fun c => !Str.isAsciiControl c || Str.isAsciiWhitespace c

/-- `sanitize_section_line`. -/
def sanitizeSectionLine (line : Str) : Str :=
  Str.trim (line.dropWhile fun c => !c.isAlphanum && !Str.isAsciiWhitespace c && c ≠ '.')

/-- `remap_var`. -/
def remapVar (name : Str) : Str :=
  if name = "X_N".toList then "N_X".toList
  else if name = "WND".toList then "WSP".toList
  else if name = "WGS".toList then "GST".toList
  else name

/-- What the first line of a section says. -/
structure SectionHeader where
  station : Str
  model : Str
  mosName : Str
  month : ℕ
  day : ℕ
  year : ℤ
  hhmm : Str
  deriving DecidableEq, Repr

/-- A date with slashes, in the order month, day, year. -/
def parseSlashedDate (date : Str) : Option (ℕ × ℕ × ℤ) :=
  match date.splitOn '/' with
  | [month, day, year] => do
      let month ← Str.parseUnsigned 255 month
      let day ← Str.parseUnsigned 255 day
      let year ← Str.parseSigned (-2 ^ 31) (2 ^ 31 - 1) year
      some (month, day, year)
  | _ => none

/-- `parse_section_header`. -/
def parseSectionHeader (line : Str) : Option SectionHeader :=
  match Str.splitWhitespace line with
  | station :: model :: name :: tokens =>
      -- a version stands in front of the name
      match if name.head? = some 'V' then tokens else name :: tokens with
      | mosName :: guidance :: date :: hhmm :: zone :: _ =>
          if guidance ≠ "GUIDANCE".toList ∨ zone ≠ "UTC".toList ∨ Str.byteLen hhmm ≠ 4 then none
          else (parseSlashedDate date).map fun (month, day, year) =>
            ⟨station, model, mosName, month, day, year, hhmm⟩
      | _ => none
  | _ => none

/-- The loop of `split_sections`; `current` are the lines of the section that has begun. -/
def sectionsFrom (current : List Str) : List Str → List (List Str)
  | [] => if current = [] then [] else [current]
  | line :: lines =>
      let sanitized := sanitizeSectionLine line
      if (parseSectionHeader sanitized).isSome && current ≠ [] then
        current :: sectionsFrom [sanitized] lines
      else sectionsFrom (current ++ [sanitized]) lines

/-- `split_sections`; no section is `None`. -/
def splitSections (text : Str) : List Str :=
  (sectionsFrom [] (Str.lines text)).map (List.intercalate ['\n'])

/-! ## The hours of a section -/

/-- The line with the hours: its label, the line, and the lines behind it. -/
structure HourAxis where
  label : Str
  line : Str
  dataLines : List Str
  deriving DecidableEq, Repr

/-- The first line with the first label that a line begins with. -/
def findAxis (lines : List Str) : Option HourAxis :=
  (["FHR", "HR", "UTC"].map String.toList).findSome? fun label =>
    match lines.dropWhile fun line => !Str.startsWith label (Str.trimStart line) with
    | [] => none
    | line :: dataLines => some ⟨label, line, dataLines⟩

/-- The hours that are printed behind the label. -/
def axisHours (line : Str) : List Str :=
  ((line.splitOnP fun c => Str.isAsciiWhitespace c || c = '|').drop 1).filter (· ≠ [])

/-- Whether the hours are counted from the run of the model. -/
def countsFromRun (label model : Str) : Bool :=
  label ≠ "UTC".toList &&
    decide (model ∈ ["LAV", "MEX", "NBE", "NBS", "NBX"].map String.toList)

/-- One round of the loop of `parse_hour_axis`. -/
def pushTime (fromRun : Bool) (init : DateTime) (times : List DateTime) (hour : Str) :
    Option (Option (List DateTime)) :=
  if fromRun then
    match Str.parseUnsigned (2 ^ 32 - 1) hour with
    | none => some none
    | some h => (checkedAdd init (h * HOUR)).map fun ts => some (times ++ [ts])
  else if hour = "00".toList ∧ times ≠ [] then
    match times.getLast? with
    | none => some none
    | some prev =>
        (checkedAdd prev (((24 - Chrono.hour prev) % 24 : ℕ) * HOUR)).map fun ts =>
          some (times ++ [ts])
  else
    match (Str.parseUnsigned (2 ^ 32 - 1) hour).bind (withHour init) with
    | none => some none
    | some ts =>
        if times.getLast?.any fun last => ts ≤ last then
          (checkedAdd ts DAY).map fun ts => some (times ++ [ts])
        else some (some (times ++ [ts]))

/-- The loop of `parse_hour_axis`. -/
def readTimes (fromRun : Bool) (init : DateTime) (times : List DateTime) :
    List Str → Option (Option (List DateTime))
  | [] => some (some times)
  | hour :: hours =>
      match pushTime fromRun init times hour with
      | none => none
      | some none => some none
      | some (some times) => readTimes fromRun init times hours

/-- `parse_hour_axis`. -/
def parseHourAxis (lines : List Str) (model : Str) (init : DateTime) :
    Option (Option (List DateTime × List Str)) :=
  match findAxis lines with
  | none => some none
  | some axis =>
      (readTimes (countsFromRun axis.label model) init [] (axisHours axis.line)).map fun times =>
        times.map fun times => (times, axis.dataLines)

/-! ## The values of a section -/

/-- Give the first forecasts a value each. -/
def insertValues (name : Str) : List MosForecastRow → List Str → List MosForecastRow
  | [], _ => []
  | rows, [] => rows
  | row :: rows, value :: values =>
      { row with values := row.values.insert name value } :: insertValues name rows values

/-- The name of the variable of a line, read from its first three bytes. -/
def rowName (field : Str) : Str :=
  remapVar ((Str.trim field).map fun c => if c = '/' then '_' else c)

/-- One round of the loop over the lines behind the hours. -/
def pushRow (forecasts : List MosForecastRow) (line : Str) : Option (List MosForecastRow) :=
  if Str.byteLen line < 3 then some forecasts
  else (Str.splitAtByte 3 line).map fun (field, cells) =>
    if rowName field = [] then forecasts
    else insertValues (rowName field) forecasts (Str.splitWhitespace cells)

/-- The name of the model under which a section is kept. -/
def sectionModel (header : SectionHeader) : Str :=
  if header.mosName = "LAMP".toList then "LAV".toList
  else if header.model = "GFSX".toList then "MEX".toList
  else if header.model = "NBM".toList then header.mosName
  else header.model

/-- The time of the run of a section, as a text. -/
def sectionRuntime (header : SectionHeader) : Option Str :=
  (Str.sliceTo 2 header.hhmm).map fun hh =>
    Str.ofInt header.year ++ ['-'] ++ padded 2 header.month ++ ['-'] ++ padded 2 header.day ++
      ['T'] ++
      hh ++ ":00:00Z".toList

/-- `parse_section`. -/
def parseSection (text : Str) : Option (Option MosSection) :=
  let lines := Str.lines text
  match lines.head?.bind fun line => parseSectionHeader (sanitizeSectionLine line) with
  | none => some none
  | some header => do
      let model := sectionModel header
      let runtime ← sectionRuntime header
      match parseFromRfc3339 runtime with
      | none => some none
      | some init => do
          match ← parseHourAxis lines model init with
          | none => some none
          | some (times, dataLines) => do
              let rows : List MosForecastRow := times.map fun ts => ⟨toRfc3339 ts, .empty⟩
              let forecasts ← dataLines.foldlM pushRow rows
              some (some ⟨header.station, model, runtime, forecasts⟩)

/-! ## Bulletins for exchange -/

/-- The named groups of `ftp_header_re`. -/
structure FtpHeader where
  model : Str
  baseMonth : Str
  baseDay : Str
  dcMonth : Str
  dcDay : Str
  dcHour : Str

section

variable (isDecimal : Char → Bool)

/-- Two decimal digits, and what follows them. -/
def takeTwoDigits (s : Str) : Option (Str × Str) :=
  let digits := s.take 2
  if digits.length = 2 ∧ digits.all isDecimal then some (digits, s.drop 2) else none

/-- What follows white space. -/
def skipSpaces (s : Str) : Option Str :=
  if s.head?.any Str.isWhitespace then some (Str.trimStart s) else none

/-- `ftp_header_re`; `isDecimal` are the characters that `\d` stands for. -/
def matchFtpHeader (text : Str) : Option FtpHeader := do
  let s ← (Str.stripPrefix ".B".toList text).bind skipSpaces
  let model := s.takeWhile fun c => c.isUpper || c.isDigit
  if model.length < 3 ∨ 5 < model.length then none
  let s ← skipSpaces (s.drop model.length)
  let (baseMonth, s) ← takeTwoDigits isDecimal s
  let (baseDay, s) ← takeTwoDigits isDecimal s
  let s ← (skipSpaces s).bind (Str.stripPrefix "DH".toList)
  let (_, s) ← takeTwoDigits isDecimal s
  let s ← Str.stripPrefix "/DC".toList s
  let (dcMonth, s) ← takeTwoDigits isDecimal s
  let (dcDay, s) ← takeTwoDigits isDecimal s
  let (dcHour, _) ← takeTwoDigits isDecimal s
  some ⟨model, baseMonth, baseDay, dcMonth, dcDay, dcHour⟩

/-- A year in at least four places. -/
def fourPlaces (year : ℤ) : Str :=
  if year < 0 then '-' :: padded 3 year.natAbs else padded 4 year.natAbs

/-- The forecasts of a line, a pair of values for every day from a first day on.  The first day
that is not representable ends the bulletin. -/
def pairForecasts (day : ℤ) : List Str → Option (List MosForecastRow)
  | high :: low :: values =>
      if InRange (utc day 0) then
        (pairForecasts (day + 1) values).map fun forecasts =>
          ⟨toRfc3339 (utc day 0),
            (OrderedMap.empty.insert "TAIFBX".toList high).insert "TAIFBN".toList low⟩ :: forecasts
      else none
  | _ => some []

/-- The section of a line of data; a line may have none. -/
def ftpSection (model runtime : Str) (baseDate : ℤ) (line : Str) : Option (Option MosSection) :=
  let trimmed := Str.trim line
  if trimmed.head? = none ∨ trimmed.head? = some '.' then some none
  else
    match Str.splitWhitespace trimmed with
    | station :: valueText :: _ =>
        let values := valueText.splitOn '/'
        if values.length < 2 ∨ values.length % 2 ≠ 0 then some none
        else (pairForecasts baseDate values).map fun forecasts =>
          some ⟨station, model, runtime, forecasts⟩
    | _ => some none

/-- `parse_ftp_bulletin`. -/
def parseFtpBulletin (text : Str) (referenceTime : DateTime) : Option MosBulletin := do
  let lines := Str.lines text
  let isHeader := fun line : Str =>
    let trimmed := Str.trim line
    decide (trimmed = []) || Str.startsWith ".B".toList trimmed
  if lines.all isHeader then none
  let header ← matchFtpHeader isDecimal ((lines.takeWhile isHeader).map Str.trim).flatten
  let year := (date referenceTime).year
  let dcMonth ← Str.parseUnsigned 255 header.dcMonth
  let dcDay ← Str.parseUnsigned 255 header.dcDay
  let dcHour ← Str.parseUnsigned 255 header.dcHour
  let runtime := fourPlaces year ++ ['-'] ++ padded 2 dcMonth ++ ['-'] ++ padded 2 dcDay ++ ['T'] ++
    padded 2 dcHour ++ ":00:00Z".toList
  let baseMonth ← Str.parseUnsigned (2 ^ 32 - 1) header.baseMonth
  let baseDay ← Str.parseUnsigned (2 ^ 32 - 1) header.baseDay
  let baseDate ← fromYmdOpt year baseMonth baseDay
  let sections ← (lines.dropWhile isHeader).mapM (ftpSection header.model runtime baseDate)
  let sections := sections.filterMap id
  if sections = [] then none else some ⟨sections⟩

/-- `parse_mos_bulletin`. -/
def parseMosBulletin (text : Str) (referenceTime : DateTime) : Option (Option MosBulletin) :=
  let normalized := stripControlChars text
  if (Str.lines normalized).any fun line => Str.startsWith ".B ".toList (Str.trimStart line) then
    some (parseFtpBulletin isDecimal normalized referenceTime)
  else
    ((splitSections normalized).mapM parseSection).map fun sections =>
      match sections.filterMap id with
      | [] => none
      | sections => some ⟨sections⟩

end

end Parser.Mos
