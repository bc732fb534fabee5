/-
# Guards

Before a parser of `specialized` is tried, the classifier looks whether the text can be of its
family: at the identifier of the product, and for words that stand in its body.
`pipeline/classify/text/guards.rs` has one guard for each family, `common.rs` what they share, and
`header/enrich.rs` and `header/parser.rs` what is read of the heading before.
-/
import Emwin.FileEvents.Model
import Emwin.Lib.Slices
import Emwin.Parser.Header
import Emwin.Parser.Support
import Emwin.Pipeline.Envelope

namespace Pipeline

open Parser Parser.Header Chrono
open FileEvents (BbbKind)

/-! ## Headings -/

/-- `starts_with` of a fixed text. -/
def startsWith (p : String) (s : Str) : Bool := Str.startsWith p.toList s

/-- `contains` of a fixed text. -/
def contains (p : String) (s : Str) : Bool := (Str.find p.toList s).isSome

/-- `classify_bbb`. -/
def classifyBbb (bbb : Str) : BbbKind :=
  let normalized := Str.toAsciiUppercase (Str.trim bbb)
  if startsWith "AA" normalized then .amendment
  else if startsWith "CC" normalized then .correction
  else if startsWith "RR" normalized then .delayedRepeat
  else .other

/-- The characters of an identifier that `enrich_header` classifies it by.  An identifier has ASCII
characters only, so the source never cuts one. -/
def pilNnn (header : TextProductHeader) : Option Str :=
  if 3 ≤ Str.byteLen header.afos then Str.sliceTo 3 header.afos else none

/-- The kind of a header, as `enrich_header` has it. -/
def bbbKind (header : TextProductHeader) : Option BbbKind := header.bbb.map classifyBbb

/-- `parse_timestamp_fields`. -/
def parseTimestampFields (ddhhmm : Str) (referenceTime : DateTime) : Option DateTime :=
  if Str.byteLen ddhhmm ≠ 6 then none
  else do
    let field := fun i => (Str.slice i (i + 2) ddhhmm).bind (Str.parseUnsigned (2 ^ 32 - 1))
    let day ← field 0
    let hour ← field 2
    let minute ← field 4
    if day = 0 ∨ 31 < day ∨ 23 < hour ∨ 59 < minute then none
    else resolveDayTimeNearest referenceTime day hour minute

/-! ## Lines -/

/-- `filename_stem`. -/
def filenameStem (filename : Str) : Str :=
  let tail := ((Str.rsplitOnce '/' filename).map Prod.snd).getD filename
  ((Str.splitOnce '.' tail).map Prod.fst).getD filename

/-- `first_nonempty_line`. -/
def firstNonemptyLine (text : Str) : Option Str :=
  ((Str.lines text).map Str.trim).find? (· ≠ [])

/-- `starts_with_icao_sigmet_line`. -/
def startsWithIcaoSigmetLine (line : Str) : Bool :=
  match Str.splitWhitespace line with
  | origin :: sigmet :: _ =>
      Str.byteLen origin = 4 && origin.all Char.isUpper && sigmet = "SIGMET".toList
  | _ => false

/-- `is_ascii_digits`. -/
def isAsciiDigits (value : Str) : Bool := value ≠ [] && value.all Char.isDigit

/-- `looks_like_multipart_taf_bulletin`. -/
def looksLikeMultipartTafBulletin (bodyText : Str) : Bool :=
  ((Str.lines bodyText).map Str.trim).any fun line =>
    let upper := Str.toAsciiUppercase line
    contains "PART " upper && contains " OF " upper && contains " TAF " upper &&
      (Str.splitWhitespace upper)[1]?.any isAsciiDigits &&
      (Str.splitWhitespace upper)[3]?.any isAsciiDigits

/-- Whether some line begins with a text, behind what it is indented by. -/
def anyLineStarts (p : String) (bodyText : Str) : Bool :=
  (Str.lines bodyText).any fun line => startsWith p (Str.trimStart line)

/-! ## Guards of texts -/

/-- `looks_like_fd_text_product`. -/
def looksLikeFdTextProduct (afos bodyText : Str) : Bool :=
  (Str.sliceTo 3 afos).any (· ∈ ["FD0", "FD1", "FD2", "FD3", "FD8", "FD9", "FDI"].map
    String.toList) ||
  contains "DATA BASED ON " bodyText && contains "VALID " bodyText && anyLineStarts "FT " bodyText

/-- `looks_like_fd_wmo_bulletin`. -/
def looksLikeFdWmoBulletin (filename bodyText : Str) : Bool :=
  startsWith "FD" (filenameStem filename) && contains "DATA BASED ON " bodyText &&
    contains "VALID " bodyText && anyLineStarts "FT " bodyText

/-- `looks_like_pirep_text_product`. -/
def looksLikePirepTextProduct (afos bodyText : Str) : Bool :=
  let trimmed := Str.trimStart bodyText
  let hasKind := startsWith "UA " trimmed || startsWith "UUA " trimmed ||
    contains "\nUA " bodyText || contains "\nUUA " bodyText || contains " UA " bodyText ||
    contains " UUA " bodyText
  startsWith "PIR" afos || Str.eqIgnoreAsciiCase afos "PRCUS".toList ||
    Str.eqIgnoreAsciiCase afos "PIREP".toList || startsWith "ARP " (Str.trimStart bodyText) ||
    (contains "/OV " bodyText || contains "/OV" bodyText) && contains "/TM" bodyText && hasKind

/-- `looks_like_cli_text_product`. -/
def looksLikeCliTextProduct (afos bodyText : Str) : Bool :=
  startsWith "CLI" afos ||
    contains "CLIMATE SUMMARY" (Str.toAsciiUppercase bodyText) &&
      contains "WEATHER ITEM" (Str.toAsciiUppercase bodyText)

/-- `looks_like_sigmet_text_product`. -/
def looksLikeSigmetTextProduct (afos bodyText : Str) : Bool :=
  startsWith "SIG" afos || startsWith "WS" afos ||
    startsWith "CONVECTIVE SIGMET " (Str.trimStart bodyText) ||
    startsWith "KZAK SIGMET " (Str.trimStart bodyText) ||
    startsWith "SIGMET " (Str.trimStart bodyText)

/-- `looks_like_lsr_text_product`. -/
def looksLikeLsrTextProduct (afos bodyText : Str) : Bool :=
  startsWith "LSR" afos &&
    (let uppercase := Str.toAsciiUppercase bodyText
    contains "..TIME.." uppercase && contains "..DATE.." uppercase ||
      contains "PRELIMINARY LOCAL STORM REPORT" uppercase ||
      contains "LOCAL STORM REPORT" uppercase)

/-- `looks_like_cwa_text_product`. -/
def looksLikeCwaTextProduct (afos bodyText : Str) : Bool :=
  startsWith "CWA" afos || contains " CWA " bodyText && contains "VALID UNTIL" bodyText ||
    (Str.lines bodyText).head?.any (contains " CWA ")

/-- `looks_like_wwp_text_product`. -/
def looksLikeWwpTextProduct (afos bodyText : Str) : Bool :=
  startsWith "WWP" afos && contains "PROBABILITY TABLE:" bodyText &&
    (contains "ATTRIBUTE TABLE:" bodyText || contains "WATCH PROBABILITIES FOR WT" bodyText ||
      contains "WATCH PROBABILITIES FOR WS" bodyText)

/-- `looks_like_saw_text_product`. -/
def looksLikeSawTextProduct (afos bodyText : Str) : Bool :=
  startsWith "SAW" afos && contains "WW " bodyText && contains "SPC AWW" bodyText

/-- `looks_like_sel_text_product`. -/
def looksLikeSelTextProduct (afos bodyText : Str) : Bool :=
  startsWith "SEL" afos && contains "URGENT - IMMEDIATE BROADCAST REQUESTED" bodyText &&
    (let uppercase := Str.toAsciiUppercase bodyText
    contains "WATCH NUMBER" uppercase || contains "WATCH - NUMBER" uppercase)

/-- `looks_like_cf6_text_product`. -/
def looksLikeCf6TextProduct (afos bodyText : Str) : Bool :=
  startsWith "CF6" afos ||
    contains "PRELIMINARY LOCAL CLIMATOLOGICAL DATA" bodyText && contains "MONTH:" bodyText &&
      contains "YEAR:" bodyText

/-- `looks_like_dsm_text_product`. -/
def looksLikeDsmTextProduct (afos bodyText : Str) : Bool :=
  startsWith "DSM" afos ||
    contains " DS " bodyText && (Str.lines bodyText).any fun line =>
      let trimmed := Str.trim line
      7 ≤ Str.byteLen trimmed &&
        ((Utf8.encode trimmed).drop 4).take 3 = Utf8.encode " DS".toList && '/' ∈ trimmed

/-- `looks_like_hml_text_product`. -/
def looksLikeHmlTextProduct (afos bodyText : Str) : Bool :=
  startsWith "HML" afos && contains "<?xml" bodyText

/-- `looks_like_mos_text_product`. -/
def looksLikeMosTextProduct (afos bodyText : Str) : Bool :=
  (Str.sliceTo 3 afos).any (· ∈ ["MET", "MAV", "MEX", "FRH", "FTP", "ECS", "LAV", "LEV", "NBE",
    "NBS", "NBX"].map String.toList) &&
  (contains "GUIDANCE" bodyText && contains "MOS GUIDANCE" bodyText ||
    contains "GUIDANCE" bodyText && ((Str.lines bodyText).any fun line =>
      let trimmed := Str.trimStart line
      startsWith "HR" trimmed || startsWith "FHR" trimmed || startsWith "UTC" trimmed) ||
    anyLineStarts ".B " bodyText)

/-- `looks_like_mcd_text_product`. -/
def looksLikeMcdTextProduct (afos bodyText : Str) : Bool :=
  afos ∈ ["SWOMCD", "FFGMPD"].map String.toList || contains "MESOSCALE DISCUSSION" bodyText ||
    contains "MPD" bodyText || contains "AREAS AFFECTED" bodyText

/-- `looks_like_ero_text_product`. -/
def looksLikeEroTextProduct (afos bodyText : Str) : Bool :=
  afos ∈ ["RBG94E", "RBG98E", "RBG99E"].map String.toList &&
    contains "Excessive Rainfall" bodyText && contains "TO THE RIGHT OF A LINE FROM" bodyText

/-- `looks_like_spc_outlook_text_product`. -/
def looksLikeSpcOutlookTextProduct (afos bodyText : Str) : Bool :=
  afos ∈ ["PTSDY1", "PTSDY2", "PTSDY3", "PTSD48", "PFWFD1", "PFWFD2", "PFWF38"].map
    String.toList && contains "VALID" bodyText

/-! ## Guards of bulletins without an identifier -/

/-- `looks_like_sigmet_wmo_bulletin`. -/
def looksLikeSigmetWmoBulletin (bodyText : Str) : Bool :=
  (firstNonemptyLine bodyText).any fun firstLine =>
    startsWith "SIGMET " firstLine || startsWithIcaoSigmetLine firstLine ||
      contains " SIGMET " firstLine && contains " VALID " firstLine

/-- `looks_like_metar_wmo_bulletin`. -/
def looksLikeMetarWmoBulletin (bodyText : Str) : Bool :=
  ((Str.lines bodyText).map Str.trim).any fun line =>
    line = "METAR".toList || line = "SPECI".toList || startsWith "METAR " line ||
      startsWith "SPECI " line

/-- An identifier that is the word of a report. -/
def isMetarWord (afos : Str) : Bool := afos ∈ ["METAR", "SPECI"].map String.toList

/-- `looks_like_metar_text_product`. -/
def looksLikeMetarTextProduct (afos bodyText : Str) : Bool :=
  isMetarWord afos || looksLikeMetarWmoBulletin bodyText

/-- `looks_like_international_pirep_text_product`. -/
def looksLikeInternationalPirepTextProduct (afos bodyText : Str) : Bool :=
  afos = "PIREP".toList && contains " OBSD AT " (Str.toAsciiUppercase bodyText) &&
    '/' ∉ bodyText

/-- `looks_like_international_pirep_bulletin`. -/
def looksLikeInternationalPirepBulletin (bodyText : Str) : Bool :=
  (firstNonemptyLine bodyText).any fun line =>
    let upper := Str.toAsciiUppercase line
    upper = "PIREP".toList || startsWith "PIREP " upper && contains " OBSD AT " upper

/-- `looks_like_taf_wmo_bulletin`. -/
def looksLikeTafWmoBulletin (bodyText : Str) : Bool :=
  ((Str.lines bodyText).map Str.trim).any fun line =>
    line = "TAF".toList || startsWith "TAF " line ||
      3 < Str.byteLen line && startsWith "TAF" line && line.all isCapitalOrDigit

/-- `looks_like_station_led_taf_body`. -/
def looksLikeStationLedTafBody (bodyText : Str) : Bool :=
  match Str.splitWhitespace bodyText with
  | station :: issueTime :: _ =>
      (3 ≤ Str.byteLen station && Str.byteLen station ≤ 4) && station.all Char.isAlphanum &&
        Str.byteLen issueTime = 7 && issueTime.getLast? = some 'Z' &&
        (Str.sliceTo 6 issueTime).any (·.all Char.isDigit)
  | _ => false

/-- `looks_like_taf_text_product`. -/
def looksLikeTafTextProduct (afos bodyText : Str) : Bool :=
  startsWith "TAF" afos &&
    (looksLikeTafWmoBulletin bodyText || looksLikeStationLedTafBody bodyText ||
      looksLikeMultipartTafBulletin bodyText)

/-- `looks_like_airmet_wmo_bulletin`. -/
def looksLikeAirmetWmoBulletin (bodyText : Str) : Bool :=
  (firstNonemptyLine bodyText).any fun line => contains " AIRMET " line && contains " VALID " line

/-- `looks_like_canadian_text_bulletin`. -/
def looksLikeCanadianTextBulletin (header : WmoHeader) (bodyText : Str) : Bool :=
  startsWith "CW" header.cccc || contains "ENVIRONMENT CANADA" bodyText

/-- `looks_like_surface_observation_bulletin`. -/
def looksLikeSurfaceObservationBulletin (bodyText : Str) : Bool :=
  (firstNonemptyLine bodyText).any (startsWith "NPL SA ")

/-! ## Canadian bulletins -/

/-- `CanadianWmoFamily`. -/
inductive CanadianWmoFamily where
  | surfaceObservation
  | tornadoWarning
  | severeThunderstormWarning
  | tropicalCyclonePublicInformation
  | tropicalCycloneWatchWarning
  | tropicalCycloneTechnicalDiscussion
  | stormSummary
  | specialWeatherStatement
  | volcanicAshBulletin
  | residual
  deriving DecidableEq, Repr

/-- `canadian_sequence`. -/
def canadianSequence (ttaaii : Str) : Option ℕ :=
  (Str.slice 4 6 ttaaii).bind (Str.parseUnsigned 255)

/-- `is_tropical_canadian_number`. -/
def isTropicalCanadianNumber (ttaaii : Str) : Bool :=
  (canadianSequence ttaaii).any (· ∈ [31, 32, 33, 41, 42, 43])

/-- `classify_canadian_wmo_family`. -/
def classifyCanadianWmoFamily (header : WmoHeader) (bodyText : Str) : Option CanadianWmoFamily :=
  let ttaaii := header.ttaaii
  if startsWith "SACN" ttaaii then some .surfaceObservation
  else if startsWith "WFCN" ttaaii then some .tornadoWarning
  else if startsWith "WUCN" ttaaii then some .severeThunderstormWarning
  else if startsWith "WTCN" ttaaii && isTropicalCanadianNumber ttaaii then
    some .tropicalCycloneWatchWarning
  else if startsWith "FXCN" ttaaii && isTropicalCanadianNumber ttaaii then
    some .tropicalCycloneTechnicalDiscussion
  else if startsWith "WWCN" ttaaii then
    some (if isTropicalCanadianNumber ttaaii then .stormSummary else .specialWeatherStatement)
  else if startsWith "WOCN" ttaaii then
    some (if isTropicalCanadianNumber ttaaii then .tropicalCyclonePublicInformation
      else .specialWeatherStatement)
  else if startsWith "FVCN" ttaaii && (canadianSequence ttaaii).any (· ∈ [1, 2, 3, 4]) then
    some .volcanicAshBulletin
  else if looksLikeCanadianTextBulletin header bodyText then some .residual
  else none

end Pipeline

/-!
# Candidates

`pipeline/candidate.rs` has one type for what the classifier found of each family.  Those that a
text with an identifier alone can become carry its header; the others say where they come from and
carry one of two headings.

The bulletins themselves are the business of `specialized`: a family of types, one for each kind of
artifact, and a parser for each.  `none` is a panic of a parser.
-/

namespace Pipeline

open Parser Parser.Header Parser.BodyPlan Chrono
open FileEvents (BbbKind ProductEnrichmentSource)

/-! ## Artifacts -/

/-- The variants of `ProductArtifact`. -/
inductive ArtifactKind where
  | metar
  | taf
  | dcp
  | fd
  | pirep
  | sigmet
  | lsr
  | cli
  | cwa
  | wwp
  | saw
  | sel
  | cf6
  | dsm
  | hml
  | mos
  | mcd
  | ero
  | spcOutlook
  deriving DecidableEq, Repr

variable (Bulletin : ArtifactKind → Type)

/-- `ProductArtifact`: a bulletin of some kind. -/
structure ProductArtifact where
  kind : ArtifactKind
  bulletin : Bulletin kind

/-- A parser that returns issues beside its bulletin. -/
abbrev WithIssues (B : Type) : Type := B × List ProductParseIssue

/-- The parsers of `specialized`. -/
structure Parsers where
  parseFdBulletin (text : Str) (routingCode : Option Str) (referenceTime : DateTime) :
    Option (Option (Bulletin .fd))
  parseMetarBulletin (text : Str) : Option (Option (WithIssues (Bulletin .metar)))
  parseTafBulletin (text : Str) : Option (Option (Bulletin .taf))
  parsePirepBulletin (text : Str) : Option (Option (Bulletin .pirep))
  parseSigmetBulletin (text : Str) : Option (Option (Bulletin .sigmet))
  parseLsrBulletin (text : Str) (referenceTime : DateTime) :
    Option (Option (WithIssues (Bulletin .lsr)))
  parseCliBulletin (text : Str) : Option (Option (Bulletin .cli))
  parseCwaBulletin (text : Str) (referenceTime : DateTime) : Option (Option (Bulletin .cwa))
  parseWwpBulletin (text : Str) : Option (Option (Bulletin .wwp))
  parseSawBulletin (text : Str) (afos : Option Str) (referenceTime : DateTime) :
    Option (Option (Bulletin .saw))
  parseSelBulletin (text : Str) : Option (Option (Bulletin .sel))
  parseCf6Bulletin (text : Str) : Option (Option (Bulletin .cf6))
  parseDsmBulletin (text : Str) (referenceTime : DateTime) :
    Option (Option (WithIssues (Bulletin .dsm)))
  parseHmlBulletin (text : Str) : Option (Option (Bulletin .hml))
  parseMosBulletin (text : Str) (referenceTime : DateTime) : Option (Option (Bulletin .mos))
  parseMcdBulletin (text : Str) (afos : Option Str) (referenceTime : DateTime) :
    Option (Option (Bulletin .mcd))
  parseEroBulletin (text : Str) (afos : Option Str) : Option (Option (Bulletin .ero))
  parseSpcOutlookBulletin (text : Str) (afos : Option Str) :
    Option (Option (Bulletin .spcOutlook))
  parseDcpBulletin (filename : Str) (header : WmoHeader) (text : Str) :
    Option (Option (Bulletin .dcp))

/-- What the pipeline takes from elsewhere: the catalogs, what the extractors of bodies take, the
parsers, the clock, and the reader of the time that a file name begins with. -/
structure Env where
  catalogs : Catalogs
  body : BodyPlan.Outside
  parsers : Parsers Bulletin
  now : DateTime
  parseFromStr : Str → Option DateTime

/-! ## Candidates -/

/-- `BodyContributionRequest`. -/
structure BodyContributionRequest where
  text : Str
  plan : BodyExtractionPlan
  referenceTime : Option DateTime
  inputFormat : BodyInputFormat
  deriving DecidableEq, Repr

/-- `TextCandidateParts`. -/
structure TextCandidateParts where
  header : TextProductHeader
  pil : Option Str
  bbbKind : Option BbbKind
  bodyRequest : Option BodyContributionRequest
  deriving DecidableEq, Repr

/-- The candidate of a family that is read of texts with an identifier only: `LsrCandidate`,
`CliCandidate`, `WwpCandidate`, `SawCandidate`, `SelCandidate`, `Cf6Candidate`, `HmlCandidate`,
`MosCandidate`, `McdCandidate`, `EroCandidate` and `SpcOutlookCandidate`. -/
structure TextCandidate (B : Type) extends TextCandidateParts where
  bulletin : B
  issues : List ProductParseIssue

/-- What the candidates of the other families have in common. -/
structure CandidateParts where
  header : Option TextProductHeader
  wmoHeader : Option WmoHeader
  pil : Option Str
  bbbKind : Option BbbKind
  bodyRequest : Option BodyContributionRequest
  deriving DecidableEq, Repr

/-- `TextGenericCandidate`. -/
structure TextGenericCandidate extends TextCandidateParts where
  title : Option Str
  referenceTime : Option DateTime

/-- `FdCandidate`. -/
structure FdCandidate extends CandidateParts where
  source : ProductEnrichmentSource
  family : Str
  title : Str
  bulletin : Bulletin .fd

/-- `PirepCandidate` and `TafCandidate`. -/
structure PlainCandidate (B : Type) extends CandidateParts where
  source : ProductEnrichmentSource
  bulletin : B

/-- `SigmetCandidate`, `DsmCandidate` and `MetarCandidate`. -/
structure NotedCandidate (B : Type) extends CandidateParts where
  source : ProductEnrichmentSource
  bulletin : B
  issues : List ProductParseIssue

/-- `CwaCandidate`. -/
structure CwaCandidate extends CandidateParts where
  bulletin : Bulletin .cwa
  issues : List ProductParseIssue

/-- `DcpCandidate`. -/
structure DcpCandidate where
  header : WmoHeader
  bulletin : Bulletin .dcp

/-- `MalformedFamilyCandidate`. -/
structure MalformedFamilyCandidate extends CandidateParts where
  source : ProductEnrichmentSource
  family : Str
  title : Str
  issues : List ProductParseIssue

/-- `UnsupportedWmoCandidate`. -/
structure UnsupportedWmoCandidate where
  family : Str
  title : Option Str
  header : WmoHeader
  code : Str
  message : Str
  line : Option Str

/-- `ClassificationCandidate`. -/
inductive ClassificationCandidate where
  | textGeneric (candidate : TextGenericCandidate)
  | fd (candidate : FdCandidate Bulletin)
  | pirep (candidate : PlainCandidate (Bulletin .pirep))
  | sigmet (candidate : NotedCandidate (Bulletin .sigmet))
  | lsr (candidate : TextCandidate (Bulletin .lsr))
  | cli (candidate : TextCandidate (Bulletin .cli))
  | cwa (candidate : CwaCandidate Bulletin)
  | wwp (candidate : TextCandidate (Bulletin .wwp))
  | saw (candidate : TextCandidate (Bulletin .saw))
  | sel (candidate : TextCandidate (Bulletin .sel))
  | cf6 (candidate : TextCandidate (Bulletin .cf6))
  | dsm (candidate : NotedCandidate (Bulletin .dsm))
  | hml (candidate : TextCandidate (Bulletin .hml))
  | mos (candidate : TextCandidate (Bulletin .mos))
  | mcd (candidate : TextCandidate (Bulletin .mcd))
  | ero (candidate : TextCandidate (Bulletin .ero))
  | spcOutlook (candidate : TextCandidate (Bulletin .spcOutlook))
  | metar (candidate : NotedCandidate (Bulletin .metar))
  | taf (candidate : PlainCandidate (Bulletin .taf))
  | dcp (candidate : DcpCandidate Bulletin)
  | malformedFamily (candidate : MalformedFamilyCandidate)
  | nonText (candidate : NonTextProductMeta)
  | unsupportedWmo (candidate : UnsupportedWmoCandidate)
  | textParseFailure (error : ParserError)
  | unknown

end Pipeline
