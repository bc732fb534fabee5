/-
# Strategies

`pipeline/classify` tries its strategies in a fixed order and takes what the first of them finds.
A strategy looks at the catalog and at a guard, runs the parser of its family, and builds a
candidate: of the bulletin, or of a family whose bulletin could not be read.  Four of them pass a
text on instead when their parser fails.

Each parser is run with the same time, which is that of the heading, or that of the clock where the
heading has none and the parser needs one.
-/
import Emwin.Pipeline.Candidate

namespace Pipeline

open Parser Parser.Header Parser.BodyPlan Chrono
open FileEvents (BbbKind ProductEnrichmentSource)

variable {Bulletin : ArtifactKind → Type} (env : Env Bulletin)

/-! ## Contexts -/

/-- `TextClassificationContext`. -/
structure TextClassificationContext where
  filename : Str
  header : TextProductHeader
  bodyText : Str
  policy : Option TextProductCatalogEntry
  pil : Option Str
  title : Option Str
  bodyPlan : Option BodyExtractionPlan
  bbbKind : Option BbbKind
  referenceTime : Option DateTime

/-- `WmoClassificationContext`. -/
structure WmoClassificationContext where
  filename : Str
  header : WmoHeader
  bodyText : Str

/-- `body_extraction_plan_for_policy`. -/
def bodyExtractionPlanForPolicy (policy : Option TextProductCatalogEntry) :
    Option BodyExtractionPlan := do
  let policy ← policy
  match policy.bodyBehavior with
  | .never => none
  | .catalog => some (bodyExtractionPlan policy.extractors)

/-- The context of a text with its header and its body. -/
def TextClassificationContext.ofText (filename : Str) (header : TextProductHeader)
    (bodyText : Str) : TextClassificationContext :=
  let policy := resolvedTextProductPolicy env.catalogs header.afos
  { filename
    header
    bodyText
    policy
    pil := pilNnn header
    title := policy.map (·.title)
    bodyPlan := bodyExtractionPlanForPolicy policy
    bbbKind := Pipeline.bbbKind header
    referenceTime := parseTimestampFields header.ddhhmm env.now }

/-- `TextClassificationContext::from_envelope`. -/
def TextClassificationContext.fromEnvelope (envelope : ParsedEnvelope) :
    Option TextClassificationContext := do
  let _ ← envelope.normalized.textBytes
  let header ← envelope.header
  let bodyText ← envelope.bodyText
  some (.ofText env envelope.normalized.filename header bodyText)

/-- `WmoClassificationContext::from_envelope`. -/
def WmoClassificationContext.fromEnvelope (envelope : ParsedEnvelope) :
    Option WmoClassificationContext := do
  let _ ← envelope.normalized.textBytes
  let header ← envelope.wmoHeader
  let bodyText ← envelope.bodyText
  some ⟨envelope.normalized.filename, header, bodyText⟩

/-- `detect_body_input_format`. -/
def detectBodyInputFormat (bodyText : Str) : BodyInputFormat :=
  let trimmed := bodyText.dropWhile Str.isAsciiControl
  if startsWith "<?xml" trimmed || startsWith "<alert" trimmed then .capXml else .plainText

/-- `build_body_request`. -/
def buildBodyRequest (bodyPlan : Option BodyExtractionPlan) (bodyText : Str)
    (referenceTime : Option DateTime) : Option BodyContributionRequest :=
  bodyPlan.map fun plan => ⟨bodyText, plan, referenceTime, detectBodyInputFormat bodyText⟩

namespace TextClassificationContext

variable (context : TextClassificationContext)

/-- `TextClassificationContext::body_request`. -/
def bodyRequest : Option BodyContributionRequest :=
  buildBodyRequest context.bodyPlan context.bodyText context.referenceTime

/-- `TextClassificationContext::has_routing`. -/
def hasRouting (routing : TextProductRouting) : Bool :=
  context.policy.map (·.routing) = some routing

/-- `text_candidate_parts`. -/
def textCandidateParts : TextCandidateParts :=
  ⟨context.header, context.pil, context.bbbKind, context.bodyRequest⟩

/-- The parts of a candidate that can have either heading. -/
def parts : CandidateParts :=
  ⟨some context.header, none, context.pil, context.bbbKind, context.bodyRequest⟩

/-- `matches_routed_text_family`. -/
def matchesRoutedTextFamily (routing : TextProductRouting) (guard : Str → Str → Bool) : Bool :=
  context.hasRouting routing && guard context.header.afos context.bodyText

end TextClassificationContext

/-- The parts of a candidate with a heading only. -/
def WmoClassificationContext.parts (context : WmoClassificationContext) (pil : Option Str) :
    CandidateParts :=
  ⟨none, some context.header, pil, none, none⟩

/-! ## Families -/

/-- `SupportedFamilySpec`. -/
structure SupportedFamilySpec where
  source : ProductEnrichmentSource
  family : Str
  title : Str
  issueKind : Str
  invalidCode : Str
  invalidMessage : Str
  missingReferenceCode : Option Str
  missingReferenceMessage : Option Str
  malformedPil : Option Str

/-- A family: one that needs a time has a message for when there is none. -/
def familySpec (source : ProductEnrichmentSource)
    (family title issueKind invalidCode invalidMessage : String)
    (missingReferenceMessage : Option String) : SupportedFamilySpec where
  source := source
  family := family.toList
  title := title.toList
  issueKind := issueKind.toList
  invalidCode := invalidCode.toList
  invalidMessage := invalidMessage.toList
  missingReferenceCode := missingReferenceMessage.map fun _ => "missing_reference_time".toList
  missingReferenceMessage := missingReferenceMessage.map String.toList
  malformedPil := none

/-- `SupportedFamilyFailure`. -/
inductive SupportedFamilyFailure where
  | missingReferenceTime
  | parseFailure
  deriving DecidableEq, Repr

/-- What a parser of a family returns to its strategy. -/
abbrev Parsed (B : Type) : Type := Option (Except SupportedFamilyFailure (WithIssues B))

/-- `parsed_with_issues`, of a parser that may fail. -/
def parsedWithIssues {B : Type} (value : Option (Option (WithIssues B))) : Parsed B :=
  value.map fun
    | some value => .ok value
    | none => .error .parseFailure

/-- `parsed`, of a parser that may fail. -/
def parsed {B : Type} (bulletin : Option (Option B)) : Parsed B :=
  parsedWithIssues (bulletin.map (·.map fun bulletin => (bulletin, [])))

/-- `require_reference_time`. -/
def requireReferenceTime {B : Type} (referenceTime : Option DateTime)
    (parse : DateTime → Parsed B) : Parsed B :=
  match referenceTime with
  | some referenceTime => parse referenceTime
  | none => some (.error .missingReferenceTime)

/-- What a strategy finds: `none` is a panic, `some none` passes the text on. -/
abbrev Found (Bulletin : ArtifactKind → Type) : Type :=
  Option (Option (ClassificationCandidate Bulletin))

/-- `malformed_supported_family`. -/
def malformedSupportedFamily (source : ProductEnrichmentSource) (family title : Str)
    (parts : CandidateParts) (kind code message : Str) (line : Option Str) :
    ClassificationCandidate Bulletin :=
  .malformedFamily { parts with source, family, title, issues := [⟨kind, code, message, line⟩] }

/-- `text_invalid_family` and `wmo_invalid_family`. -/
def invalidFamily (spec : SupportedFamilySpec) (parts : CandidateParts) (bodyText : Str) :
    ClassificationCandidate Bulletin :=
  malformedSupportedFamily spec.source spec.family spec.title parts spec.issueKind spec.invalidCode
    spec.invalidMessage (firstNonemptyLine bodyText)

/-- `text_missing_reference_time` and `wmo_missing_reference_time`. -/
def familyMissingReferenceTime (spec : SupportedFamilySpec) (parts : CandidateParts)
    (bodyText : Str) : ClassificationCandidate Bulletin :=
  malformedSupportedFamily spec.source spec.family spec.title parts spec.issueKind
    (spec.missingReferenceCode.getD spec.invalidCode)
    (spec.missingReferenceMessage.getD spec.invalidMessage) (firstNonemptyLine bodyText)

/-- The candidate of what a parser returned. -/
def familyCandidate {B : Type} (spec : SupportedFamilySpec) (parts : CandidateParts)
    (bodyText : Str) (build : B → List ProductParseIssue → ClassificationCandidate Bulletin) :
    Except SupportedFamilyFailure (WithIssues B) → ClassificationCandidate Bulletin
  | .ok (bulletin, issues) => build bulletin issues
  | .error .missingReferenceTime => familyMissingReferenceTime spec parts bodyText
  | .error .parseFailure => invalidFamily spec parts bodyText

/-- `classify_supported_text_guarded`. -/
def classifySupportedTextGuarded {B : Type} (context : TextClassificationContext)
    (guard : Str → Str → Bool) (spec : SupportedFamilySpec) (parse : Parsed B)
    (build : B → List ProductParseIssue → ClassificationCandidate Bulletin) : Found Bulletin :=
  if !guard context.header.afos context.bodyText then some none
  else parse.map fun result =>
    some (familyCandidate spec context.parts context.bodyText build result)

/-- `classify_supported_text`. -/
def classifySupportedText {B : Type} (context : TextClassificationContext)
    (routing : TextProductRouting) (guard : Str → Str → Bool) (spec : SupportedFamilySpec)
    (parse : Parsed B)
    (build : B → List ProductParseIssue → ClassificationCandidate Bulletin) : Found Bulletin :=
  if !context.hasRouting routing then some none
  else classifySupportedTextGuarded context guard spec parse build

/-- The strategy of a family that passes a text on when its parser fails. -/
def classifyRoutedText {B : Type} (context : TextClassificationContext)
    (routing : TextProductRouting) (guard : Str → Str → Bool) (parse : Option (Option B))
    (build : B → ClassificationCandidate Bulletin) : Found Bulletin :=
  if !context.matchesRoutedTextFamily routing guard then some none
  else parse.map (·.map build)

/-- `classify_supported_wmo`. -/
def classifySupportedWmo {B : Type} (context : WmoClassificationContext) (guard : Bool)
    (spec : SupportedFamilySpec) (parse : Parsed B)
    (build : B → List ProductParseIssue → ClassificationCandidate Bulletin) : Found Bulletin :=
  if !guard then some none
  else parse.map fun result =>
    some (familyCandidate spec (context.parts spec.malformedPil) context.bodyText build result)

end Pipeline

/-!
# Classification

The strategies of `pipeline/classify/text/classifiers.rs` and `pipeline/classify/wmo.rs` in the
source's order, and `classify`, which runs them.
-/

namespace Pipeline

open Parser Parser.Header Chrono

variable {Bulletin : ArtifactKind → Type} (env : Env Bulletin)

/-! ## Texts with an identifier -/

def FD_TEXT_SPEC : SupportedFamilySpec :=
  familySpec .textHeader "fd_bulletin" "Winds and temperatures aloft" "fd_parse"
    "invalid_fd_bulletin" "recognized FD bulletin, but structured parsing failed"
    (some "recognized FD bulletin, but header timestamp could not be resolved")

def METAR_TEXT_SPEC : SupportedFamilySpec :=
  familySpec .textHeader "metar_collective" "METAR bulletin" "metar_parse"
    "invalid_metar_bulletin" "recognized METAR bulletin, but structured parsing failed" none

def TAF_TEXT_SPEC : SupportedFamilySpec :=
  familySpec .textHeader "taf_bulletin" "Terminal Aerodrome Forecast" "taf_parse"
    "invalid_taf_bulletin" "recognized TAF bulletin, but structured parsing failed" none

def PIREP_TEXT_SPEC : SupportedFamilySpec :=
  familySpec .textHeader "pirep_bulletin" "Pilot report bulletin" "pirep_parse"
    "invalid_pirep_bulletin" "recognized PIREP bulletin, but structured parsing failed" none

def SIGMET_TEXT_SPEC : SupportedFamilySpec :=
  familySpec .textHeader "sigmet_bulletin" "SIGMET bulletin" "sigmet_parse"
    "invalid_sigmet_bulletin" "recognized SIGMET bulletin, but structured parsing failed" none

def LSR_TEXT_SPEC : SupportedFamilySpec :=
  familySpec .textHeader "lsr_bulletin" "Local storm report bulletin" "lsr_parse"
    "invalid_lsr_bulletin" "recognized LSR bulletin, but structured parsing failed"
    (some "recognized LSR bulletin, but header timestamp could not be resolved")

def CWA_TEXT_SPEC : SupportedFamilySpec :=
  familySpec .textHeader "cwa_bulletin" "Center Weather Advisory" "cwa_parse"
    "invalid_cwa_bulletin" "recognized CWA bulletin, but structured parsing failed"
    (some "recognized CWA bulletin, but header timestamp could not be resolved")

def WWP_TEXT_SPEC : SupportedFamilySpec :=
  familySpec .textHeader "wwp_bulletin" "Watch probability table" "wwp_parse"
    "invalid_wwp_bulletin" "recognized WWP bulletin, but structured parsing failed" none

def CF6_TEXT_SPEC : SupportedFamilySpec :=
  familySpec .textHeader "cf6_bulletin" "Climate summary bulletin" "cf6_parse"
    "invalid_cf6_bulletin" "recognized CF6 bulletin, but structured parsing failed" none

def DSM_TEXT_SPEC : SupportedFamilySpec :=
  familySpec .textHeader "dsm_bulletin" "Daily summary message" "dsm_parse"
    "invalid_dsm_bulletin" "recognized DSM bulletin, but structured parsing failed" none

def HML_TEXT_SPEC : SupportedFamilySpec :=
  familySpec .textHeader "hml_bulletin" "Hydrological Markup Language bulletin" "hml_parse"
    "invalid_hml_bulletin" "recognized HML bulletin, but structured parsing failed" none

def MOS_TEXT_SPEC : SupportedFamilySpec :=
  familySpec .textHeader "mos_bulletin" "Model output statistics guidance" "mos_parse"
    "invalid_mos_bulletin" "recognized MOS bulletin, but structured parsing failed"
    (some "recognized MOS bulletin, but header timestamp could not be resolved")

def ERO_TEXT_SPEC : SupportedFamilySpec :=
  familySpec .textHeader "ero_bulletin" "Excessive rainfall outlook" "ero_parse"
    "invalid_ero_bulletin" "recognized ERO bulletin, but structured parsing failed" none

def SPC_OUTLOOK_TEXT_SPEC : SupportedFamilySpec :=
  familySpec .textHeader "spc_outlook_bulletin" "SPC outlook bulletin" "spc_outlook_parse"
    "invalid_spc_outlook_bulletin" "recognized SPC outlook bulletin, but structured parsing failed"
    none

section Text

variable (context : TextClassificationContext)

/-- `classify_text_fd`. -/
def classifyTextFd : Found Bulletin :=
  classifySupportedText context .fd looksLikeFdTextProduct FD_TEXT_SPEC
    (requireReferenceTime context.referenceTime fun referenceTime =>
      parsed (env.parsers.parseFdBulletin context.bodyText (some context.header.afos)
        referenceTime))
    fun bulletin _ => .fd { context.parts with
      source := .textHeader
      family := FD_TEXT_SPEC.family
      title := FD_TEXT_SPEC.title
      bulletin }

/-- `classify_text_metar`.  The identifier is put in front of a report that lacks its word. -/
def classifyTextMetar : Found Bulletin :=
  let bulletinText :=
    if isMetarWord context.header.afos && !looksLikeMetarWmoBulletin context.bodyText then
      context.header.afos ++ ' ' :: Str.trimStart context.bodyText
    else context.bodyText
  classifySupportedTextGuarded context looksLikeMetarTextProduct METAR_TEXT_SPEC
    (parsedWithIssues (env.parsers.parseMetarBulletin bulletinText))
    fun bulletin issues => .metar { context.parts with
      bodyRequest := none
      source := .textHeader
      bulletin
      issues }

/-- `classify_text_taf`. -/
def classifyTextTaf : Found Bulletin :=
  if startsWith "TAF" context.header.afos && looksLikeMultipartTafBulletin context.bodyText then
    some (some (malformedSupportedFamily .textHeader "multipart_taf_bulletin".toList
      "Multipart terminal aerodrome forecast".toList { context.parts with bodyRequest := none }
      "taf_parse".toList "unsupported_multipart_taf_bulletin".toList
      "recognized multipart TAF bulletin, but multipart TAF assembly is not implemented".toList
      (firstNonemptyLine context.bodyText)))
  else
    classifySupportedTextGuarded context looksLikeTafTextProduct TAF_TEXT_SPEC
      (parsed (env.parsers.parseTafBulletin context.bodyText))
      fun bulletin _ => .taf { context.parts with
        bodyRequest := none
        source := .textHeader
        bulletin }

/-- `classify_text_pirep`. -/
def classifyTextPirep : Found Bulletin :=
  if startsWith "PIR" context.header.afos &&
      looksLikeInternationalPirepTextProduct context.header.afos context.bodyText then
    some (some (malformedSupportedFamily .textHeader "international_pirep_bulletin".toList
      "International pilot report bulletin".toList context.parts
      "pirep_parse".toList "unsupported_international_pirep_bulletin".toList
      ("recognized international PIREP bulletin, but this parser only supports domestic " ++
        "slash-tag PIREP structure").toList
      (firstNonemptyLine context.bodyText)))
  else
    classifySupportedText context .pirep looksLikePirepTextProduct PIREP_TEXT_SPEC
      (parsed (env.parsers.parsePirepBulletin context.bodyText))
      fun bulletin _ => .pirep { context.parts with source := .textHeader, bulletin }

/-- `classify_text_sigmet`. -/
def classifyTextSigmet : Found Bulletin :=
  classifySupportedText context .sigmet looksLikeSigmetTextProduct SIGMET_TEXT_SPEC
    (parsed (env.parsers.parseSigmetBulletin context.bodyText))
    fun bulletin _ => .sigmet { context.parts with source := .textHeader, bulletin, issues := [] }

/-- `classify_text_lsr`. -/
def classifyTextLsr : Found Bulletin :=
  classifySupportedText context .lsr looksLikeLsrTextProduct LSR_TEXT_SPEC
    (requireReferenceTime context.referenceTime fun referenceTime =>
      parsedWithIssues (env.parsers.parseLsrBulletin context.bodyText referenceTime))
    fun bulletin issues => .lsr { context.textCandidateParts with bulletin, issues }

/-- `classify_text_cli`. -/
def classifyTextCli : Found Bulletin :=
  classifyRoutedText context .cli looksLikeCliTextProduct
    (env.parsers.parseCliBulletin context.bodyText)
    fun bulletin => .cli { context.textCandidateParts with bulletin, issues := [] }

/-- `classify_text_cwa`. -/
def classifyTextCwa : Found Bulletin :=
  classifySupportedText context .cwa looksLikeCwaTextProduct CWA_TEXT_SPEC
    (requireReferenceTime context.referenceTime fun referenceTime =>
      parsed (env.parsers.parseCwaBulletin context.bodyText referenceTime))
    fun bulletin _ => .cwa { context.parts with bulletin, issues := [] }

/-- `classify_text_wwp`. -/
def classifyTextWwp : Found Bulletin :=
  classifySupportedText context .wwp looksLikeWwpTextProduct WWP_TEXT_SPEC
    (parsed (env.parsers.parseWwpBulletin context.bodyText))
    fun bulletin _ => .wwp { context.textCandidateParts with bulletin, issues := [] }

/-- `classify_text_saw`. -/
def classifyTextSaw : Found Bulletin :=
  classifyRoutedText context .saw looksLikeSawTextProduct
    (context.referenceTime.elim (some none) fun referenceTime =>
      env.parsers.parseSawBulletin context.bodyText (some context.header.afos) referenceTime)
    fun bulletin => .saw { context.textCandidateParts with bulletin, issues := [] }

/-- `classify_text_sel`. -/
def classifyTextSel : Found Bulletin :=
  classifyRoutedText context .sel looksLikeSelTextProduct
    (env.parsers.parseSelBulletin context.bodyText)
    fun bulletin => .sel { context.textCandidateParts with bulletin, issues := [] }

/-- `classify_text_cf6`. -/
def classifyTextCf6 : Found Bulletin :=
  classifySupportedText context .cf6 looksLikeCf6TextProduct CF6_TEXT_SPEC
    (parsed (env.parsers.parseCf6Bulletin context.bodyText))
    fun bulletin _ => .cf6 { context.textCandidateParts with bulletin, issues := [] }

/-- `classify_text_dsm`. -/
def classifyTextDsm : Found Bulletin :=
  classifySupportedText context .dsm looksLikeDsmTextProduct DSM_TEXT_SPEC
    (parsedWithIssues (env.parsers.parseDsmBulletin context.bodyText
      (context.referenceTime.getD env.now)))
    fun bulletin issues => .dsm { context.parts with source := .textHeader, bulletin, issues }

/-- `classify_text_hml`. -/
def classifyTextHml : Found Bulletin :=
  classifySupportedText context .hml looksLikeHmlTextProduct HML_TEXT_SPEC
    (parsed (env.parsers.parseHmlBulletin context.bodyText))
    fun bulletin _ => .hml { context.textCandidateParts with bulletin, issues := [] }

/-- `classify_text_mos`. -/
def classifyTextMos : Found Bulletin :=
  classifySupportedText context .mos looksLikeMosTextProduct MOS_TEXT_SPEC
    (requireReferenceTime context.referenceTime fun referenceTime =>
      parsed (env.parsers.parseMosBulletin context.bodyText referenceTime))
    fun bulletin _ => .mos { context.textCandidateParts with bulletin, issues := [] }

/-- `classify_text_mcd`. -/
def classifyTextMcd : Found Bulletin :=
  classifyRoutedText context .mcd looksLikeMcdTextProduct
    (context.referenceTime.elim (some none) fun referenceTime =>
      env.parsers.parseMcdBulletin context.bodyText (some context.header.afos) referenceTime)
    fun bulletin => .mcd { context.textCandidateParts with bulletin, issues := [] }

/-- `classify_text_ero`. -/
def classifyTextEro : Found Bulletin :=
  classifySupportedText context .ero looksLikeEroTextProduct ERO_TEXT_SPEC
    (parsed (env.parsers.parseEroBulletin context.bodyText (some context.header.afos)))
    fun bulletin _ => .ero { context.textCandidateParts with bulletin, issues := [] }

/-- `classify_text_spc_outlook`. -/
def classifyTextSpcOutlook : Found Bulletin :=
  classifySupportedText context .spcOutlook looksLikeSpcOutlookTextProduct SPC_OUTLOOK_TEXT_SPEC
    (parsed (env.parsers.parseSpcOutlookBulletin context.bodyText (some context.header.afos)))
    fun bulletin _ => .spcOutlook { context.textCandidateParts with bulletin, issues := [] }

end Text

/-- `TEXT_SPECS`. -/
def TEXT_SPECS : List (TextClassificationContext → Found Bulletin) :=
  [classifyTextFd env, classifyTextMetar env, classifyTextTaf env, classifyTextPirep env,
    classifyTextSigmet env, classifyTextLsr env, classifyTextCli env, classifyTextCwa env,
    classifyTextWwp env, classifyTextSaw env, classifyTextSel env, classifyTextCf6 env,
    classifyTextDsm env, classifyTextHml env, classifyTextMos env, classifyTextMcd env,
    classifyTextEro env, classifyTextSpcOutlook env]

/-! ## Bulletins without an identifier -/

def FD_WMO_SPEC : SupportedFamilySpec :=
  familySpec .wmoBulletin "fd_bulletin" "Winds and temperatures aloft" "fd_parse"
    "invalid_fd_bulletin" "recognized FD bulletin, but structured parsing failed"
    (some "recognized FD bulletin, but WMO timestamp could not be resolved")

def METAR_WMO_SPEC : SupportedFamilySpec :=
  familySpec .wmoBulletin "metar_collective" "METAR bulletin" "metar_parse"
    "invalid_metar_bulletin" "recognized METAR bulletin, but structured parsing failed" none

def TAF_WMO_SPEC : SupportedFamilySpec :=
  familySpec .wmoBulletin "taf_bulletin" "Terminal Aerodrome Forecast" "taf_parse"
    "invalid_taf_bulletin" "recognized TAF bulletin, but structured parsing failed" none

def DSM_WMO_SPEC : SupportedFamilySpec :=
  familySpec .wmoBulletin "dsm_bulletin" "Daily summary message" "dsm_parse"
    "invalid_dsm_bulletin" "recognized DSM bulletin, but structured parsing failed" none

def PIREP_WMO_SPEC : SupportedFamilySpec :=
  familySpec .wmoBulletin "pirep_bulletin" "Pilot report bulletin" "pirep_parse"
    "invalid_pirep_bulletin" "recognized PIREP bulletin, but structured parsing failed" none

def SIGMET_WMO_SPEC : SupportedFamilySpec :=
  familySpec .wmoBulletin "sigmet_bulletin" "SIGMET bulletin" "sigmet_parse"
    "invalid_sigmet_bulletin" "recognized SIGMET bulletin, but structured parsing failed" none

def CWA_WMO_SPEC : SupportedFamilySpec :=
  { familySpec .wmoBulletin "cwa_bulletin" "Center Weather Advisory" "cwa_parse"
      "invalid_cwa_bulletin" "recognized CWA bulletin, but structured parsing failed"
      (some "recognized CWA bulletin, but WMO timestamp could not be resolved") with
    malformedPil := some "CWA".toList }

section Wmo

variable (context : WmoClassificationContext)

/-- `unsupported_wmo_family_candidate`. -/
def unsupportedWmoFamilyCandidate (family : String) (title : Option String)
    (code message : String) : ClassificationCandidate Bulletin :=
  .unsupportedWmo ⟨family.toList, title.map String.toList, context.header, code.toList,
    message.toList, firstNonemptyLine context.bodyText⟩

/-- `classify_wmo_fd`. -/
def classifyWmoFd : Found Bulletin :=
  classifySupportedWmo context (looksLikeFdWmoBulletin context.filename context.bodyText)
    FD_WMO_SPEC
    (requireReferenceTime (parseTimestampFields context.header.ddhhmm env.now)
      fun referenceTime => parsed (env.parsers.parseFdBulletin context.bodyText
        (some (filenameStem context.filename)) referenceTime))
    fun bulletin _ => .fd { context.parts none with
      source := .wmoBulletin
      family := FD_WMO_SPEC.family
      title := FD_WMO_SPEC.title
      bulletin }

/-- `classify_wmo_metar`. -/
def classifyWmoMetar : Found Bulletin :=
  if startsWith "SACN" context.header.ttaaii ||
      (firstNonemptyLine context.bodyText).any (startsWith "NPL SA ") then some none
  else
    classifySupportedWmo context (looksLikeMetarWmoBulletin context.bodyText) METAR_WMO_SPEC
      (parsedWithIssues (env.parsers.parseMetarBulletin context.bodyText))
      fun bulletin issues =>
        .metar { context.parts none with source := .wmoBulletin, bulletin, issues }

/-- `classify_wmo_taf`. -/
def classifyWmoTaf : Found Bulletin :=
  if looksLikeMultipartTafBulletin context.bodyText then
    some (some (unsupportedWmoFamilyCandidate context "multipart_taf_bulletin"
      (some "Multipart terminal aerodrome forecast") "unsupported_multipart_taf_bulletin"
      "recognized multipart TAF bulletin, but multipart TAF assembly is not implemented"))
  else
    classifySupportedWmo context (looksLikeTafWmoBulletin context.bodyText) TAF_WMO_SPEC
      (parsed (env.parsers.parseTafBulletin context.bodyText))
      fun bulletin _ => .taf { context.parts none with source := .wmoBulletin, bulletin }

/-- `classify_wmo_dsm`. -/
def classifyWmoDsm : Found Bulletin :=
  classifySupportedWmo context (looksLikeDsmTextProduct [] context.bodyText) DSM_WMO_SPEC
    (parsedWithIssues (env.parsers.parseDsmBulletin context.bodyText
      ((parseTimestampFields context.header.ddhhmm env.now).getD env.now)))
    fun bulletin issues =>
      .dsm { context.parts none with source := .wmoBulletin, bulletin, issues }

/-- `classify_wmo_pirep`. -/
def classifyWmoPirep : Found Bulletin :=
  if looksLikeInternationalPirepBulletin context.bodyText then
    some (some (unsupportedWmoFamilyCandidate context "international_pirep_bulletin"
      (some "International pilot report bulletin") "unsupported_international_pirep_bulletin"
      ("recognized international PIREP bulletin, but this parser only supports domestic " ++
        "slash-tag PIREP structure")))
  else
    classifySupportedWmo context (looksLikePirepTextProduct [] context.bodyText) PIREP_WMO_SPEC
      (parsed (env.parsers.parsePirepBulletin context.bodyText))
      fun bulletin _ => .pirep { context.parts none with source := .wmoBulletin, bulletin }

/-- `classify_wmo_dcp`. -/
def classifyWmoDcp : Found Bulletin :=
  (env.parsers.parseDcpBulletin context.filename context.header context.bodyText).map
    (·.map fun bulletin => .dcp ⟨context.header, bulletin⟩)

/-- `classify_wmo_sigmet`. -/
def classifyWmoSigmet : Found Bulletin :=
  if !looksLikeSigmetWmoBulletin context.bodyText then some none
  else if (firstNonemptyLine context.bodyText).any fun line =>
      startsWithIcaoSigmetLine line && !startsWith "KZAK SIGMET " line then
    some (some (unsupportedWmoFamilyCandidate context "international_sigmet_bulletin"
      (some "International SIGMET bulletin") "unsupported_international_sigmet_bulletin"
      ("recognized international SIGMET bulletin, but this parser only supports domestic " ++
        "SIGMET structure")))
  else
    classifySupportedWmo context (looksLikeSigmetWmoBulletin context.bodyText) SIGMET_WMO_SPEC
      (parsed (env.parsers.parseSigmetBulletin context.bodyText))
      fun bulletin _ =>
        .sigmet { context.parts none with source := .wmoBulletin, bulletin, issues := [] }

/-- `classify_wmo_cwa`. -/
def classifyWmoCwa : Found Bulletin :=
  classifySupportedWmo context (looksLikeCwaTextProduct [] context.bodyText) CWA_WMO_SPEC
    (requireReferenceTime (parseTimestampFields context.header.ddhhmm env.now)
      fun referenceTime => parsed (env.parsers.parseCwaBulletin context.bodyText referenceTime))
    fun bulletin _ => .cwa { context.parts (some "CWA".toList) with bulletin, issues := [] }

/-- `classify_wmo_airmet_unsupported`. -/
def classifyWmoAirmetUnsupported : Found Bulletin :=
  some (if looksLikeAirmetWmoBulletin context.bodyText then
    some (unsupportedWmoFamilyCandidate context "airmet_bulletin" (some "AIRMET bulletin")
      "unsupported_airmet_bulletin"
      "recognized valid WMO AIRMET bulletin, but textual AIRMET parsing is not implemented")
  else none)

/-- `classify_wmo_surface_observation_unsupported`. -/
def classifyWmoSurfaceObservationUnsupported : Found Bulletin :=
  some (if looksLikeSurfaceObservationBulletin context.bodyText then
    some (unsupportedWmoFamilyCandidate context "surface_observation_bulletin"
      (some "Surface observation bulletin") "unsupported_surface_observation_bulletin"
      "recognized valid WMO surface observation bulletin, but parsing is not implemented")
  else none)

/-- `classify_canadian_surface_observation`. -/
def classifyCanadianSurfaceObservation : Found Bulletin :=
  (env.parsers.parseMetarBulletin context.bodyText).map fun
    | none => some (malformedSupportedFamily .wmoBulletin "metar_collective".toList
        "METAR bulletin".toList (context.parts none) "metar_parse".toList
        "invalid_metar_bulletin".toList
        ("recognized Canadian surface observation bulletin, but structured parsing " ++
          "failed").toList
        (firstNonemptyLine context.bodyText))
    | some (bulletin, issues) =>
        some (.metar { context.parts none with source := .wmoBulletin, bulletin, issues })

/-- `classify_wmo_canadian`. -/
def classifyWmoCanadian : Found Bulletin :=
  match classifyCanadianWmoFamily context.header context.bodyText with
  | none => some none
  | some .surfaceObservation => classifyCanadianSurfaceObservation env context
  | some .tornadoWarning =>
      some (some (unsupportedWmoFamilyCandidate context "canadian_tornado_warning_bulletin"
        (some "Canadian tornado warning bulletin")
        "unsupported_canadian_tornado_warning_bulletin"
        ("recognized valid WMO Canadian tornado warning bulletin, but parsing is not " ++
          "implemented")))
  | some .severeThunderstormWarning =>
      some (some (unsupportedWmoFamilyCandidate context
        "canadian_severe_thunderstorm_warning_bulletin"
        (some "Canadian severe thunderstorm warning bulletin")
        "unsupported_canadian_severe_thunderstorm_warning_bulletin"
        ("recognized valid WMO Canadian severe thunderstorm warning bulletin, but parsing is " ++
          "not implemented")))
  | some .tropicalCyclonePublicInformation =>
      some (some (unsupportedWmoFamilyCandidate context
        "canadian_tropical_cyclone_public_information"
        (some "Canadian tropical cyclone public information")
        "unsupported_canadian_tropical_cyclone_public_information"
        ("recognized valid WMO Canadian tropical cyclone public information bulletin, but " ++
          "parsing is not implemented")))
  | some .tropicalCycloneWatchWarning =>
      some (some (unsupportedWmoFamilyCandidate context
        "canadian_tropical_cyclone_watch_warning_bulletin"
        (some "Canadian tropical cyclone watch/warning bulletin")
        "unsupported_canadian_tropical_cyclone_watch_warning_bulletin"
        ("recognized valid WMO Canadian tropical cyclone watch/warning bulletin, but parsing " ++
          "is not implemented")))
  | some .tropicalCycloneTechnicalDiscussion =>
      some (some (unsupportedWmoFamilyCandidate context
        "canadian_tropical_cyclone_technical_discussion"
        (some "Canadian tropical cyclone technical discussion")
        "unsupported_canadian_tropical_cyclone_technical_discussion"
        ("recognized valid WMO Canadian tropical cyclone technical discussion bulletin, but " ++
          "parsing is not implemented")))
  | some .stormSummary =>
      some (some (unsupportedWmoFamilyCandidate context "canadian_storm_summary"
        (some "Canadian storm summary") "unsupported_canadian_storm_summary"
        ("recognized valid WMO Canadian storm summary bulletin, but parsing is not " ++
          "implemented")))
  | some .specialWeatherStatement =>
      some (some (unsupportedWmoFamilyCandidate context "canadian_special_weather_statement"
        (some "Canadian special weather statement")
        "unsupported_canadian_special_weather_statement"
        ("recognized valid WMO Canadian special weather statement bulletin, but parsing is " ++
          "not implemented")))
  | some .volcanicAshBulletin =>
      some (some (unsupportedWmoFamilyCandidate context "canadian_volcanic_ash_bulletin"
        (some "Canadian volcanic ash bulletin") "unsupported_canadian_volcanic_ash_bulletin"
        ("recognized valid WMO Canadian volcanic ash bulletin, but parsing is not " ++
          "implemented")))
  | some .residual =>
      some (some (unsupportedWmoFamilyCandidate context "canadian_text_bulletin"
        (some "Canadian text bulletin") "unsupported_canadian_text_bulletin"
        "recognized valid WMO Canadian text bulletin, but parsing is not implemented"))

/-- `classify_wmo_unknown_valid`. -/
def classifyWmoUnknownValid : Found Bulletin :=
  some (some (unsupportedWmoFamilyCandidate context "unsupported_wmo_bulletin" none
    "unsupported_wmo_bulletin"
    "recognized valid WMO bulletin without AFOS line, but no parser is available"))

end Wmo

/-- `WMO_SPECS`. -/
def WMO_SPECS : List (WmoClassificationContext → Found Bulletin) :=
  [classifyWmoFd env, classifyWmoPirep env, classifyWmoDsm env, classifyWmoMetar env,
    classifyWmoTaf env, classifyWmoDcp env, classifyWmoSigmet env, classifyWmoCwa env,
    classifyWmoAirmetUnsupported, classifyWmoCanadian env,
    classifyWmoSurfaceObservationUnsupported, classifyWmoUnknownValid]

/-! ## Envelopes -/

/-- The loops over the strategies: the first candidate is taken. -/
def firstFound {Context : Type} (context : Context) :
    List (Context → Found Bulletin) → Found Bulletin
  | [] => some none
  | strategy :: strategies => do
      match ← strategy context with
      | some candidate => some (some candidate)
      | none => firstFound context strategies

/-- `classify_text_envelope`, behind its context. -/
def classifyText (context : TextClassificationContext) :
    Option (ClassificationCandidate Bulletin) :=
  (firstFound context (TEXT_SPECS env)).map (·.getD (.textGeneric { context.textCandidateParts with
    title := context.title
    referenceTime := context.referenceTime }))

/-- `classify_text_envelope`. -/
def classifyTextEnvelope (envelope : ParsedEnvelope) :
    Option (ClassificationCandidate Bulletin) :=
  (TextClassificationContext.fromEnvelope env envelope).elim (some .unknown) (classifyText env)

/-- `classify_wmo_envelope`. -/
def classifyWmoEnvelope (envelope : ParsedEnvelope) :
    Option (ClassificationCandidate Bulletin) :=
  (WmoClassificationContext.fromEnvelope envelope).elim (some .unknown) fun context =>
    (firstFound context (WMO_SPECS env)).map (·.getD .unknown)

/-- `filename_reference_time`. -/
def filenameReferenceTime (filename : Str) : Option DateTime :=
  (Str.sliceTo 12 (filenameStem filename)).bind env.parseFromStr

/-- `classify_unknown_text_envelope`. -/
def classifyUnknownTextEnvelope (envelope : ParsedEnvelope) : Found Bulletin :=
  match envelope.normalized.textStr with
  | none => some none
  | some text =>
      if !looksLikeDsmTextProduct [] text then some none
      else
        let referenceTime :=
          (filenameReferenceTime env envelope.normalized.filename).getD env.now
        (env.parsers.parseDsmBulletin text referenceTime).map fun
          | none => some (malformedSupportedFamily .unknown "dsm_bulletin".toList
              "Daily summary message".toList ⟨none, none, none, none, none⟩ "dsm_parse".toList
              "invalid_dsm_bulletin".toList
              ("recognized DSM bulletin without bulletin headers, but structured parsing " ++
                "failed").toList
              (firstNonemptyLine text))
          | some (bulletin, issues) => some (.dsm
              ⟨⟨none, none, none, none, none⟩, .unknown, bulletin, issues⟩)

/-- `classify`. -/
def classify (envelope : ParsedEnvelope) : Option (ClassificationCandidate Bulletin) :=
  match envelope.kind with
  | .textAfos => classifyTextEnvelope env envelope
  | .textWmoOnly => classifyWmoEnvelope env envelope
  | .nonText => some (envelope.nonTextMeta.elim .unknown .nonText)
  | .unknown => (classifyUnknownTextEnvelope env envelope).map
      (·.getD (envelope.parseError.elim .unknown .textParseFailure))

end Pipeline
