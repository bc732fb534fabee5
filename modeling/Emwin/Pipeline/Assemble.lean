/-
# Assembly

`pipeline/assemble` makes the public result of a candidate: it looks up the office and the prefix,
runs the extractors over the body where the catalog asks for it, and puts the issues of the body in
front of those of the parser.  `enrichment.rs` runs the whole pipeline.

The title that is printed for a bulletin is not always the one of its strategy.
-/
import Emwin.Pipeline.Classify

namespace Pipeline

open Parser Parser.Header Parser.Cap Parser.BodyPlan Chrono Floats
open FileEvents (BbbKind ProductEnrichmentSource)

/-! ## Results -/

/-- `ProductEnrichment`. -/
structure ProductEnrichment (F : Type) (Bulletin : ArtifactKind → Type) where
  source : ProductEnrichmentSource
  family : Option Str
  title : Option Str
  container : Str
  pil : Option Str
  wmoPrefix : Option Str
  office : Option WmoOfficeEntry
  header : Option TextProductHeader
  wmoHeader : Option WmoHeader
  bbbKind : Option BbbKind
  body : Option (ProductBody F)
  parsed : Option (ProductArtifact Bulletin)
  issues : List ProductParseIssue

variable {F : Type} [FloatArith F] {Bulletin : ArtifactKind → Type} (env : Env Bulletin)

/-- `build_enrichment`: the prefix is that of the product, unless it is given. -/
def buildEnrichment (base : ProductEnrichment F Bulletin) : ProductEnrichment F Bulletin :=
  { base with
    wmoPrefix := base.wmoPrefix.or (base.pil.bind (wmoPrefixForPil env.catalogs)) }

/-- `office_for_headers`. -/
def officeForHeaders (header : Option TextProductHeader) (wmoHeader : Option WmoHeader) :
    Option WmoOfficeEntry :=
  (header.bind fun header => wmoOfficeEntry env.catalogs header.cccc).or
    (wmoHeader.bind fun header => wmoOfficeEntry env.catalogs header.cccc)

/-- `assemble_optional_body`. -/
def assembleOptionalBody (request : Option BodyContributionRequest) :
    Option (Option (ProductBody F) × List ProductParseIssue) :=
  match request with
  | some request => do
      let outcome ← match request.inputFormat with
        | .plainText =>
            enrichBodyFromPlan env.body request.text request.plan request.referenceTime
        | .capXml =>
            enrichBodyFromPlanWithFormat env.body request.text request.plan request.referenceTime
              request.inputFormat
      some (outcome.body, outcome.issues)
  | none => some (none, [])

/-- `SpecializedAssemblyInput`, without what it has of the candidate. -/
structure SpecializedAssemblyInput (Bulletin : ArtifactKind → Type) where
  source : ProductEnrichmentSource
  family : Str
  title : Str
  filename : Str
  parts : CandidateParts
  issues : List ProductParseIssue
  parsed : Option (ProductArtifact Bulletin)

/-- `assemble_specialized_enrichment`, and `assemble_from_malformed_family`, where nothing was
parsed. -/
def assembleSpecializedEnrichment (input : SpecializedAssemblyInput Bulletin) :
    Option (ProductEnrichment F Bulletin) := do
  let (body, bodyIssues) ← assembleOptionalBody env input.parts.bodyRequest
  some (buildEnrichment env
    { source := input.source
      family := some input.family
      title := some input.title
      container := containerFromFilename input.filename
      pil := input.parts.pil
      wmoPrefix := none
      office := officeForHeaders env input.parts.header input.parts.wmoHeader
      header := input.parts.header
      wmoHeader := input.parts.wmoHeader
      bbbKind := input.parts.bbbKind
      body
      parsed := input.parsed
      issues := bodyIssues ++ input.issues })

/-! ## Families -/

section Families

variable (filename : Str)

/-- `assemble_from_text_generic`. -/
def assembleFromTextGeneric (candidate : TextGenericCandidate) :
    Option (ProductEnrichment F Bulletin) := do
  let (body, issues) ← assembleOptionalBody env candidate.bodyRequest
  some (buildEnrichment env
    { source := .textHeader
      family := some "nws_text_product".toList
      title := candidate.title
      container := containerFromFilename filename
      pil := candidate.pil
      wmoPrefix := none
      office := wmoOfficeEntry env.catalogs candidate.header.cccc
      header := some candidate.header
      wmoHeader := none
      bbbKind := candidate.bbbKind
      body
      parsed := none
      issues })

/-- The assembly of a family that is read of texts with an identifier only. -/
def assembleFromText (kind : ArtifactKind) (family title : String)
    (candidate : TextCandidate (Bulletin kind)) : Option (ProductEnrichment F Bulletin) :=
  assembleSpecializedEnrichment env
    { source := .textHeader
      family := family.toList
      title := title.toList
      filename
      parts := ⟨some candidate.header, none, candidate.pil, candidate.bbbKind,
        candidate.bodyRequest⟩
      issues := candidate.issues
      parsed := some ⟨kind, candidate.bulletin⟩ }

/-- `assemble_from_fd`. -/
def assembleFromFd (candidate : FdCandidate Bulletin) : Option (ProductEnrichment F Bulletin) :=
  assembleSpecializedEnrichment env
    { source := candidate.source
      family := candidate.family
      title := candidate.title
      filename
      parts := candidate.toCandidateParts
      issues := []
      parsed := some ⟨.fd, candidate.bulletin⟩ }

/-- `assemble_from_pirep`. -/
def assembleFromPirep (candidate : PlainCandidate (Bulletin .pirep)) :
    Option (ProductEnrichment F Bulletin) :=
  assembleSpecializedEnrichment env
    { source := candidate.source
      family := "pirep_bulletin".toList
      title := "Pilot report bulletin".toList
      filename
      parts := candidate.toCandidateParts
      issues := []
      parsed := some ⟨.pirep, candidate.bulletin⟩ }

/-- `assemble_from_sigmet`. -/
def assembleFromSigmet (candidate : NotedCandidate (Bulletin .sigmet)) :
    Option (ProductEnrichment F Bulletin) :=
  assembleSpecializedEnrichment env
    { source := candidate.source
      family := "sigmet_bulletin".toList
      title := "SIGMET bulletin".toList
      filename
      parts := candidate.toCandidateParts
      issues := candidate.issues
      parsed := some ⟨.sigmet, candidate.bulletin⟩ }

/-- `assemble_from_lsr`. -/
def assembleFromLsr : TextCandidate (Bulletin .lsr) → Option (ProductEnrichment F Bulletin) :=
  assembleFromText env filename .lsr "lsr_bulletin" "Local Storm Report"

/-- `assemble_from_cli`. -/
def assembleFromCli : TextCandidate (Bulletin .cli) → Option (ProductEnrichment F Bulletin) :=
  assembleFromText env filename .cli "cli_bulletin" "Daily climate report"

/-- `assemble_from_cwa`. -/
def assembleFromCwa (candidate : CwaCandidate Bulletin) : Option (ProductEnrichment F Bulletin) :=
  assembleSpecializedEnrichment env
    { source := if candidate.header.isSome then .textHeader else .wmoBulletin
      family := "cwa_bulletin".toList
      title := "Center Weather Advisory".toList
      filename
      parts := candidate.toCandidateParts
      issues := candidate.issues
      parsed := some ⟨.cwa, candidate.bulletin⟩ }

/-- `assemble_from_wwp`. -/
def assembleFromWwp : TextCandidate (Bulletin .wwp) → Option (ProductEnrichment F Bulletin) :=
  assembleFromText env filename .wwp "wwp_bulletin" "Severe Thunderstorm Watch Probabilities"

/-- `assemble_from_saw`. -/
def assembleFromSaw : TextCandidate (Bulletin .saw) → Option (ProductEnrichment F Bulletin) :=
  assembleFromText env filename .saw "saw_bulletin" "SPC preliminary notice of watch"

/-- `assemble_from_sel`. -/
def assembleFromSel : TextCandidate (Bulletin .sel) → Option (ProductEnrichment F Bulletin) :=
  assembleFromText env filename .sel "sel_bulletin" "SPC watch bulletin"

/-- `assemble_from_cf6`. -/
def assembleFromCf6 : TextCandidate (Bulletin .cf6) → Option (ProductEnrichment F Bulletin) :=
  assembleFromText env filename .cf6 "cf6_bulletin" "Climate F-6 products"

/-- `assemble_from_dsm`. -/
def assembleFromDsm (candidate : NotedCandidate (Bulletin .dsm)) :
    Option (ProductEnrichment F Bulletin) :=
  assembleSpecializedEnrichment env
    { source := candidate.source
      family := "dsm_bulletin".toList
      title := "Asos Daily Summary".toList
      filename
      parts := candidate.toCandidateParts
      issues := candidate.issues
      parsed := some ⟨.dsm, candidate.bulletin⟩ }

/-- `assemble_from_hml`. -/
def assembleFromHml : TextCandidate (Bulletin .hml) → Option (ProductEnrichment F Bulletin) :=
  assembleFromText env filename .hml "hml_bulletin" "Hyrdo Obs/Forecasts XML"

/-- `assemble_from_mos`. -/
def assembleFromMos : TextCandidate (Bulletin .mos) → Option (ProductEnrichment F Bulletin) :=
  assembleFromText env filename .mos "mos_bulletin" "MOS guidance bulletin"

/-- `assemble_from_mcd`. -/
def assembleFromMcd : TextCandidate (Bulletin .mcd) → Option (ProductEnrichment F Bulletin) :=
  assembleFromText env filename .mcd "mcd_bulletin" "Mesoscale discussion bulletin"

/-- `assemble_from_ero`. -/
def assembleFromEro : TextCandidate (Bulletin .ero) → Option (ProductEnrichment F Bulletin) :=
  assembleFromText env filename .ero "ero_bulletin" "Excessive rainfall outlook"

/-- `assemble_from_spc_outlook`. -/
def assembleFromSpcOutlook :
    TextCandidate (Bulletin .spcOutlook) → Option (ProductEnrichment F Bulletin) :=
  assembleFromText env filename .spcOutlook "spc_outlook_bulletin" "SPC outlook bulletin"

/-- The assembly of a family whose body is not searched. -/
def assembleWithoutBody (source : ProductEnrichmentSource) (family title : String)
    (parts : CandidateParts) (issues : List ProductParseIssue)
    (artifact : ProductArtifact Bulletin) : ProductEnrichment F Bulletin :=
  buildEnrichment env
    { source
      family := some family.toList
      title := some title.toList
      container := containerFromFilename filename
      pil := parts.pil
      wmoPrefix := none
      office := officeForHeaders env parts.header parts.wmoHeader
      header := parts.header
      wmoHeader := parts.wmoHeader
      bbbKind := parts.bbbKind
      body := none
      parsed := some artifact
      issues }

/-- `assemble_from_metar`. -/
def assembleFromMetar (candidate : NotedCandidate (Bulletin .metar)) :
    ProductEnrichment F Bulletin :=
  assembleWithoutBody env filename candidate.source "metar_collective" "METAR bulletin"
    candidate.toCandidateParts candidate.issues ⟨.metar, candidate.bulletin⟩

/-- `assemble_from_taf`. -/
def assembleFromTaf (candidate : PlainCandidate (Bulletin .taf)) : ProductEnrichment F Bulletin :=
  assembleWithoutBody env filename candidate.source "taf_bulletin" "Terminal Aerodrome Forecast"
    candidate.toCandidateParts [] ⟨.taf, candidate.bulletin⟩

/-- `assemble_from_dcp`. -/
def assembleFromDcp (candidate : DcpCandidate Bulletin) : ProductEnrichment F Bulletin :=
  assembleWithoutBody env filename .wmoBulletin "dcp_telemetry_bulletin"
    "GOES DCP telemetry bulletin" ⟨none, some candidate.header, none, none, none⟩ []
    ⟨.dcp, candidate.bulletin⟩

/-! ## What was not parsed -/

/-- `assemble_from_malformed_family`. -/
def assembleFromMalformedFamily (candidate : MalformedFamilyCandidate) :
    Option (ProductEnrichment F Bulletin) :=
  assembleSpecializedEnrichment env
    { source := candidate.source
      family := candidate.family
      title := candidate.title
      filename
      parts := candidate.toCandidateParts
      issues := candidate.issues
      parsed := none }

/-- A result without headers, body and artifact. -/
def bareEnrichment (source : ProductEnrichmentSource) (container : Str) :
    ProductEnrichment F Bulletin :=
  ⟨source, none, none, container, none, none, none, none, none, none, none, none, []⟩

/-- `assemble_from_non_text`. -/
def assembleFromNonText (candidate : NonTextProductMeta) : ProductEnrichment F Bulletin :=
  buildEnrichment env
    { bareEnrichment .filenameNonText candidate.container with
      family := some candidate.family
      title := some candidate.title
      pil := candidate.pil
      wmoPrefix := candidate.wmoPrefix }

/-- `assemble_from_unsupported_wmo`. -/
def assembleFromUnsupportedWmo (candidate : UnsupportedWmoCandidate) :
    ProductEnrichment F Bulletin :=
  buildEnrichment env
    { bareEnrichment .wmoBulletin (containerFromFilename filename) with
      family := some candidate.family
      title := candidate.title
      office := wmoOfficeEntry env.catalogs candidate.header.cccc
      wmoHeader := some candidate.header
      issues := [⟨"wmo_bulletin_parse".toList, candidate.code, candidate.message,
        candidate.line⟩] }

/-- `parser_error_code`. -/
def parserErrorCode : ParserError → String
  | .emptyInput => "empty_input"
  | .missingWmoLine => "missing_wmo_line"
  | .invalidWmoHeader _ => "invalid_wmo_header"
  | .missingAfosLine => "missing_afos_line"
  | .missingAfos _ => "missing_afos"

/-- `parser_error_line`. -/
def parserErrorLine : ParserError → Option Str
  | .invalidWmoHeader line | .missingAfos line => some line
  | _ => none

/-- The text of an error. -/
def parserErrorText : ParserError → Str
  | .emptyInput => "text payload is empty after conditioning".toList
  | .missingWmoLine => "conditioned text does not contain a WMO header line".toList
  | .invalidWmoHeader line =>
      "could not parse WMO header line: \x60".toList ++ line ++ "\x60".toList
  | .missingAfosLine => "conditioned text does not contain an AFOS line".toList
  | .missingAfos line => "could not parse AFOS PIL from line: \x60".toList ++ line ++ "\x60".toList

/-- `assemble_from_text_parse_failure`. -/
def assembleFromTextParseFailure (error : ParserError) : ProductEnrichment F Bulletin :=
  buildEnrichment env
    { bareEnrichment .textHeader (containerFromFilename filename) with
      family := some "nws_text_product".toList
      issues := [issueOf "text_product_parse" (parserErrorCode error) (parserErrorText error)
        (parserErrorLine error)] }

/-- `assemble_unknown`. -/
def assembleUnknown (rawBytes : List UInt8) : ProductEnrichment F Bulletin :=
  buildEnrichment env (bareEnrichment .unknown (detectedContainer filename rawBytes))

/-! ## The pipeline -/

/-- `assemble_product_enrichment`. -/
def assembleProductEnrichment (rawBytes : List UInt8) :
    ClassificationCandidate Bulletin → Option (ProductEnrichment F Bulletin)
  | .textGeneric candidate => assembleFromTextGeneric env filename candidate
  | .fd candidate => assembleFromFd env filename candidate
  | .pirep candidate => assembleFromPirep env filename candidate
  | .sigmet candidate => assembleFromSigmet env filename candidate
  | .lsr candidate => assembleFromLsr env filename candidate
  | .cli candidate => assembleFromCli env filename candidate
  | .cwa candidate => assembleFromCwa env filename candidate
  | .wwp candidate => assembleFromWwp env filename candidate
  | .saw candidate => assembleFromSaw env filename candidate
  | .sel candidate => assembleFromSel env filename candidate
  | .cf6 candidate => assembleFromCf6 env filename candidate
  | .dsm candidate => assembleFromDsm env filename candidate
  | .hml candidate => assembleFromHml env filename candidate
  | .mos candidate => assembleFromMos env filename candidate
  | .mcd candidate => assembleFromMcd env filename candidate
  | .ero candidate => assembleFromEro env filename candidate
  | .spcOutlook candidate => assembleFromSpcOutlook env filename candidate
  | .metar candidate => some (assembleFromMetar env filename candidate)
  | .taf candidate => some (assembleFromTaf env filename candidate)
  | .dcp candidate => some (assembleFromDcp env filename candidate)
  | .malformedFamily candidate => assembleFromMalformedFamily env filename candidate
  | .nonText candidate => some (assembleFromNonText env candidate)
  | .unsupportedWmo candidate => some (assembleFromUnsupportedWmo env filename candidate)
  | .textParseFailure error => some (assembleFromTextParseFailure env filename error)
  | .unknown => some (assembleUnknown env filename rawBytes)

end Families

/-- `enrich_product`. -/
def enrichProduct (filename : Str) (bytes : List UInt8) :
    Option (ProductEnrichment F Bulletin) := do
  let normalized := NormalizedInput.fromInput filename bytes
  let outcome ← classify env (.build env.catalogs normalized)
  assembleProductEnrichment env filename normalized.bytes outcome

end Pipeline
