/-
# What is found of a text

Whatever strategy finds a candidate, the candidate carries the header of the text, what was read of
the header, and where it comes from: so no strategy can lose or change them (`fromText_of_mem`,
`fromWmo_of_mem`).
-/
import Emwin.Pipeline.Assemble

namespace Pipeline

open Parser Parser.Header Parser.BodyPlan Chrono
open FileEvents (BbbKind ProductEnrichmentSource)

variable {Bulletin : ArtifactKind → Type}

/-! ## Candidates -/

/-- The parts of a candidate of a text with an identifier. -/
def TextCandidateParts.parts (candidate : TextCandidateParts) : CandidateParts :=
  ⟨some candidate.header, none, candidate.pil, candidate.bbbKind, candidate.bodyRequest⟩

/-- Where a candidate says it comes from, and its parts, unless it is of no family. -/
def ClassificationCandidate.head :
    ClassificationCandidate Bulletin → Option (ProductEnrichmentSource × CandidateParts)
  | .textGeneric candidate => some (.textHeader, candidate.toTextCandidateParts.parts)
  | .fd candidate => some (candidate.source, candidate.toCandidateParts)
  | .pirep candidate | .taf candidate => some (candidate.source, candidate.toCandidateParts)
  | .sigmet candidate | .dsm candidate | .metar candidate =>
      some (candidate.source, candidate.toCandidateParts)
  | .lsr candidate | .cli candidate | .wwp candidate | .saw candidate | .sel candidate
  | .cf6 candidate | .hml candidate | .mos candidate | .mcd candidate | .ero candidate
  | .spcOutlook candidate => some (.textHeader, candidate.toTextCandidateParts.parts)
  | .cwa candidate => some (if candidate.header.isSome then .textHeader else .wmoBulletin,
      candidate.toCandidateParts)
  | .dcp candidate => some (.wmoBulletin, ⟨none, some candidate.header, none, none, none⟩)
  | .malformedFamily candidate => some (candidate.source, candidate.toCandidateParts)
  | .unsupportedWmo candidate =>
      some (.wmoBulletin, ⟨none, some candidate.header, none, none, none⟩)
  | .nonText _ | .textParseFailure _ | .unknown => none

/-- A candidate whose family is that of its bulletin, or that has an issue instead of one. -/
def ClassificationCandidate.Sound : ClassificationCandidate Bulletin → Prop
  | .fd candidate => candidate.family = "fd_bulletin".toList
  | .malformedFamily candidate => candidate.issues ≠ []
  | _ => True

/-- A candidate of a text with an identifier.  Some of them leave out the request for the body. -/
structure FromText (context : TextClassificationContext)
    (candidate : ClassificationCandidate Bulletin) : Prop where
  head : ∃ bodyRequest, (bodyRequest = none ∨ bodyRequest = context.bodyRequest) ∧
    candidate.head = some (.textHeader, { context.parts with bodyRequest })
  sound : candidate.Sound

/-- A candidate of a bulletin with a heading only. -/
structure FromWmo (context : WmoClassificationContext)
    (candidate : ClassificationCandidate Bulletin) : Prop where
  head : ∃ pil, (pil = none ∨ pil = some "CWA".toList) ∧
    candidate.head = some (.wmoBulletin, context.parts pil)
  sound : candidate.Sound
  notGeneric : ∀ generic, candidate ≠ .textGeneric generic

/-! ## Strategies -/

section Rules

variable {B : Type} {P : ClassificationCandidate Bulletin → Prop}
  {build : B → List ProductParseIssue → ClassificationCandidate Bulletin}
  {candidate : ClassificationCandidate Bulletin}

/-- A family is found with its bulletin or without one. -/
theorem familyCandidate_rule {spec : SupportedFamilySpec} {parts : CandidateParts} {bodyText : Str}
    (result : Except SupportedFamilyFailure (WithIssues B))
    (hbuild : ∀ bulletin issues, P (build bulletin issues))
    (hfailed : ∀ code message, P (malformedSupportedFamily spec.source spec.family spec.title parts
      spec.issueKind code message (firstNonemptyLine bodyText))) :
    P (familyCandidate spec parts bodyText build result) := by
  rcases result with (_ | _) | ⟨bulletin, issues⟩
  · exact hfailed _ _
  · exact hfailed _ _
  · exact hbuild bulletin issues

theorem guarded_rule {context : TextClassificationContext} {guard : Str → Str → Bool}
    {spec : SupportedFamilySpec} {parse : Parsed B}
    (h : classifySupportedTextGuarded context guard spec parse build = some (some candidate))
    (hbuild : ∀ bulletin issues, P (build bulletin issues))
    (hfailed : ∀ code message, P (malformedSupportedFamily spec.source spec.family spec.title
      context.parts spec.issueKind code message (firstNonemptyLine context.bodyText))) :
    P candidate := by
  unfold classifySupportedTextGuarded at h
  split_ifs at h
  · cases h
  · obtain ⟨result, -, hresult⟩ := Option.map_eq_some_iff.mp h
    rw [← Option.some.inj hresult]
    exact familyCandidate_rule result hbuild hfailed

theorem supported_rule {context : TextClassificationContext} {routing : TextProductRouting}
    {guard : Str → Str → Bool} {spec : SupportedFamilySpec} {parse : Parsed B}
    (h : classifySupportedText context routing guard spec parse build = some (some candidate))
    (hbuild : ∀ bulletin issues, P (build bulletin issues))
    (hfailed : ∀ code message, P (malformedSupportedFamily spec.source spec.family spec.title
      context.parts spec.issueKind code message (firstNonemptyLine context.bodyText))) :
    P candidate := by
  unfold classifySupportedText at h
  split_ifs at h
  · cases h
  · exact guarded_rule h hbuild hfailed

theorem routed_rule {context : TextClassificationContext} {routing : TextProductRouting}
    {guard : Str → Str → Bool} {parse : Option (Option B)}
    {build : B → ClassificationCandidate Bulletin}
    (h : classifyRoutedText context routing guard parse build = some (some candidate))
    (hbuild : ∀ bulletin, P (build bulletin)) : P candidate := by
  unfold classifyRoutedText at h
  split_ifs at h
  · cases h
  · obtain ⟨result, -, hresult⟩ := Option.map_eq_some_iff.mp h
    obtain ⟨bulletin, -, rfl⟩ := Option.map_eq_some_iff.mp hresult
    exact hbuild bulletin

theorem supportedWmo_rule {context : WmoClassificationContext} {guard : Bool}
    {spec : SupportedFamilySpec} {parse : Parsed B}
    (h : classifySupportedWmo context guard spec parse build = some (some candidate))
    (hbuild : ∀ bulletin issues, P (build bulletin issues))
    (hfailed : ∀ code message, P (malformedSupportedFamily spec.source spec.family spec.title
      (context.parts spec.malformedPil) spec.issueKind code message
      (firstNonemptyLine context.bodyText))) : P candidate := by
  unfold classifySupportedWmo at h
  split_ifs at h
  · cases h
  · obtain ⟨result, -, hresult⟩ := Option.map_eq_some_iff.mp h
    rw [← Option.some.inj hresult]
    exact familyCandidate_rule result hbuild hfailed

end Rules

variable {env : Env Bulletin} {candidate : ClassificationCandidate Bulletin}

/-- The candidate that is found is that of one of the strategies. -/
theorem mem_of_firstFound {Context : Type} {context : Context}
    {strategies : List (Context → Found Bulletin)}
    (h : firstFound context strategies = some (some candidate)) :
    ∃ strategy ∈ strategies, strategy context = some (some candidate) := by
  induction strategies with
  | nil => cases h
  | cons strategy strategies ih =>
      rw [firstFound] at h
      cases hfound : strategy context with
      | none =>
          rw [hfound] at h
          cases h
      | some found =>
          rw [hfound] at h
          cases found with
          | some first =>
              obtain rfl : first = candidate := by
                cases h
                rfl
              exact ⟨strategy, List.mem_cons_self, hfound⟩
          | none =>
              obtain ⟨other, hother, hothers⟩ := ih h
              exact ⟨other, List.mem_cons_of_mem _ hother, hothers⟩

section Text

variable {context : TextClassificationContext}

/-- A candidate with the parts of the context. -/
theorem FromText.of_parts
    (hhead : candidate.head = some (.textHeader, context.parts)) (hsound : candidate.Sound) :
    FromText context candidate :=
  ⟨⟨context.bodyRequest, Or.inr rfl, hhead⟩, hsound⟩

/-- A candidate that leaves out the request for the body. -/
theorem FromText.of_partsWithoutBody
    (hhead : candidate.head = some (.textHeader, { context.parts with bodyRequest := none }))
    (hsound : candidate.Sound) : FromText context candidate :=
  ⟨⟨none, Or.inl rfl, hhead⟩, hsound⟩

/-- A family that could not be read. -/
theorem fromText_malformed (family title kind code message : Str) (line : Option Str) :
    FromText context (malformedSupportedFamily .textHeader family title context.parts kind code
      message line : ClassificationCandidate Bulletin) :=
  .of_parts rfl (List.cons_ne_nil _ _)

/-- Every strategy of a text keeps its header. -/
theorem fromText_of_mem {strategy : TextClassificationContext → Found Bulletin}
    (hmem : strategy ∈ TEXT_SPECS env) (h : strategy context = some (some candidate)) :
    FromText context candidate := by
  have hfailed : ∀ family title kind code message line, FromText context
      (malformedSupportedFamily .textHeader family title context.parts kind code message line :
        ClassificationCandidate Bulletin) := fromText_malformed
  unfold TEXT_SPECS at hmem
  simp only [List.mem_cons, List.not_mem_nil, or_false] at hmem
  rcases hmem with rfl | rfl | rfl | rfl | rfl | rfl | rfl | rfl | rfl | rfl | rfl | rfl | rfl |
    rfl | rfl | rfl | rfl | rfl
  · exact supported_rule h (fun _ _ => .of_parts rfl rfl) (hfailed _ _ _ · · _)
  · exact guarded_rule h (fun _ _ => .of_partsWithoutBody rfl trivial) (hfailed _ _ _ · · _)
  · unfold classifyTextTaf at h
    split_ifs at h
    · obtain rfl := Option.some.inj (Option.some.inj h)
      exact .of_partsWithoutBody rfl (List.cons_ne_nil _ _)
    · exact guarded_rule h (fun _ _ => .of_partsWithoutBody rfl trivial) (hfailed _ _ _ · · _)
  · unfold classifyTextPirep at h
    split_ifs at h
    · obtain rfl := Option.some.inj (Option.some.inj h)
      exact hfailed _ _ _ _ _ _
    · exact supported_rule h (fun _ _ => .of_parts rfl trivial) (hfailed _ _ _ · · _)
  · exact supported_rule h (fun _ _ => .of_parts rfl trivial) (hfailed _ _ _ · · _)
  · exact supported_rule h (fun _ _ => .of_parts rfl trivial) (hfailed _ _ _ · · _)
  · exact routed_rule h fun _ => .of_parts rfl trivial
  · exact supported_rule h (fun _ _ => .of_parts rfl trivial) (hfailed _ _ _ · · _)
  · exact supported_rule h (fun _ _ => .of_parts rfl trivial) (hfailed _ _ _ · · _)
  · exact routed_rule h fun _ => .of_parts rfl trivial
  · exact routed_rule h fun _ => .of_parts rfl trivial
  · exact supported_rule h (fun _ _ => .of_parts rfl trivial) (hfailed _ _ _ · · _)
  · exact supported_rule h (fun _ _ => .of_parts rfl trivial) (hfailed _ _ _ · · _)
  · exact supported_rule h (fun _ _ => .of_parts rfl trivial) (hfailed _ _ _ · · _)
  · exact supported_rule h (fun _ _ => .of_parts rfl trivial) (hfailed _ _ _ · · _)
  · exact routed_rule h fun _ => .of_parts rfl trivial
  · exact supported_rule h (fun _ _ => .of_parts rfl trivial) (hfailed _ _ _ · · _)
  · exact supported_rule h (fun _ _ => .of_parts rfl trivial) (hfailed _ _ _ · · _)

end Text

section Wmo

variable {context : WmoClassificationContext}

/-- A candidate with the parts of the context. -/
theorem FromWmo.of_parts (hhead : candidate.head = some (.wmoBulletin, context.parts none))
    (hsound : candidate.Sound) (hgeneric : ∀ generic, candidate ≠ .textGeneric generic) :
    FromWmo context candidate :=
  ⟨⟨none, Or.inl rfl, hhead⟩, hsound, hgeneric⟩

/-- A family that could not be read. -/
theorem fromWmo_malformed {pil : Option Str} (hpil : pil = none ∨ pil = some "CWA".toList)
    (family title kind code message : Str) (line : Option Str) :
    FromWmo context (malformedSupportedFamily .wmoBulletin family title (context.parts pil) kind
      code message line : ClassificationCandidate Bulletin) := by
  refine ⟨⟨pil, hpil, rfl⟩, List.cons_ne_nil _ _, ?_⟩
  intro generic h
  cases h

/-- A family that is known and not read. -/
theorem fromWmo_unsupported (family : String) (title : Option String) (code message : String) :
    FromWmo context (unsupportedWmoFamilyCandidate context family title code message :
      ClassificationCandidate Bulletin) := by
  refine .of_parts rfl trivial ?_
  intro generic h
  cases h

/-- A Canadian family that is known and not read. -/
theorem fromWmo_canadian
    (h : classifyWmoCanadian env context = some (some candidate)) : FromWmo context candidate := by
  have hunsupported : ∀ family title code message,
      some (some (unsupportedWmoFamilyCandidate context family title code message)) =
        some (some candidate) → FromWmo context candidate := by
    intro family title code message h
    rw [← Option.some.inj (Option.some.inj h)]
    exact fromWmo_unsupported family title code message
  unfold classifyWmoCanadian at h
  cases hfamily : classifyCanadianWmoFamily context.header context.bodyText with
  | none =>
      rw [hfamily] at h
      cases h
  | some family =>
      rw [hfamily] at h
      cases family
      case surfaceObservation =>
        obtain ⟨result, -, hresult⟩ := Option.map_eq_some_iff.mp h
        rcases result with _ | ⟨bulletin, issues⟩
        · rw [← Option.some.inj hresult]
          exact fromWmo_malformed (Or.inl rfl) _ _ _ _ _ _
        · rw [← Option.some.inj hresult]
          exact .of_parts rfl trivial fun _ h => by cases h
      all_goals exact hunsupported _ _ _ _ h

/-- Every strategy of a bulletin without an identifier keeps its heading. -/
theorem fromWmo_of_mem {strategy : WmoClassificationContext → Found Bulletin}
    (hmem : strategy ∈ WMO_SPECS env) (h : strategy context = some (some candidate)) :
    FromWmo context candidate := by
  have hfailed : ∀ family title kind code message line, FromWmo context
      (malformedSupportedFamily .wmoBulletin family title (context.parts none) kind code message
        line : ClassificationCandidate Bulletin) := fromWmo_malformed (Or.inl rfl)
  have hunsupported : ∀ {family title code message},
      some (some (unsupportedWmoFamilyCandidate context family title code message)) =
        some (some candidate) → FromWmo context candidate := by
    intro family title code message h
    rw [← Option.some.inj (Option.some.inj h)]
    exact fromWmo_unsupported family title code message
  unfold WMO_SPECS at hmem
  simp only [List.mem_cons, List.not_mem_nil, or_false] at hmem
  rcases hmem with rfl | rfl | rfl | rfl | rfl | rfl | rfl | rfl | rfl | rfl | rfl | rfl
  · exact supportedWmo_rule h (fun _ _ => .of_parts rfl rfl fun _ h => by cases h)
      (hfailed _ _ _ · · _)
  · unfold classifyWmoPirep at h
    split_ifs at h
    · exact hunsupported h
    · exact supportedWmo_rule h (fun _ _ => .of_parts rfl trivial fun _ h => by cases h)
        (hfailed _ _ _ · · _)
  · exact supportedWmo_rule h (fun _ _ => .of_parts rfl trivial fun _ h => by cases h)
      (hfailed _ _ _ · · _)
  · unfold classifyWmoMetar at h
    split_ifs at h
    · cases h
    · exact supportedWmo_rule h (fun _ _ => .of_parts rfl trivial fun _ h => by cases h)
        (hfailed _ _ _ · · _)
  · unfold classifyWmoTaf at h
    split_ifs at h
    · exact hunsupported h
    · exact supportedWmo_rule h (fun _ _ => .of_parts rfl trivial fun _ h => by cases h)
        (hfailed _ _ _ · · _)
  · obtain ⟨result, -, hresult⟩ := Option.map_eq_some_iff.mp h
    obtain ⟨bulletin, -, rfl⟩ := Option.map_eq_some_iff.mp hresult
    exact .of_parts rfl trivial fun _ h => by cases h
  · unfold classifyWmoSigmet at h
    split_ifs at h
    · cases h
    · exact hunsupported h
    · exact supportedWmo_rule h (fun _ _ => .of_parts rfl trivial fun _ h => by cases h)
        (hfailed _ _ _ · · _)
  · refine supportedWmo_rule h (fun _ _ => ⟨⟨_, Or.inr rfl, rfl⟩, trivial, fun _ h => by cases h⟩)
      fun code message => fromWmo_malformed (Or.inr rfl) _ _ _ code message _
  · unfold classifyWmoAirmetUnsupported at h
    split_ifs at h
    · exact hunsupported h
    · cases h
  · exact fromWmo_canadian h
  · unfold classifyWmoSurfaceObservationUnsupported at h
    split_ifs at h
    · exact hunsupported h
    · cases h
  · exact hunsupported h

end Wmo

end Pipeline

/-!
# What is said of a file

What the pipeline says of a file follows what is read of it (`enrichment_follows_heading`).  A text
that can be conditioned has a heading, and what is said of it carries that heading, whichever
strategy takes it, so no strategy loses a product or mixes up where it comes from.  An artifact is
always of the family that is printed beside it, and where a family has no artifact an issue says
so.
-/

namespace Pipeline

open Parser Parser.Header Parser.Cap Parser.BodyPlan Chrono Floats
open FileEvents (BbbKind ProductEnrichmentSource)

variable {F : Type} [FloatArith F] {Bulletin : ArtifactKind → Type} {env : Env Bulletin}
  {filename : Str} {e : ProductEnrichment F Bulletin}

/-! ## Assembly -/

/-- The family of an artifact. -/
def ArtifactKind.family : ArtifactKind → Str
  | .metar => "metar_collective".toList
  | .taf => "taf_bulletin".toList
  | .dcp => "dcp_telemetry_bulletin".toList
  | .fd => "fd_bulletin".toList
  | .pirep => "pirep_bulletin".toList
  | .sigmet => "sigmet_bulletin".toList
  | .lsr => "lsr_bulletin".toList
  | .cli => "cli_bulletin".toList
  | .cwa => "cwa_bulletin".toList
  | .wwp => "wwp_bulletin".toList
  | .saw => "saw_bulletin".toList
  | .sel => "sel_bulletin".toList
  | .cf6 => "cf6_bulletin".toList
  | .dsm => "dsm_bulletin".toList
  | .hml => "hml_bulletin".toList
  | .mos => "mos_bulletin".toList
  | .mcd => "mcd_bulletin".toList
  | .ero => "ero_bulletin".toList
  | .spcOutlook => "spc_outlook_bulletin".toList

/-- The family of a generic text. -/
def genericFamily : Str := "nws_text_product".toList

/-- A result with the parts of its candidate. -/
structure Assembled (env : Env Bulletin) (filename : Str)
    (candidate : ClassificationCandidate Bulletin) (source : ProductEnrichmentSource)
    (parts : CandidateParts) (e : ProductEnrichment F Bulletin) : Prop where
  source : e.source = source
  container : e.container = containerFromFilename filename
  pil : e.pil = parts.pil
  wmoPrefix : e.wmoPrefix = parts.pil.bind (wmoPrefixForPil env.catalogs)
  office : e.office = officeForHeaders env parts.header parts.wmoHeader
  header : e.header = parts.header
  wmoHeader : e.wmoHeader = parts.wmoHeader
  bbbKind : e.bbbKind = parts.bbbKind
  body : e.body = none ∨ ∃ issues, assembleOptionalBody env parts.bodyRequest =
    some (e.body, issues) ∧ issues <+: e.issues
  family : ∀ artifact, e.parsed = some artifact → e.family = some artifact.kind.family
  noted : e.parsed = none → e.issues ≠ [] ∨
    (∃ generic, candidate = .textGeneric generic) ∧ e.family = some genericFamily

variable {candidate : ClassificationCandidate Bulletin}

theorem assembled_specialized {input : SpecializedAssemblyInput Bulletin}
    (h : assembleSpecializedEnrichment env input = some e)
    (hfamily : ∀ artifact, input.parsed = some artifact → input.family = artifact.kind.family)
    (hnoted : input.parsed = none → input.issues ≠ []) :
    Assembled env input.filename candidate input.source input.parts e := by
  unfold assembleSpecializedEnrichment at h
  obtain ⟨⟨body, issues⟩, hbody, he⟩ := Option.bind_eq_some_iff.mp h
  obtain rfl := Option.some.inj he
  exact {
    source := rfl
    container := rfl
    pil := rfl
    wmoPrefix := Option.none_or
    office := rfl
    header := rfl
    wmoHeader := rfl
    bbbKind := rfl
    body := Or.inr ⟨issues, hbody, List.prefix_append _ _⟩
    family := fun artifact hparsed => congrArg some (hfamily artifact hparsed)
    noted := fun hparsed => Or.inl (List.append_ne_nil_of_right_ne_nil _ (hnoted hparsed)) }

/-- The result of a bulletin. -/
theorem assembled_parsed {input : SpecializedAssemblyInput Bulletin}
    (h : assembleSpecializedEnrichment env input = some e) {artifact : ProductArtifact Bulletin}
    (hparsed : input.parsed = some artifact) (hfamily : input.family = artifact.kind.family) :
    Assembled env input.filename candidate input.source input.parts e := by
  apply assembled_specialized h
  · intro other hother
    rw [hparsed] at hother
    rw [hfamily, Option.some.inj hother]
  · intro hnone
    rw [hparsed] at hnone
    cases hnone

theorem assembled_withoutBody (source : ProductEnrichmentSource) (family title : String)
    (parts : CandidateParts) (issues : List ProductParseIssue)
    {artifact : ProductArtifact Bulletin} (hfamily : family.toList = artifact.kind.family) :
    Assembled (F := F) env filename candidate source parts
      (assembleWithoutBody env filename source family title parts issues artifact) where
  source := rfl
  container := rfl
  pil := rfl
  wmoPrefix := Option.none_or
  office := rfl
  header := rfl
  wmoHeader := rfl
  bbbKind := rfl
  body := Or.inl rfl
  family := by
    intro other hother
    obtain rfl := Option.some.inj hother
    exact congrArg some hfamily
  noted := by
    intro hnone
    cases hnone

theorem assembled_generic {candidate : TextGenericCandidate}
    (h : assembleFromTextGeneric env filename candidate = some e) :
    Assembled env filename (.textGeneric candidate) .textHeader
      candidate.toTextCandidateParts.parts e := by
  unfold assembleFromTextGeneric at h
  obtain ⟨⟨body, issues⟩, hbody, he⟩ := Option.bind_eq_some_iff.mp h
  obtain rfl := Option.some.inj he
  exact {
    source := rfl
    container := rfl
    pil := rfl
    wmoPrefix := Option.none_or
    office := Option.or_none.symm
    header := rfl
    wmoHeader := rfl
    bbbKind := rfl
    body := Or.inr ⟨issues, hbody, List.prefix_refl _⟩
    family := fun artifact hparsed => by cases hparsed
    noted := fun _ => Or.inr ⟨⟨candidate, rfl⟩, rfl⟩ }

/-- **Assembly.**  Every result has the parts of its candidate. -/
theorem assembled {rawBytes : List UInt8} {source : ProductEnrichmentSource}
    {parts : CandidateParts} (hhead : candidate.head = some (source, parts))
    (hsound : candidate.Sound)
    (h : assembleProductEnrichment env filename rawBytes candidate = some e) :
    Assembled env filename candidate source parts e := by
  cases candidate
  case textGeneric candidate =>
    cases hhead
    exact assembled_generic h
  case malformedFamily candidate =>
    cases hhead
    apply assembled_specialized h
    · intro artifact hparsed
      cases hparsed
    · exact fun _ => hsound
  case fd candidate =>
    cases hhead
    exact assembled_parsed h rfl hsound
  case metar candidate =>
    cases hhead
    obtain rfl := Option.some.inj h
    exact assembled_withoutBody _ _ _ _ _ rfl
  case taf candidate =>
    cases hhead
    obtain rfl := Option.some.inj h
    exact assembled_withoutBody _ _ _ _ _ rfl
  case dcp candidate =>
    cases hhead
    obtain rfl := Option.some.inj h
    exact assembled_withoutBody _ _ _ _ _ rfl
  case unsupportedWmo candidate =>
    cases hhead
    obtain rfl := Option.some.inj h
    exact {
      source := rfl
      container := rfl
      pil := rfl
      wmoPrefix := rfl
      office := rfl
      header := rfl
      wmoHeader := rfl
      bbbKind := rfl
      body := Or.inl rfl
      family := fun artifact hparsed => by cases hparsed
      noted := fun _ => Or.inl (List.cons_ne_nil _ _) }
  case nonText => cases hhead
  case textParseFailure => cases hhead
  case unknown => cases hhead
  all_goals
    cases hhead
    exact assembled_parsed h rfl rfl

/-! ## Texts -/

/-- What is said of a text with an identifier: its header, and what is known by its identifier and
by its office.  What is found in its body is what the catalog asks for. -/
structure OfText (env : Env Bulletin) (heading : TextProductHeader) (bodyText : Str)
    (e : ProductEnrichment F Bulletin) : Prop where
  source : e.source = .textHeader
  container : e.container = "raw".toList
  header : e.header = some heading
  wmoHeader : e.wmoHeader = none
  pil : e.pil = pilNnn heading
  wmoPrefix : e.wmoPrefix = (pilNnn heading).bind (wmoPrefixForPil env.catalogs)
  office : e.office = wmoOfficeEntry env.catalogs heading.cccc
  bbbKind : e.bbbKind = Pipeline.bbbKind heading
  body : e.body = none ∨ ∃ issues, assembleOptionalBody env
      (buildBodyRequest (bodyExtractionPlanForPolicy
        (resolvedTextProductPolicy env.catalogs heading.afos)) bodyText
        (parseTimestampFields heading.ddhhmm env.now)) = some (e.body, issues) ∧
    issues <+: e.issues
  family : ∀ artifact, e.parsed = some artifact → e.family = some artifact.kind.family
  noted : e.parsed = none → e.issues ≠ [] ∨ e.family = some genericFamily

/-- What is said of a bulletin with a heading only: there is an artifact, or an issue. -/
structure OfWmo (env : Env Bulletin) (heading : WmoHeader) (e : ProductEnrichment F Bulletin) :
    Prop where
  source : e.source = .wmoBulletin
  container : e.container = "raw".toList
  header : e.header = none
  wmoHeader : e.wmoHeader = some heading
  pil : e.pil = none ∨ e.pil = some "CWA".toList
  wmoPrefix : e.wmoPrefix = e.pil.bind (wmoPrefixForPil env.catalogs)
  office : e.office = wmoOfficeEntry env.catalogs heading.cccc
  bbbKind : e.bbbKind = none
  body : e.body = none
  family : ∀ artifact, e.parsed = some artifact → e.family = some artifact.kind.family
  noted : e.parsed = none → e.issues ≠ []

/-- A request that is left out finds nothing. -/
theorem body_of_optional {bodyRequest request : Option BodyContributionRequest}
    (hrequest : bodyRequest = none ∨ bodyRequest = request)
    (h : e.body = none ∨ ∃ issues, assembleOptionalBody env bodyRequest = some (e.body, issues) ∧
      issues <+: e.issues) :
    e.body = none ∨ ∃ issues, assembleOptionalBody env request = some (e.body, issues) ∧
      issues <+: e.issues := by
  rcases hrequest with rfl | rfl
  · rcases h with h | ⟨issues, h, -⟩
    · exact Or.inl h
    · left
      have hpair : (none, []) = (e.body, issues) := Option.some.inj h
      exact (congrArg Prod.fst hpair).symm
  · exact h

/-- The result of a candidate of a text. -/
theorem ofText_of_assembled {header : TextProductHeader} {bodyText : Str} {rawBytes : List UInt8}
    (hname : isTextProduct filename = true)
    (hfrom : FromText (.ofText env filename header bodyText) candidate)
    (h : assembleProductEnrichment env filename rawBytes candidate = some e) :
    OfText env header bodyText e := by
  obtain ⟨⟨bodyRequest, hrequest, hhead⟩, hsound⟩ := hfrom
  have he := assembled hhead hsound h
  exact {
    source := he.source
    container := he.container.trans (containerFromFilename_text hname)
    header := he.header
    wmoHeader := he.wmoHeader
    pil := he.pil
    wmoPrefix := he.wmoPrefix
    office := he.office.trans Option.or_none
    bbbKind := he.bbbKind
    body := body_of_optional hrequest he.body
    family := he.family
    noted := fun hparsed => (he.noted hparsed).imp id And.right }

/-- The result of a candidate of a bulletin with a heading only. -/
theorem ofWmo_of_assembled {context : WmoClassificationContext} {rawBytes : List UInt8}
    (hname : isTextProduct filename = true) (hfrom : FromWmo context candidate)
    (h : assembleProductEnrichment env filename rawBytes candidate = some e) :
    OfWmo env context.header e := by
  obtain ⟨⟨pil, hpil, hhead⟩, hsound, hgeneric⟩ := hfrom
  have he := assembled hhead hsound h
  have hepil : e.pil = pil := he.pil
  exact {
    source := he.source
    container := he.container.trans (containerFromFilename_text hname)
    header := he.header
    wmoHeader := he.wmoHeader
    pil := by rwa [hepil]
    wmoPrefix := by rw [hepil]; exact he.wmoPrefix
    office := he.office.trans Option.none_or
    bbbKind := he.bbbKind
    body := (body_of_optional (Or.inr rfl) he.body).elim id fun ⟨issues, hbody, _⟩ => by
      have hpair : (none, []) = (e.body, issues) := Option.some.inj hbody
      exact (congrArg Prod.fst hpair).symm
    family := he.family
    noted := fun hparsed => (he.noted hparsed).elim id fun ⟨⟨generic, hcandidate⟩, _⟩ =>
      absurd hcandidate (hgeneric generic) }

/-! ## Files -/

/-- The issue of a text that cannot be conditioned. -/
def textIssue (error : ParserError) : ProductParseIssue :=
  issueOf "text_product_parse" (parserErrorCode error) (parserErrorText error)
    (parserErrorLine error)

/-- What is said of a file without headers. -/
structure Headless (source : ProductEnrichmentSource) (e : ProductEnrichment F Bulletin) :
    Prop where
  source : e.source = source
  header : e.header = none
  wmoHeader : e.wmoHeader = none
  office : e.office = none
  bbbKind : e.bbbKind = none
  body : e.body = none

/-- What is said of a file, by what is read of it. -/
inductive Outcome (env : Env Bulletin) (filename : Str) (bytes : List UInt8) :
    ProductEnrichment F Bulletin → Prop
  | text {text : Str} {parsed : ParsedTextProduct} {e : ProductEnrichment F Bulletin}
      (hfile : isTextProduct filename = true)
      (htext : conditionTextBytes (normalizeTextBytes bytes) = .ok text)
      (hparsed : parseTextProductConditionedRef text = .ok parsed)
      (h : OfText env parsed.header.toOwned parsed.bodyText e) : Outcome env filename bytes e
  | wmo {text : Str} {parsed : ParsedWmoBulletin} {error : ParserError}
      {e : ProductEnrichment F Bulletin} (hfile : isTextProduct filename = true)
      (htext : conditionTextBytes (normalizeTextBytes bytes) = .ok text)
      (hmissing : parseTextProductConditionedRef text = .error error)
      (hparsed : parseWmoBulletinConditionedRef text = .ok parsed)
      (h : OfWmo env parsed.header.toOwned e) : Outcome env filename bytes e
  | unheaded {error : ParserError} {e : ProductEnrichment F Bulletin}
      (hfile : isTextProduct filename = true)
      (herror : conditionTextBytes (normalizeTextBytes bytes) = .error error)
      (h : Headless .textHeader e) (hfamily : e.family = some genericFamily)
      (hparsed : e.parsed = none) (hissues : e.issues = [textIssue error]) :
      Outcome env filename bytes e
  | dsm {error : ParserError} {e : ProductEnrichment F Bulletin}
      (hfile : isTextProduct filename = true)
      (herror : conditionTextBytes (normalizeTextBytes bytes) = .error error)
      (h : Headless .unknown e) (hfamily : e.family = some ArtifactKind.dsm.family)
      (hnoted : e.parsed = none → e.issues ≠ []) : Outcome env filename bytes e
  | nonText {nonTextMeta : NonTextProductMeta} {e : ProductEnrichment F Bulletin}
      (hfile : isTextProduct filename = false)
      (hmeta : classifyNonTextProduct env.catalogs filename = some nonTextMeta)
      (h : Headless .filenameNonText e) (hfamily : e.family = some nonTextMeta.family)
      (hcontainer : e.container = nonTextMeta.container) (hparsed : e.parsed = none)
      (hissues : e.issues = []) : Outcome env filename bytes e
  | unknown {e : ProductEnrichment F Bulletin}
      (hfile : isZipPayload bytes = true ∨ isTextProduct filename = false)
      (h : Headless .unknown e) (hfamily : e.family = none) (hparsed : e.parsed = none)
      (hissues : e.issues = []) : Outcome env filename bytes e

/-! ## Classification -/

/-- The context of a text with an identifier. -/
theorem fromEnvelope_textAfos {normalized : NormalizedInput} {text : Str}
    {parsed : ParsedTextProduct} (hparsed : parseTextProductConditionedRef text = .ok parsed) :
    TextClassificationContext.fromEnvelope env (.textAfos normalized text parsed) =
      some (.ofText env normalized.filename parsed.header.toOwned parsed.bodyText) := by
  have hbytes : (ParsedEnvelope.textAfos normalized text parsed).normalized.textBytes =
      some (Utf8.encode text) := textBytes_condition normalized text
  have hheader : (ParsedEnvelope.textAfos normalized text parsed).header =
      some parsed.header.toOwned := rfl
  unfold TextClassificationContext.fromEnvelope
  rw [hbytes, bodyText_textAfos hparsed, hheader]
  rfl

theorem fromEnvelope_textWmoOnly {normalized : NormalizedInput} {text : Str}
    {parsed : ParsedWmoBulletin} {error : ParserError}
    (hparsed : parseWmoBulletinConditionedRef text = .ok parsed) :
    WmoClassificationContext.fromEnvelope (.textWmoOnly normalized text parsed error) =
      some ⟨normalized.filename, parsed.header.toOwned, parsed.bodyText⟩ := by
  have hbytes : (ParsedEnvelope.textWmoOnly normalized text parsed error).normalized.textBytes =
      some (Utf8.encode text) := textBytes_condition normalized text
  have hheader : (ParsedEnvelope.textWmoOnly normalized text parsed error).wmoHeader =
      some parsed.header.toOwned := rfl
  unfold WmoClassificationContext.fromEnvelope
  rw [hbytes, bodyText_textWmoOnly hparsed, hheader]
  rfl

/-- Every candidate of a text carries its header. -/
theorem fromText_of_classify {context : TextClassificationContext}
    (h : classifyText env context = some candidate) : FromText context candidate := by
  obtain ⟨found, hfound, rfl⟩ := Option.map_eq_some_iff.mp h
  cases found with
  | none => exact .of_parts rfl trivial
  | some candidate =>
      obtain ⟨strategy, hmem, hstrategy⟩ := mem_of_firstFound hfound
      exact fromText_of_mem hmem hstrategy

/-- Where no candidate is found, no strategy has one. -/
theorem eq_none_of_firstFound {Context : Type} {context : Context}
    {strategies : List (Context → Found Bulletin)}
    (h : firstFound context strategies = some none) :
    ∀ strategy ∈ strategies, strategy context = some none := by
  induction strategies with
  | nil => exact fun strategy hmem => absurd hmem List.not_mem_nil
  | cons strategy strategies ih =>
      rw [firstFound] at h
      cases hfound : strategy context with
      | none =>
          rw [hfound] at h
          cases h
      | some found =>
          rw [hfound] at h
          cases found with
          | some candidate => cases h
          | none =>
              intro other hother
              rcases List.mem_cons.mp hother with rfl | hother
              · exact hfound
              · exact ih h other hother

/-- Every candidate of a bulletin without an identifier carries its heading: the last strategy takes
whatever is left. -/
theorem fromWmo_of_found {context : WmoClassificationContext} {found}
    (h : firstFound context (WMO_SPECS env) = some found) :
    ∃ candidate, found = some candidate ∧ FromWmo context candidate := by
  cases found with
  | none =>
      have hmem : classifyWmoUnknownValid ∈ WMO_SPECS env := by
        unfold WMO_SPECS
        simp
      cases eq_none_of_firstFound h _ hmem
  | some candidate =>
      obtain ⟨strategy, hmem, hstrategy⟩ := mem_of_firstFound h
      exact ⟨candidate, rfl, fromWmo_of_mem hmem hstrategy⟩

/-! ## Files without a heading -/

/-- The family of a result that was assembled in the common way. -/
theorem family_of_specialized {input : SpecializedAssemblyInput Bulletin}
    (h : assembleSpecializedEnrichment env input = some e) : e.family = some input.family := by
  obtain ⟨⟨body, issues⟩, -, he⟩ := Option.bind_eq_some_iff.mp h
  obtain rfl := Option.some.inj he
  rfl

/-- The parts of a candidate that has no headers. -/
def noParts : CandidateParts := ⟨none, none, none, none, none⟩

/-- A summary that stands in a file without headers. -/
theorem summary_of_unknown {envelope : ParsedEnvelope}
    (h : classifyUnknownTextEnvelope env envelope = some (some candidate)) :
    (∃ bulletin issues, candidate = .dsm ⟨noParts, .unknown, bulletin, issues⟩) ∨
      ∃ malformed : MalformedFamilyCandidate, candidate = .malformedFamily malformed ∧
        malformed.source = .unknown ∧ malformed.toCandidateParts = noParts ∧
        malformed.family = ArtifactKind.dsm.family ∧ malformed.issues ≠ [] := by
  unfold classifyUnknownTextEnvelope at h
  cases htext : envelope.normalized.textStr with
  | none =>
      rw [htext] at h
      cases h
  | some text =>
      rw [htext] at h
      dsimp only at h
      split_ifs at h
      · cases h
      · obtain ⟨result, -, hresult⟩ := Option.map_eq_some_iff.mp h
        rcases result with _ | ⟨bulletin, issues⟩
        · exact Or.inr ⟨_, (Option.some.inj hresult).symm, rfl, rfl, rfl, List.cons_ne_nil _ _⟩
        · exact Or.inl ⟨bulletin, issues, (Option.some.inj hresult).symm⟩

/-- What is said of a file of no source carries no headers. -/
theorem headless_of_assembled
    (h : Assembled env filename candidate .unknown noParts e) : Headless .unknown e where
  source := h.source
  header := h.header
  wmoHeader := h.wmoHeader
  office := h.office
  bbbKind := h.bbbKind
  body := h.body.elim id fun ⟨issues, hbody, _⟩ => by
    have hpair : (none, []) = (e.body, issues) := Option.some.inj hbody
    exact (congrArg Prod.fst hpair).symm

/-- What is said of a text that cannot be conditioned. -/
theorem outcome_of_failed {bytes rawBytes : List UInt8} {normalized : NormalizedInput}
    {error : ParserError} (hfile : isTextProduct filename = true)
    (herror : conditionTextBytes (normalizeTextBytes bytes) = .error error)
    (hclassify : classify env (.unknown normalized (some error)) = some candidate)
    (h : assembleProductEnrichment env filename rawBytes candidate = some e) :
    Outcome env filename bytes e := by
  obtain ⟨found, hfound, rfl⟩ := Option.map_eq_some_iff.mp hclassify
  cases found with
  | none =>
      obtain rfl := Option.some.inj h
      exact .unheaded hfile herror ⟨rfl, rfl, rfl, rfl, rfl, rfl⟩ rfl rfl rfl
  | some candidate =>
      rw [Option.getD_some] at h
      rcases summary_of_unknown hfound with ⟨bulletin, issues, rfl⟩ |
        ⟨malformed, rfl, hsource, hparts, hfamily, hissues⟩
      · have hsound : ClassificationCandidate.Sound
            (.dsm ⟨noParts, .unknown, bulletin, issues⟩ : ClassificationCandidate Bulletin) := trivial
        have he := assembled rfl hsound h
        refine .dsm hfile herror (headless_of_assembled he) (family_of_specialized h) ?_
        exact fun hparsed => (he.noted hparsed).elim id fun ⟨⟨_, hgeneric⟩, _⟩ => by
          cases hgeneric
      · have hhead : ClassificationCandidate.head
            (.malformedFamily malformed : ClassificationCandidate Bulletin) = some (.unknown, noParts) := by
          rw [← hsource, ← hparts]
          rfl
        have he := assembled hhead hissues h
        refine .dsm hfile herror (headless_of_assembled he)
          ((family_of_specialized h).trans (congrArg some hfamily)) ?_
        exact fun hparsed => (he.noted hparsed).elim id fun ⟨⟨_, hgeneric⟩, _⟩ => by
          cases hgeneric

/-- What is said of a file that is no text and has no name either. -/
theorem outcome_of_unknown {bytes rawBytes : List UInt8} {normalized : NormalizedInput}
    (hfile : isZipPayload bytes = true ∨ isTextProduct filename = false)
    (hno : normalized.textBytes = none)
    (hclassify : classify env (.unknown normalized none) = some candidate)
    (h : assembleProductEnrichment env filename rawBytes candidate = some e) :
    Outcome env filename bytes e := by
  have hfound : classifyUnknownTextEnvelope env (.unknown normalized none) = some none := by
    unfold classifyUnknownTextEnvelope NormalizedInput.textStr
    rw [show (ParsedEnvelope.unknown normalized none).normalized = normalized from rfl, hno]
    rfl
  have hcandidate : candidate = .unknown := by
    have heq : (classifyUnknownTextEnvelope env (.unknown normalized none)).map
        (·.getD .unknown) = some candidate := hclassify
    rw [hfound] at heq
    exact (Option.some.inj heq).symm
  subst hcandidate
  obtain rfl := Option.some.inj h
  exact .unknown hfile ⟨rfl, rfl, rfl, rfl, rfl, rfl⟩ rfl rfl rfl

/-- **Headings.**  What is said of a file follows what is read of it: a text that can be conditioned
is never lost, and what is said of it carries its heading, whichever strategy takes it. -/
theorem enrichment_follows_heading (env : Env Bulletin) (filename : Str) (bytes : List UInt8)
    (e : ProductEnrichment F Bulletin) (h : enrichProduct env filename bytes = some e) :
    Outcome env filename bytes e := by
  obtain ⟨candidate, hclassify, hassemble⟩ := Option.bind_eq_some_iff.mp h
  have hbuilt := built env.catalogs filename bytes
  generalize ParsedEnvelope.build env.catalogs (.fromInput filename bytes) = envelope
    at hclassify hbuilt
  cases hbuilt with
  | textAfos normalized hname hfile htext hparsed =>
      have hcontext : classifyTextEnvelope env _ = some candidate := hclassify
      rw [classifyTextEnvelope, fromEnvelope_textAfos hparsed] at hcontext
      exact .text hfile htext hparsed
        (ofText_of_assembled hfile (fromText_of_classify hcontext) hassemble)
  | textWmoOnly normalized hname hfile htext hmissing hparsed =>
      have hcontext : classifyWmoEnvelope env _ = some candidate := hclassify
      rw [classifyWmoEnvelope, fromEnvelope_textWmoOnly hparsed] at hcontext
      obtain ⟨found, hfound, rfl⟩ := Option.map_eq_some_iff.mp hcontext
      obtain ⟨candidate, rfl, hfrom⟩ := fromWmo_of_found hfound
      exact .wmo hfile htext hmissing hparsed (ofWmo_of_assembled hfile hfrom hassemble)
  | failed normalized hname hfile herror => exact outcome_of_failed hfile herror hclassify hassemble
  | nonText normalized hfile hmeta =>
      obtain rfl := Option.some.inj hclassify
      obtain rfl := Option.some.inj hassemble
      exact .nonText hfile hmeta ⟨rfl, rfl, rfl, rfl, rfl, rfl⟩ rfl rfl rfl rfl
  | compressed normalized hno hzip =>
      exact outcome_of_unknown (Or.inl hzip) hno hclassify hassemble
  | unnamed normalized hno hfile hmeta =>
      exact outcome_of_unknown (Or.inr hfile) hno hclassify hassemble

/-- Parsers that read nothing. -/
def Parsers.bare : Parsers fun _ => Unit where
  parseFdBulletin _ _ _ := some none
  parseMetarBulletin _ := some none
  parseTafBulletin _ := some none
  parsePirepBulletin _ := some none
  parseSigmetBulletin _ := some none
  parseLsrBulletin _ _ := some none
  parseCliBulletin _ := some none
  parseCwaBulletin _ _ := some none
  parseWwpBulletin _ := some none
  parseSawBulletin _ _ _ := some none
  parseSelBulletin _ := some none
  parseCf6Bulletin _ := some none
  parseDsmBulletin _ _ := some none
  parseHmlBulletin _ := some none
  parseMosBulletin _ _ := some none
  parseMcdBulletin _ _ _ := some none
  parseEroBulletin _ _ := some none
  parseSpcOutlookBulletin _ _ := some none
  parseDcpBulletin _ _ _ := some none

/-- A pipeline without catalogs. -/
def Env.bare : Env fun _ => Unit where
  catalogs := ⟨fun _ => none, fun _ => none, fun _ => none, Char.isDigit⟩
  body := bareOutside
  parsers := .bare
  now := 0
  parseFromStr _ := none

/-- A discussion, and a METAR bulletin that cannot be read. -/
theorem enrichment_follows_heading_boston :
    (∃ e : ProductEnrichment Number fun _ => Unit,
      Outcome .bare "AFDBOX.TXT".toList
        (Utf8.encode "000 \nFXUS61 KBOX 022101\nAFDBOX\nBODY\n".toList) e) ∧
    ∃ e : ProductEnrichment Number fun _ => Unit,
      Outcome .bare "SAGL31.TXT".toList
        (Utf8.encode "000 \nSAGL31 BGGH 070200\nMETAR BGKK 070220Z\n".toList) e := by
  constructor
  · obtain ⟨e, he⟩ := Option.isSome_iff_exists.mp
      (show (enrichProduct .bare "AFDBOX.TXT".toList
        (Utf8.encode "000 \nFXUS61 KBOX 022101\nAFDBOX\nBODY\n".toList) :
          Option (ProductEnrichment Number fun _ => Unit)).isSome = true by decide +kernel)
    exact ⟨e, enrichment_follows_heading _ _ _ e he⟩
  · obtain ⟨e, he⟩ := Option.isSome_iff_exists.mp
      (show (enrichProduct .bare "SAGL31.TXT".toList
        (Utf8.encode "000 \nSAGL31 BGGH 070200\nMETAR BGKK 070220Z\n".toList) :
          Option (ProductEnrichment Number fun _ => Unit)).isSome = true by decide +kernel)
    exact ⟨e, enrichment_follows_heading _ _ _ e he⟩

end Pipeline
