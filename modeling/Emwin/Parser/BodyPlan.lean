/-
# The plan of a body

`body/enrich.rs` runs the extractors that the catalog lists for a product over its text, one after
the other.  Each writes its own part of the body and adds its issues.  So the order of the list
decides the order of the issues and nothing else (`enrichBodyFromPlan_perm`).

`none` is a panic of one of the parsers.
-/
import Emwin.Lib.Rounds
import Emwin.Parser.Cap

namespace Parser.BodyPlan

open Chrono Floats Cap

variable {F : Type} [FloatArith F]

/-! ## Plans -/

/-- `BodyQcRuleId`. -/
inductive BodyQcRuleId where
  | ugcDuplicateCode
  deriving DecidableEq, Repr

/-- `BodyExtractionPlan`. -/
structure BodyExtractionPlan where
  extractors : List BodyExtractorId
  qcRules : List BodyQcRuleId
  deriving DecidableEq, Repr

/-- `BodyInputFormat`. -/
inductive BodyInputFormat where
  | plainText
  | capXml
  deriving DecidableEq, Repr

/-- `body_extraction_plan`. -/
def bodyExtractionPlan (extractors : List BodyExtractorId) : BodyExtractionPlan where
  extractors := extractors
  qcRules := if .ugc ∈ extractors then [.ugcDuplicateCode] else []

/-- What the extractors take from elsewhere: what the parser of warnings takes, and the readers of
XML and of RFC 3339. -/
structure Outside extends VtecEvents.Outside where
  fromStr : Str → Except Str CapAlertXml
  /-- An empty text has no root element. -/
  fromStr_nil : ∀ alert, fromStr [] ≠ .ok alert
  parseFromRfc3339 : Str → Option DateTime

/-- What the parser of alerts takes from elsewhere. -/
def Outside.cap (o : Outside) : Cap.Outside where
  fromStr := o.fromStr
  fromStr_nil := o.fromStr_nil
  parseFromRfc3339 := o.parseFromRfc3339
  parseFromStr := o.parseFromStr
  catalog := o.catalog

/-! ## Extractors -/

/-- `BodyExtractionState`. -/
structure BodyExtractionState (F : Type) where
  genericBody : GenericBody F
  vtecEventBody : Option (List (VtecEvents.VtecEventSegment F))
  issues : List ProductParseIssue
  hasGenericContent : Bool

/-- `BodyExtractionState::default`. -/
def BodyExtractionState.default : BodyExtractionState F where
  genericBody := ⟨none, none, none, none⟩
  vtecEventBody := none
  issues := []
  hasGenericContent := false

/-- `BodyExtractionContext`. -/
structure BodyExtractionContext where
  text : Str
  referenceTime : Option DateTime

variable (o : Outside) (context : BodyExtractionContext)

/-- `apply_vtec_events_extractor`. -/
def applyVtecEventsExtractor (state : BodyExtractionState F) : Option (BodyExtractionState F) := do
  let (parsed, issues) ←
    VtecEvents.parseVtecEventBodyWithIssues o.toOutside context.text context.referenceTime
  some { state with
    vtecEventBody := parsed.or state.vtecEventBody
    issues := state.issues ++ issues }

/-- `apply_ugc_extractor`. -/
def applyUgcExtractor (state : BodyExtractionState F) : Option (BodyExtractionState F) :=
  match context.referenceTime with
  | some referenceTime => do
      let (parsed, issues) ← parseUgcSectionsWithIssues o.catalog context.text referenceTime
      let state := { state with issues := state.issues ++ issues }
      some (if parsed.isEmpty then state
        else { state with
          genericBody := { state.genericBody with ugc := some parsed }
          hasGenericContent := true })
  | none =>
      some { state with
        issues := state.issues ++ [issueOf "ugc_parse" "missing_reference_time"
          "could not parse UGC sections because the header timestamp could not be resolved".toList
          none] }

/-- `apply_latlon_extractor`. -/
def applyLatlonExtractor (state : BodyExtractionState F) : Option (BodyExtractionState F) := do
  let (parsed, issues) ← LatLon.parseLatlonPolygonsWithIssues context.text
  let state := { state with issues := state.issues ++ issues }
  some (if parsed.isEmpty then state
    else { state with
      genericBody := { state.genericBody with latlon := some parsed }
      hasGenericContent := true })

/-- `apply_time_mot_loc_extractor`. -/
def applyTimeMotLocExtractor (state : BodyExtractionState F) : Option (BodyExtractionState F) :=
  match context.referenceTime with
  | some referenceTime => do
      let (parsed, issues) ←
        TimeMotLoc.parseTimeMotLocEntriesWithIssues context.text referenceTime
      let state := { state with issues := state.issues ++ issues }
      some (if parsed.isEmpty then state
        else { state with
          genericBody := { state.genericBody with timeMotLoc := some parsed }
          hasGenericContent := true })
  | none =>
      some { state with
        issues := state.issues ++ [issueOf "time_mot_loc_parse" "missing_reference_time"
          ("could not parse TIME...MOT...LOC entries because the header timestamp " ++
            "could not be resolved").toList none] }

/-- `apply_wind_hail_extractor`. -/
def applyWindHailExtractor (state : BodyExtractionState F) : Option (BodyExtractionState F) :=
  let (parsed, issues) := parseWindHailEntriesWithIssues o.legacyCaptures context.text
  let state := { state with issues := state.issues ++ issues }
  some (if parsed.isEmpty then state
    else { state with
      genericBody := { state.genericBody with windHail := some parsed }
      hasGenericContent := true })

/-- The extractor of an identifier. -/
def applyExtractor (state : BodyExtractionState F) :
    BodyExtractorId → Option (BodyExtractionState F)
  | .vtecEvents => applyVtecEventsExtractor o context state
  | .ugc => applyUgcExtractor o context state
  | .latLon => applyLatlonExtractor context state
  | .timeMotLoc => applyTimeMotLocExtractor context state
  | .windHail => applyWindHailExtractor o context state

/-! ## Quality control -/

/-- The sections that are searched for duplicates: of a warning those of its first segment, unless
all of it is at sea. -/
def maybeSections : ProductBody F → Option (List UgcSection)
  | .vtecEvent segments =>
      if !segments.isEmpty && segments.all VtecEvents.segmentHasMarineOnlyUgc then none
      else segments.head?.map (·.ugcSections)
  | .generic body => body.ugc

/-- The codes that stand twice in one section. -/
def duplicatesOf (sections : List UgcSection) : List Str :=
  (sections.foldl (fun duplicates s =>
    (VtecEvents.collectDuplicateUgcCodes s.marineZones 'M'
      (VtecEvents.collectDuplicateUgcCodes s.fireZones 'F'
        (VtecEvents.collectDuplicateUgcCodes s.zones 'Z'
          (VtecEvents.collectDuplicateUgcCodes s.counties 'C' (.empty, duplicates))))).2)
    .empty).keys

/-- `validate_body_qc`. -/
def validateBodyQc (body : ProductBody F) (plan : BodyExtractionPlan) : List ProductParseIssue :=
  plan.qcRules.flatMap fun
    | .ugcDuplicateCode =>
        match (maybeSections body).map duplicatesOf with
        | none | some [] => []
        | some duplicates =>
            [issueOf "body_qc" "ugc_duplicate_code"
              ("encountered duplicated UGC codes in parsed product body: ".toList ++
                List.intercalate ", ".toList duplicates) none]

/-! ## Bodies -/

/-- The body behind the loop: a warning wins over the other parts. -/
def BodyExtractionState.body (state : BodyExtractionState F) : Option (ProductBody F) :=
  match state.vtecEventBody with
  | some segments => some (.vtecEvent segments)
  | none => if state.hasGenericContent then some (.generic state.genericBody) else none

/-- The outcome behind the loop. -/
def BodyExtractionState.outcome (state : BodyExtractionState F) (plan : BodyExtractionPlan) :
    BodyExtractionOutcome F where
  body := state.body
  issues := state.issues ++ (state.body.elim [] fun body => validateBodyQc body plan)

/-- `enrich_body_from_plan_with_format`. -/
def enrichBodyFromPlanWithFormat (text : Str) (plan : BodyExtractionPlan)
    (referenceTime : Option DateTime) (inputFormat : BodyInputFormat) :
    Option (BodyExtractionOutcome F) :=
  if inputFormat = .capXml then
    parseCapBodyWithIssues o.cap text plan.extractors referenceTime
  else
    (plan.extractors.foldlM (applyExtractor o ⟨text, referenceTime⟩) .default).map
      (·.outcome plan)

/-- `enrich_body_from_plan`. -/
def enrichBodyFromPlan (text : Str) (plan : BodyExtractionPlan)
    (referenceTime : Option DateTime) : Option (BodyExtractionOutcome F) :=
  enrichBodyFromPlanWithFormat o text plan referenceTime .plainText

/-! ## What an extractor finds -/

/-- What an extractor finds in a text, whatever was found before. -/
structure Finding (F : Type) where
  vtecEventBody : Option (List (VtecEvents.VtecEventSegment F)) := none
  ugc : Option (List UgcSection) := none
  latlon : Option (List (LatLon.LatLonPolygon F)) := none
  timeMotLoc : Option (List (TimeMotLoc.TimeMotLocEntry F)) := none
  windHail : Option (List (WindHailEntry F)) := none
  issues : List ProductParseIssue

/-- A part that has something in it. -/
def nonempty {α : Type} (parsed : List α) : Option (List α) :=
  if parsed.isEmpty then none else some parsed

/-- What the extractor of an identifier finds. -/
def finding (o : Outside) (context : BodyExtractionContext) :
    BodyExtractorId → Option (Finding F)
  | .vtecEvents =>
      (VtecEvents.parseVtecEventBodyWithIssues o.toOutside context.text
        context.referenceTime).map fun (parsed, issues) => { vtecEventBody := parsed, issues }
  | .ugc =>
      match context.referenceTime with
      | some referenceTime =>
          (parseUgcSectionsWithIssues o.catalog context.text referenceTime).map
            fun (parsed, issues) => { ugc := nonempty parsed, issues }
      | none => some { issues := [issueOf "ugc_parse" "missing_reference_time"
          "could not parse UGC sections because the header timestamp could not be resolved".toList
          none] }
  | .latLon =>
      (LatLon.parseLatlonPolygonsWithIssues context.text).map
        fun (parsed, issues) => { latlon := nonempty parsed, issues }
  | .timeMotLoc =>
      match context.referenceTime with
      | some referenceTime =>
          (TimeMotLoc.parseTimeMotLocEntriesWithIssues context.text referenceTime).map
            fun (parsed, issues) => { timeMotLoc := nonempty parsed, issues }
      | none => some { issues := [issueOf "time_mot_loc_parse" "missing_reference_time"
          ("could not parse TIME...MOT...LOC entries because the header timestamp " ++
            "could not be resolved").toList none] }
  | .windHail =>
      let (parsed, issues) := parseWindHailEntriesWithIssues o.legacyCaptures context.text
      some { windHail := nonempty parsed, issues }

/-- The state with what was found besides. -/
def BodyExtractionState.add (state : BodyExtractionState F) (found : Finding F) :
    BodyExtractionState F where
  genericBody :=
    { ugc := found.ugc.or state.genericBody.ugc
      latlon := found.latlon.or state.genericBody.latlon
      timeMotLoc := found.timeMotLoc.or state.genericBody.timeMotLoc
      windHail := found.windHail.or state.genericBody.windHail }
  vtecEventBody := found.vtecEventBody.or state.vtecEventBody
  issues := state.issues ++ found.issues
  hasGenericContent := state.hasGenericContent || found.ugc.isSome || found.latlon.isSome ||
    found.timeMotLoc.isSome || found.windHail.isSome

/-- An extractor adds what it finds. -/
theorem applyExtractor_eq (state : BodyExtractionState F) (e : BodyExtractorId) :
    applyExtractor o context state e = (finding o context e).map state.add := by
  cases e with
  | vtecEvents =>
      unfold applyExtractor applyVtecEventsExtractor finding
      cases VtecEvents.parseVtecEventBodyWithIssues (F := F) o.toOutside context.text
        context.referenceTime with
      | none => rfl
      | some found => simp [BodyExtractionState.add]
  | ugc =>
      unfold applyExtractor applyUgcExtractor finding
      cases context.referenceTime with
      | none => simp [BodyExtractionState.add]
      | some referenceTime =>
          cases hparsed : parseUgcSectionsWithIssues o.catalog context.text referenceTime with
          | none => simp [hparsed]
          | some found =>
              obtain ⟨_ | ⟨first, rest⟩, issues⟩ := found
              · simp [hparsed, nonempty, BodyExtractionState.add]
              · simp [hparsed, nonempty, BodyExtractionState.add]
  | latLon =>
      unfold applyExtractor applyLatlonExtractor finding
      cases LatLon.parseLatlonPolygonsWithIssues (F := F) context.text with
      | none => rfl
      | some found =>
          obtain ⟨_ | ⟨first, rest⟩, issues⟩ := found
          · simp [nonempty, BodyExtractionState.add]
          · simp [nonempty, BodyExtractionState.add]
  | timeMotLoc =>
      unfold applyExtractor applyTimeMotLocExtractor finding
      cases context.referenceTime with
      | none => simp [BodyExtractionState.add]
      | some referenceTime =>
          cases hparsed : TimeMotLoc.parseTimeMotLocEntriesWithIssues (F := F) context.text
            referenceTime with
          | none => simp [hparsed]
          | some found =>
              obtain ⟨_ | ⟨first, rest⟩, issues⟩ := found
              · simp [hparsed, nonempty, BodyExtractionState.add]
              · simp [hparsed, nonempty, BodyExtractionState.add]
  | windHail =>
      unfold applyExtractor applyWindHailExtractor finding
      obtain ⟨_ | ⟨first, rest⟩, issues⟩ :=
        parseWindHailEntriesWithIssues (F := F) o.legacyCaptures context.text
      · simp [nonempty, BodyExtractionState.add]
      · simp [nonempty, BodyExtractionState.add]

/-! ## The order of the extractors -/

/-- States that differ in the order of their issues only. -/
structure SameParts (s t : BodyExtractionState F) : Prop where
  genericBody : s.genericBody = t.genericBody
  vtecEventBody : s.vtecEventBody = t.vtecEventBody
  hasGenericContent : s.hasGenericContent = t.hasGenericContent
  issues : s.issues.Perm t.issues

omit [FloatArith F] in
theorem SameParts.body {s t : BodyExtractionState F} (h : SameParts s t) : s.body = t.body := by
  rw [BodyExtractionState.body, BodyExtractionState.body, h.genericBody, h.vtecEventBody,
    h.hasGenericContent]

omit [FloatArith F] in
/-- States with the same parts end in the same body. -/
theorem SameParts.outcome {s t : BodyExtractionState F} (h : SameParts s t)
    {plan plan' : BodyExtractionPlan} (hrules : plan.qcRules = plan'.qcRules) :
    (s.outcome plan).body = (t.outcome plan').body ∧
      (s.outcome plan).issues.Perm (t.outcome plan').issues := by
  refine ⟨h.body, ?_⟩
  simp only [BodyExtractionState.outcome, validateBodyQc]
  rw [h.body, hrules]
  exact h.issues.append_right _

/-- An extractor finds its own part only. -/
structure Owns (e : BodyExtractorId) (f : Finding F) : Prop where
  vtecEventBody : e ≠ .vtecEvents → f.vtecEventBody = none
  ugc : e ≠ .ugc → f.ugc = none
  latlon : e ≠ .latLon → f.latlon = none
  timeMotLoc : e ≠ .timeMotLoc → f.timeMotLoc = none
  windHail : e ≠ .windHail → f.windHail = none

variable {o context}

theorem owns_finding {e : BodyExtractorId} {f : Finding F} (h : finding o context e = some f) :
    Owns e f := by
  cases e with
  | vtecEvents =>
      obtain ⟨found, -, rfl⟩ := Option.map_eq_some_iff.mp h
      constructor <;> simp
  | ugc =>
      unfold finding at h
      cases hreference : context.referenceTime with
      | none =>
          simp only [hreference, Option.some.injEq] at h
          subst h
          constructor <;> simp
      | some referenceTime =>
          simp only [hreference] at h
          obtain ⟨found, -, rfl⟩ := Option.map_eq_some_iff.mp h
          constructor <;> simp
  | latLon =>
      obtain ⟨found, -, rfl⟩ := Option.map_eq_some_iff.mp h
      constructor <;> simp
  | timeMotLoc =>
      unfold finding at h
      cases hreference : context.referenceTime with
      | none =>
          simp only [hreference, Option.some.injEq] at h
          subst h
          constructor <;> simp
      | some referenceTime =>
          simp only [hreference] at h
          obtain ⟨found, -, rfl⟩ := Option.map_eq_some_iff.mp h
          constructor <;> simp
  | windHail =>
      obtain rfl := Option.some.inj h
      constructor <;> simp

/-- A part is written by one extractor at most, or twice with the same. -/
theorem or_swap {α : Type} {a b : Option α} (h : a = b ∨ a = none ∨ b = none) (s : Option α) :
    b.or (a.or s) = a.or (b.or s) := by
  rcases h with rfl | rfl | rfl
  · rfl
  · rfl
  · rfl

/-- What two extractors find can be added in either order. -/
theorem sameParts_swap (s : BodyExtractionState F) {e e' : BodyExtractorId} {f f' : Finding F}
    (h : finding o context e = some f) (h' : finding o context e' = some f') :
    SameParts ((s.add f).add f') ((s.add f').add f) := by
  have hissues : ((s.add f).add f').issues.Perm ((s.add f').add f).issues := by
    simp only [BodyExtractionState.add, List.append_assoc]
    exact List.Perm.append_left _ List.perm_append_comm
  have hcontent : ((s.add f).add f').hasGenericContent = ((s.add f').add f).hasGenericContent := by
    simp only [BodyExtractionState.add]
    ac_rfl
  by_cases he : e = e'
  · subst he
    obtain rfl : f = f' := Option.some.inj (h.symm.trans h')
    exact ⟨rfl, rfl, rfl, hissues⟩
  · have hown := owns_finding h
    have hown' := owns_finding h'
    -- of two different extractors one does not write a given part
    have hone : ∀ x, e ≠ x ∨ e' ≠ x := by
      intro x
      by_contra hboth
      rw [not_or, not_not, not_not] at hboth
      exact he (hboth.1.trans hboth.2.symm)
    refine ⟨?_, ?_, hcontent, hissues⟩
    · simp only [BodyExtractionState.add, GenericBody.mk.injEq]
      exact ⟨or_swap (Or.inr ((hone .ugc).imp hown.ugc hown'.ugc)) _,
        or_swap (Or.inr ((hone .latLon).imp hown.latlon hown'.latlon)) _,
        or_swap (Or.inr ((hone .timeMotLoc).imp hown.timeMotLoc hown'.timeMotLoc)) _,
        or_swap (Or.inr ((hone .windHail).imp hown.windHail hown'.windHail)) _⟩
    · exact or_swap (Or.inr ((hone .vtecEvents).imp hown.vtecEventBody hown'.vtecEventBody)) _

/-- The rounds of the loop can be exchanged up to the order of the issues. -/
theorem commute_applyExtractor :
    Rounds.Commute (SameParts (F := F)) (applyExtractor o context) := by
  have hadd : applyExtractor (F := F) o context =
      fun s e => (finding o context e).map s.add := by
    funext s e
    exact applyExtractor_eq o context s e
  rw [hadd]
  apply Rounds.commute_of_contributions
  · intro s
    exact ⟨rfl, rfl, rfl, List.Perm.refl _⟩
  · intro s t u hst htu
    exact ⟨hst.genericBody.trans htu.genericBody, hst.vtecEventBody.trans htu.vtecEventBody,
      hst.hasGenericContent.trans htu.hasGenericContent, hst.issues.trans htu.issues⟩
  · intro s t f hst
    unfold BodyExtractionState.add
    rw [hst.genericBody, hst.vtecEventBody, hst.hasGenericContent]
    exact ⟨rfl, rfl, rfl, hst.issues.append_right _⟩
  · intro s e e' f f' h h'
    exact sameParts_swap s h h'

variable (o)

/-- **Order.**  The order in which a plan lists its extractors decides the order of the issues and
nothing else: the extraction panics for all orders or for none, and the body is the same. -/
theorem enrichBodyFromPlan_perm (text : Str) (referenceTime : Option DateTime)
    {extractors extractors' : List BodyExtractorId} (hperm : extractors.Perm extractors') :
    Option.Rel (fun s t : BodyExtractionOutcome F => s.body = t.body ∧ s.issues.Perm t.issues)
      (enrichBodyFromPlan o text (bodyExtractionPlan extractors) referenceTime)
      (enrichBodyFromPlan o text (bodyExtractionPlan extractors') referenceTime) := by
  have hrules : (bodyExtractionPlan extractors).qcRules =
      (bodyExtractionPlan extractors').qcRules := by
    simp only [bodyExtractionPlan, hperm.mem_iff]
  have hcommute : Rounds.Commute (SameParts (F := F)) (applyExtractor o ⟨text, referenceTime⟩) :=
    commute_applyExtractor
  have hbegin : SameParts (F := F) .default .default := ⟨rfl, rfl, rfl, List.Perm.refl _⟩
  have hplain : ∀ plan : BodyExtractionPlan,
      enrichBodyFromPlan (F := F) o text plan referenceTime =
        (plan.extractors.foldlM (applyExtractor o ⟨text, referenceTime⟩) .default).map
          (·.outcome plan) := fun _ => rfl
  have hloop := hcommute.foldlM_perm hperm hbegin
  rw [hplain, hplain]
  dsimp only [bodyExtractionPlan]
  generalize extractors.foldlM (applyExtractor (F := F) o ⟨text, referenceTime⟩) .default = x
    at hloop ⊢
  generalize extractors'.foldlM (applyExtractor (F := F) o ⟨text, referenceTime⟩) .default = y
    at hloop ⊢
  cases hloop with
  | none => exact Option.Rel.none
  | some hsame =>
      exact Option.Rel.some (hsame.outcome hrules)

/-- Catalogs and readers that know nothing. -/
def bareOutside : Outside where
  catalog := ⟨fun _ => none, fun _ => none⟩
  nwslidEntry := fun _ => none
  parseFromStr := fun _ => none
  legacyCaptures := fun _ => []
  fromStr := fun _ => .error []
  fromStr_nil := by
    intro alert h
    cases h
  parseFromRfc3339 := fun _ => none

/-- A product with a polygon, a tag for hail and no time. -/
theorem enrichBodyFromPlan_perm_polygon :
    let text := "LAT...LON 4143 9613 4145 9610 4140 9608\nMAX HAIL SIZE...1.00 IN\n".toList
    Option.Rel (fun s t : BodyExtractionOutcome Number =>
        s.body = t.body ∧ s.issues.Perm t.issues)
      (enrichBodyFromPlan bareOutside text (bodyExtractionPlan [.ugc, .latLon, .windHail]) none)
      (enrichBodyFromPlan bareOutside text (bodyExtractionPlan [.windHail, .ugc, .latLon])
        none) := by
  intro text
  exact enrichBodyFromPlan_perm bareOutside text none (by decide)

end Parser.BodyPlan
