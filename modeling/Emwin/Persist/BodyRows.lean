/-
# The rows of a product

`postgres/prepare.rs` turns a parsed product into rows.  Those that the filters of the archive
look at are here: the rows of issues, of areas and of wind and hail.  A list that is too long
for the index column of its table fails the preparation.

The rows of areas are those of the buckets of the sections, in whatever segments they stand
(`exists_ugcArea`), and the rows of tags those of the tags (`exists_windHail`).
-/
import Emwin.Lib.Results
import Emwin.Parser.ProductBody

namespace Persist

open Chrono Parser

variable {F : Type}

/-! ## Rows -/

/-- `ProductIssueRow`. -/
structure ProductIssueRow where
  kind : Str
  code : Str
  message : Str
  line : Option Str

/-- `ProductUgcAreaRow`. -/
structure ProductUgcAreaRow where
  segmentIndex : Option ℕ
  sectionIndex : ℕ
  areaKind : Str
  state : Str
  ugcCode : Str
  name : Option Str
  expiresUtc : DateTime
  latitude : Option ℚ
  longitude : Option ℚ

/-- `ProductWindHailRow`. -/
structure ProductWindHailRow (F : Type) where
  segmentIndex : Option ℕ
  entryIndex : ℕ
  kind : Str
  numericValue : Option F
  units : Option Str
  comparison : Option Str

/-- The rows of the body of a product. -/
structure BodyRows (F : Type) where
  ugcAreas : List ProductUgcAreaRow
  windHail : List (ProductWindHailRow F)

/-- The rows of a product. -/
structure PreparedProduct (F : Type) extends BodyRows F where
  issues : List ProductIssueRow

/-! ## Indices -/

/-- `usize_to_i32`. -/
def usizeToI32 (value : ℕ) (field : String) : Except Str ℕ :=
  if value < 2 ^ 31 then .ok value
  else .error (field.toList ++ " value `".toList ++ Str.ofNat value ++ "` exceeds i32 range".toList)

/-- Elements with their indices, from a start on. -/
def indexedFrom {α : Type} (field : String) (start : ℕ) : List α → Except Str (List (ℕ × α))
  | [] => .ok []
  | x :: xs => do
      let index ← usizeToI32 start field
      let rest ← indexedFrom field (start + 1) xs
      .ok ((index, x) :: rest)

/-- Elements with their indices. -/
def indexed {α : Type} (field : String) (xs : List α) : Except Str (List (ℕ × α)) :=
  indexedFrom field 0 xs

/-! ## Areas -/

/-- The `area_kind` of a bucket. -/
def areaKind : UgcBucket → String
  | .counties => "county"
  | .zones => "zone"
  | .fireZones => "fire_zone"
  | .marineZones => "marine_zone"

/-- The `code_prefix` of a bucket. -/
def codeClass : UgcBucket → Char
  | .counties => 'C'
  | .zones => 'Z'
  | .fireZones => 'F'
  | .marineZones => 'M'

/-- The buckets in the order of their rows. -/
def buckets : List UgcBucket := [.counties, .zones, .fireZones, .marineZones]

/-- `push_ugc_bucket`. -/
def pushUgcBucket (segmentIndex : Option ℕ) (sectionIndex : ℕ) (s : UgcSection) (b : UgcBucket) :
    List ProductUgcAreaRow :=
  (s.areas b).entries.flatMap fun (state, areas) => areas.map fun area =>
    { segmentIndex := segmentIndex
      sectionIndex := sectionIndex
      areaKind := (areaKind b).toList
      state := state
      ugcCode := spell state (codeClass b) area.id
      name := area.name
      expiresUtc := s.expires
      latitude := area.lat
      longitude := area.lon }

/-- `collect_ugc_rows`. -/
def collectUgcRows (segmentIndex : Option ℕ) (sections : List UgcSection) :
    Except Str (List ProductUgcAreaRow) :=
  (indexed "ugc_section_index" sections).map fun sections =>
    sections.flatMap fun (sectionIndex, s) =>
      buckets.flatMap (pushUgcBucket segmentIndex sectionIndex s)

/-! ## Wind and hail -/

/-- The label of a kind in JSON. -/
def windHailLabel : WindHailKind → String
  | .legacyWind => "legacy_wind"
  | .legacyHail => "legacy_hail"
  | .windThreat => "wind_threat"
  | .maxWindGust => "max_wind_gust"
  | .hailThreat => "hail_threat"
  | .maxHailSize => "max_hail_size"

/-- The row of a tag. -/
def windHailRow (segmentIndex : Option ℕ) (entryIndex : ℕ) (entry : WindHailEntry F) :
    ProductWindHailRow F where
  segmentIndex := segmentIndex
  entryIndex := entryIndex
  kind := (windHailLabel entry.kind).toList
  numericValue := entry.numericValue
  units := entry.units
  comparison := entry.comparison.map fun value => [value]

/-- The rows of tags. -/
def collectWindHailRows (segmentIndex : Option ℕ) (entries : List (WindHailEntry F)) :
    Except Str (List (ProductWindHailRow F)) :=
  (indexed "wind_hail_index" entries).map fun entries =>
    entries.map fun (entryIndex, entry) => windHailRow segmentIndex entryIndex entry

/-! ## Products -/

/-- The rows of one segment. -/
def collectSegmentRows (segment : VtecEvents.VtecEventSegment F) : Except Str (BodyRows F) := do
  let segmentIndex ← usizeToI32 segment.segmentIndex "segment_index"
  let _ ← indexed "hvtec_index" segment.hvtec
  let _ ← indexed "polygon_index" segment.polygons
  let _ ← indexed "time_mot_loc_index" segment.timeMotLoc
  let windHail ← collectWindHailRows (some segmentIndex) segment.windHail
  let ugcAreas ← collectUgcRows (some segmentIndex) segment.ugcSections
  .ok ⟨ugcAreas, windHail⟩

/-- `collect_vtec_event_rows`. -/
def collectVtecEventRows : List (VtecEvents.VtecEventSegment F) → Except Str (BodyRows F)
  | [] => .ok ⟨[], []⟩
  | segment :: segments => do
      let rows ← collectSegmentRows segment
      let rest ← collectVtecEventRows segments
      .ok ⟨rows.ugcAreas ++ rest.ugcAreas, rows.windHail ++ rest.windHail⟩

/-- `collect_generic_rows`. -/
def collectGenericRows (body : GenericBody F) : Except Str (BodyRows F) := do
  let ugcAreas ← collectUgcRows none (body.ugc.getD [])
  let _ ← indexed "polygon_index" (body.latlon.getD [])
  let _ ← indexed "time_mot_loc_index" (body.timeMotLoc.getD [])
  let windHail ← collectWindHailRows none (body.windHail.getD [])
  .ok ⟨ugcAreas, windHail⟩

/-- `collect_body_rows`. -/
def collectBodyRows : ProductBody F → Except Str (BodyRows F)
  | .vtecEvent segments => collectVtecEventRows segments
  | .generic body => collectGenericRows body

/-- The row of an issue. -/
def issueRow (issue : ProductParseIssue) : ProductIssueRow :=
  ⟨issue.kind, issue.code, issue.message, issue.line⟩

/-- The part of `PreparedProduct::prepare` that fills the tables. -/
def prepare (product : ProductEnrichment F) : Except Str (PreparedProduct F) :=
  let rows : Except Str (BodyRows F) := match product.body with
    | none => .ok ⟨[], []⟩
    | some body => collectBodyRows body
  rows.map fun rows => ⟨rows, product.issues.map issueRow⟩

/-! ## What is in the rows -/

/-- Indices leave the elements as they are. -/
theorem map_snd_of_indexedFrom {α : Type} {field : String} {start : ℕ} {xs : List α}
    {out : List (ℕ × α)} (h : indexedFrom field start xs = .ok out) : out.map Prod.snd = xs := by
  induction xs generalizing start out with
  | nil =>
      cases h
      rfl
  | cons x xs ih =>
      obtain ⟨index, -, h⟩ := Results.bind_eq_ok.mp h
      obtain ⟨rest, hrest, h⟩ := Results.bind_eq_ok.mp h
      cases h
      rw [List.map_cons, ih hrest]

theorem map_snd_of_indexed {α : Type} {field : String} {xs : List α} {out : List (ℕ × α)}
    (h : indexed field xs = .ok out) : out.map Prod.snd = xs := map_snd_of_indexedFrom h

/-- What a row of an area is made of. -/
theorem exists_pushUgcBucket (segmentIndex : Option ℕ) (sectionIndex : ℕ) {s : UgcSection}
    {b : UgcBucket} {P : Str → Str → Str → Prop} :
    (∃ row ∈ pushUgcBucket segmentIndex sectionIndex s b, P row.areaKind row.state row.ugcCode) ↔
      ∃ area ∈ areaNumbers (s.areas b),
        P (areaKind b).toList area.1 (spell area.1 (codeClass b) area.2) := by
  unfold pushUgcBucket areaNumbers
  constructor
  · rintro ⟨row, hrow, hP⟩
    obtain ⟨⟨state, areas⟩, hentry, hrow⟩ := List.mem_flatMap.mp hrow
    obtain ⟨area, harea, rfl⟩ := List.mem_map.mp hrow
    exact ⟨(state, area.id),
      List.mem_flatMap.mpr ⟨_, hentry, List.mem_map.mpr ⟨area, harea, rfl⟩⟩, hP⟩
  · rintro ⟨_, hmem, hP⟩
    obtain ⟨⟨state, areas⟩, hentry, hmem⟩ := List.mem_flatMap.mp hmem
    obtain ⟨area, harea, rfl⟩ := List.mem_map.mp hmem
    exact ⟨_, List.mem_flatMap.mpr ⟨_, hentry, List.mem_map.mpr ⟨area, harea, rfl⟩⟩, hP⟩

theorem mem_buckets (b : UgcBucket) : b ∈ buckets := by cases b <;> decide

/-- The property of a row, said of an area of some sections. -/
def AreaOf (sections : List UgcSection) (P : Str → Str → Str → Prop) : Prop :=
  ∃ s ∈ sections, ∃ b, ∃ area ∈ areaNumbers (s.areas b),
    P (areaKind b).toList area.1 (spell area.1 (codeClass b) area.2)

theorem areaOf_append {sections others : List UgcSection} {P : Str → Str → Str → Prop} :
    AreaOf (sections ++ others) P ↔ AreaOf sections P ∨ AreaOf others P := by
  unfold AreaOf
  simp only [List.mem_append, or_and_right, exists_or]

theorem exists_collectUgcRows {segmentIndex : Option ℕ} {sections : List UgcSection}
    {rows : List ProductUgcAreaRow} (h : collectUgcRows segmentIndex sections = .ok rows)
    {P : Str → Str → Str → Prop} :
    (∃ row ∈ rows, P row.areaKind row.state row.ugcCode) ↔ AreaOf sections P := by
  obtain ⟨pairs, hpairs, rfl⟩ := Results.map_eq_ok.mp h
  rw [← map_snd_of_indexed hpairs]
  constructor
  · rintro ⟨row, hrow, hP⟩
    obtain ⟨⟨index, s⟩, hs, hrow⟩ := List.mem_flatMap.mp hrow
    obtain ⟨b, -, hrow⟩ := List.mem_flatMap.mp hrow
    exact ⟨s, List.mem_map_of_mem hs, b, (exists_pushUgcBucket _ _).mp ⟨row, hrow, hP⟩⟩
  · rintro ⟨_, hs, b, harea⟩
    obtain ⟨⟨index, s⟩, hpair, rfl⟩ := List.mem_map.mp hs
    obtain ⟨row, hrow, hP⟩ := (exists_pushUgcBucket segmentIndex index).mpr harea
    exact ⟨row, List.mem_flatMap.mpr ⟨_, hpair, List.mem_flatMap.mpr ⟨b, mem_buckets b, hrow⟩⟩, hP⟩

/-- The property of a row, said of a tag. -/
def TagOf (entries : List (WindHailEntry F)) (P : Str → Option F → Option Str → Prop) : Prop :=
  ∃ entry ∈ entries, P (windHailLabel entry.kind).toList entry.numericValue entry.units

theorem tagOf_append {entries others : List (WindHailEntry F)}
    {P : Str → Option F → Option Str → Prop} :
    TagOf (entries ++ others) P ↔ TagOf entries P ∨ TagOf others P := by
  unfold TagOf
  simp only [List.mem_append, or_and_right, exists_or]

theorem exists_collectWindHailRows {segmentIndex : Option ℕ} {entries : List (WindHailEntry F)}
    {rows : List (ProductWindHailRow F)} (h : collectWindHailRows segmentIndex entries = .ok rows)
    {P : Str → Option F → Option Str → Prop} :
    (∃ row ∈ rows, P row.kind row.numericValue row.units) ↔ TagOf entries P := by
  obtain ⟨pairs, hpairs, rfl⟩ := Results.map_eq_ok.mp h
  rw [← map_snd_of_indexed hpairs]
  constructor
  · rintro ⟨row, hrow, hP⟩
    obtain ⟨⟨index, entry⟩, hentry, rfl⟩ := List.mem_map.mp hrow
    exact ⟨entry, List.mem_map_of_mem hentry, hP⟩
  · rintro ⟨_, hentry, hP⟩
    obtain ⟨⟨index, entry⟩, hpair, rfl⟩ := List.mem_map.mp hentry
    exact ⟨_, List.mem_map_of_mem hpair, hP⟩

/-- Rows that say what sections and tags say. -/
structure Describes (rows : BodyRows F) (sections : List UgcSection)
    (entries : List (WindHailEntry F)) : Prop where
  areas : ∀ P : Str → Str → Str → Prop,
    (∃ row ∈ rows.ugcAreas, P row.areaKind row.state row.ugcCode) ↔ AreaOf sections P
  tags : ∀ P : Str → Option F → Option Str → Prop,
    (∃ row ∈ rows.windHail, P row.kind row.numericValue row.units) ↔ TagOf entries P

theorem describes_segment {segment : VtecEvents.VtecEventSegment F} {rows : BodyRows F}
    (h : collectSegmentRows segment = .ok rows) :
    Describes rows segment.ugcSections segment.windHail := by
  obtain ⟨index, -, h⟩ := Results.bind_eq_ok.mp h
  obtain ⟨-, -, h⟩ := Results.bind_eq_ok.mp h
  obtain ⟨-, -, h⟩ := Results.bind_eq_ok.mp h
  obtain ⟨-, -, h⟩ := Results.bind_eq_ok.mp h
  obtain ⟨windHail, hwind, h⟩ := Results.bind_eq_ok.mp h
  obtain ⟨ugcAreas, hareas, h⟩ := Results.bind_eq_ok.mp h
  cases h
  exact ⟨fun _ => exists_collectUgcRows hareas, fun _ => exists_collectWindHailRows hwind⟩

theorem describes_vtecEvent {segments : List (VtecEvents.VtecEventSegment F)} {rows : BodyRows F}
    (h : collectVtecEventRows segments = .ok rows) :
    Describes rows (segments.flatMap (·.ugcSections)) (segments.flatMap (·.windHail)) := by
  induction segments generalizing rows with
  | nil =>
      cases h
      exact ⟨fun P => by simp [AreaOf], fun P => by simp [TagOf]⟩
  | cons segment segments ih =>
      obtain ⟨first, hfirst, h⟩ := Results.bind_eq_ok.mp h
      obtain ⟨rest, hrest, h⟩ := Results.bind_eq_ok.mp h
      cases h
      have hsegment := describes_segment hfirst
      have hsegments := ih hrest
      constructor
      · intro P
        rw [List.flatMap_cons, areaOf_append, ← hsegment.areas, ← hsegments.areas]
        simp only [List.mem_append, or_and_right, exists_or]
      · intro P
        rw [List.flatMap_cons, tagOf_append, ← hsegment.tags, ← hsegments.tags]
        simp only [List.mem_append, or_and_right, exists_or]

theorem describes_generic {body : GenericBody F} {rows : BodyRows F}
    (h : collectGenericRows body = .ok rows) :
    Describes rows (body.ugc.getD []) (body.windHail.getD []) := by
  obtain ⟨ugcAreas, hareas, h⟩ := Results.bind_eq_ok.mp h
  obtain ⟨-, -, h⟩ := Results.bind_eq_ok.mp h
  obtain ⟨-, -, h⟩ := Results.bind_eq_ok.mp h
  obtain ⟨windHail, hwind, h⟩ := Results.bind_eq_ok.mp h
  cases h
  exact ⟨fun _ => exists_collectUgcRows hareas, fun _ => exists_collectWindHailRows hwind⟩

/-- The rows of a product say what the product says. -/
theorem describes_prepare {product : ProductEnrichment F} {prepared : PreparedProduct F}
    (h : prepare product = .ok prepared) :
    Describes prepared.toBodyRows product.ugcSections product.windHailEntries ∧
      prepared.issues = product.issues.map issueRow := by
  obtain ⟨rows, hrows, rfl⟩ := Results.map_eq_ok.mp h
  refine ⟨?_, rfl⟩
  unfold ProductEnrichment.ugcSections ProductEnrichment.windHailEntries
  cases hbody : product.body with
  | none =>
      rw [hbody] at hrows
      cases hrows
      exact ⟨fun P => by simp [AreaOf], fun P => by simp [TagOf]⟩
  | some body =>
      rw [hbody] at hrows
      cases body with
      | vtecEvent segments => exact describes_vtecEvent hrows
      | generic body => exact describes_generic hrows

end Persist
