/-
# Filters of places

A request may ask for files near a point, and for files that meet a box.  `geo.rs` has the
geometry, `filter/location.rs` checks the fields of a request and compares them with the
polygons, tracks and points of a body.

The functions of the standard library that are not rational are operations of `FloatMath`.
-/
import Emwin.FileEvents.Bodies

namespace FileEvents

open Parser Query Floats Live

/-- Floating-point numbers with the functions of the standard library, and with the numbers of
the catalogs. -/
class FloatMath (F : Type) extends FloatArith F where
  ofRat : ℚ → F
  toRadians : F → F
  sin : F → F
  cos : F → F
  sqrt : F → F
  atan2 : F → F → F

/-! ## Geometry -/

section Geometry

variable {F : Type}

/-- `GeoPoint`. -/
structure GeoPoint (F : Type) where
  lat : F
  lon : F

/-- `GeoBounds`. -/
structure GeoBounds (F : Type) where
  minLat : F
  maxLat : F
  minLon : F
  maxLon : F

/-- `ParsedPolygon`. -/
structure ParsedPolygon (F : Type) where
  points : List (F × F)
  bounds : Option (GeoBounds F)

section Arithmetic

variable [FloatArith F]

/-- `f64::is_finite`. -/
def isFinite (x : F) : Bool :=
  FloatArith.lt (FloatArith.ofLiteral (.infinite true)) x &&
    FloatArith.lt x (FloatArith.ofLiteral (.infinite false))

/-- `f64::abs`. -/
def abs (x : F) : F := if FloatArith.lt x (const 0) then -x else x

/-- `f64::min`, which passes over what is not a number. -/
def fmin (x y : F) : F :=
  if FloatArith.eq x x = false then y
  else if FloatArith.eq y y = false then x
  else if FloatArith.lt y x then y else x

/-- `f64::max`, which passes over what is not a number. -/
def fmax (x y : F) : F :=
  if FloatArith.eq x x = false then y
  else if FloatArith.eq y y = false then x
  else if FloatArith.lt x y then y else x

/-- `EPSILON`. -/
def EPSILON : F := FloatArith.ofLiteral (.finite false 1 (-9))

/-- `polygon_bounds`. -/
def polygonBounds (points : List (F × F)) : Option (GeoBounds F) :=
  match points with
  | [] => none
  | (firstLat, firstLon) :: rest =>
      some (rest.foldl (fun bounds (lat, lon) =>
        { minLat := fmin bounds.minLat lat
          maxLat := fmax bounds.maxLat lat
          minLon := fmin bounds.minLon lon
          maxLon := fmax bounds.maxLon lon }) ⟨firstLat, firstLat, firstLon, firstLon⟩)

/-- `bounds_contains`. -/
def boundsContains (bounds : GeoBounds F) (point : GeoPoint F) : Bool :=
  ge point.lat bounds.minLat && ge bounds.maxLat point.lat && ge point.lon bounds.minLon &&
    ge bounds.maxLon point.lon

/-- `point_on_segment`. -/
def pointOnSegment (point : GeoPoint F) (start stop : F × F) : Bool :=
  let cross := (point.lat - start.1) * (stop.2 - start.2) - (point.lon - start.2) *
    (stop.1 - start.1)
  if FloatArith.lt EPSILON (abs cross) then false
  else
    let minLat := fmin start.1 stop.1 - EPSILON
    let maxLat := fmax start.1 stop.1 + EPSILON
    let minLon := fmin start.2 stop.2 - EPSILON
    let maxLon := fmax start.2 stop.2 + EPSILON
    ge point.lat minLat && ge maxLat point.lat && ge point.lon minLon && ge maxLon point.lon

/-- The loop of `point_in_polygon` over the edges that are left. -/
def crossEdges (point : GeoPoint F) (inside : Bool) (previous : F × F) : List (F × F) → Bool
  | [] => inside
  | current :: rest =>
      if pointOnSegment point previous current then true
      else
        let intersects :=
          (FloatArith.lt point.lat current.1 != FloatArith.lt point.lat previous.1) &&
            ge ((previous.2 - current.2) * (point.lat - current.1) / (previous.1 - current.1) +
              current.2) point.lon
        crossEdges point (if intersects then !inside else inside) current rest

/-- `point_in_polygon`. -/
def pointInPolygon (point : GeoPoint F) (polygon : List (F × F)) : Bool :=
  if polygon.length < 3 then false
  else
    match polygon.getLast? with
    | none => false
    | some last => crossEdges point false last polygon

end Arithmetic

section Math

variable [FloatMath F]

/-- `EARTH_RADIUS_MILES`. -/
def EARTH_RADIUS_MILES : F := FloatArith.ofLiteral (.finite false 39587613 (-4))

/-- `distance_miles`. -/
def distanceMiles (a b : GeoPoint F) : F :=
  let lat1 := FloatMath.toRadians a.lat
  let lat2 := FloatMath.toRadians b.lat
  let deltaLat := FloatMath.toRadians (b.lat - a.lat)
  let deltaLon := FloatMath.toRadians (b.lon - a.lon)
  let sinLat := FloatMath.sin (deltaLat / const 2)
  let sinLon := FloatMath.sin (deltaLon / const 2)
  let haversine :=
    sinLat * sinLat + FloatMath.cos lat1 * FloatMath.cos lat2 * sinLon * sinLon
  let arc := const 2 * FloatMath.atan2 (FloatMath.sqrt haversine)
    (FloatMath.sqrt (const 1 - haversine))
  EARTH_RADIUS_MILES * arc

/-- The places of the areas of a section. -/
def ugcPoints (s : UgcSection) : List (GeoPoint F) :=
  ((s.counties.values ++ s.zones.values ++ s.fireZones.values ++
    s.marineZones.values).flatten).filterMap
    fun area =>
      match area.lat, area.lon with
      | some lat, some lon => some ⟨FloatMath.ofRat lat, FloatMath.ofRat lon⟩
      | _, _ => none

/-- The places of tracks. -/
def timeMotLocPoints (entries : List (TimeMotLoc.TimeMotLocEntry F)) : List (GeoPoint F) :=
  entries.flatMap fun entry => entry.points.map fun (lat, lon) => ⟨lat, lon⟩

/-- `ProductBody::iter_location_points`. -/
def iterLocationPoints : ProductBody F → List (GeoPoint F)
  | .vtecEvent segments => segments.flatMap fun segment =>
      timeMotLocPoints segment.timeMotLoc ++ segment.ugcSections.flatMap ugcPoints ++
        segment.hvtec.filterMap fun code => code.location.map fun location =>
          ⟨FloatMath.ofRat location.latitude, FloatMath.ofRat location.longitude⟩
  | .generic body =>
      timeMotLocPoints (body.timeMotLoc.getD []) ++ (body.ugc.getD []).flatMap ugcPoints

end Math

/-- The polygons of a body. -/
def bodyPolygons : ProductBody F → List (LatLon.LatLonPolygon F)
  | .vtecEvent segments => segments.flatMap (·.polygons)
  | .generic body => body.latlon.getD []

/-- `ProductBody::iter_polygons`. -/
def iterPolygons [FloatArith F] (body : ProductBody F) : List (ParsedPolygon F) :=
  (bodyPolygons body).map fun polygon => ⟨polygon.points, polygonBounds polygon.points⟩

/-- `time_mot_loc_paths`. -/
def timeMotLocPaths : ProductBody F → List (List (F × F))
  | .vtecEvent segments => segments.flatMap fun segment => segment.timeMotLoc.map (·.points)
  | .generic body => (body.timeMotLoc.getD []).map (·.points)

end Geometry

/-! ## Boxes -/

section Boxes

variable {F : Type}

/-- `LocationBoundingBox`. -/
structure LocationBoundingBox (F : Type) where
  minLat : F
  maxLat : F
  minLon : F
  maxLon : F

/-- `bbox_corners`. -/
def bboxCorners (bbox : LocationBoundingBox F) : List (GeoPoint F) :=
  [⟨bbox.minLat, bbox.minLon⟩, ⟨bbox.minLat, bbox.maxLon⟩, ⟨bbox.maxLat, bbox.maxLon⟩,
    ⟨bbox.maxLat, bbox.minLon⟩]

/-- The pairs of neighbours. -/
def windows {α : Type*} (xs : List α) : List (α × α) := xs.zip xs.tail

variable [FloatArith F]

/-- `point_in_bbox`. -/
def pointInBbox (point : GeoPoint F) (bbox : LocationBoundingBox F) : Bool :=
  ge point.lat bbox.minLat && ge bbox.maxLat point.lat && ge point.lon bbox.minLon &&
    ge bbox.maxLon point.lon

/-- `orientation`. -/
def orientation (a b c : GeoPoint F) : ℤ :=
  let value := (b.lon - a.lon) * (c.lat - b.lat) - (b.lat - a.lat) * (c.lon - b.lon)
  if FloatArith.lt (abs value) EPSILON then 0
  else if FloatArith.lt (const 0) value then 1
  else -1

/-- `on_segment`. -/
def onSegment (start middle stop : GeoPoint F) : Bool :=
  ge middle.lon (fmin start.lon stop.lon) && ge (fmax start.lon stop.lon) middle.lon &&
    ge middle.lat (fmin start.lat stop.lat) && ge (fmax start.lat stop.lat) middle.lat

/-- `segments_intersect`. -/
def segmentsIntersect (aStart aEnd bStart bEnd : GeoPoint F) : Bool :=
  let o1 := orientation aStart aEnd bStart
  let o2 := orientation aStart aEnd bEnd
  let o3 := orientation bStart bEnd aStart
  let o4 := orientation bStart bEnd aEnd
  if o1 ≠ o2 ∧ o3 ≠ o4 then true
  else
    (o1 = 0 && onSegment aStart bStart aEnd) || (o2 = 0 && onSegment aStart bEnd aEnd) ||
      (o3 = 0 && onSegment bStart aStart bEnd) || (o4 = 0 && onSegment bStart aEnd bEnd)

/-- `segment_intersects_bbox`. -/
def segmentIntersectsBbox (start stop : F × F) (bbox : LocationBoundingBox F) : Bool :=
  let start : GeoPoint F := ⟨start.1, start.2⟩
  let stop : GeoPoint F := ⟨stop.1, stop.2⟩
  if pointInBbox start bbox || pointInBbox stop bbox then true
  else
    let edges : List (GeoPoint F × GeoPoint F) :=
      [(⟨bbox.minLat, bbox.minLon⟩, ⟨bbox.minLat, bbox.maxLon⟩),
        (⟨bbox.minLat, bbox.maxLon⟩, ⟨bbox.maxLat, bbox.maxLon⟩),
        (⟨bbox.maxLat, bbox.maxLon⟩, ⟨bbox.maxLat, bbox.minLon⟩),
        (⟨bbox.maxLat, bbox.minLon⟩, ⟨bbox.minLat, bbox.minLon⟩)]
    edges.any fun edge => segmentsIntersect start stop edge.1 edge.2

/-- `matches_bbox`. -/
def matchesBbox {F : Type} [FloatMath F] (body : ProductBody F) (bbox : LocationBoundingBox F) :
    Bool :=
  ((iterPolygons body).any fun polygon =>
    (polygon.points.any fun (lat, lon) => pointInBbox ⟨lat, lon⟩ bbox) ||
      ((bboxCorners bbox).any fun corner => pointInPolygon corner polygon.points) ||
      (windows polygon.points).any fun segment =>
        segmentIntersectsBbox segment.1 segment.2 bbox) ||
    ((timeMotLocPaths body).any fun path =>
      (windows path).any fun segment => segmentIntersectsBbox segment.1 segment.2 bbox) ||
    (iterLocationPoints body).any fun point => pointInBbox point bbox

end Boxes

/-! ## The filter -/

/-- `FileFilterInputError`. -/
structure FileFilterInputError where
  message : Str
  deriving DecidableEq

/-- `FileFilterInputError::new`. -/
def FileFilterInputError.new (message : String) : FileFilterInputError := ⟨message.toList⟩

/-- `LocationFilter`. -/
structure LocationFilter (F : Type) where
  center : Option (GeoPoint F)
  distanceMiles : Option F
  bbox : Option (LocationBoundingBox F)

section Checks

variable {F : Type} [FloatArith F]

/-- Whether a number is finite and between two bounds of one size. -/
def isWithin (bound : ℕ) (value : F) : Bool :=
  isFinite value && ge value (FloatArith.ofLiteral (.finite true bound 0)) && ge (const bound) value

/-- `validate_lat`. -/
def validateLat (name : String) (value : F) : Except FileFilterInputError Unit :=
  if isWithin 90 value = false then
    .error (.new (name ++ " must be a finite value between -90 and 90"))
  else .ok ()

/-- `validate_lon`. -/
def validateLon (name : String) (value : F) : Except FileFilterInputError Unit :=
  if isWithin 180 value = false then
    .error (.new (name ++ " must be a finite value between -180 and 180"))
  else .ok ()

/-- `LocationFilter::DEFAULT_DISTANCE_MILES`. -/
def DEFAULT_DISTANCE_MILES : F := const 5

/-- The point of a request. -/
def readCenter (lat lon : Option F) : Except FileFilterInputError (Option (GeoPoint F)) :=
  if lat.isSome ≠ lon.isSome then .error (.new "lat and lon must be provided together")
  else
    match lat, lon with
    | some lat, some lon => do
        validateLat "lat" lat
        validateLon "lon" lon
        return some ⟨lat, lon⟩
    | _, _ => .ok none

/-- The distance of a request. -/
def readDistance (distance : Option F) (center : Option (GeoPoint F)) :
    Except FileFilterInputError (Option F) :=
  match distance with
  | some distance =>
      if center.isNone then .error (.new "distance_miles requires both lat and lon")
      else if isFinite distance = false || ge (const 0) distance then
        .error (.new "distance_miles must be a finite value greater than 0")
      else .ok (some distance)
  | none => .ok (if center.isSome then some DEFAULT_DISTANCE_MILES else none)

/-- The box of a request. -/
def readBbox (minLat maxLat minLon maxLon : Option F) :
    Except FileFilterInputError (Option (LocationBoundingBox F)) :=
  match minLat, maxLat, minLon, maxLon with
  | none, none, none, none => .ok none
  | some minLat, some maxLat, some minLon, some maxLon => do
      validateLat "min_lat" minLat
      validateLat "max_lat" maxLat
      validateLon "min_lon" minLon
      validateLon "max_lon" maxLon
      if FloatArith.lt maxLat minLat then
        throw (.new "min_lat must be less than or equal to max_lat")
      if FloatArith.lt maxLon minLon then
        throw (.new "min_lon must be less than or equal to max_lon")
      return some ⟨minLat, maxLat, minLon, maxLon⟩
  | _, _, _, _ =>
      .error (.new "min_lat, max_lat, min_lon, and max_lon must be provided together")

/-- `LocationFilter::try_from_input`. -/
def LocationFilter.tryFromInput (input : FileFilterInput F) :
    Except FileFilterInputError (LocationFilter F) := do
  let center ← readCenter input.lat input.lon
  let distanceMiles ← readDistance input.distanceMiles center
  let bbox ← readBbox input.minLat input.maxLat input.minLon input.maxLon
  return ⟨center, distanceMiles, bbox⟩

end Checks

variable {F : Type}

/-- `LocationFilter::has_constraints`. -/
def LocationFilter.hasConstraints (f : LocationFilter F) : Bool :=
  f.center.isSome || f.bbox.isSome

/-- `LocationFilter::matches`. -/
def LocationFilter.accepts [FloatMath F] (f : LocationFilter F) (body : Option (ProductBody F)) :
    Bool :=
  if f.hasConstraints = false then true
  else
    match body with
    | none => false
    | some body =>
        if f.bbox.any fun bbox => !matchesBbox body bbox then false
        else
          match f.center with
          | none => true
          | some center =>
              if (iterPolygons body).any fun polygon =>
                  (polygon.bounds.any fun bounds => boundsContains bounds center) &&
                    pointInPolygon center polygon.points then true
              else
                match f.distanceMiles with
                | none => false
                | some radiusMiles =>
                    (iterLocationPoints body).any fun point =>
                      ge radiusMiles (FileEvents.distanceMiles center point)

end FileEvents
