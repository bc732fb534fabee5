/-
# Where the METAR parser slices inside a character

The only slices that can fail are those of groups for wind.  Which tokens are looked at as wind
is read off the pieces of a bulletin without reading the groups: a body is read if its station
and its time are, and a piece without a kind of its own is read if a kind is known.
-/
import Emwin.Lib.Words
import Emwin.Parser.Metar

namespace Parser.Metar

open Aviation

/-! ## The loop over a body -/

/-- Whether a token ends the search for wind in the body of a report. -/
def endsWindSearch (token : Str) : Bool := decide (token = "RMK".toList) || isWind false token

/-- A token that is not wind changes neither of the conditions under which wind is looked for. -/
theorem pushOther_keeps (s : BodyState) (token : Str) :
    (s.pushOther token).wind = s.wind ∧ (s.pushOther token).inRemarks = s.inRemarks := by
  unfold BodyState.pushOther
  repeat' split
  all_goals exact ⟨rfl, rfl⟩

/-- The loop over a body panics exactly if a token in front of the first wind, and of the
remarks, is cut inside a character. -/
theorem foldlM_push_eq_none_iff (s : BodyState) (tokens : List Str) :
    tokens.foldlM BodyState.push s = none ↔ s.wind = none ∧ s.inRemarks = false ∧
      ∃ token ∈ upToFirst endsWindSearch tokens, windOnBoundary token = false := by
  induction tokens generalizing s with
  | nil => simp [upToFirst]
  | cons token tokens ih =>
      rw [List.foldlM_cons, exists_upToFirst_cons]
      by_cases hcor : token = "COR".toList
      · have hpush : s.push token = some s := if_pos hcor
        have hends : endsWindSearch token = false := by rw [hcor]; decide
        have hcut : windOnBoundary token = true := by rw [hcor]; decide
        rw [hpush, Option.bind_eq_bind, Option.bind_some, ih, hends, hcut]
        simp
      rw [BodyState.push, if_neg hcor]
      by_cases hremarks : s.inRemarks = true
      · rw [if_pos hremarks, Option.bind_eq_bind, Option.bind_some, ih]
        simp [hremarks]
      rw [if_neg hremarks]
      by_cases hrmk : token = "RMK".toList
      · have hends : endsWindSearch token = true := by rw [hrmk]; decide
        have hcut : windOnBoundary token = true := by rw [hrmk]; decide
        rw [if_pos hrmk, Option.bind_eq_bind, Option.bind_some, ih, hends, hcut]
        simp
      rw [if_neg hrmk]
      obtain ⟨hwind, hin⟩ := pushOther_keeps s token
      cases hs : s.wind with
      | some wind =>
          rw [Option.isNone_some, if_neg Bool.false_ne_true, Option.bind_eq_bind,
            Option.bind_some, ih, hwind, hs]
          simp
      | none =>
          have hnone : parseWind false token = none ↔ windOnBoundary token = false :=
            parseWind_eq_none_iff
          have hends : endsWindSearch token = isWind false token := by
            rw [endsWindSearch, decide_eq_false hrmk, Bool.false_or]
          rw [Option.isNone_none, if_pos rfl, hends, isWind]
          rcases hparsed : parseWind false token with _ | _ | wind
          · have hcut := hnone.mp hparsed
            simp [hcut, hremarks]
          · rw [hparsed] at hnone
            simp [ih, hwind, hin, hs, hremarks,
              show windOnBoundary token = true by simpa using hnone]
          · rw [hparsed] at hnone
            simp [ih, show windOnBoundary token = true by simpa using hnone]

/-! ## Bodies -/

/-- The tokens of a body after fused suffixes are split off. -/
def expandedTokens (bodyTokens : List Str) : List Str := (expandMetarBodyTokens bodyTokens).getD []

/-- Splitting off a suffix never panics. -/
theorem splitObservationSuffix_isSome (token : Str) :
    ∃ suffix, splitObservationSuffix token = some suffix := by
  unfold splitObservationSuffix
  cases Str.sliceTo 7 token with
  | none => exact ⟨none, rfl⟩
  | some observation => exact ⟨_, by dsimp only; rw [isTimeToken_eq, Option.map_some]⟩

theorem expandMetarBodyTokens_eq (bodyTokens : List Str) :
    expandMetarBodyTokens bodyTokens = some (expandedTokens bodyTokens) := by
  have hsome : ∃ expanded, expandMetarBodyTokens bodyTokens = some expanded := by
    induction bodyTokens with
    | nil => exact ⟨[], rfl⟩
    | cons token tokens ih =>
        obtain ⟨suffix, hsuffix⟩ := splitObservationSuffix_isSome token
        obtain ⟨expanded, hexpanded⟩ := ih
        rw [expandMetarBodyTokens, hsuffix, hexpanded]
        rcases suffix with _ | ⟨time, suffix⟩
        · exact ⟨_, rfl⟩
        · exact ⟨_, rfl⟩
  obtain ⟨expanded, h⟩ := hsome
  rw [expandedTokens, h, Option.getD_some]

/-- Whether a body is read as that of a report. -/
def readsBody (station : Str) (bodyTokens : List Str) : Bool :=
  (bodyHeader (expandedTokens bodyTokens)).any fun (_, time, _) =>
    isMetarStation station && timeToken time

/-- The tokens of a body that are looked at as wind. -/
def bodyWindTokens (station : Str) (bodyTokens : List Str) : List Str :=
  match bodyHeader (expandedTokens bodyTokens) with
  | none => []
  | some (_, time, tokens) =>
      if isMetarStation station && timeToken time && tokens.head? ≠ some "NIL".toList then
        upToFirst endsWindSearch tokens
      else []

section

variable (kind : MetarReportKind) (station : Str) (tokens : List Str) (correction : Bool)

/-- Reading a body panics exactly if one of the tokens is cut inside a character. -/
theorem parseMetarBody_eq_none_iff : parseMetarBody kind station tokens correction = none ↔
    ∃ token ∈ bodyWindTokens station tokens, windOnBoundary token = false := by
  rw [parseMetarBody, expandMetarBodyTokens_eq, bodyWindTokens, Option.bind_eq_bind,
    Option.bind_some]
  rcases bodyHeader (expandedTokens tokens) with _ | ⟨corrected, time, behind⟩
  · simp
  dsimp only
  rw [isTimeToken_eq, Option.bind_eq_bind, Option.bind_some]
  cases hreads : isMetarStation station && timeToken time with
  | false => simp
  | true =>
      by_cases hnil : behind.head? = some "NIL".toList
      · rw [if_neg (by decide), if_pos hnil, if_neg (by simpa using hnil)]
        simp
      · have hloop := foldlM_push_eq_none_iff {} behind
        simp only [true_and] at hloop
        rw [if_neg (by decide), if_neg hnil, if_pos (by simpa using hnil), ← hloop]
        cases behind.foldlM BodyState.push {} <;> simp

/-- Whether a body is read does not depend on the groups for wind. -/
theorem isSome_of_parseMetarBody {parsed : Option ParsedMetarRef}
    (h : parseMetarBody kind station tokens correction = some parsed) :
    parsed.isSome = readsBody station tokens := by
  rw [parseMetarBody, expandMetarBodyTokens_eq, Option.bind_eq_bind, Option.bind_some] at h
  rw [readsBody]
  rcases hheader : bodyHeader (expandedTokens tokens) with _ | ⟨corrected, time, behind⟩
  · rw [hheader] at h
    obtain rfl := Option.some.inj h
    rfl
  rw [hheader] at h
  dsimp only at h
  rw [isTimeToken_eq, Option.bind_eq_bind, Option.bind_some] at h
  rw [Option.any_some]
  dsimp only
  cases hreads : isMetarStation station && timeToken time with
  | false =>
      rw [hreads, if_pos rfl] at h
      obtain rfl : none = parsed := Option.some.inj h
      rfl
  | true =>
      rw [hreads, if_neg (by decide)] at h
      split at h
      · obtain rfl := Option.some.inj h
        rfl
      · obtain ⟨s, -, hs⟩ := Option.bind_eq_some_iff.mp h
        obtain rfl := Option.some.inj hs
        rfl

/-- The station of a body, and the body, behind a possible `COR`. -/
def stationBody : Option (Str × List Str) :=
  if station = "COR".toList then
    match tokens with
    | [] => none
    | next :: tokens => if isMetarStation next then some (next, tokens) else none
  else some (station, tokens)

/-- Whether a station and its body are read as a report. -/
def readsStation : Bool := (stationBody station tokens).any fun (station, tokens) =>
  readsBody station tokens

/-- The tokens behind a station that are looked at as wind. -/
def stationWindTokens : List Str :=
  match stationBody station tokens with
  | none => []
  | some (station, tokens) => bodyWindTokens station tokens

/-- What is read behind a station is nothing or a body. -/
theorem parseStation_cases :
    (stationBody station tokens = none ∧ parseStation kind station tokens = some none) ∨
      ∃ next behind correction, stationBody station tokens = some (next, behind) ∧
        parseStation kind station tokens = parseMetarBody kind next behind correction := by
  unfold stationBody parseStation
  by_cases hcor : station = "COR".toList
  · rw [if_pos hcor, if_pos hcor]
    cases tokens with
    | nil => exact .inl ⟨rfl, rfl⟩
    | cons next behind =>
        dsimp only
        by_cases hnext : isMetarStation next = true
        · rw [if_pos hnext, if_pos hnext]
          exact .inr ⟨next, behind, true, rfl, rfl⟩
        · rw [if_neg hnext, if_neg hnext]
          exact .inl ⟨rfl, rfl⟩
  · rw [if_neg hcor, if_neg hcor]
    exact .inr ⟨station, tokens, false, rfl, rfl⟩

theorem parseStation_eq_none_iff : parseStation kind station tokens = none ↔
    ∃ token ∈ stationWindTokens station tokens, windOnBoundary token = false := by
  unfold stationWindTokens
  rcases parseStation_cases kind station tokens with
    ⟨hbody, h⟩ | ⟨next, behind, correction, hbody, h⟩
  · simp [hbody, h]
  · rw [hbody, h]
    exact parseMetarBody_eq_none_iff kind next behind correction

theorem isSome_of_parseStation {parsed : Option ParsedMetarRef}
    (h : parseStation kind station tokens = some parsed) :
    parsed.isSome = readsStation station tokens := by
  unfold readsStation
  rcases parseStation_cases kind station tokens with
    ⟨hbody, hnone⟩ | ⟨next, behind, correction, hbody, hparse⟩
  · rw [hnone] at h
    obtain rfl := Option.some.inj h
    rw [hbody]
    rfl
  · rw [hparse] at h
    rw [hbody]
    exact isSome_of_parseMetarBody kind next behind correction h

end

/-! ## Pieces -/

/-- Whether a piece is read as a report that names its kind. -/
def readsMarked (normalized : Str) : Bool :=
  (reportStation normalized).any fun (_, station, tokens) => readsStation station tokens

/-- The tokens that are looked at as wind in a piece that names its kind. -/
def markedWindTokens (normalized : Str) : List Str :=
  match reportStation normalized with
  | none => []
  | some (_, station, tokens) => stationWindTokens station tokens

/-- The tokens that are looked at as wind in a piece without a kind of its own. -/
def bareWindTokens (normalized : Str) : List Str :=
  match normalized.splitOn ' ' with
  | [] => []
  | station :: tokens => stationWindTokens station tokens

/-- Whether a piece makes a kind known. -/
def setsKind (normalized : Str) : Bool :=
  readsMarked normalized || (findMetarStart (Str.splitWhitespace normalized)).isSome ||
    (!isNilOnlyStationSegment normalized && (parseSurfaceSaReportRef normalized).isSome)

/-- The tokens that are looked at as wind in a piece, where a kind may be known. -/
def pieceWindTokens (kindKnown : Bool) (normalized : Str) : List Str :=
  markedWindTokens normalized ++
    if kindKnown && !readsMarked normalized && !isNilOnlyStationSegment normalized &&
        (parseSurfaceSaReportRef normalized).isNone then
      bareWindTokens normalized
    else []

theorem parseMetarReportRef_eq_none_iff (normalized : Str) : parseMetarReportRef normalized = none ↔
    ∃ token ∈ markedWindTokens normalized, windOnBoundary token = false := by
  unfold parseMetarReportRef markedWindTokens
  rcases reportStation normalized with _ | ⟨kind, station, tokens⟩
  · simp
  · exact parseStation_eq_none_iff kind station tokens

theorem isSome_of_parseMetarReportRef {normalized : Str} {parsed : Option ParsedMetarRef}
    (h : parseMetarReportRef normalized = some parsed) :
      parsed.isSome = readsMarked normalized := by
  unfold parseMetarReportRef at h
  unfold readsMarked
  rcases hstation : reportStation normalized with _ | ⟨kind, station, tokens⟩
  · rw [hstation] at h
    obtain rfl := Option.some.inj h
    rfl
  · rw [hstation] at h
    exact isSome_of_parseStation kind station tokens h

theorem parseBareMetarReportRef_eq_none_iff (normalized : Str) (kind : MetarReportKind) :
    parseBareMetarReportRef normalized kind = none ↔
      ∃ token ∈ bareWindTokens normalized, windOnBoundary token = false := by
  unfold parseBareMetarReportRef bareWindTokens
  rcases normalized.splitOn ' ' with _ | ⟨station, tokens⟩
  · simp
  · exact parseStation_eq_none_iff kind station tokens

/-! ## Bulletins -/

/-- The tokens of the pieces of a bulletin that are looked at as wind. -/
def piecesWindTokens (kindKnown : Bool) : List Str → List Str
  | [] => []
  | piece :: pieces =>
      let normalized := normalizeMetarSegment piece
      let kindKnown := kindKnown || setsKind normalized
      pieceWindTokens kindKnown normalized ++ piecesWindTokens kindKnown pieces

/-- The tokens of a bulletin that are looked at as wind. -/
def bulletinWindTokens (text : Str) : List Str := piecesWindTokens false (segments text)

/-- A piece that begins with the name of a kind names it. -/
theorem findMetarStart_of_startsWith (name : Str) {normalized : Str}
    (hname : Str.splitWhitespace name = [name])
    (hkind : ∀ tokens, (findMetarStart (name :: tokens)).isSome = true)
    (h : Str.startsWith (name ++ [' ']) normalized = true) :
    (findMetarStart (Str.splitWhitespace normalized)).isSome = true := by
  obtain ⟨rest, rfl⟩ := List.isPrefixOf_iff_prefix.mp h
  rw [List.append_assoc, List.singleton_append, Str.splitWhitespace_append_cons (by decide), hname]
  exact hkind _

section

variable (s : BulletinState) (normalized : Str)

@[simp] theorem keep_collectiveKind (parsed : ParsedMetarRef) :
    (s.keep parsed normalized).collectiveKind = s.collectiveKind := rfl

@[simp] theorem reject_collectiveKind :
    (s.reject normalized).collectiveKind = s.collectiveKind := by
  unfold BulletinState.reject
  split <;> rfl

/-- Whether a kind is known for a piece that names one or stands behind one that does. -/
def known : Bool :=
  s.collectiveKind.isSome || (findMetarStart (Str.splitWhitespace normalized)).isSome

theorem isSome_kind : (s.collectiveKind.or
    ((findMetarStart (Str.splitWhitespace normalized)).map Prod.fst)).isSome =
      known s normalized := by
  rw [Option.isSome_or, Option.isSome_map, known]

/-- A piece without a kind of its own panics exactly if it is read and a token is cut inside a
character. -/
theorem pushUnmarked_eq_none_iff : s.pushUnmarked normalized = none ↔
    (known s normalized && !isNilOnlyStationSegment normalized &&
      (parseSurfaceSaReportRef normalized).isNone) = true ∧
      ∃ token ∈ bareWindTokens normalized, windOnBoundary token = false := by
  rw [← isSome_kind, BulletinState.pushUnmarked]
  by_cases hnil : isNilOnlyStationSegment normalized = true
  · rw [if_pos hnil]
    split_ifs <;> simp [hnil]
  · rw [if_neg hnil]
    rcases parseSurfaceSaReportRef normalized with _ | parsed
    · rcases s.collectiveKind.or ((findMetarStart (Str.splitWhitespace normalized)).map Prod.fst)
        with _ | kind
      · simp
      · simp [hnil, parseBareMetarReportRef_eq_none_iff]
    · simp

/-- Which pieces without a kind of their own make one known. -/
theorem isSome_of_pushUnmarked {s' : BulletinState} (h : s.pushUnmarked normalized = some s') :
    s'.collectiveKind.isSome = (known s normalized ||
      (!isNilOnlyStationSegment normalized && (parseSurfaceSaReportRef normalized).isSome)) := by
  rw [BulletinState.pushUnmarked] at h
  by_cases hnil : isNilOnlyStationSegment normalized = true
  · rw [if_pos hnil] at h
    rw [hnil, Bool.not_true, Bool.false_and, Bool.or_false]
    split_ifs at h with hmetar hspeci
    · have hfind := findMetarStart_of_startsWith "METAR".toList (by decide) (fun _ => rfl)
        hmetar
      obtain rfl := Option.some.inj h
      rw [known, hfind, Bool.or_true]
      rfl
    · have hfind := findMetarStart_of_startsWith "SPECI".toList (by decide) (fun _ => rfl)
        hspeci
      obtain rfl := Option.some.inj h
      rw [known, hfind, Bool.or_true]
      rfl
    · obtain rfl := Option.some.inj h
      exact isSome_kind s normalized
  · rw [if_neg hnil] at h
    rw [← isSome_kind]
    rcases hsurface : parseSurfaceSaReportRef normalized with _ | parsed
    all_goals rw [hsurface] at h
    · rcases hkind : s.collectiveKind.or
        ((findMetarStart (Str.splitWhitespace normalized)).map Prod.fst) with _ | kind
      · rw [hkind] at h
        obtain rfl := Option.some.inj h
        simp
      · rw [hkind] at h
        obtain ⟨parsed, -, rfl⟩ := Option.map_eq_some_iff.mp h
        cases parsed <;> simp
    · obtain rfl := Option.some.inj h
      simp [hnil]

end

/-- A round of the loop panics exactly if a token of its piece is cut inside a character. -/
theorem push_eq_none_iff (s : BulletinState) (piece : Str) : s.push piece = none ↔
    ∃ token ∈ pieceWindTokens (s.collectiveKind.isSome || setsKind (normalizeMetarSegment piece))
      (normalizeMetarSegment piece), windOnBoundary token = false := by
  have hblank : ∀ known, pieceWindTokens known [] = [] := by decide
  have hmetar : ∀ known, pieceWindTokens known "METAR".toList = [] := by decide
  have hspeci : ∀ known, pieceWindTokens known "SPECI".toList = [] := by decide
  rw [BulletinState.push]
  generalize normalizeMetarSegment piece = normalized
  by_cases h : normalized = []
  · simp [h, hblank]
  rw [if_neg h]
  by_cases h : normalized = "METAR".toList
  · rw [if_pos h, h, hmetar]
    simp
  rw [if_neg h]
  by_cases h : normalized = "SPECI".toList
  · rw [if_pos h, h, hspeci]
    simp
  rw [if_neg h]
  have hmarked := parseMetarReportRef_eq_none_iff normalized
  rw [pieceWindTokens]
  rcases hparsed : parseMetarReportRef normalized with _ | parsed
  · obtain ⟨token, htoken, hcut⟩ := hmarked.mp hparsed
    exact iff_of_true rfl ⟨token, List.mem_append_left _ htoken, hcut⟩
  have hreads := isSome_of_parseMetarReportRef hparsed
  have hsafe : ∀ token ∈ markedWindTokens normalized, windOnBoundary token = true := by
    simpa [hparsed] using hmarked
  cases parsed with
  | some parsed =>
      rw [← hreads]
      simpa using hsafe
  | none =>
      have hbare := pushUnmarked_eq_none_iff s normalized
      rw [Option.bind_eq_bind, Option.bind_some]
      dsimp only
      rw [hbare, setsKind, ← hreads, known]
      cases hsurface : parseSurfaceSaReportRef normalized with
      | some parsed => simpa using hsafe
      | none =>
          simp only [Option.isSome_none, Option.isNone_none, Bool.and_false, Bool.or_false,
            Bool.false_or, Bool.not_false, Bool.and_true, List.mem_append, or_and_right, exists_or]
          rw [or_iff_right (by simpa using hsafe)]
          split_ifs with hcond <;> simp [hcond]

theorem isSome_of_push {s s' : BulletinState} {piece : Str} (h : s.push piece = some s') :
    s'.collectiveKind.isSome =
      (s.collectiveKind.isSome || setsKind (normalizeMetarSegment piece)) := by
  rw [BulletinState.push] at h
  generalize normalizeMetarSegment piece = normalized at h ⊢
  by_cases hblank : normalized = []
  · rw [if_pos hblank] at h
    obtain rfl := Option.some.inj h
    rw [hblank, show setsKind [] = false by decide, Bool.or_false]
  rw [if_neg hblank] at h
  by_cases hmetar : normalized = "METAR".toList
  · rw [if_pos hmetar] at h
    obtain rfl := Option.some.inj h
    rw [hmetar, show setsKind "METAR".toList = true by decide, Bool.or_true]
    rfl
  rw [if_neg hmetar] at h
  by_cases hspeci : normalized = "SPECI".toList
  · rw [if_pos hspeci] at h
    obtain rfl := Option.some.inj h
    rw [hspeci, show setsKind "SPECI".toList = true by decide, Bool.or_true]
    rfl
  rw [if_neg hspeci] at h
  obtain ⟨parsed, hparsed, h⟩ := Option.bind_eq_some_iff.mp h
  have hreads := isSome_of_parseMetarReportRef hparsed
  cases parsed with
  | some parsed =>
      obtain rfl := Option.some.inj h
      rw [setsKind, ← hreads]
      simp
  | none =>
      rw [isSome_of_pushUnmarked s normalized h, known, setsKind, ← hreads]
      simp [Bool.or_assoc]

theorem foldlM_pieces_eq_none_iff (s : BulletinState) (pieces : List Str) :
    pieces.foldlM BulletinState.push s = none ↔
      ∃ token ∈ piecesWindTokens s.collectiveKind.isSome pieces, windOnBoundary token = false := by
  induction pieces generalizing s with
  | nil => simp [piecesWindTokens]
  | cons piece pieces ih =>
      have hpush := push_eq_none_iff s piece
      rw [List.foldlM_cons, piecesWindTokens]
      simp only [List.mem_append, or_and_right, exists_or, ← hpush]
      cases hs : s.push piece with
      | none => simp
      | some s' => simp [ih, isSome_of_push hs]

/-- The parser panics exactly if a token that is looked at as wind is cut inside a character. -/
theorem parseMetarBulletin_eq_none_iff (text : Str) : parseMetarBulletin text = none ↔
    ∃ token ∈ bulletinWindTokens text, windOnBoundary token = false := by
  rw [parseMetarBulletin, Option.map_eq_none_iff]
  exact foldlM_pieces_eq_none_iff ⟨[], [], none⟩ (segments text)

end Parser.Metar
