/-
# Outlooks

`specialized/spc_outlook.rs` reads the areas of an outlook: a category, and below it thresholds with
the points of their polygons, eight digits a point, with `99999999` between polygons.

`none` is a panic.  The two regular expressions are anchored at the front of a line, where they
match in one way only; which characters belong to words is a parameter.
-/
import Emwin.Lib.Wrapping
import Emwin.Parser.LatLon

namespace Parser.SpcOutlook

open Floats LatLon

variable {F : Type} [FloatArith F]

/-! ## Polygons -/

/-- The token between polygons. -/
def SEPARATOR : Str := "99999999".toList

/-- `format_polygon_wkt`, a copy of that of `body/support.rs`. -/
def formatPolygonWkt (points : List (F × F)) : Str := LatLon.formatPolygonWkt points

/-- The loop of `build_polygon`. -/
def buildPoints : List Str → Option (Option (List (F × F)))
  | [] => some (some [])
  | token :: tokens =>
      andThen ((Str.sliceTo 4 token).map parse) fun lat =>
      andThen ((Str.sliceFrom 4 token).map parse) fun lon =>
      andThen (buildPoints tokens) fun points =>
        some (some ((lat / const 100, -(lon / const 100)) :: points))

/-- `build_polygon`. -/
def buildPolygon (tokens : List Str) : Option (Option (LatLonPolygon F)) :=
  if tokens.length < 3 then some none
  else
    andThen (buildPoints tokens) fun points =>
      let points := match points.head?, points.getLast? with
        | some first, some last => if pointsDiffer first last then points ++ [first] else points
        | _, _ => points
      some (some ⟨points, formatPolygonWkt points⟩)

/-- Whether a token is a point. -/
def isPoint (token : Str) : Bool := decide (Str.byteLen token = 8) && token.all Char.isDigit

/-- The loop of `parse_polygon_tokens`. -/
def polygonsFrom (polygons : List (LatLonPolygon F)) (current : List Str) :
    List Str → Option (List (LatLonPolygon F))
  | [] => (buildPolygon current).map fun polygon => polygons ++ polygon.toList
  | token :: tokens =>
      if token = SEPARATOR then do
        let polygon ← buildPolygon current
        polygonsFrom (polygons ++ polygon.toList) [] tokens
      else if isPoint token then polygonsFrom polygons (current ++ [token]) tokens
      else polygonsFrom polygons current tokens

/-- `parse_polygon_tokens`. -/
def parsePolygonTokens (rawPoints : Str) : Option (List (LatLonPolygon F)) :=
  polygonsFrom [] [] (Str.splitWhitespace rawPoints)

/-! ## Areas -/

/-- An area of an outlook. -/
structure SpcOutlookArea (F : Type) where
  category : Str
  threshold : Str
  polygons : List (LatLonPolygon F)

/-- The group `name` of the regular expression for categories.  White space in front of the name is
skipped as far as it can be, and the name is as short as it can be; where there is nothing but white
space between the dots, the name is one of its spaces. -/
def categoryName (line : Str) : Option Str :=
  ((Str.stripPrefix "...".toList line).bind (Str.stripSuffix "...".toList)).bind fun between =>
    let name := Str.trim between
    if name ≠ [] then if name.all (fun c => c.isUpper || c = ' ') then some name else none
    else if ' ' ∈ between then some [' '] else none

/-- The thresholds that are words. -/
def THRESHOLD_WORDS : List Str :=
  ["TSTM", "MRGL", "SLGT", "ENH", "MDT", "HIGH", "ELEV", "CRIT", "EXTM", "IDRT", "SDRT", "CIG1",
    "CIG2", "CIG3"].map String.toList

/-- A probability in front: digits, a point, and two digits. -/
def probability (line : Str) : Option (Str × Str) :=
  match line.dropWhile Char.isDigit with
  | '.' :: a :: b :: behind =>
      if line.head?.any Char.isDigit && a.isDigit && b.isDigit then
        some (line.takeWhile Char.isDigit ++ ['.', a, b], behind)
      else none
  | _ => none

/-- The group `threshold` of the regular expression for thresholds, and what stands behind it, which
does not go on with a word. -/
def thresholdOf (isWord : Char → Bool) (line : Str) : Option (Str × Str) :=
  let words := THRESHOLD_WORDS.filterMap fun word =>
    (Str.stripPrefix word line).map fun behind => (word, behind)
  ((probability line).toList ++ words).find? fun found => found.2.head?.all fun c => !isWord c

/-- The inner loop of `parse_outlook_areas`: the lines of points behind a threshold, and the lines
that are left. -/
def takePoints (isWord : Char → Bool) : List Str → List Str × List Str
  | [] => ([], [])
  | line :: lines =>
      let peek := Str.trim line
      if peek = "&&".toList then ([], lines)
      else if (thresholdOf isWord peek).isSome ||
        (categoryName peek).isSome then ([], line :: lines)
      else
        let (points, rest) := takePoints isWord lines
        (peek :: points, rest)

/-- The points end within the lines. -/
theorem length_takePoints_le (isWord : Char → Bool) (lines : List Str) :
    (takePoints isWord lines).2.length ≤ lines.length := by
  induction lines with
  | nil => exact Nat.le_refl _
  | cons line lines ih =>
      rw [takePoints]
      dsimp only
      split_ifs
      · exact Nat.le_succ _
      · exact Nat.le_refl _
      · exact ih.trans (Nat.le_succ _)

/-- The outer loop of `parse_outlook_areas`. -/
def areasFrom (isWord : Char → Bool) (category : Option Str) (lines : List Str) :
    Option (List (SpcOutlookArea F)) :=
  match lines with
  | [] => some []
  | first :: lines =>
      let line := Str.trim first
      match categoryName line with
      | some name => areasFrom isWord (some (Str.toAsciiUppercase name)) lines
      | none =>
          if line = "&&".toList then areasFrom isWord category lines
          else
            match category, thresholdOf isWord line with
            | some currentCategory, some (threshold, behind) => do
                let rawPoints := Str.trim behind :: (takePoints isWord lines).1
                let polygons ← parsePolygonTokens (Str.unwords rawPoints)
                let areas ← areasFrom isWord category (takePoints isWord lines).2
                some (⟨currentCategory, Str.toAsciiUppercase threshold, polygons⟩ :: areas)
            | _, _ => areasFrom isWord category lines
termination_by lines.length
decreasing_by
  all_goals first
    | exact Nat.lt_succ_self _
    | exact Nat.lt_succ_of_le (length_takePoints_le isWord _)

/-- `parse_outlook_areas`. -/
def parseOutlookAreas (isWord : Char → Bool) (text : Str) : Option (List (SpcOutlookArea F)) :=
  areasFrom isWord none (Str.lines text)

/-! ## Slices -/

/-- A point is cut between its digits. -/
theorem slices_of_isPoint {token : Str} (h : isPoint token = true) :
    Str.sliceTo 4 token = some (token.take 4) ∧ Str.sliceFrom 4 token = some (token.drop 4) := by
  obtain ⟨hlen, hdigits⟩ := Bool.and_eq_true_iff.mp h
  have hascii := Str.isAscii_of_isDigit (List.all_eq_true.mp hdigits)
  have height : 4 ≤ token.length := by
    rw [← Str.byteLen_of_ascii hascii, of_decide_eq_true hlen]
    decide
  exact ⟨Str.sliceTo_of_ascii hascii height, Str.sliceFrom_of_ascii hascii height⟩

theorem buildPoints_ne_none {tokens : List Str} (h : ∀ token ∈ tokens, isPoint token = true) :
    (buildPoints tokens : Option (Option (List (F × F)))) ≠ none := by
  induction tokens with
  | nil => exact Option.some_ne_none _
  | cons token tokens ih =>
      obtain ⟨htoken, htokens⟩ := List.forall_mem_cons.mp h
      obtain ⟨hto, hfrom⟩ := slices_of_isPoint htoken
      rw [buildPoints, hto, hfrom]
      refine andThen_ne_none (Option.some_ne_none _) fun _ => ?_
      refine andThen_ne_none (Option.some_ne_none _) fun _ => ?_
      exact andThen_ne_none (ih htokens) fun _ => Option.some_ne_none _

theorem buildPolygon_ne_none {tokens : List Str} (h : ∀ token ∈ tokens, isPoint token = true) :
    (buildPolygon tokens : Option (Option (LatLonPolygon F))) ≠ none := by
  unfold buildPolygon
  split_ifs
  · exact nofun
  · exact andThen_ne_none (buildPoints_ne_none h) fun _ => Option.some_ne_none _

/-- Only points are cut, so reading polygons never panics. -/
theorem polygonsFrom_isSome (polygons : List (LatLonPolygon F)) {current : List Str}
    (h : ∀ token ∈ current, isPoint token = true) (tokens : List Str) :
    (polygonsFrom polygons current tokens).isSome := by
  induction tokens generalizing polygons current with
  | nil =>
      rw [polygonsFrom, Option.isSome_map, Option.isSome_iff_ne_none]
      exact buildPolygon_ne_none h
  | cons token tokens ih =>
      rw [polygonsFrom]
      split_ifs with hseparator hpoint
      · obtain ⟨polygon, hpolygon⟩ :=
          Option.ne_none_iff_exists'.mp (buildPolygon_ne_none (F := F) h)
        rw [hpolygon]
        exact ih _ nofun
      · exact ih polygons (List.forall_mem_append.mpr ⟨h, List.forall_mem_singleton.mpr hpoint⟩)
      · exact ih polygons h

theorem parsePolygonTokens_isSome (rawPoints : Str) :
    (parsePolygonTokens rawPoints : Option (List (LatLonPolygon F))).isSome :=
  polygonsFrom_isSome [] (List.forall_mem_nil _) _

/-- **Areas.**  Reading the areas of an outlook never panics, and the polygons of each are those of
some points of the text. -/
theorem exists_areasFrom (isWord : Char → Bool) (category : Option Str) (lines : List Str) :
    ∃ areas : List (SpcOutlookArea F), areasFrom isWord category lines = some areas ∧
      ∀ area ∈ areas, ∃ rawPoints, parsePolygonTokens rawPoints = some area.polygons := by
  induction hlength : lines.length using Nat.strong_induction_on generalizing category lines with
  | _ n ih =>
      cases lines with
      | nil => exact ⟨[], by rw [areasFrom], nofun⟩
      | cons first lines =>
          rw [areasFrom.eq_def]
          have hshorter : lines.length < n := hlength ▸ Nat.lt_succ_self _
          dsimp only
          split
          · exact ih _ hshorter _ _ rfl
          · split_ifs
            · exact ih _ hshorter _ _ rfl
            · split
              · rename_i currentCategory threshold behind _
                -- the points of this area stop somewhere, and the others are behind them
                have hpoints := Option.isSome_iff_exists.mp (parsePolygonTokens_isSome (F := F)
                  (Str.unwords (Str.trim behind :: (takePoints isWord lines).1)))
                obtain ⟨polygons, hpolygons⟩ := hpoints
                obtain ⟨areas, hareas, hmem⟩ := ih _
                  (lt_of_le_of_lt (length_takePoints_le isWord lines) hshorter)
                    (some currentCategory) _ rfl
                refine ⟨⟨currentCategory, Str.toAsciiUppercase threshold, polygons⟩ :: areas, ?_,
                  List.forall_mem_cons.mpr ⟨⟨_, hpolygons⟩, hmem⟩⟩
                rw [hpolygons, hareas]
                rfl
              · exact ih _ hshorter _ _ rfl

/-! ## Thresholds -/

variable {isWord : Char → Bool}

/-- Thresholds: one of the words, or a probability with two digits behind the point. -/
def IsThreshold (threshold : Str) : Prop :=
  threshold ∈ THRESHOLD_WORDS ∨ ∃ digits a b, threshold = digits ++ ['.', a, b] ∧ digits ≠ [] ∧
    (∀ c ∈ digits, c.isDigit = true) ∧ a.isDigit = true ∧ b.isDigit = true

/-- No word begins another. -/
theorem eq_of_prefix_words : ∀ word ∈ THRESHOLD_WORDS, ∀ other ∈ THRESHOLD_WORDS,
    other <+: word ∨ word <+: other → other = word := by
  decide

/-- A word begins with a capital. -/
theorem word_cases {word : Str} (h : word ∈ THRESHOLD_WORDS) :
    ∃ c, word.head? = some c ∧ c.isUpper = true := by
  have hall : ∀ word ∈ THRESHOLD_WORDS, word.head?.any Char.isUpper = true := by decide
  exact (Option.any_eq_true _ _).mp (hall word h)

/-- Of words none of which begins another, the one in front of a text is found. -/
theorem find?_words {words : List Str} {word behind : Str} {p : Str × Str → Bool}
    (hfree : ∀ other ∈ words, other <+: word ∨ word <+: other → other = word)
    (hmem : word ∈ words) (hp : p (word, behind) = true) :
    (words.filterMap fun other =>
      (Str.stripPrefix other (word ++ behind)).map fun behind => (other, behind)).find? p =
        some (word, behind) := by
  induction words with
  | nil => cases hmem
  | cons other words ih =>
      obtain ⟨hother, hrest⟩ := List.forall_mem_cons.mp hfree
      by_cases heq : other = word
      · subst heq
        rw [List.filterMap_cons_some (by rw [Str.stripPrefix_append, Option.map_some]),
          List.find?_cons_of_pos hp]
      · have hnot : ¬ other <+: word ++ behind := by
          intro hfront
          apply heq
          apply hother
          exact List.prefix_or_prefix_of_prefix hfront (List.prefix_append word behind)
        rw [List.filterMap_cons_none (by rw [Str.stripPrefix, if_neg hnot, Option.map_none])]
        exact ih hrest ((List.mem_cons.mp hmem).resolve_left (Ne.symm heq))

/-- A threshold in front of a line is found, if no word goes on behind it. -/
theorem thresholdOf_append {threshold behind : Str} (hthreshold : IsThreshold threshold)
    (hbehind : ∀ c ∈ behind.head?, isWord c = false) :
    thresholdOf isWord (threshold ++ behind) = some (threshold, behind) := by
  have hp : (behind.head?.all fun c => !isWord c) = true := by
    rw [Option.all_eq_true]
    intro c hc
    rw [hbehind c hc]
    rfl
  rcases hthreshold with hword | ⟨digits, a, b, rfl, hne, hdigits, ha, hb⟩
  · obtain ⟨c, hc, hupper⟩ := word_cases hword
    obtain ⟨letters, rfl⟩ : ∃ letters, threshold = c :: letters := List.head?_eq_some_iff.mp hc
    have hdigit : c.isDigit = false := Bool.eq_false_iff.mpr fun h => by
      rw [Str.isUpper_of_isDigit h] at hupper
      cases hupper
    -- a word does not begin with digits
    have hnone : probability (c :: letters ++ behind) = none := by
      rw [probability, List.cons_append, List.dropWhile_cons_of_neg (by simp [hdigit])]
      split
      · next heq =>
          obtain ⟨rfl, -⟩ := List.cons.inj heq
          exact absurd hupper (by decide)
      · rfl
    rw [thresholdOf, hnone]
    exact find?_words (eq_of_prefix_words _ hword) hword hp
  · have hall : ∀ c ∈ digits, Char.isDigit c = true := hdigits
    have hfound : probability (digits ++ ['.', a, b] ++ behind) =
        some (digits ++ ['.', a, b], behind) := by
      rw [probability, List.append_assoc, List.dropWhile_append_of_pos hall,
        List.takeWhile_append_of_pos hall]
      obtain ⟨c, digits', rfl⟩ := List.exists_cons_of_ne_nil hne
      simp [hall, ha, hb]
    rw [thresholdOf, hfound]
    exact List.find?_cons_of_pos hp

/-- A threshold begins with a digit or a letter. -/
theorem IsThreshold.head {threshold : Str} (h : IsThreshold threshold) :
    ∃ c rest, threshold = c :: rest ∧ (c.isDigit = true ∨ c.isUpper = true) := by
  rcases h with hword | ⟨digits, a, b, rfl, hne, hdigits, -, -⟩
  · obtain ⟨c, hc, hupper⟩ := word_cases hword
    obtain ⟨rest, rfl⟩ := List.head?_eq_some_iff.mp hc
    exact ⟨c, rest, rfl, Or.inr hupper⟩
  · obtain ⟨c, digits', rfl⟩ := List.exists_cons_of_ne_nil hne
    exact ⟨c, _, rfl, Or.inl (hdigits c List.mem_cons_self)⟩

theorem toAsciiUppercase_threshold {threshold : Str} (h : IsThreshold threshold) :
    Str.toAsciiUppercase threshold = threshold := by
  rcases h with hword | ⟨digits, a, b, rfl, -, hdigits, ha, hb⟩
  · have hwords : ∀ word ∈ THRESHOLD_WORDS, Str.toAsciiUppercase word = word := by decide
    exact hwords threshold hword
  · have hlow : ∀ c : Char, c.isDigit = true → c.toNat < 97 := by
      intro c hc
      rw [Str.isDigit_iff] at hc
      omega
    refine Str.toAsciiUppercase_eq_self fun c hc => ?_
    rcases List.mem_append.mp hc with hc | hc
    · exact hlow c (hdigits c hc)
    · rcases List.mem_cons.mp hc with rfl | hc
      · decide
      · rcases List.mem_cons.mp hc with rfl | hc
        · exact hlow c ha
        · exact hlow c (List.mem_singleton.mp hc ▸ hb)

/-! ## Lines -/

theorem categoryName_of_noDots {line : Str} (h : ¬ "...".toList <+: line) :
    categoryName line = none := by
  rw [categoryName, Str.stripPrefix, if_neg h]
  rfl

/-- A line that is neither a category nor a threshold. -/
def IsNote (isWord : Char → Bool) (line : Str) : Prop :=
  categoryName (Str.trim line) = none ∧ thresholdOf isWord (Str.trim line) = none

instance (isWord : Char → Bool) (line : Str) : Decidable (IsNote isWord line) :=
  inferInstanceAs (Decidable (_ ∧ _))

/-- A line of digits and white space. -/
def IsRow (row : Str) : Prop := ∀ c ∈ row, c.isDigit = true ∨ Str.isWhitespace c = true

/-- A row is neither a category nor a threshold nor the end of points. -/
theorem IsRow.spec {row : Str} (h : IsRow row) :
    categoryName row = none ∧ row ≠ "&&".toList ∧ thresholdOf isWord row = none := by
  have hdot : '.' ∉ row := fun hmem => absurd (h '.' hmem) (by decide)
  refine ⟨categoryName_of_noDots fun hdots => hdot (hdots.subset List.mem_cons_self), ?_, ?_⟩
  · rintro rfl
    exact absurd (h '&' List.mem_cons_self) (by decide)
  · have hprobability : probability row = none := by
      unfold probability
      split
      · next heq =>
          have hmem : '.' ∈ row.dropWhile Char.isDigit := by
            rw [heq]
            exact List.mem_cons_self
          exact absurd ((List.dropWhile_suffix _).subset hmem) hdot
      · rfl
    have hwords : (THRESHOLD_WORDS.filterMap fun word =>
        (Str.stripPrefix word row).map fun behind => (word, behind)) = [] := by
      rw [List.filterMap_eq_nil_iff]
      intro word hword
      -- a word begins with a letter
      obtain ⟨c, hc, hupper⟩ := word_cases hword
      have hnot : ¬ word <+: row := by
        intro hfront
        rcases h c (hfront.subset (List.mem_of_mem_head? hc)) with hdigit | hspace
        · rw [Str.isUpper_of_isDigit hdigit] at hupper
          cases hupper
        · rw [Str.isWhitespace_of_isAlphanum (Str.isAlphanum_of_isUpper hupper)] at hspace
          cases hspace
      rw [Str.stripPrefix, if_neg hnot, Option.map_none]
    rw [thresholdOf, hprobability, hwords]
    rfl

/-- Rows are taken as points, and the lines behind them as they are. -/
theorem takePoints_append {rows : List Str} (hrows : ∀ row ∈ rows, IsRow row) (lines : List Str) :
    takePoints isWord (rows ++ lines) =
      (rows.map Str.trim ++ (takePoints isWord lines).1, (takePoints isWord lines).2) := by
  induction rows with
  | nil => rfl
  | cons row rows ih =>
      obtain ⟨hrow, hrest⟩ := List.forall_mem_cons.mp hrows
      have htrim : IsRow (Str.trim row) := fun c hc =>
        hrow c ((List.dropWhile_suffix _).subset ((List.rdropWhile_prefix _ _).subset hc))
      obtain ⟨hcategory, hstop, hthreshold⟩ : categoryName (Str.trim row) = none ∧
          Str.trim row ≠ "&&".toList ∧ thresholdOf isWord (Str.trim row) = none := htrim.spec
      rw [List.cons_append, takePoints]
      dsimp only
      rw [if_neg hstop, if_neg (by simp [hcategory, hthreshold]), ih hrest]
      rfl

theorem areasFrom_note {note : Str} (h : IsNote isWord note) (category : Option Str)
    (lines : List Str) :
    (areasFrom isWord category (note :: lines) : Option (List (SpcOutlookArea F))) =
      areasFrom isWord category lines := by
  rw [areasFrom.eq_def]
  dsimp only
  rw [h.1, h.2]
  dsimp only
  split_ifs
  · rfl
  · cases category <;> rfl

theorem areasFrom_notes {notes : List Str} (h : ∀ note ∈ notes, IsNote isWord note)
    (category : Option Str) (lines : List Str) :
    (areasFrom isWord category (notes ++ lines) : Option (List (SpcOutlookArea F))) =
      areasFrom isWord category lines := by
  induction notes with
  | nil => rfl
  | cons note notes ih =>
      obtain ⟨hnote, hrest⟩ := List.forall_mem_cons.mp h
      rw [List.cons_append, areasFrom_note hnote, ih hrest]

end Parser.SpcOutlook
