/-
# Winds aloft are read back

A group packs a wind and a temperature into its digits: the hundreds of the speed go into the
direction, `9900` is a calm, and a group of six digits is below zero.  The groups of a station
stand for the last levels.  What was printed is read back (`fd_round_trip`), if there is a station:
a bulletin without one is dropped.
-/
import Emwin.Lib.PaddedDigits
import Emwin.Lib.Wrapping
import Emwin.Parser.Fd
import Emwin.Parser.PartialTimes

namespace Parser.Fd

open Calendar Chrono

/-! ## Printed bulletins -/

/-- A wind with its temperature, and whether a temperature below zero is printed without its
sign. -/
structure PrintedGroup where
  directionDegrees : ℕ
  speedKt : ℕ
  temperatureC : Option ℤ
  unsigned : Bool
  deriving DecidableEq, Repr

/-- What can be printed. -/
structure PrintedGroup.InRange (g : PrintedGroup) : Prop where
  direction : 10 ∣ g.directionDegrees ∧ g.directionDegrees ≤ 360
  speed : g.speedKt ≤ 199
  temperature : ∀ t ∈ g.temperatureC, -99 ≤ t ∧ t ≤ 99

instance (g : PrintedGroup) : Decidable g.InRange :=
  decidable_of_iff ((10 ∣ g.directionDegrees ∧ g.directionDegrees ≤ 360) ∧ g.speedKt ≤ 199 ∧
    ∀ t ∈ g.temperatureC, -99 ≤ t ∧ t ≤ 99)
    ⟨fun ⟨direction, speed, temperature⟩ => ⟨direction, speed, temperature⟩,
      fun ⟨direction, speed, temperature⟩ => ⟨direction, speed, temperature⟩⟩

/-- The two numbers of a wind. -/
def PrintedGroup.code (g : PrintedGroup) : ℕ × ℕ :=
  if g.directionDegrees = 0 ∧ g.speedKt = 0 then (99, 0)
  else if g.speedKt < 100 then (g.directionDegrees / 10, g.speedKt)
  else (g.directionDegrees / 10 + 50, g.speedKt - 100)

/-- The sign of a temperature. -/
def PrintedGroup.sign (g : PrintedGroup) (t : ℤ) : Str :=
  if 0 ≤ t then ['+'] else if g.unsigned then [] else ['-']

/-- A group as it is printed. -/
def PrintedGroup.text (g : PrintedGroup) : Str :=
  padded 2 g.code.1 ++ padded 2 g.code.2 ++
    match g.temperatureC with
    | none => []
    | some t => g.sign t ++ padded 2 t.natAbs

/-- What is forecast by a group. -/
def PrintedGroup.forecast (level : ℕ) (g : PrintedGroup) : FdLevelForecast where
  altitudeHundredsFt := level
  windDirectionDegrees := some g.directionDegrees
  windSpeedKt := some g.speedKt
  temperatureC := g.temperatureC

/-- A station with its groups, by level. -/
structure PrintedStation where
  name : Str
  groups : List (ℕ × PrintedGroup)
  deriving DecidableEq, Repr

/-- A station has groups for the last levels. -/
structure PrintedStation.InRange (levels : List ℕ) (s : PrintedStation) : Prop where
  name : Str.IsWord s.name
  nonempty : s.groups ≠ []
  suffix : s.groups.map Prod.fst <:+ levels
  groups : ∀ g ∈ s.groups, g.2.InRange

instance (levels : List ℕ) (s : PrintedStation) : Decidable (s.InRange levels) :=
  decidable_of_iff (Str.IsWord s.name ∧ s.groups ≠ [] ∧ s.groups.map Prod.fst <:+ levels ∧
    ∀ g ∈ s.groups, g.2.InRange)
    ⟨fun ⟨name, nonempty, suffix, groups⟩ => ⟨name, nonempty, suffix, groups⟩,
      fun ⟨name, nonempty, suffix, groups⟩ => ⟨name, nonempty, suffix, groups⟩⟩

/-- The words of a station. -/
def PrintedStation.words (s : PrintedStation) : List Str :=
  s.name :: s.groups.map fun g => g.2.text

/-- What is forecast for a station. -/
def PrintedStation.forecast (routingCode : Option Str) (s : PrintedStation) : FdForecast where
  station := normalizeStation s.name routingCode
  groups := s.groups.map fun g => g.2.forecast g.1

/-- A time as it is printed. -/
def timeText (t : DateTime) : Str :=
  padded 2 (date t).day ++ padded 2 (Chrono.hour t) ++ padded 2 (Chrono.minute t) ++ ['Z']

/-- A line announces a minute of the days around the reference. -/
structure Announces (referenceTime : DateTime) (front : String) (t : DateTime) (line : Str) :
    Prop where
  inRange : Chrono.InRange t
  wholeMinute : WholeMinute t
  near : (numDays (t - referenceTime)).natAbs ≤ 5
  line : ∃ behind, Str.trim line = front.toList ++ behind ∧
    (Str.splitWhitespace behind).head? = some (timeText t)

/-- A text is a bulletin: the lines of its times and its levels, and a line for every station, with
any blank lines between. -/
structure IsPrinted (referenceTime basedOn valid : DateTime) (levels : List ℕ)
    (stations : List PrintedStation) (text : Str) : Prop where
  lines : ∃ basedOnLine validLine levelLine stationLines,
    (Str.lines text).filter (fun line => Str.trim line ≠ []) =
      basedOnLine :: validLine :: levelLine :: stationLines ∧
    Announces referenceTime "DATA BASED ON " basedOn basedOnLine ∧
    Announces referenceTime "VALID " valid validLine ∧
    (∃ behind, Str.trim levelLine = "FT ".toList ++ behind ∧
      Str.splitWhitespace behind = levels.map Str.ofNat) ∧
    List.Forall₂ (fun s line => Str.splitWhitespace line = s.words) stations stationLines

variable {referenceTime basedOn valid : DateTime} {levels : List ℕ} {stations : List PrintedStation}
  {text line : Str} {g : PrintedGroup} {s : PrintedStation}

/-! ## Groups -/

theorem PrintedGroup.InRange.code_lt (h : g.InRange) : g.code.1 < 100 ∧ g.code.2 < 100 := by
  obtain ⟨⟨-, hdirection⟩, hspeed, -⟩ := h
  unfold PrintedGroup.code
  split_ifs <;> dsimp only <;> omega

/-- A group begins with the code of a calm exactly if these are its numbers. -/
theorem startsWith_calm {a b : ℕ} (ha : a < 100) (hb : b < 100) (t : Str) :
    Str.startsWith "9900".toList (padded 2 a ++ padded 2 b ++ t) = decide (a = 99 ∧ b = 0) := by
  have hlen : ∀ n < 100, (padded 2 n).length = 2 := fun n hn => Str.length_padded (by decide) hn
  have hcalm : "9900".toList = padded 2 99 ++ padded 2 0 := by decide
  rw [Str.startsWith, Bool.eq_iff_iff, List.isPrefixOf_iff_prefix, decide_eq_true_iff, hcalm]
  constructor
  · rintro ⟨rest, hrest⟩
    have hlengths : (padded 2 99 ++ padded 2 0).length = (padded 2 a ++ padded 2 b).length := by
      rw [List.length_append, List.length_append, hlen 99 (by decide), hlen 0 (by decide),
        hlen a ha, hlen b hb]
    obtain ⟨hfirst, hsecond⟩ := List.append_inj (List.append_inj hrest hlengths).1
      (by rw [hlen 99 (by decide), hlen a ha])
    exact ⟨(Str.padded_inj.mp hfirst).symm, (Str.padded_inj.mp hsecond).symm⟩
  · rintro ⟨rfl, rfl⟩
    exact ⟨t, rfl⟩

/-- **Winds.**  The two numbers of a wind say its direction and its speed. -/
theorem PrintedGroup.InRange.decodeWind_text (h : g.InRange) :
    decodeWind g.text g.code.1 g.code.2 = (g.directionDegrees, g.speedKt) := by
  obtain ⟨hfirst, hsecond⟩ := h.code_lt
  obtain ⟨⟨hdvd, hdirection⟩, hspeed, -⟩ := h
  have htens : g.directionDegrees / 10 * 10 = g.directionDegrees := Nat.div_mul_cancel hdvd
  rw [decodeWind, PrintedGroup.text, startsWith_calm hfirst hsecond]
  simp only [decide_eq_true_eq]
  by_cases hcalm : g.directionDegrees = 0 ∧ g.speedKt = 0
  · simp [PrintedGroup.code, hcalm]
  by_cases hslow : g.speedKt < 100
  · have hcode : g.code = (g.directionDegrees / 10, g.speedKt) := by
      rw [PrintedGroup.code, if_neg hcalm, if_pos hslow]
    have hnot : ¬ (g.directionDegrees / 10 = 99 ∧ g.speedKt = 0) := by omega
    have hsmall : min g.directionDegrees 65535 = g.directionDegrees := by omega
    simp only [hcode, if_neg hnot, htens, hsmall]
    exact if_neg (by omega)
  · -- fifty tens of degrees more stand for a hundred knots
    have hcode : g.code = (g.directionDegrees / 10 + 50, g.speedKt - 100) := by
      rw [PrintedGroup.code, if_neg hcalm, if_neg hslow]
    have hnot : ¬ (g.directionDegrees / 10 + 50 = 99 ∧ g.speedKt - 100 = 0) := by omega
    have hsmall : min ((g.directionDegrees / 10 + 50) * 10) 65535 = g.directionDegrees + 500 := by
      omega
    simp only [hcode, if_neg hnot, hsmall]
    rw [if_pos (by omega), Nat.add_sub_cancel]
    exact congrArg (Prod.mk _) (by omega)

/-- The characters of a group. -/
theorem PrintedGroup.chars_text :
    ∀ c ∈ g.text, (c.isDigit || decide (c = '+') || decide (c = '-')) = true := by
  intro c hc
  have hdigit : ∀ n, c ∈ padded 2 n →
      (c.isDigit || decide (c = '+') || decide (c = '-')) = true := fun n h => by
    rw [Str.isDigit_of_mem_padded h]
    rfl
  unfold PrintedGroup.text at hc
  rcases List.mem_append.mp hc with hc | hc
  · rcases List.mem_append.mp hc with hc | hc <;> exact hdigit _ hc
  · cases ht : g.temperatureC with
    | none =>
        rw [ht] at hc
        cases hc
    | some t =>
        rw [ht] at hc
        rcases List.mem_append.mp hc with hc | hc
        · unfold PrintedGroup.sign at hc
          split_ifs at hc
          · rw [List.mem_singleton.mp hc]
            rfl
          · cases hc
          · rw [List.mem_singleton.mp hc]
            rfl
        · exact hdigit _ hc

/-- **Temperatures.**  A temperature is read with its sign, or without where it is below zero. -/
theorem PrintedGroup.InRange.decodeTemperature_text (h : g.InRange) {t : ℤ}
    (ht : g.temperatureC = some t) : decodeTemperature g.text = some (some t) := by
  obtain ⟨hfirst, hsecond⟩ := h.code_lt
  have hrange := h.temperature t ht
  have hmagnitude : t.natAbs < 100 := by omega
  have htext : g.text = padded 2 g.code.1 ++ padded 2 g.code.2 ++ g.sign t ++
      padded 2 t.natAbs := by
    rw [PrintedGroup.text, ht, List.append_assoc _ (g.sign t)]
  have hlen : Str.byteLen g.text = 4 + Str.byteLen (g.sign t) + 2 := by
    rw [htext, Str.byteLen_append, Str.byteLen_append, Str.byteLen_append, Str.byteLen_two hfirst,
      Str.byteLen_two hsecond, Str.byteLen_two hmagnitude]
  have hslice : Str.sliceFrom (Str.byteLen g.text - 2) g.text = some (padded 2 t.natAbs) := by
    have hfront : Str.byteLen (padded 2 g.code.1 ++ padded 2 g.code.2 ++ g.sign t) =
        Str.byteLen g.text - 2 := by
      rw [hlen, Str.byteLen_append, Str.byteLen_append, Str.byteLen_two hfirst,
        Str.byteLen_two hsecond, Nat.add_sub_cancel]
    rw [← hfront, htext]
    exact Str.sliceFrom_append _ _
  have hbyte : Str.byteAt 4 g.text = Str.byteAt 0 (g.sign t ++ padded 2 t.natAbs) := by
    have happend := Str.byteAt_append (padded 2 g.code.1 ++ padded 2 g.code.2)
      (g.sign t ++ padded 2 t.natAbs) 0
    rw [Str.byteLen_append, Str.byteLen_two hfirst, Str.byteLen_two hsecond] at happend
    rw [htext, List.append_assoc _ (g.sign t)]
    exact happend
  have hparse : Str.parseSigned (-2 ^ 15) (2 ^ 15 - 1) (padded 2 t.natAbs) =
      some (t.natAbs : ℤ) := by
    have hvalue : Str.digitsValue (padded 2 t.natAbs) = t.natAbs := Str.digitsValue_padded 2 _
    rw [Str.parseSigned_of_digits Str.padded_ne_nil (fun _ => Str.isDigit_of_mem_padded)
      (by rw [hvalue]; omega) (by rw [hvalue]; omega), hvalue]
  rw [decodeTemperature, hslice, Option.map_some, hparse, Option.map_some, hbyte, hlen]
  refine congrArg some (congrArg some ?_)
  -- six bytes are below zero without a sign, and a plus sign makes seven
  by_cases hpos : 0 ≤ t
  · have hplus : Str.byteAt 0 (['+'] ++ padded 2 t.natAbs) = some 43 :=
      Str.byteAt_zero_of_ascii (by decide) _
    rw [PrintedGroup.sign, if_pos hpos, hplus, if_neg (by decide)]
    omega
  · rw [PrintedGroup.sign, if_neg hpos]
    by_cases hunsigned : g.unsigned = true
    · have hsix : 4 + Str.byteLen [] + 2 = 6 := rfl
      rw [if_pos hunsigned, if_pos (Or.inr hsix)]
      omega
    · have hminus : Str.byteAt 0 (['-'] ++ padded 2 t.natAbs) = some 45 :=
        Str.byteAt_zero_of_ascii (by decide) _
      rw [if_neg hunsigned, hminus, if_pos (Or.inl rfl)]
      omega

/-- A group has four bytes, or two or three more for its temperature. -/
theorem PrintedGroup.InRange.byteLen_text (h : g.InRange) :
    Str.byteLen g.text = match g.temperatureC with
      | none => 4
      | some t => 6 + (g.sign t).length := by
  obtain ⟨hfirst, hsecond⟩ := h.code_lt
  rw [PrintedGroup.text, Str.byteLen_append, Str.byteLen_append, Str.byteLen_two hfirst,
    Str.byteLen_two hsecond]
  cases ht : g.temperatureC with
  | none => rfl
  | some t =>
      have hrange := h.temperature t ht
      have hsign : Str.byteLen (g.sign t) = (g.sign t).length := by
        unfold PrintedGroup.sign
        split_ifs <;> rfl
      rw [Str.byteLen_append, hsign, Str.byteLen_two (by omega)]
      dsimp only
      omega

theorem PrintedGroup.length_sign (t : ℤ) : (g.sign t).length ≤ 1 := by
  unfold PrintedGroup.sign
  split_ifs <;> decide

/-- **Groups.**  A printed group is decoded. -/
theorem PrintedGroup.InRange.decodeGroup_text (h : g.InRange) :
    decodeGroup g.text =
      some (some ⟨some g.directionDegrees, some g.speedKt, g.temperatureC⟩) := by
  obtain ⟨hfirst, hsecond⟩ := h.code_lt
  have hlen := h.byteLen_text
  have hmem : Str.byteLen g.text ∈ [4, 6, 7] := by
    rw [hlen]
    cases g.temperatureC with
    | none => simp
    | some t =>
        have hsign := g.length_sign t
        dsimp only
        interval_cases (g.sign t).length <;> decide
  have hparse : ∀ n < 100, Str.parseUnsigned 65535 (padded 2 n) = some n := fun n hn =>
    Str.parseUnsigned_padded (by omega)
  obtain ⟨behind, hbehind⟩ : ∃ behind, g.text = padded 2 g.code.1 ++ padded 2 g.code.2 ++ behind :=
    ⟨_, rfl⟩
  have hdirection : Str.slice 0 2 g.text = some (padded 2 g.code.1) := by
    have hslice := Str.slice_two [] (i := 0) rfl hfirst (padded 2 g.code.2 ++ behind)
    rwa [List.nil_append, ← List.append_assoc, ← hbehind] at hslice
  have hspeed : Str.slice 2 4 g.text = some (padded 2 g.code.2) := by
    rw [hbehind]
    exact Str.slice_two _ (Str.byteLen_two hfirst) hsecond behind
  rw [decodeGroup, if_neg (not_or.mpr ⟨not_not.mpr hmem, by
    rw [List.all_eq_true.mpr g.chars_text]
    decide⟩), hdirection, hspeed, Option.map_some, Option.map_some, hparse _ hfirst,
    hparse _ hsecond]
  simp only [andThen, h.decodeWind_text, hlen]
  cases ht : g.temperatureC with
  | none => rfl
  | some t =>
      dsimp only
      rw [if_pos (by omega), h.decodeTemperature_text ht]
      rfl

/-- **Lines.**  The groups of a station stand for the levels they were printed for. -/
theorem parseGroups_printed {groups : List (ℕ × PrintedGroup)}
    (h : ∀ g ∈ groups, g.2.InRange) :
    parseGroups ((groups.map Prod.fst).zip (groups.map fun g => g.2.text)) =
      some (some (groups.map fun g => g.2.forecast g.1)) := by
  induction groups with
  | nil => rfl
  | cons g groups ih =>
      obtain ⟨hg, hgroups⟩ := List.forall_mem_cons.mp h
      rw [List.map_cons, List.map_cons, List.zip_cons_cons, parseGroups, hg.decodeGroup_text,
        ih hgroups]
      rfl

/-- The line of a station is read back. -/
theorem PrintedStation.InRange.parseFdStationLine_words (h : s.InRange levels)
    (routingCode : Option Str) (hline : Str.splitWhitespace line = s.words) :
    parseFdStationLine levels routingCode line = some (some (s.forecast routingCode)) := by
  obtain ⟨front, hlevels⟩ := h.suffix
  have hcount : 0 < s.groups.length := List.length_pos_iff.mpr h.nonempty
  have hlength : levels.length = front.length + s.groups.length := by
    rw [← hlevels, List.length_append, List.length_map]
  have htake : min (s.groups.map fun g => g.2.text).length levels.length = s.groups.length := by
    rw [List.length_map]
    omega
  -- the groups are aligned with the end of the levels
  have hdrop : levels.drop (levels.length - s.groups.length) = s.groups.map Prod.fst := by
    rw [hlength, Nat.add_sub_cancel, ← hlevels, List.drop_left]
  rw [parseFdStationLine, hline, PrintedStation.words]
  dsimp only
  rw [htake, if_neg (by omega), hdrop, parseGroups_printed h.groups]
  rfl

/-! ## Headers -/

theorem byteLen_timeText {day hour minute : ℕ} (hday : day < 100) (hhour : hour < 100)
    (hminute : minute < 100) :
    Str.byteLen (padded 2 day ++ padded 2 hour ++ padded 2 minute ++ ['Z']) = 7 := by
  rw [Str.byteLen_append, Str.byteLen_append, Str.byteLen_append, Str.byteLen_two hday,
    Str.byteLen_two hhour, Str.byteLen_two hminute]
  rfl

theorem readUnsigned_two (front : Str) {i n : ℕ} (hi : Str.byteLen front = i) (hn : n < 100)
    (back : Str) : readUnsigned i (i + 2) (front ++ padded 2 n ++ back) = some (some n) := by
  rw [readUnsigned, Str.slice_two front hi hn, Option.map_some, Str.parseUnsigned_padded (by omega)]

/-- Reading the fields of a time. -/
theorem parseDdhhmmz_fields {day hour minute : ℕ} (hday : day < 100) (hhour : hour < 100)
    (hminute : minute < 100) :
    parseDdhhmmz referenceTime (padded 2 day ++ padded 2 hour ++ padded 2 minute ++ ['Z']) =
      some ((resolveDayTimeNearest referenceTime day hour minute).filter fun resolved =>
        decide ((numDays (resolved - referenceTime)).natAbs ≤ 5)) := by
  have hlast : (padded 2 day ++ padded 2 hour ++ padded 2 minute ++ ['Z']).getLast? = some 'Z' :=
    List.getLast?_concat
  have hfirst := readUnsigned_two [] (i := 0) rfl hday
    (padded 2 hour ++ padded 2 minute ++ ['Z'])
  have hsecond := readUnsigned_two _ (Str.byteLen_two hday) hhour (padded 2 minute ++ ['Z'])
  have hthird := readUnsigned_two (padded 2 day ++ padded 2 hour) (i := 4)
    (by rw [Str.byteLen_append, Str.byteLen_two hday, Str.byteLen_two hhour]) hminute ['Z']
  simp only [List.nil_append, ← List.append_assoc, Nat.zero_add, Nat.reduceAdd]
    at hfirst hsecond hthird
  rw [parseDdhhmmz, if_neg (by rw [byteLen_timeText hday hhour hminute, hlast]; simp), hfirst,
    hsecond, hthird]
  rfl

/-- A printed time is resolved to the instant it was printed for. -/
theorem Announces.parseDdhhmmz_timeText {front : String} {t : DateTime}
    (h : Announces referenceTime front t line) :
    parseDdhhmmz referenceTime (timeText t) = some (some t) := by
  have hday := (civilFromDays_spec (dayNumber t)).1.2.2.2.trans (daysInMonth_bounds _ _).2
  have hhour := hour_lt t
  have hminute := minute_lt t
  have hnear : |t - referenceTime| < 14 * DAY := by
    have hbelow : ∀ d : ℤ, d.natAbs / 86400000000000 ≤ 5 → |d| < 14 * 86400000000000 := by
      intro d hd
      rw [abs_lt]
      omega
    have hdays := h.near
    rw [numDays, Int.natAbs_tdiv] at hdays
    exact hbelow _ hdays
  rw [timeText,
    parseDdhhmmz_fields (by exact lt_of_le_of_lt hday (by decide)) (by omega) (by omega),
    resolveDayTimeNearest_eq h.inRange h.wholeMinute hnear, Option.filter_some,
    if_pos (decide_eq_true h.near)]

/-- The lines that are not blank are looked at, trimmed. -/
theorem iterNonemptyFdLines_eq (text : Str) : iterNonemptyFdLines text =
    ((Str.lines text).filter fun line => Str.trim line ≠ []).map Str.trim := by
  rw [iterNonemptyFdLines, List.filter_map]
  rfl

/-- **Headers.**  The times and the levels of a bulletin are found in its first lines. -/
theorem parseFdHeader_printed {basedOnLine validLine levelLine behind : Str} {lines : List Str}
    (hbasedOn : Announces referenceTime "DATA BASED ON " basedOn basedOnLine)
    (hvalid : Announces referenceTime "VALID " valid validLine)
    (hlevels : Str.trim levelLine = "FT ".toList ++ behind) :
    parseFdHeader referenceTime none none
        (Str.trim basedOnLine :: Str.trim validLine :: Str.trim levelLine :: lines) =
      some (some ⟨timeText basedOn, timeText valid, Str.trim levelLine, lines⟩) := by
  obtain ⟨based, hbasedLine, hbasedTime⟩ := hbasedOn.line
  obtain ⟨validity, hvalidLine, hvalidTime⟩ := hvalid.line
  have hnotBased : Str.stripPrefix "DATA BASED ON ".toList ("VALID ".toList ++ validity) = none :=
    if_neg (by simp)
  have hneither : Str.stripPrefix "DATA BASED ON ".toList ("FT ".toList ++ behind) = none ∧
      Str.stripPrefix "VALID ".toList ("FT ".toList ++ behind) = none :=
    ⟨if_neg (by simp), if_neg (by simp)⟩
  have hstarts : Str.startsWith "FT ".toList ("FT ".toList ++ behind) = true :=
    List.isPrefixOf_iff_prefix.mpr (List.prefix_append _ _)
  -- one line at a time, and the second is not taken for the first
  rw [parseFdHeader, hbasedLine, Str.stripPrefix_append]
  simp only [hbasedTime, andThen, hbasedOn.parseDdhhmmz_timeText]
  rw [parseFdHeader, hvalidLine, Str.stripPrefix_append, hnotBased]
  simp only [hvalidTime, andThen, hvalid.parseDdhhmmz_timeText]
  rw [parseFdHeader, hlevels, hneither.1, hneither.2]
  simp only [hstarts, if_true]
  rfl

/-- The levels are read back. -/
theorem parseLevels_printed (hbound : ∀ level ∈ levels, level < 2 ^ 32) {behind : Str}
    (hwords : Str.splitWhitespace behind = levels.map Str.ofNat) :
    parseLevels ("FT ".toList ++ behind) = some levels := by
  have hsplit : Str.splitWhitespace ("FT ".toList ++ behind) =
      "FT".toList :: levels.map Str.ofNat := by
    have hcons := Str.splitWhitespace_append_cons (c := ' ') (by decide) "FT".toList behind
    rw [hwords] at hcons
    exact hcons
  have hmapM : (levels.map Str.ofNat).mapM (Str.parseUnsigned (2 ^ 32 - 1)) = some levels := by
    clear hwords hsplit
    induction levels with
    | nil => rfl
    | cons level levels ih =>
        obtain ⟨hlevel, hlevels⟩ := List.forall_mem_cons.mp hbound
        rw [List.map_cons, List.mapM_cons, Str.parseUnsigned_ofNat (by omega), ih hlevels]
        rfl
  rw [parseLevels, hsplit]
  exact (if_pos rfl).trans hmapM

/-- **Stations.**  The lines behind the levels are read back one by one. -/
theorem mapM_parseFdStationLine {lines : List Str} (hrange : ∀ s ∈ stations, s.InRange levels)
    (routingCode : Option Str)
    (hlines : List.Forall₂ (fun s line => Str.splitWhitespace line = s.words) stations lines) :
    (lines.map Str.trim).mapM (parseFdStationLine levels routingCode) =
      some (stations.map fun s => some (s.forecast routingCode)) := by
  induction hlines with
  | nil => rfl
  | @cons s line stations lines hline _ ih =>
      obtain ⟨hs, hstations⟩ := List.forall_mem_cons.mp hrange
      rw [List.map_cons, List.mapM_cons,
        hs.parseFdStationLine_words routingCode (by rw [Str.splitWhitespace_trim, hline]),
          ih hstations]
      rfl

/-- **Round trip.**  A bulletin with a station is read back: its times, its levels, and for every
station the winds and temperatures that were printed, at their levels. -/
theorem fd_round_trip (referenceTime basedOn valid : DateTime) (levels : List ℕ)
    (stations : List PrintedStation) (routingCode : Option Str) (text : Str)
    (hlevels : levels ≠ []) (hbound : ∀ level ∈ levels, level < 2 ^ 32) (hstations : stations ≠ [])
    (hrange : ∀ s ∈ stations, s.InRange levels)
    (hprinted : IsPrinted referenceTime basedOn valid levels stations text) :
    parseFdBulletin text routingCode referenceTime =
      some (some ⟨timeText basedOn, timeText valid, levels,
        stations.map (PrintedStation.forecast routingCode)⟩) := by
  obtain ⟨basedOnLine, validLine, levelLine, stationLines, hlines, hbasedOn, hvalid,
    ⟨behind, hlevelLine, hwords⟩, hstationLines⟩ := hprinted.lines
  -- every station has a group, so none is dropped
  have hkept : ((stations.map fun s => some (s.forecast routingCode)).filterMap id).filter
      (fun forecast => forecast.groups ≠ []) =
        stations.map (PrintedStation.forecast routingCode) := by
    have hall : (stations.map fun s => some (s.forecast routingCode)).filterMap id =
        stations.map (PrintedStation.forecast routingCode) := by
      rw [List.filterMap_map]
      exact congrFun List.filterMap_eq_map stations
    rw [hall, List.filter_eq_self]
    intro forecast hforecast
    obtain ⟨s, hs, rfl⟩ := List.mem_map.mp hforecast
    simpa [PrintedStation.forecast] using (hrange s hs).nonempty
  rw [parseFdBulletin, iterNonemptyFdLines_eq, hlines, List.map_cons, List.map_cons, List.map_cons,
    parseFdHeader_printed hbasedOn hvalid hlevelLine, andThen, hlevelLine,
    parseLevels_printed hbound hwords, Option.filter_some, if_pos (decide_eq_true hlevels), andThen,
    mapM_parseFdStationLine hrange routingCode hstationLines, Option.map_some, hkept]
  simp [hstations]

/-- The night of a bulletin, its times, and two lines that announce them. -/
def sampleReference : DateTime := utc (daysFromCivil ⟨2023, 3, 9⟩) 7140

def sampleBasedOn : DateTime := utc (daysFromCivil ⟨2023, 3, 9⟩) 0

def sampleValid : DateTime := utc (daysFromCivil ⟨2023, 3, 9⟩) 21600

theorem announces_basedOn :
    Announces sampleReference "DATA BASED ON " sampleBasedOn "DATA BASED ON 090000Z".toList :=
  ⟨by decide +kernel, by decide +kernel, by decide +kernel, "090000Z".toList,
    by decide +kernel, by decide +kernel⟩

theorem announces_valid :
    Announces sampleReference "VALID " sampleValid " VALID 090600Z FOR USE 0200-0900Z. ".toList :=
  ⟨by decide +kernel, by decide +kernel, by decide +kernel,
    "090600Z FOR USE 0200-0900Z.".toList, by decide +kernel, by decide +kernel⟩

set_option maxRecDepth 4000 in
/-- A station with all levels and one with the last two: below zero with and without a sign, a calm,
and more than a hundred knots. -/
theorem fd_round_trip_two : (parseFdBulletin
      "DATA BASED ON 090000Z\n VALID 090600Z FOR USE 0200-0900Z. \n\nFT 3000 6000 9000\n\nBFF 1424 2414-08 9900+02\nDEN 790261 3605\n".toList
      (some "FD1US1".toList) sampleReference).map (Option.map FdBulletin.forecasts) =
    some (some [
      ⟨"KBFF".toList, [⟨3000, some 140, some 24, none⟩, ⟨6000, some 240, some 14, some (-8)⟩,
        ⟨9000, some 0, some 0, some 2⟩]⟩,
      ⟨"KDEN".toList, [⟨6000, some 290, some 102, some (-61)⟩,
        ⟨9000, some 360, some 5, none⟩]⟩]) := by
  rw [fd_round_trip sampleReference sampleBasedOn sampleValid [3000, 6000, 9000]
    [⟨"BFF".toList, [(3000, ⟨140, 24, none, false⟩), (6000, ⟨240, 14, some (-8), false⟩),
      (9000, ⟨0, 0, some 2, false⟩)]⟩,
    ⟨"DEN".toList, [(6000, ⟨290, 102, some (-61), true⟩), (9000, ⟨360, 5, none, false⟩)]⟩]
    (some "FD1US1".toList) _ (by decide +kernel) (by decide +kernel) (by decide +kernel) ?_ ?_]
  · decide +kernel
  · decide +kernel
  · exact ⟨_, _, "FT 3000 6000 9000".toList, ["BFF 1424 2414-08 9900+02".toList,
      "DEN 790261 3605".toList], by decide +kernel, announces_basedOn, announces_valid,
      ⟨"3000 6000 9000".toList, by decide +kernel, by decide +kernel⟩, by decide +kernel⟩

/-- Without a station there is no bulletin. -/
theorem no_station_no_bulletin :
    ¬ ∀ (referenceTime basedOn valid : DateTime) (levels : List ℕ) (stations : List PrintedStation)
      (routingCode : Option Str) (text : Str), levels ≠ [] → (∀ level ∈ levels, level < 2 ^ 32) →
      (∀ s ∈ stations, s.InRange levels) →
      IsPrinted referenceTime basedOn valid levels stations text →
      ∃ bulletin, parseFdBulletin text routingCode referenceTime = some (some bulletin) ∧
        bulletin.levels = levels ∧
        bulletin.forecasts = stations.map (PrintedStation.forecast routingCode) := by
  intro h
  obtain ⟨bulletin, hparse, -, -⟩ := h sampleReference sampleBasedOn sampleValid [3000] [] none
    "DATA BASED ON 090000Z\n VALID 090600Z FOR USE 0200-0900Z. \nFT 3000\n".toList (by decide +kernel)
    (by decide +kernel) nofun ⟨_, _, "FT 3000".toList, [], by decide +kernel, announces_basedOn, announces_valid,
      ⟨"3000".toList, by decide +kernel, by decide +kernel⟩, .nil⟩
  have hnone : (parseFdBulletin
      "DATA BASED ON 090000Z\n VALID 090600Z FOR USE 0200-0900Z. \nFT 3000\n".toList none
      sampleReference) = some none := by decide +kernel
  rw [hnone] at hparse
  cases hparse

end Parser.Fd
