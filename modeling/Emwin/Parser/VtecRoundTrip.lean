/-
# VTEC codes in prose

A VTEC code is printed between two slashes, its fields between dots.  Every slash of a text is
taken for the beginning of a code, also the one that ends a code; but what follows that one
passes for a code only if it begins with an upper-case letter and a dot.  So codes that stand
in prose which never does are read back as they were printed.

Of the reader of times it is taken as given that it reads years of two digits as the years from
1970 to 2068.
-/
import Emwin.Lib.PaddedDigits
import Emwin.Parser.PartialTimes
import Emwin.Parser.SlashCodes

namespace Parser

open Calendar Chrono

/-! ## Printing -/

/-- The time of a code, as `%y%m%dT%H%MZ`. -/
def codeTime (year month day hour minute : ℕ) : Str :=
  padded 2 year ++ padded 2 month ++ padded 2 day ++
    'T' :: (padded 2 hour ++ padded 2 minute ++ ['Z'])

/-- A time that may be absent. -/
def printCodeTime : Option DateTime → Str
  | none => unspecifiedTime
  | some t => codeTime ((date t).year % 100).toNat (date t).month (date t).day (Chrono.hour t)
      (Chrono.minute t)

/-- What stands between the slashes of a code. -/
def vtecText (width : ℕ) (code : VtecCode) : Str :=
  ['.'].intercalate [[code.status], code.action, code.office, code.phenomena, [code.significance],
    padded width code.etn, printCodeTime code.beginTime ++ '-' :: printCodeTime code.endTime]

/-- A code between its slashes, its number in at least `width` digits. -/
def printVtec (width : ℕ) (code : VtecCode) : Str := '/' :: vtecText width code ++ ['/']

/-- A time that a code can show. -/
def PrintableTime (t : DateTime) : Prop :=
  WholeMinute t ∧ 1971 ≤ (date t).year ∧ (date t).year ≤ 2068

/-- A code that can be printed. -/
structure VtecCode.Printable (code : VtecCode) : Prop where
  status : code.status.isUpper = true
  action : '.' ∉ code.action ∧ '/' ∉ code.action
  office : '.' ∉ code.office ∧ '/' ∉ code.office
  phenomena : '.' ∉ code.phenomena ∧ '/' ∉ code.phenomena
  significance : code.significance.toNat < 128 ∧ code.significance ≠ '.' ∧ code.significance ≠ '/'
  etn : code.etn < 2 ^ 32
  beginTime : ∀ t, code.beginTime = some t → PrintableTime t
  endTime : ∀ t, code.endTime = some t → PrintableTime t

/-- A text that begins like a code behind its slash. -/
def BeginsCode (text : Str) : Prop :=
  ∃ status rest, text = status :: '.' :: rest ∧ status.isUpper = true

/-- The reader of times reads what is printed of the years from 1970 to 2068. -/
def ReadsCodeTimes (parseFromStr : Str → Option DateTime) : Prop :=
  ∀ (year : ℤ) (month day hour minute : ℕ) (t : DateTime), 1970 ≤ year → year ≤ 2068 →
    buildCandidate year month day hour minute = some t →
    parseFromStr (codeTime (year % 100).toNat month day hour minute) = some t

/-! ## Times -/

variable {parseFromStr : Str → Option DateTime} {code : VtecCode}

/-- A printed time has digits and two letters. -/
theorem mem_codeTime {year month day hour minute : ℕ} {c : Char}
    (h : c ∈ codeTime year month day hour minute) : c.isDigit = true ∨ c = 'T' ∨ c = 'Z' := by
  simp only [codeTime, List.mem_append, List.mem_cons, List.not_mem_nil, or_false] at h
  rcases h with ((h | h) | h) | h | (h | h) | h
  · exact Or.inl (Str.isDigit_of_mem_padded h)
  · exact Or.inl (Str.isDigit_of_mem_padded h)
  · exact Or.inl (Str.isDigit_of_mem_padded h)
  · exact Or.inr (Or.inl h)
  · exact Or.inl (Str.isDigit_of_mem_padded h)
  · exact Or.inl (Str.isDigit_of_mem_padded h)
  · exact Or.inr (Or.inr h)

theorem mem_printCodeTime {time : Option DateTime} {c : Char} (h : c ∈ printCodeTime time) :
    c.isDigit = true ∨ c = 'T' ∨ c = 'Z' := by
  cases time with
  | none =>
      have hall : ∀ c ∈ unspecifiedTime, c.isDigit = true ∨ c = 'T' ∨ c = 'Z' := by decide
      exact hall c h
  | some t => exact mem_codeTime h

/-- Other characters do not occur in a printed time. -/
theorem notMem_printCodeTime {time : Option DateTime} {c : Char} (hdigit : c.isDigit = false)
    (hT : c ≠ 'T') (hZ : c ≠ 'Z') : c ∉ printCodeTime time := by
  intro h
  rcases mem_printCodeTime h with hd | h | h
  · rw [hdigit] at hd
    cases hd
  · exact hT h
  · exact hZ h

/-- A number below a hundred is printed in two digits. -/
theorem length_padded_two {n : ℕ} (h : n < 100) : (padded 2 n).length = 2 :=
  Str.length_padded (by decide) h

/-- A printed time has twelve characters. -/
theorem length_codeTime {year month day hour minute : ℕ} (hyear : year < 100) (hmonth : month < 100)
    (hday : day < 100) (hhour : hour < 100) (hminute : minute < 100) :
    (codeTime year month day hour minute).length = 12 := by
  simp only [codeTime, List.length_append, List.length_cons, List.length_nil,
    length_padded_two hyear, length_padded_two hmonth, length_padded_two hday,
    length_padded_two hhour, length_padded_two hminute]

/-- A printed time is none that stands for no time, because its month is one of the twelve. -/
theorem codeTime_ne_unspecifiedTime {year month day hour minute : ℕ} (hyear : year < 100)
    (hmonth : 1 ≤ month ∧ month < 100) : codeTime year month day hour minute ≠ unspecifiedTime := by
  intro h
  have hcut := congrArg (fun s => (s.drop 2).take 2) h
  simp only [codeTime, List.append_assoc] at hcut
  rw [List.drop_left' (length_padded_two hyear),
    List.take_left' (length_padded_two hmonth.2)] at hcut
  have hvalue := congrArg Str.digitsValue hcut
  rw [Str.digitsValue_padded] at hvalue
  have hzero : Str.digitsValue ((unspecifiedTime.drop 2).take 2) = 0 := by decide
  omega

/-- **Times.**  A printed time is read back. -/
theorem parseVtecTimeOrUnspecified_print (hreads : ReadsCodeTimes parseFromStr)
    {time : Option DateTime} (hprintable : ∀ t, time = some t → PrintableTime t) (isBegin : Bool)
    (raw : Str) :
    parseVtecTimeOrUnspecified parseFromStr (printCodeTime time) isBegin raw = .ok time := by
  cases time with
  | none => rfl
  | some t =>
      obtain ⟨hwhole, hlow, hhigh⟩ := hprintable t rfl
      obtain ⟨hm1, hm12, hd1, hd⟩ := (civilFromDays_spec (dayNumber t)).1
      have hday : (date t).day ≤ 31 := hd.trans (daysInMonth_bounds _ _).2
      have hmonth : 1 ≤ (date t).month ∧ (date t).month ≤ 12 := ⟨hm1, hm12⟩
      have hhour := hour_lt t
      have hminute := minute_lt t
      have hrange : InRange t := by
        rw [InRange, MIN_YEAR, MAX_YEAR]
        omega
      have hbuild : buildCandidate (date t).year (date t).month (date t).day (Chrono.hour t)
          (Chrono.minute t) = some t :=
        buildCandidate_eq_some_iff.mpr ⟨hrange, ⟨rfl, rfl, rfl, hwhole⟩, rfl⟩
      have hyear : ((date t).year % 100).toNat < 100 := by omega
      have hascii : Str.IsAscii (printCodeTime (some t)) := by
        intro c hc
        rcases mem_printCodeTime hc with h | rfl | rfl
        · exact Str.isAscii_of_isDigit (s := [c]) (by simpa using h) c (by simp)
        · decide
        · decide
      have hlength : Str.byteLen (printCodeTime (some t)) = 12 := by
        rw [Str.byteLen_of_ascii hascii]
        exact length_codeTime hyear (by omega) (by omega) (by omega) (by omega)
      have hne : printCodeTime (some t) ≠ unspecifiedTime :=
        codeTime_ne_unspecifiedTime hyear ⟨hmonth.1, by omega⟩
      have hparse : parseCodeTime parseFromStr (printCodeTime (some t)) = some t := by
        rw [parseCodeTime, if_neg (not_not.mpr hlength)]
        exact hreads _ _ _ _ _ t (by omega) hhigh hbuild
      rw [parseVtecTimeOrUnspecified, if_neg hne, hparse]
      dsimp only
      rw [if_neg (by omega)]

/-! ## One code -/

/-- No field of a printed code has a dot. -/
theorem vtecFields_dot (h : code.Printable) (width : ℕ) :
    ∀ field ∈ [[code.status], code.action, code.office, code.phenomena, [code.significance],
      padded width code.etn, printCodeTime code.beginTime ++ '-' :: printCodeTime code.endTime],
      '.' ∉ field := by
  have hstatus : '.' ≠ code.status := by
    intro heq
    have := h.status
    rw [← heq] at this
    exact absurd this (by decide)
  have htime : ∀ time : Option DateTime, '.' ∉ printCodeTime time := fun time =>
    notMem_printCodeTime (by decide) (by decide) (by decide)
  have hetn : '.' ∉ padded width code.etn := Str.notMem_padded (by decide)
  intro field hfield
  simp only [List.mem_cons, List.not_mem_nil, or_false] at hfield
  rcases hfield with rfl | rfl | rfl | rfl | rfl | rfl | rfl
  · simpa using hstatus
  · exact h.action.1
  · exact h.office.1
  · exact h.phenomena.1
  · simpa using h.significance.2.1.symm
  · exact hetn
  · simp [htime]

/-- A printed code has slashes at its ends only. -/
theorem slash_notMem_vtecText (h : code.Printable) (width : ℕ) : '/' ∉ vtecText width code := by
  have hstatus : '/' ≠ code.status := by
    intro heq
    have := h.status
    rw [← heq] at this
    exact absurd this (by decide)
  have htime : ∀ time : Option DateTime, '/' ∉ printCodeTime time := fun time =>
    notMem_printCodeTime (by decide) (by decide) (by decide)
  have hetn : '/' ∉ padded width code.etn := Str.notMem_padded (by decide)
  simp only [vtecText, List.intercalate_cons_cons, List.intercalate_singleton, List.mem_append,
    List.mem_cons, List.not_mem_nil, or_false, not_or]
  simp [hstatus, h.action.2, h.office.2, h.phenomena.2, h.significance.2.2.symm, htime, hetn]

/-- The text between two slashes. -/
theorem innerText_slashes (inner : Str) : innerText ('/' :: inner ++ ['/']) = some inner := by
  have hprefix : Str.stripPrefix ['/'] ('/' :: inner ++ ['/']) = some (inner ++ ['/']) := by
    rw [Str.stripPrefix, if_pos ⟨inner ++ ['/'], rfl⟩]
    rfl
  have hsuffix : Str.stripSuffix ['/'] (inner ++ ['/']) = some inner := by
    rw [Str.stripSuffix, if_pos (List.suffix_append _ _)]
    simp
  rw [innerText, hprefix, Option.bind_some, hsuffix]

/-- An ASCII character is a field of one byte. -/
theorem singleChar_of_ascii {c : Char} (h : c.toNat < 128) : singleChar [c] = some c := by
  have hascii : Str.IsAscii [c] := by
    intro d hd
    rw [List.mem_singleton.mp hd]
    exact h
  rw [singleChar, Str.byteLen_of_ascii hascii, List.length_singleton, if_pos rfl]
  rfl

theorem toNat_of_isUpper {c : Char} (h : c.isUpper = true) : c.toNat < 128 := by
  have hrange : 65 ≤ c.toNat ∧ c.toNat ≤ 90 := decide_eq_true_iff.mp h
  omega

/-- **One code.**  A printed code is read back. -/
theorem parseVtecCandidate_print (hreads : ReadsCodeTimes parseFromStr) (h : code.Printable)
    (width : ℕ) : parseVtecCandidate parseFromStr (printVtec width code) = .ok code := by
  have hfields : (innerText (printVtec width code)).map (·.splitOn '.') =
      some [[code.status], code.action, code.office, code.phenomena, [code.significance],
        padded width code.etn,
        printCodeTime code.beginTime ++ '-' :: printCodeTime code.endTime] := by
    rw [printVtec, innerText_slashes, Option.map_some, vtecText,
      List.splitOn_intercalate _ (vtecFields_dot h width) (by simp)]
  have hetn : Str.parseUnsigned (2 ^ 32 - 1) (padded width code.etn) = some code.etn :=
    Str.parseUnsigned_padded (Nat.le_sub_one_of_lt h.etn)
  have htimes : Str.splitOnce '-' (printCodeTime code.beginTime ++
      '-' :: printCodeTime code.endTime) =
        some (printCodeTime code.beginTime, printCodeTime code.endTime) :=
    Str.splitOnce_append (notMem_printCodeTime (by decide) (by decide) (by decide)) _
  rw [parseVtecCandidate, hfields]
  dsimp only
  rw [singleChar_of_ascii (toNat_of_isUpper h.status), singleChar_of_ascii h.significance.1]
  dsimp only
  rw [hetn]
  dsimp only
  rw [htimes]
  dsimp only
  rw [parseVtecTimeOrUnspecified_print hreads h.beginTime,
    parseVtecTimeOrUnspecified_print hreads h.endTime]
  rfl

/-! ## Codes in prose -/

/-- Text without slashes in front has no candidates. -/
theorem scanSlashDelimitedCandidates_skip {predicate : Str → Bool} {a : Str} (h : '/' ∉ a)
    (s : Str) :
    scanSlashDelimitedCandidates predicate (a ++ s) = scanSlashDelimitedCandidates predicate s := by
  induction a with
  | nil => rfl
  | cons c a ih =>
      obtain ⟨hc, ha⟩ : '/' ≠ c ∧ '/' ∉ a := by simpa using h
      rw [List.cons_append, scanSlashDelimitedCandidates, if_neg (Ne.symm hc), List.nil_append,
        ih ha]

/-- What stands between the first two slashes is a candidate if the predicate accepts it. -/
theorem scanSlashDelimitedCandidates_slash {predicate : Str → Bool} {a : Str} (h : '/' ∉ a)
    (s : Str) : scanSlashDelimitedCandidates predicate ('/' :: a ++ '/' :: s) =
      [ '/' :: a ++ ['/'] ].filter predicate ++
        scanSlashDelimitedCandidates predicate ('/' :: s) := by
  have hbetween : betweenSlashes (a ++ '/' :: s) = ['/' :: a ++ ['/']] := by
    rw [betweenSlashes, if_pos (by simp), List.takeWhile_append_of_pos fun c hc =>
      decide_eq_true (ne_of_mem_of_not_mem hc h)]
    simp
  rw [List.cons_append, scanSlashDelimitedCandidates.eq_2, if_pos rfl, hbetween,
    scanSlashDelimitedCandidates_skip h]

/-- A printed code is a candidate. -/
theorem isVtecCandidate_print (h : code.Printable) (width : ℕ) :
    isVtecCandidate (printVtec width code) = true := by
  have hbegin : printVtec width code = '/' :: code.status :: '.' ::
      (['.'].intercalate [code.action, code.office, code.phenomena, [code.significance],
        padded width code.etn,
        printCodeTime code.beginTime ++ '-' :: printCodeTime code.endTime] ++ ['/']) := by
    simp [printVtec, vtecText, List.intercalate_cons_cons]
  rw [hbegin, isVtecCandidate, h.status]
  rfl

/-- Prose that does not begin like a code is no candidate. -/
theorem isVtecCandidate_prose {after : Str} (h : ¬ BeginsCode after) :
    isVtecCandidate ('/' :: after ++ ['/']) = false := by
  match after, h with
  | [], _ => rfl
  | [c], _ =>
      show (c.isUpper && decide ('/' = '.')) = false
      rw [decide_eq_false (by decide), Bool.and_false]
  | c :: dot :: rest, h =>
      show (c.isUpper && decide (dot = '.')) = false
      rw [Bool.and_eq_false_iff, decide_eq_false_iff_not]
      by_contra hboth
      rw [not_or, not_not, Bool.not_eq_false] at hboth
      exact h ⟨c, rest, by rw [hboth.2], hboth.1⟩

/-- A text between codes. -/
def Prose (text : Str) : Prop := '/' ∉ text ∧ ¬ BeginsCode text

/-- The slash that ends a code begins none. -/
theorem scan_between {after : Str} (h : Prose after) (s : Str) :
    scanSlashDelimitedCandidates isVtecCandidate ('/' :: after ++ '/' :: s) =
      scanSlashDelimitedCandidates isVtecCandidate ('/' :: s) := by
  have hrejected : ¬ isVtecCandidate ('/' :: after ++ ['/']) = true := by
    rw [isVtecCandidate_prose h.2]
    exact Bool.false_ne_true
  rw [scanSlashDelimitedCandidates_slash h.1, List.filter_cons_of_neg hrejected, List.filter_nil,
    List.nil_append]

/-- A printed code is found. -/
theorem scan_printVtec (h : code.Printable) (width : ℕ) (s : Str) :
    scanSlashDelimitedCandidates isVtecCandidate (printVtec width code ++ s) =
      printVtec width code :: scanSlashDelimitedCandidates isVtecCandidate ('/' :: s) := by
  have hsplit : printVtec width code ++ s = '/' :: vtecText width code ++ '/' :: s := by
    simp [printVtec]
  have haccepted : isVtecCandidate ('/' :: vtecText width code ++ ['/']) = true :=
    isVtecCandidate_print h width
  rw [hsplit, scanSlashDelimitedCandidates_slash (slash_notMem_vtecText h width),
    List.filter_cons_of_pos haccepted]
  rfl

/-- Some codes with the widths of their numbers, each followed by a text. -/
def printCodes (codes : List (VtecCode × ℕ × Str)) : Str :=
  codes.flatMap fun c => printVtec c.2.1 c.1 ++ c.2.2

/-- Behind the slash that ends a code, the candidates are the codes that follow. -/
theorem scan_printCodes {codes : List (VtecCode × ℕ × Str)}
    (hcodes : ∀ c ∈ codes, c.1.Printable ∧ Prose c.2.2) {after : Str} (hafter : Prose after) :
    scanSlashDelimitedCandidates isVtecCandidate ('/' :: after ++ printCodes codes) =
      codes.map fun c => printVtec c.2.1 c.1 := by
  induction codes generalizing after with
  | nil =>
      have hnothing := scanSlashDelimitedCandidates_append_of_notMem isVtecCandidate ['/'] hafter.1
      rw [printCodes, List.flatMap_nil, List.append_nil]
      exact hnothing.trans rfl
  | cons c codes ih =>
      obtain ⟨⟨hprintable, hbehind⟩, hrest⟩ := List.forall_mem_cons.mp hcodes
      have hsplit : printCodes (c :: codes) =
          printVtec c.2.1 c.1 ++ (c.2.2 ++ printCodes codes) := by
        rw [printCodes, List.flatMap_cons, List.append_assoc, printCodes]
      have hslash : ∀ s, printVtec c.2.1 c.1 ++ s =
          '/' :: (vtecText c.2.1 c.1 ++ ['/'] ++ s) := fun _ => rfl
      rw [hsplit, hslash, scan_between hafter, ← hslash, scan_printVtec hprintable, List.map_cons,
        ← ih hrest hbehind, List.cons_append]

/-- The candidates of prose with codes are the codes. -/
theorem scan_prose {first : Str} (hfirst : '/' ∉ first) {codes : List (VtecCode × ℕ × Str)}
    (hcodes : ∀ c ∈ codes, c.1.Printable ∧ Prose c.2.2) :
    scanSlashDelimitedCandidates isVtecCandidate (first ++ printCodes codes) =
      codes.map fun c => printVtec c.2.1 c.1 := by
  rw [scanSlashDelimitedCandidates_skip hfirst]
  cases codes with
  | nil => rfl
  | cons c codes =>
      obtain ⟨⟨hprintable, hbehind⟩, hrest⟩ := List.forall_mem_cons.mp hcodes
      rw [printCodes, List.flatMap_cons, List.append_assoc, scan_printVtec hprintable,
        List.map_cons, ← scan_printCodes hrest hbehind, printCodes, List.cons_append]

/-- **Round trip.**  Codes printed in prose are read back, in order and without issues. -/
theorem vtec_round_trip (parseFromStr : Str → Option DateTime)
    (hreads : ReadsCodeTimes parseFromStr) (first : Str) (codes : List (VtecCode × ℕ × Str))
    (hfirst : '/' ∉ first) (hcodes : ∀ c ∈ codes, c.1.Printable ∧ Prose c.2.2) :
    parseVtecCodesWithIssues parseFromStr (first ++ printCodes codes) =
      (codes.map Prod.fst, []) := by
  have hparsed : (codes.map fun c => printVtec c.2.1 c.1).map (parseVtecCandidate parseFromStr) =
      codes.map fun c => .ok c.1 := by
    rw [List.map_map]
    refine List.map_congr_left ?_
    intro c hmem
    exact parseVtecCandidate_print hreads (hcodes c hmem).1 c.2.1
  simp only [parseVtecCodesWithIssues, parseCodes, scan_prose hfirst hcodes]
  rw [hparsed, List.filterMap_map, List.filterMap_map]
  refine Prod.ext ?_ ?_
  · exact congrFun List.filterMap_eq_map' codes
  · exact List.filterMap_eq_nil_iff.mpr fun _ _ => rfl

/-! ## A reader of times -/

/-- A reader of times that takes the years below 70 for those from 2000 on. -/
def readCodeTime : Str → Option DateTime
  | [y, y', m, m', d, d', 'T', h, h', n, n', 'Z'] =>
      if [y, y', m, m', d, d', h, h', n, n'].all Char.isDigit then
        let year := Str.digitsValue [y, y']
        buildCandidate (if year < 70 then 2000 + year else 1900 + year) (Str.digitsValue [m, m'])
          (Str.digitsValue [d, d']) (Str.digitsValue [h, h']) (Str.digitsValue [n, n'])
      else none
  | _ => none

/-- Two digits that are printed of a number, and read back. -/
theorem exists_padded_two {n : ℕ} (h : n < 100) : ∃ c c', padded 2 n = [c, c'] ∧
    c.isDigit = true ∧ c'.isDigit = true ∧ Str.digitsValue [c, c'] = n := by
  obtain ⟨c, c', heq⟩ := List.length_eq_two.mp (length_padded_two h)
  have hdigit : ∀ d ∈ [c, c'], d.isDigit = true := heq ▸ fun _ => Str.isDigit_of_mem_padded
  exact ⟨c, c', heq, hdigit c (by simp), hdigit c' (by simp), heq ▸ Str.digitsValue_padded 2 n⟩

/-- It reads what is printed. -/
theorem readsCodeTimes_readCodeTime : ReadsCodeTimes readCodeTime := by
  intro year month day hour minute t hlow hhigh hbuild
  obtain ⟨-, ⟨hday, hhour, hminute, -⟩, hdate⟩ := buildCandidate_eq_some_iff.mp hbuild
  obtain ⟨hm1, hm12, hd1, hd⟩ := (civilFromDays_spec (dayNumber t)).1
  have hcivil : civilFromDays (dayNumber t) = ⟨year, month, day⟩ := hdate
  have hd31 := (daysInMonth_bounds year month).2
  rw [hcivil] at hm12 hd
  dsimp only at hm12 hd
  have hh := hour_lt t
  have hn := minute_lt t
  obtain ⟨y, y', hy, hyd, hyd', hyv⟩ := exists_padded_two (show (year % 100).toNat < 100 by omega)
  obtain ⟨m, m', hm, hmd, hmd', hmv⟩ := exists_padded_two (show month < 100 by omega)
  obtain ⟨d, d', hdd, hdd1, hdd2, hdv⟩ := exists_padded_two (show day < 100 by omega)
  obtain ⟨h, h', hhh, hhd, hhd', hhv⟩ := exists_padded_two (show hour < 100 by omega)
  obtain ⟨n, n', hnn, hnd, hnd', hnv⟩ := exists_padded_two (show minute < 100 by omega)
  have hdigits : [y, y', m, m', d, d', h, h', n, n'].all Char.isDigit = true := by
    simp [hyd, hyd', hmd, hmd', hdd1, hdd2, hhd, hhd', hnd, hnd']
  have hyear : (if (year % 100).toNat < 70 then 2000 + ((year % 100).toNat : ℤ)
      else 1900 + ((year % 100).toNat : ℤ)) = year := by
    split_ifs <;> omega
  rw [codeTime, hy, hm, hdd, hhh, hnn]
  show (if [y, y', m, m', d, d', h, h', n, n'].all Char.isDigit = true then _ else none) = some t
  rw [if_pos hdigits, hyv, hmv, hdv, hhv, hnv, hyear]
  exact hbuild

/-- The code of a tornado warning, printed twice. -/
theorem vtec_round_trip_warning :
    let code : VtecCode := ⟨'O', "NEW".toList, "KDMX".toList, "TO".toList, 'W', 123,
      some (utc (daysFromCivil ⟨2025, 3, 1⟩) 43200), none⟩
    parseVtecCodesWithIssues readCodeTime
        ("At noon ".toList ++ printCodes [(code, 4, " and ".toList), (code, 1, ['\n'])]) =
      ([code, code], []) := by
  intro code
  have hprintable : code.Printable := by
    refine ⟨rfl, by decide, by decide, by decide, by decide, by decide, ?_, ?_⟩
    · rintro _ ⟨⟩
      exact ⟨rfl, by decide, by decide⟩
    · rintro _ ⟨⟩
  have hprose : ∀ c rest, c ≠ '/' → c.isUpper = false → '/' ∉ rest → Prose (c :: rest) := by
    intro c rest hc hupper hrest
    refine ⟨by simp [hc.symm, hrest], ?_⟩
    rintro ⟨status, rest', heq, hstatus⟩
    obtain ⟨rfl, -⟩ := List.cons.inj heq
    rw [hupper] at hstatus
    cases hstatus
  refine vtec_round_trip readCodeTime readsCodeTimes_readCodeTime "At noon ".toList
    [(code, 4, " and ".toList), (code, 1, ['\n'])] (by decide) ?_
  intro c hc
  simp only [List.mem_cons, List.not_mem_nil, or_false] at hc
  rcases hc with rfl | rfl
  · exact ⟨hprintable, hprose ' ' "and ".toList (by decide) rfl (by decide)⟩
  · exact ⟨hprintable, hprose '\n' [] (by decide) rfl (by decide)⟩

end Parser
