/-
# The fields of a coordinate

The parser of storm motions cuts coordinates into fields of fixed lengths, whatever their
characters are, and gives them to the reader of floating-point numbers, which accepts words,
signs and points.  A coordinate is read exactly if all its fields are numbers, and digits make
it finite.
-/
import Emwin.Parser.TimeMotLoc

namespace Parser.TimeMotLoc

open Chrono Floats

/-! ## Fields -/

/-- A coordinate without white space around it and without its sign. -/
def signless (coord : Str) : Str := (Str.trim coord).dropWhile (· = '-')

/-- How long the fields of a coordinate are; a coordinate of another length has none. -/
def fieldLengths (isLat : Bool) (coord : Str) : List ℕ :=
  match Str.byteLen (signless coord) with
  | 4 => [2, 2]
  | 5 => [degreesDigits isLat, 5 - degreesDigits isLat]
  | 6 => [degreesDigits isLat, 6 - degreesDigits isLat]
  | 8 => [degreesDigits isLat, 2, 6 - degreesDigits isLat]
  | _ => []

/-- Fields end between characters, up to the first that is not a number. -/
def FieldsOnBoundaries : List ℕ → Str → Prop
  | [], _ => True
  | n :: lengths, s =>
      match Str.splitAtByte n s with
      | none => False
      | some (field, rest) => (parseF64 field).isSome = true → FieldsOnBoundaries lengths rest

/-- All fields are numbers. -/
def fieldsReadable : List ℕ → Str → Bool
  | [], _ => true
  | n :: lengths, s =>
      match Str.splitAtByte n s with
      | none => false
      | some (field, rest) => (parseF64 field).isSome && fieldsReadable lengths rest

/-- Read the fields. -/
def readFields (F : Type) [FloatArith F] : List ℕ → Str → Option (Option (List F))
  | [], _ => some (some [])
  | n :: lengths, s =>
      match Str.splitAtByte n s with
      | none => none
      | some (field, rest) =>
          andThen (some (parse field)) fun value =>
          andThen (readFields F lengths rest) fun values => some (some (value :: values))

section

variable {F : Type} [FloatArith F]

/-- Reading fields panics exactly if one is cut inside a character. -/
theorem readFields_eq_none_iff (lengths : List ℕ) (s : Str) :
    readFields F lengths s = none ↔ ¬ FieldsOnBoundaries lengths s := by
  induction lengths generalizing s with
  | nil => simp [readFields, FieldsOnBoundaries]
  | cons n lengths ih =>
      rw [readFields, FieldsOnBoundaries]
      cases Str.splitAtByte n s with
      | none => simp
      | some parts =>
          obtain ⟨field, rest⟩ := parts
          dsimp only [parse]
          cases hfield : parseF64 field with
          | none => simp [andThen]
          | some literal =>
              simp only [Option.map_some, andThen, Option.isSome_some, forall_const, ← ih]
              cases readFields F lengths rest with
              | none => simp
              | some values => cases values <;> simp

/-- Fields are read exactly if they are numbers. -/
theorem exists_readFields_iff (lengths : List ℕ) (s : Str) :
    (∃ values, readFields F lengths s = some (some values)) ↔ fieldsReadable lengths s = true := by
  induction lengths generalizing s with
  | nil => simp [readFields, fieldsReadable]
  | cons n lengths ih =>
      rw [readFields, fieldsReadable]
      cases Str.splitAtByte n s with
      | none => simp
      | some parts =>
          obtain ⟨field, rest⟩ := parts
          dsimp only [parse]
          cases hfield : parseF64 field with
          | none => simp [andThen]
          | some literal =>
              simp only [Option.map_some, andThen, Option.isSome_some, Bool.true_and, ← ih]
              cases readFields F lengths rest with
              | none => simp
              | some values => cases values <;> simp

/-- There is a value for each field. -/
theorem length_of_readFields {lengths : List ℕ} {s : Str} {values : List F}
    (h : readFields F lengths s = some (some values)) : values.length = lengths.length := by
  induction lengths generalizing s values with
  | nil =>
      obtain rfl : [] = values := by simpa [readFields] using h
      rfl
  | cons n lengths ih =>
      rw [readFields] at h
      cases hsplit : Str.splitAtByte n s with
      | none => simp [hsplit] at h
      | some parts =>
          obtain ⟨field, rest⟩ := parts
          rw [hsplit] at h
          dsimp only at h
          cases hvalue : (parse field : Option F) with
          | none => simp [hvalue, andThen] at h
          | some value =>
              cases hrest : readFields F lengths rest with
              | none => simp [hvalue, hrest, andThen] at h
              | some found =>
                  cases found with
                  | none => simp [hvalue, hrest, andThen] at h
                  | some found =>
                      obtain rfl : value :: found = values := by
                        simpa [hvalue, hrest, andThen] using h
                      simp [ih hrest]

/-- Going on twice is going on once. -/
theorem andThen_assoc {α β γ : Type} (x : Option (Option α)) (f : α → Option (Option β))
    (g : β → Option (Option γ)) : andThen (andThen x f) g = andThen x fun a => andThen (f a) g := by
  rcases x with _ | _ | a <;> rfl

/-- Read the pieces of a text that begin at an offset. -/
def readPieces (F : Type) [FloatArith F] (start : ℕ) : List ℕ → Str → Option (Option (List F))
  | [], _ => some (some [])
  | n :: lengths, s =>
      andThen (readPiece start (start + n) s) fun value =>
      andThen (readPieces F (start + n) lengths s) fun values => some (some (value :: values))

/-- The pieces behind a prefix are the fields of what follows it. -/
theorem readPieces_append (u s : Str) (lengths : List ℕ) :
    readPieces F (Str.byteLen u) lengths (u ++ s) = readFields F lengths s := by
  induction lengths generalizing u s with
  | nil => rfl
  | cons n lengths ih =>
      rw [readPieces, readFields, readPiece, Str.slice_behind, Str.sliceTo]
      cases hsplit : Str.splitAtByte n s with
      | none => rfl
      | some parts =>
          obtain ⟨field, rest⟩ := parts
          obtain ⟨rfl, rfl⟩ := Str.append_of_splitAtByte hsplit
          rw [← List.append_assoc, ← Str.byteLen_append, ih]
          rfl

/-- Two pieces of a text are its fields. -/
theorem readFields_two (a b : ℕ) (s : Str) (f : F → F → F) :
    (andThen (readPiece 0 a s) fun x => andThen (readPiece a (a + b) s) fun y =>
      some (some (f x y))) =
      andThen (readFields F [a, b] s) fun values =>
        some (some (f (values.getD 0 (const 0)) (values.getD 1 (const 0)))) := by
  rw [← readPieces_append [] s, List.nil_append]
  simp only [readPieces, Str.byteLen_nil, Nat.zero_add, andThen_assoc]
  rfl

/-- Three pieces of a text are its fields. -/
theorem readFields_three (a b c : ℕ) (s : Str) (f : F → F → F → F) :
    (andThen (readPiece 0 a s) fun x => andThen (readPiece a (a + b) s) fun y =>
      andThen (readPiece (a + b) (a + b + c) s) fun z => some (some (f x y z))) =
      andThen (readFields F [a, b, c] s) fun values =>
        some (some (f (values.getD 0 (const 0)) (values.getD 1 (const 0))
          (values.getD 2 (const 0)))) := by
  rw [← readPieces_append [] s, List.nil_append]
  simp only [readPieces, Str.byteLen_nil, Nat.zero_add, andThen_assoc]
  rfl

end

/-- Fields of digits are finite. -/
theorem isFinite_of_readFields {lengths : List ℕ} {s : Str} {values : List Number}
    (h : readFields Number lengths s = some (some values)) (hpos : ∀ n ∈ lengths, 0 < n)
    (hdigits : ∀ c ∈ s, c.isDigit = true) : ∀ value ∈ values, value.IsFinite := by
  induction lengths generalizing s values with
  | nil =>
      obtain rfl : [] = values := by simpa [readFields] using h
      simp
  | cons n lengths ih =>
      rw [readFields] at h
      cases hsplit : Str.splitAtByte n s with
      | none => simp [hsplit] at h
      | some parts =>
          obtain ⟨field, rest⟩ := parts
          obtain ⟨rfl, hn⟩ := Str.append_of_splitAtByte hsplit
          rw [hsplit] at h
          dsimp only at h
          cases hvalue : (parse field : Option Number) with
          | none => simp [hvalue, andThen] at h
          | some value =>
              cases hrest : readFields Number lengths rest with
              | none => simp [hvalue, hrest, andThen] at h
              | some found =>
                  cases found with
                  | none => simp [hvalue, hrest, andThen] at h
                  | some found =>
                      obtain rfl : value :: found = values := by
                        simpa [hvalue, hrest, andThen] using h
                      have hfield : field ≠ [] := by
                        rintro rfl
                        have := hpos n List.mem_cons_self
                        rw [← hn] at this
                        exact absurd this (Nat.lt_irrefl 0)
                      have hhead := Number.isFinite_of_digits hfield
                        (fun c hc => hdigits c (List.mem_append_left _ hc)) hvalue
                      have htail := ih hrest (fun m hm => hpos m (List.mem_cons_of_mem _ hm))
                        fun c hc => hdigits c (List.mem_append_right _ hc)
                      exact List.forall_mem_cons.mpr ⟨hhead, htail⟩

/-! ## Coordinates -/

/-- A coordinate is cut between characters. -/
def CoordinateOnBoundaries (isLat : Bool) (coord : Str) : Prop :=
  FieldsOnBoundaries (fieldLengths isLat coord) (signless coord)

/-- The fields of a coordinate are numbers. -/
def readable (isLat : Bool) (coord : Str) : Bool :=
  decide (fieldLengths isLat coord ≠ []) &&
    fieldsReadable (fieldLengths isLat coord) (signless coord)

/-- A coordinate of digits, behind signs. -/
def isNumeric (coord : Str) : Bool := (signless coord).all Char.isDigit

/-- Fields are not empty. -/
theorem pos_of_mem_fieldLengths {isLat : Bool} {coord : Str} :
    ∀ n ∈ fieldLengths isLat coord, 0 < n := by
  unfold fieldLengths
  cases isLat <;> split <;> simp [degreesDigits]

/-- The value of a coordinate: a longitude is negated. -/
def signed (isLat : Bool) (value : Number) : Number := if isLat then value else -value

/-- The sign keeps a value finite. -/
theorem isFinite_signed {isLat : Bool} {value : Number} (h : value.IsFinite) :
    (signed isLat value).IsFinite := by
  cases isLat
  · exact h.neg
  · exact h

/-- A coordinate of two fields. -/
theorem signed_two (isLat : Bool) (a b : ℕ) (s : Str) (f : Number → Number → Number) :
    (andThen (andThen (readPiece 0 a s) fun x => andThen (readPiece a (a + b) s) fun y =>
      some (some (f x y))) fun value => some (some (signed isLat value))) =
      andThen (readFields Number [a, b] s) fun values =>
        some (some (signed isLat (f (values.getD 0 (const 0)) (values.getD 1 (const 0))))) := by
  rw [readFields_two, andThen_assoc]
  rfl

/-- A coordinate of three fields. -/
theorem signed_three (isLat : Bool) (a b c : ℕ) (s : Str) (f : Number → Number → Number → Number) :
    (andThen (andThen (readPiece 0 a s) fun x => andThen (readPiece a (a + b) s) fun y =>
      andThen (readPiece (a + b) (a + b + c) s) fun z => some (some (f x y z)))
        fun value => some (some (signed isLat value))) =
      andThen (readFields Number [a, b, c] s) fun values =>
        some (some (signed isLat (f (values.getD 0 (const 0)) (values.getD 1 (const 0))
          (values.getD 2 (const 0))))) := by
  rw [readFields_three, andThen_assoc]
  rfl

/-- The number of degrees in the fields of a coordinate of some bytes: hundredths, minutes, or
minutes with hundredths. -/
def combine (n : ℕ) (values : List Number) : Number :=
  match n with
  | 4 | 5 => values.getD 0 (const 0) + values.getD 1 (const 0) / const 100
  | 6 => values.getD 0 (const 0) + values.getD 1 (const 0) / const 60
  | _ => values.getD 0 (const 0) +
      (values.getD 1 (const 0) + values.getD 2 (const 0) / const 100) / const 60

/-- A coordinate has fields if it has four, five, six or eight bytes. -/
theorem fieldLengths_ne_nil_iff {isLat : Bool} {coord : Str} : fieldLengths isLat coord ≠ [] ↔
    Str.byteLen (signless coord) ∈ [4, 5, 6, 8] := by
  unfold fieldLengths
  split <;> simp_all

/-- **Fields.**  A coordinate is made of its fields, if it has any. -/
theorem parseCoordinate_eq_fields (coord : Str) (isLat : Bool) :
    parseCoordinate (F := Number) coord isLat = if fieldLengths isLat coord = [] then some none else
      andThen (readFields Number (fieldLengths isLat coord) (signless coord)) fun values =>
        some (some (signed isLat (combine (Str.byteLen (signless coord)) values))) := by
  unfold parseCoordinate fieldLengths signless
  generalize (Str.trim coord).dropWhile (· = '-') = digits
  dsimp only
  generalize Str.byteLen digits = n
  obtain rfl | rfl | rfl | rfl | hn : n = 4 ∨ n = 5 ∨ n = 6 ∨ n = 8 ∨
      (n ≠ 4 ∧ n ≠ 5 ∧ n ≠ 6 ∧ n ≠ 8) := by omega
  · exact signed_two isLat 2 2 digits fun degrees hundredths => degrees + hundredths / const 100
  · cases isLat
    · exact signed_two false 3 2 digits fun degrees hundredths => degrees + hundredths / const 100
    · exact signed_two true 2 3 digits fun degrees hundredths => degrees + hundredths / const 100
  · cases isLat
    · exact signed_two false 3 3 digits fun degrees minutes => degrees + minutes / const 60
    · exact signed_two true 2 4 digits fun degrees minutes => degrees + minutes / const 60
  · cases isLat
    · exact signed_three false 3 2 3 digits fun degrees wholeMinutes hundredths =>
        degrees + (wholeMinutes + hundredths / const 100) / const 60
    · exact signed_three true 2 2 4 digits fun degrees wholeMinutes hundredths =>
        degrees + (wholeMinutes + hundredths / const 100) / const 60
  · split <;> simp_all [andThen]

/-- A coordinate is finite exactly if all its fields are. -/
theorem isFinite_combine_iff {isLat : Bool} {coord : Str} {values : List Number}
    (hlen : values.length = (fieldLengths isLat coord).length)
    (hne : fieldLengths isLat coord ≠ []) :
    (combine (Str.byteLen (signless coord)) values).IsFinite ↔
      ∀ value ∈ values, value.IsFinite := by
  have hsixty {x : Number} : (x / (const 60 : Number)).IsFinite ↔ x.IsFinite :=
    Number.isFinite_div_const_iff (by decide)
  have hhundred {x : Number} : (x / (const 100 : Number)).IsFinite ↔ x.IsFinite :=
    Number.isFinite_div_const_iff (by decide)
  have hbytes := fieldLengths_ne_nil_iff.mp hne
  have htwo : values.length = 2 → ∃ a b, values = [a, b] := List.length_eq_two.mp
  have hthree : values.length = 3 → ∃ a b c, values = [a, b, c] := List.length_eq_three.mp
  unfold fieldLengths at hlen
  simp only [List.mem_cons, List.not_mem_nil, or_false] at hbytes
  rcases hbytes with hbytes | hbytes | hbytes | hbytes
  all_goals rw [hbytes] at hlen ⊢
  · obtain ⟨a, b, rfl⟩ := htwo hlen
    simp [combine, hhundred, -Number.const_eq]
  · obtain ⟨a, b, rfl⟩ := htwo hlen
    simp [combine, hhundred, -Number.const_eq]
  · obtain ⟨a, b, rfl⟩ := htwo hlen
    simp [combine, hsixty, -Number.const_eq]
  · obtain ⟨a, b, c, rfl⟩ := hthree hlen
    simp [combine, hsixty, hhundred, -Number.const_eq]

/-- Reading a coordinate panics exactly if it is cut inside a character. -/
theorem parseCoordinate_eq_none_iff (coord : Str) (isLat : Bool) :
    parseCoordinate (F := Number) coord isLat = none ↔ ¬ CoordinateOnBoundaries isLat coord := by
  rw [CoordinateOnBoundaries, parseCoordinate_eq_fields, ← readFields_eq_none_iff (F := Number)]
  split
  · next hnil => simp [hnil, readFields]
  · rcases readFields Number (fieldLengths isLat coord) (signless coord) with _ | _ | values <;>
      simp [andThen]

/-- A coordinate is read exactly if its fields are numbers. -/
theorem exists_parseCoordinate_iff (coord : Str) (isLat : Bool) :
    (∃ value, parseCoordinate (F := Number) coord isLat = some (some value)) ↔
      readable isLat coord = true := by
  rw [readable, parseCoordinate_eq_fields, Bool.and_eq_true,
    ← exists_readFields_iff (F := Number)]
  split
  · next hnil => simp [hnil]
  · next hne =>
      rw [decide_eq_true hne]
      rcases readFields Number (fieldLengths isLat coord) (signless coord) with _ | _ | values <;>
        simp [andThen]

example : parseCoordinate (F := Number) "nan53".toList false = some (some .nan) := by decide +kernel

/-- The fields of a coordinate that is read. -/
theorem exists_fields_of_parseCoordinate {coord : Str} {isLat : Bool} {value : Number}
    (h : parseCoordinate coord isLat = some (some value)) :
    ∃ values, fieldLengths isLat coord ≠ [] ∧
      readFields Number (fieldLengths isLat coord) (signless coord) = some (some values) ∧
      value = signed isLat (combine (Str.byteLen (signless coord)) values) := by
  rw [parseCoordinate_eq_fields] at h
  split at h
  · cases h
  · next hne =>
      obtain ⟨values, hvalues, hvalue⟩ := andThen_eq_some_iff.mp h
      exact ⟨values, hne, hvalues, (Option.some.inj (Option.some.inj hvalue)).symm⟩

/-- A coordinate of digits is finite. -/
theorem isFinite_of_parseCoordinate {coord : Str} {isLat : Bool} {value : Number}
    (h : parseCoordinate coord isLat = some (some value)) (hnumeric : isNumeric coord = true) :
    value.IsFinite := by
  obtain ⟨values, hne, hfields, rfl⟩ := exists_fields_of_parseCoordinate h
  refine isFinite_signed ((isFinite_combine_iff (length_of_readFields hfields) hne).mpr ?_)
  exact isFinite_of_readFields hfields pos_of_mem_fieldLengths
    (List.all_eq_true.mp hnumeric)

end Parser.TimeMotLoc
