/-
# Reading floating-point numbers

The texts that a systems language reads as floating-point numbers: decimals with an optional
fraction and exponent, and the words for infinities and for what is not a number, in any case
and with an optional sign.

What is read is exact.  Arithmetic on it is a class, so code that computes with such numbers
can be studied for every way of rounding; `Number` is its instance without rounding.
-/
import Emwin.Lib.Text
import Mathlib.Algebra.Order.Field.Rat
import Mathlib.Algebra.Field.Rat
import Mathlib.Tactic.FieldSimp
import Mathlib.Tactic.Positivity

namespace Floats

/-! ## Literals -/

/-- A number as it is written. -/
inductive FloatLiteral where
  /-- `± digits * 10 ^ exponent`. -/
  | finite (negative : Bool) (digits : ℕ) (exponent : ℤ)
  | infinite (negative : Bool)
  | nan (negative : Bool)
  deriving DecidableEq, Repr

/-- Read an optional sign. -/
def readSign : Str → Bool × Str
  | '+' :: s => (false, s)
  | '-' :: s => (true, s)
  | s => (false, s)

/-- Read the digits in front. -/
def readDigits (s : Str) : Str × Str := (s.takeWhile Char.isDigit, s.dropWhile Char.isDigit)

/-- Read an exponent, up to the end. -/
def readExponent (s : Str) : Option ℤ :=
  match s with
  | [] => some 0
  | c :: s =>
      if c = 'e' ∨ c = 'E' then
        let (negative, digits) := readSign s
        if digits ≠ [] ∧ digits.all Char.isDigit then
          some (if negative then -(Str.digitsValue digits : ℤ) else Str.digitsValue digits)
        else none
      else none

/-- Read digits with an optional fraction and exponent. -/
def readNumber (negative : Bool) (s : Str) : Option FloatLiteral := do
  let (whole, rest) := readDigits s
  let (fraction, rest) := match rest with
    | '.' :: rest => readDigits rest
    | rest => ([], rest)
  if whole = [] ∧ fraction = [] then none
  else
    let exponent ← readExponent rest
    some (.finite negative (Str.digitsValue (whole ++ fraction)) (exponent - fraction.length))

/-- `f64::from_str`. -/
def parseF64 (s : Str) : Option FloatLiteral :=
  let (negative, body) := readSign s
  let word := Str.toAsciiLowercase body
  if word = "inf".toList ∨ word = "infinity".toList then some (.infinite negative)
  else if word = "nan".toList then some (.nan negative)
  else readNumber negative body

example : parseF64 "08853".toList = some (.finite false 8853 0) := by decide
example : parseF64 "-1.5e3".toList = some (.finite true 15 2) := by decide
example : parseF64 "NaN".toList = some (.nan false) := by decide
example : parseF64 "1é".toList = none := by decide

/-- Digits have no case. -/
theorem toLower_of_isDigit {c : Char} (h : c.isDigit = true) : c.toLower = c := by
  unfold Char.toLower
  rw [dif_neg]
  simp only [Char.isDigit, Bool.and_eq_true, decide_eq_true_eq, UInt32.le_iff_toNat_le] at h
  simp only [UInt32.le_iff_toNat_le]
  have h57 : c.val.toNat ≤ 57 := h.2
  intro hupper
  have h65 : 65 ≤ c.val.toNat := hupper.1
  omega

/-- Digits without a sign are read as their number. -/
theorem readNumber_of_digits (negative : Bool) {s : Str} (hne : s ≠ [])
    (h : ∀ c ∈ s, c.isDigit = true) :
    readNumber negative s = some (.finite negative (Str.digitsValue s) 0) := by
  have hall : s.takeWhile Char.isDigit = s := List.takeWhile_eq_self_iff.mpr h
  have hnone : s.dropWhile Char.isDigit = [] := List.dropWhile_eq_nil_iff.mpr h
  simp [readNumber, readDigits, hall, hnone, hne, readExponent]

/-- Digits are read as their number. -/
theorem parseF64_of_digits {s : Str} (hne : s ≠ []) (h : ∀ c ∈ s, c.isDigit = true) :
    parseF64 s = some (.finite false (Str.digitsValue s) 0) := by
  have hsign : readSign s = (false, s) := by
    obtain ⟨c, t, rfl⟩ := List.exists_cons_of_ne_nil hne
    have hc := h c List.mem_cons_self
    unfold readSign
    split
    · next heq =>
        obtain rfl := (List.cons.inj heq).1
        exact absurd hc (by decide)
    · next heq =>
        obtain rfl := (List.cons.inj heq).1
        exact absurd hc (by decide)
    · rfl
  have hword : ∀ (a : Char) (w : Str), a.isDigit = false → Str.toAsciiLowercase s ≠ a :: w := by
    intro a w ha heq
    obtain ⟨c, t, rfl⟩ := List.exists_cons_of_ne_nil hne
    have hc := h c List.mem_cons_self
    obtain rfl : c.toLower = a := (List.cons.inj heq).1
    rw [toLower_of_isDigit hc, hc] at ha
    cases ha
  unfold parseF64
  rw [hsign]
  dsimp only
  have hinf : Str.toAsciiLowercase s ≠ "inf".toList := by
    simpa using hword 'i' ['n', 'f'] (by decide)
  have hinfinity : Str.toAsciiLowercase s ≠ "infinity".toList := by
    simpa using hword 'i' ['n', 'f', 'i', 'n', 'i', 't', 'y'] (by decide)
  have hnan : Str.toAsciiLowercase s ≠ "nan".toList := by
    simpa using hword 'n' ['a', 'n'] (by decide)
  rw [if_neg (not_or.mpr ⟨hinf, hinfinity⟩), if_neg hnan]
  exact readNumber_of_digits false hne h

/-- Digits and points spell no word, and have no sign. -/
theorem parseF64_of_digits_or_point {s : Str} (hne : s ≠ [])
    (hs : ∀ c ∈ s, c.isDigit = true ∨ c = '.') : parseF64 s = readNumber false s := by
  have hsign : readSign s = (false, s) := by
    unfold readSign
    split
    · exact absurd (hs _ List.mem_cons_self) (by decide)
    · exact absurd (hs _ List.mem_cons_self) (by decide)
    · rfl
  have hlower : Str.toAsciiLowercase s = s := by
    refine (List.map_congr_left fun c hc => ?_).trans (List.map_id _)
    rcases hs c hc with hdigit | rfl
    · exact toLower_of_isDigit hdigit
    · decide
  have hword : ∀ word : Str, (∃ c ∈ word, c.isDigit = false ∧ c ≠ '.') → s ≠ word := by
    rintro word ⟨c, hc, hdigit, hpoint⟩ rfl
    rcases hs c hc with h | h
    · rw [hdigit] at h
      cases h
    · exact hpoint h
  unfold parseF64
  rw [hsign]
  dsimp only
  rw [hlower, if_neg (not_or.mpr ⟨hword _ ⟨'i', by decide⟩, hword _ ⟨'i', by decide⟩⟩),
    if_neg (hword _ ⟨'n', by decide⟩)]

/-- **Decimals.**  Digits with a point are read as their number. -/
theorem parseF64_of_decimal {whole fraction : Str} (hne : whole ++ fraction ≠ [])
    (hwhole : ∀ c ∈ whole, c.isDigit = true) (hfraction : ∀ c ∈ fraction, c.isDigit = true) :
    parseF64 (whole ++ '.' :: fraction) =
      some (.finite false (Str.digitsValue (whole ++ fraction)) (-fraction.length)) := by
  have hchars : ∀ c ∈ whole ++ '.' :: fraction, c.isDigit = true ∨ c = '.' := by
    intro c hc
    rcases List.mem_append.mp hc with hc | hc
    · exact Or.inl (hwhole c hc)
    · rcases List.mem_cons.mp hc with rfl | hc
      · exact Or.inr rfl
      · exact Or.inl (hfraction c hc)
  have hpoint : readDigits (whole ++ '.' :: fraction) = (whole, '.' :: fraction) := by
    rw [readDigits, List.takeWhile_append_of_pos hwhole, List.dropWhile_append_of_pos hwhole]
    simp
  have hend : readDigits fraction = (fraction, []) := by
    rw [readDigits, List.takeWhile_eq_self_iff.mpr hfraction,
      List.dropWhile_eq_nil_iff.mpr hfraction]
  rw [parseF64_of_digits_or_point (by simp) hchars, readNumber, hpoint]
  simp only [hend]
  rw [if_neg fun h => hne (by rw [h.1, h.2, List.append_nil])]
  simp [readExponent]

/-! ## Arithmetic -/

/-- Floating-point numbers: literals, the operations, comparisons, and printing with some
digits behind the point. -/
class FloatArith (F : Type*) extends Add F, Sub F, Mul F, Div F, Neg F where
  ofLiteral : FloatLiteral → F
  lt : F → F → Bool
  eq : F → F → Bool
  format : ℕ → F → Str

/-- A constant. -/
def const {F : Type*} [FloatArith F] (n : ℕ) : F := FloatArith.ofLiteral (.finite false n 0)

/-- Read a number. -/
def parse {F : Type*} [FloatArith F] (s : Str) : Option F := (parseF64 s).map FloatArith.ofLiteral

/-- `>=`. -/
def ge {F : Type*} [FloatArith F] (x y : F) : Bool := FloatArith.lt y x || FloatArith.eq x y

/-! ## Numbers without rounding -/

/-- A number that is not rounded.  There is one zero: a zero with a sign is not told from the other,
so a negative zero, which floating-point numbers print as `-0.0000`, is printed as `0.0000`. -/
inductive Number where
  | finite (value : ℚ)
  | infinite (negative : Bool)
  | nan
  deriving DecidableEq, Repr

namespace Number

/-- Whether it is a number, and not infinite. -/
def IsFinite : Number → Prop
  | finite _ => True
  | _ => False

instance : DecidablePred IsFinite := fun x => by cases x <;> unfold IsFinite <;> infer_instance

/-- The value of a literal. -/
def ofLiteral : FloatLiteral → Number
  | .finite negative digits exponent =>
      finite ((if negative then -1 else 1) * digits * (10 : ℚ) ^ exponent)
  | .infinite negative => infinite negative
  | .nan _ => nan

def neg : Number → Number
  | finite x => finite (-x)
  | infinite negative => infinite !negative
  | nan => nan

def add : Number → Number → Number
  | finite x, finite y => finite (x + y)
  | infinite a, infinite b => if a = b then infinite a else nan
  | nan, _ | _, nan => nan
  | infinite a, _ | _, infinite a => infinite a

/-- Whether a number is below zero. -/
def negative : Number → Bool
  | finite x => x < 0
  | infinite negative => negative
  | nan => false

def mul : Number → Number → Number
  | finite x, finite y => finite (x * y)
  | nan, _ | _, nan => nan
  | x, y => if x = finite 0 ∨ y = finite 0 then nan else infinite (x.negative != y.negative)

def div : Number → Number → Number
  | finite x, finite y =>
      if y ≠ 0 then finite (x / y) else if x = 0 then nan else infinite (x < 0)
  | finite _, infinite _ => finite 0
  | infinite a, finite y => infinite (a != decide (y < 0))
  | _, _ => nan

def lt : Number → Number → Bool
  | finite x, finite y => x < y
  | infinite a, infinite b => a && !b
  | infinite a, finite _ => a
  | finite _, infinite b => !b
  | _, _ => false

/-- Print with `n` digits behind the point; halves are rounded to the even neighbour. -/
def formatFinite (n : ℕ) (x : ℚ) : Str :=
  let scaled := (if x < 0 then -x else x) * 10 ^ n
  let below := scaled.floor.toNat
  let above := scaled - below
  let rounded := if 1 / 2 < above ∨ (above = 1 / 2 ∧ below % 2 = 1) then below + 1 else below
  let digits := Str.ofNat rounded
  let padded := List.replicate (n + 1 - digits.length) '0' ++ digits
  (if x < 0 then ['-'] else []) ++ padded.take (padded.length - n) ++
    (if n = 0 then [] else '.' :: padded.drop (padded.length - n))

/-- Print with `n` digits behind the point. -/
def format (n : ℕ) : Number → Str
  | finite x => formatFinite n x
  | infinite negative => if negative then "-inf".toList else "inf".toList
  | nan => "NaN".toList

instance : FloatArith Number where
  add := add
  sub x y := add x (neg y)
  mul := mul
  div := div
  neg := neg
  ofLiteral := ofLiteral
  lt := lt
  eq x y := x = y ∧ x ≠ nan
  format := format

theorem IsFinite.add {x y : Number} (hx : x.IsFinite) (hy : y.IsFinite) : (x + y).IsFinite := by
  cases x with
  | finite => cases y with
    | finite => trivial
    | infinite | nan => cases hy
  | infinite | nan => cases hx

theorem IsFinite.neg {x : Number} (hx : x.IsFinite) : (-x).IsFinite := by
  cases x with
  | finite => trivial
  | infinite | nan => cases hx

theorem isFinite_iff {x : Number} : x.IsFinite ↔ ∃ q, x = finite q := by
  cases x with
  | finite q => exact iff_of_true trivial ⟨q, rfl⟩
  | infinite | nan => exact iff_of_false id (by rintro ⟨_, ⟨⟩⟩)

/-- Sums are finite only if both numbers are. -/
@[simp] theorem isFinite_add_iff {x y : Number} :
    (x + y).IsFinite ↔ x.IsFinite ∧ y.IsFinite := by
  refine ⟨fun h => ?_, fun h => h.1.add h.2⟩
  change (add x y).IsFinite at h
  cases x with
  | finite x => cases y with
    | finite y => exact ⟨trivial, trivial⟩
    | infinite | nan => exact h.elim
  | infinite a => cases y with
    | infinite b =>
        rw [add] at h
        split at h <;> exact h.elim
    | finite | nan => exact h.elim
  | nan => cases y <;> exact h.elim

@[simp] theorem isFinite_neg_iff {x : Number} : (-x).IsFinite ↔ x.IsFinite := by
  cases x <;> exact Iff.rfl

@[simp] theorem const_eq (n : ℕ) : (const n : Number) = finite n := by
  show ofLiteral (.finite false n 0) = _
  simp [ofLiteral]

/-- Dividing a finite number by a constant other than zero. -/
theorem finite_div_const (x : ℚ) {n : ℕ} (hn : n ≠ 0) :
    (finite x / const n : Number) = finite (x / n) := by
  rw [const_eq]
  show div (finite x) (finite n) = _
  rw [div, if_pos (by exact_mod_cast hn)]

/-- Digits are read as their number. -/
theorem parse_of_digits {s : Str} (hne : s ≠ []) (h : ∀ c ∈ s, c.isDigit = true) :
    (parse s : Option Number) = some (finite (Str.digitsValue s)) := by
  rw [parse, parseF64_of_digits hne h]
  exact congrArg some (const_eq _)

theorem parse_of_decimal {whole fraction : Str} (hne : whole ++ fraction ≠ [])
    (hwhole : ∀ c ∈ whole, c.isDigit = true) (hfraction : ∀ c ∈ fraction, c.isDigit = true) :
    (parse (whole ++ '.' :: fraction) : Option Number) =
      some (finite (Str.digitsValue (whole ++ fraction) / 10 ^ fraction.length)) := by
  rw [parse, parseF64_of_decimal hne hwhole hfraction]
  show some (ofLiteral _) = _
  rw [ofLiteral, if_neg (by decide), one_mul, zpow_neg, zpow_natCast, div_eq_mul_inv]

/-- Dividing by a constant other than zero. -/
theorem IsFinite.div_const {x : Number} (hx : x.IsFinite) {n : ℕ} (hn : n ≠ 0) :
    (x / (const n : Number)).IsFinite := by
  obtain ⟨x, rfl⟩ : ∃ q, x = finite q := by
    cases x with
    | finite q => exact ⟨q, rfl⟩
    | infinite | nan => cases hx
  rw [finite_div_const x hn]
  trivial

theorem isFinite_div_const_iff {x : Number} {n : ℕ} (hn : n ≠ 0) :
    (x / (const n : Number)).IsFinite ↔ x.IsFinite := by
  refine ⟨fun h => ?_, fun h => h.div_const hn⟩
  rw [const_eq] at h
  change (div x (finite n)).IsFinite at h
  cases x with
  | finite => trivial
  | infinite | nan => exact h

/-- Digits are read as a finite number. -/
theorem isFinite_of_digits {s : Str} {x : Number} (hne : s ≠ []) (h : ∀ c ∈ s, c.isDigit = true)
    (hx : parse s = some x) : x.IsFinite := by
  rw [parse_of_digits hne h, Option.some.injEq] at hx
  rw [← hx]
  trivial

theorem ge_finite {x y : ℚ} (h : y ≤ x) : ge (finite x) (finite y) = true := by
  rcases h.lt_or_eq with hlt | rfl
  · show (decide (y < x) || _) = true
    rw [decide_eq_true hlt, Bool.true_or]
  · show (_ || decide (finite y = finite y ∧ finite y ≠ nan)) = true
    simp

/-! Finite numbers are computed with as rational numbers are. -/

@[simp] theorem finite_add (x y : ℚ) : (finite x + finite y : Number) = finite (x + y) := rfl

@[simp] theorem finite_sub (x y : ℚ) : (finite x - finite y : Number) = finite (x - y) :=
  congrArg finite (sub_eq_add_neg x y).symm

@[simp] theorem finite_neg (x : ℚ) : (-finite x : Number) = finite (-x) := rfl

@[simp] theorem finite_mul (x y : ℚ) : (finite x * finite y : Number) = finite (x * y) := rfl

theorem finite_div (x : ℚ) {y : ℚ} (hy : y ≠ 0) : (finite x / finite y : Number) = finite (x / y) :=
  if_pos hy

@[simp] theorem lt_finite (x y : ℚ) : FloatArith.lt (finite x) (finite y) = decide (x < y) := rfl

@[simp] theorem eq_finite (x y : ℚ) : FloatArith.eq (finite x) (finite y) = decide (x = y) := by
  show decide (finite x = finite y ∧ finite x ≠ nan) = _
  simp

@[simp] theorem ge_finite_eq (x y : ℚ) : ge (finite x) (finite y) = decide (y ≤ x) := by
  rw [ge, lt_finite, eq_finite, ← Bool.decide_or, decide_eq_decide, le_iff_lt_or_eq, eq_comm]

end Number

/-! ## Rounding -/

/-- What rounding to the nearest number keeps of the order; whole numbers are of 64 bits. -/
structure Rounding (F : Type*) [FloatArith F] : Prop where
  ofLiteral_ge : ∀ (a b : FloatLiteral) (x y : ℚ), Number.ofLiteral a = .finite x →
    Number.ofLiteral b = .finite y → y ≤ x →
      ge (FloatArith.ofLiteral a : F) (FloatArith.ofLiteral b) = true
  quotient_nonneg : ∀ a b : ℕ, a < 2 ^ 64 → 0 < b → b < 2 ^ 64 →
    ge (const a / const b : F) (const 0) = true
  quotient_le_one : ∀ a b : ℕ, 0 < b → b < 2 ^ 64 → a ≤ b →
    ge (const 1 : F) (const a / const b) = true

/-- Without rounding all of the order is kept. -/
theorem Number.rounding : Rounding Number where
  ofLiteral_ge a b x y ha hb hle := by
    show ge (Number.ofLiteral a) (Number.ofLiteral b) = true
    rw [ha, hb]
    exact ge_finite hle
  quotient_nonneg a b _ hb _ := by
    have hq : (const a / const b : Number) = finite (a / b) := by
      rw [const_eq, const_eq]
      show div (finite a) (finite b) = _
      rw [div, if_pos (by exact_mod_cast hb.ne')]
    rw [hq, const_eq]
    exact ge_finite (by positivity)
  quotient_le_one a b hb _ hab := by
    have hq : (const a / const b : Number) = finite (a / b) := by
      rw [const_eq, const_eq]
      show div (finite a) (finite b) = _
      rw [div, if_pos (by exact_mod_cast hb.ne')]
    rw [hq, const_eq]
    refine ge_finite ?_
    have hbq : (0 : ℚ) < b := by exact_mod_cast hb
    rw [div_le_iff₀ hbq]
    simpa using hab

/-! ## Numbers that equal themselves -/

/-- No text is no number. -/
theorem parseF64_nil : parseF64 [] = none := by decide

/-- What is read after a sign is finite. -/
theorem exists_of_readNumber {negative : Bool} {s : Str} {literal : FloatLiteral}
    (h : readNumber negative s = some literal) :
    ∃ digits exponent, literal = .finite negative digits exponent := by
  unfold readNumber at h
  simp only [Option.bind_eq_bind] at h
  generalize (match (readDigits s).2 with
    | '.' :: rest => readDigits rest
    | rest => ([], rest)) = fraction at h
  split_ifs at h
  obtain ⟨exponent, -, hliteral⟩ := Option.bind_eq_some_iff.mp h
  exact ⟨_, _, (Option.some.inj hliteral).symm⟩

/-- Digits and signs spell no word. -/
theorem parseF64_of_digits_or_minus {s : Str} (hs : ∀ c ∈ s, c.isDigit = true ∨ c = '-') :
    parseF64 s = readNumber (readSign s).1 (readSign s).2 := by
  have hbody : ∀ c ∈ (readSign s).2, c.isDigit = true ∨ c = '-' := by
    intro c hc
    refine hs c ?_
    unfold readSign at hc
    split at hc
    · exact List.mem_cons_of_mem _ hc
    · exact List.mem_cons_of_mem _ hc
    · exact hc
  have hlower : Str.toAsciiLowercase (readSign s).2 = (readSign s).2 := by
    refine (List.map_congr_left fun c hc => ?_).trans (List.map_id _)
    rcases hbody c hc with hdigit | rfl
    · exact toLower_of_isDigit hdigit
    · decide
  have hword : ∀ word : Str, (∃ c ∈ word, c.isDigit = false ∧ c ≠ '-') → (readSign s).2 ≠ word := by
    rintro word ⟨c, hc, hdigit, hminus⟩ rfl
    rcases hbody c hc with h | h
    · rw [hdigit] at h
      cases h
    · exact hminus h
  unfold parseF64
  dsimp only
  rw [hlower, if_neg (not_or.mpr ⟨hword _ ⟨'i', by decide⟩, hword _ ⟨'i', by decide⟩⟩),
    if_neg (hword _ ⟨'n', by decide⟩)]

/-- Digits and signs are read as finite numbers. -/
theorem exists_of_parseF64 {s : Str} {literal : FloatLiteral}
    (hs : ∀ c ∈ s, c.isDigit = true ∨ c = '-') (h : parseF64 s = some literal) :
    ∃ negative digits exponent, literal = .finite negative digits exponent := by
  rw [parseF64_of_digits_or_minus hs] at h
  exact ⟨_, exists_of_readNumber h⟩

/-- Numbers that are not below zero, as far as they are computed from digits: they equal
themselves, and so do they with a sign. -/
structure SelfEqual (F : Type*) [FloatArith F] (NonNeg : F → Prop) : Prop where
  ofLiteral : ∀ digits exponent, NonNeg (FloatArith.ofLiteral (.finite false digits exponent))
  add : ∀ x y, NonNeg x → NonNeg y → NonNeg (x + y)
  div_const : ∀ x n, NonNeg x → 0 < n → n < 2 ^ 64 → NonNeg (x / const n)
  eq_self : ∀ x, NonNeg x → FloatArith.eq x x = true
  eq_neg : ∀ x, NonNeg x → FloatArith.eq (-x) (-x) = true
  eq_literal : ∀ negative digits exponent,
    FloatArith.eq (FloatArith.ofLiteral (.finite negative digits exponent) : F)
      (FloatArith.ofLiteral (.finite negative digits exponent)) = true

/-- Numbers without rounding equal themselves. -/
theorem Number.selfEqual : SelfEqual Number Number.IsFinite where
  ofLiteral _ _ := trivial
  add _ _ := IsFinite.add
  div_const _ _ hx hn _ := hx.div_const hn.ne'
  eq_self x hx := by
    cases x with
    | finite x => exact decide_eq_true ⟨rfl, Number.noConfusion⟩
    | infinite | nan => cases hx
  eq_neg x hx := by
    cases x with
    | finite x => exact decide_eq_true ⟨rfl, Number.noConfusion⟩
    | infinite | nan => cases hx
  eq_literal _ _ _ := decide_eq_true ⟨rfl, Number.noConfusion⟩

end Floats
