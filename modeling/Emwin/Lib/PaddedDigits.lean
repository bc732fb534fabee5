/-
# Numbers in a fixed number of digits

A number that is printed with zeros in front has the digits and the length one expects, and is
read back as the number.
-/
import Emwin.Lib.Calendar
import Emwin.Lib.Slices

namespace Str

open Calendar

variable {width n bound : ℕ}

/-- Digits are not other characters. -/
theorem ne_of_isDigit {c d : Char} (hc : c.isDigit = true) (hd : d.isDigit = false) : c ≠ d := by
  rintro rfl
  rw [hc] at hd
  cases hd

/-- What is printed of a number are digits. -/
theorem isDigit_of_mem_padded {c : Char} (h : c ∈ padded width n) : c.isDigit = true := by
  rcases List.mem_append.mp h with h | h
  · obtain ⟨-, rfl⟩ := List.mem_replicate.mp h
    rfl
  · exact Nat.isDigit_of_mem_toDigits (by decide) (by decide) h

/-- What is printed in any base are digits of some base. -/
theorem exists_digitChar_of_mem_toDigits {base n : ℕ} (hbase : 1 < base) {c : Char}
    (h : c ∈ Nat.toDigits base n) : ∃ d, c = Nat.digitChar d := by
  induction n using Nat.strong_induction_on with
  | _ n ih =>
      rw [Nat.toDigits_eq_if hbase] at h
      split at h
      · exact ⟨n, List.mem_singleton.mp h⟩
      · next hn =>
          rcases List.mem_append.mp h with h | h
          · exact ih _ (Nat.div_lt_self (by omega) hbase) h
          · exact ⟨n % base, List.mem_singleton.mp h⟩

/-- A character that is no digit is not printed. -/
theorem notMem_padded {c : Char} (h : c.isDigit = false) : c ∉ padded width n :=
  fun hmem => ne_of_isDigit (isDigit_of_mem_padded hmem) h rfl

theorem padded_ne_nil : padded width n ≠ [] := by
  intro h
  exact Nat.toDigits_ne_nil (List.append_eq_nil_iff.mp h).2

/-- A number that fits is printed in as many digits as asked for. -/
theorem length_padded (hpos : 0 < width) (h : n < 10 ^ width) :
    (padded width n).length = width := by
  have hdigits : (Nat.toDigits 10 n).length ≤ width :=
    (Nat.length_toDigits_le_iff (by decide) hpos).mpr h
  simp only [padded, List.length_append, List.length_replicate]
  omega

theorem byteLen_padded (hpos : 0 < width) (h : n < 10 ^ width) :
    byteLen (padded width n) = width := by
  rw [byteLen_of_ascii (isAscii_of_isDigit fun _ => isDigit_of_mem_padded), length_padded hpos h]

/-- What is printed between two texts is sliced out. -/
theorem slice_padded (front : Str) {i : ℕ} (hi : byteLen front = i) (hpos : 0 < width)
    (h : n < 10 ^ width) (back : Str) :
    slice i (i + width) (front ++ padded width n ++ back) = some (padded width n) := by
  have hslice := slice_append front (padded width n) back
  rwa [hi, byteLen_padded hpos h] at hslice

theorem byteLen_two (h : n < 100) : byteLen (padded 2 n) = 2 :=
  byteLen_padded (by decide) h

/-- Two digits between two texts are sliced out. -/
theorem slice_two (front : Str) {i : ℕ} (hi : byteLen front = i) (h : n < 100) (back : Str) :
    slice i (i + 2) (front ++ padded 2 n ++ back) = some (padded 2 n) :=
  slice_padded front hi (by decide) h back

/-- Zeros in front change no number. -/
theorem digitsValue_replicate (zeros : ℕ) (s : Str) :
    digitsValue (List.replicate zeros '0' ++ s) = digitsValue s := by
  induction zeros with
  | zero => rfl
  | succ zeros ih =>
      rw [List.replicate_succ, List.cons_append]
      show List.foldl _ (0 * 10 + digitValue '0') _ = _
      exact ih

/-- **Round trip.**  The number that was printed is read. -/
theorem digitsValue_padded (width n : ℕ) : digitsValue (padded width n) = n := by
  rw [padded, digitsValue_replicate]
  exact digitsValue_ofNat n

theorem padded_inj {a b : ℕ} : padded width a = padded width b ↔ a = b := by
  refine ⟨fun h => ?_, congrArg _⟩
  have hvalue := congrArg digitsValue h
  rwa [digitsValue_padded, digitsValue_padded] at hvalue

theorem parseUnsigned_padded (h : n ≤ bound) : parseUnsigned bound (padded width n) = some n := by
  rw [parseUnsigned_of_digits padded_ne_nil (fun _ => isDigit_of_mem_padded)
    (by rwa [digitsValue_padded]), digitsValue_padded]

end Str
