/-
# The file assembler

`QbtFileAssembler` of `file/assembler.rs`: segments are collected under a key made
of the filename and the timestamp, and a file is emitted when the number of
collected blocks equals the total announced by the latest segment.  Entries that
are stale or too many are evicted; recently completed keys are remembered and
their segments ignored.

`by_key` is an unordered map, so the entry that `min_by_key` picks among equally
old ones depends on an iteration order, which every push takes as an argument.
Time is in nanoseconds; `toLowercase` is the standard library's Unicode lower case
and stays arbitrary.

What holds of every run is that the parts of an entry are segments pushed earlier
under its key (`exec_stored`).  A completing push compares a count only: the
emitted file is intact when the parts also announced the same total.
-/
import Emwin.Lib.Maps
import Emwin.Lib.StepLoop
import Emwin.Qbt.Model
import Mathlib.Data.Finset.Basic
import Mathlib.Data.List.MinMax

namespace Qbt

open StepLoop

/-- Completed file emitted by the assembler. -/
structure QbtCompletedFile where
  filename : Str
  data : List UInt8
  timestampUtc : ℤ
  deriving DecidableEq, Repr

/-- Inflight file being assembled from segments. -/
structure InflightFile where
  totalBlocks : UInt32
  parts : OrderedMap ℕ QbtSegment
  lastSeen : ℕ

/-- File assembler that tracks in-flight products until all blocks arrive. -/
structure QbtFileAssembler where
  byKey : AList fun _ : Str => InflightFile
  completedRecent : List Str
  completedIndex : Finset Str
  duplicateCacheSize : ℕ
  maxInflightFiles : ℕ
  inflightTtl : ℕ

namespace QbtFileAssembler

/-- Creates an assembler with explicit duplicate, capacity, and TTL limits. -/
def withLimits (duplicateCacheSize maxInflightFiles inflightTtl : ℕ) : QbtFileAssembler where
  byKey := ∅
  completedRecent := []
  completedIndex := ∅
  duplicateCacheSize := max duplicateCacheSize 1
  maxInflightFiles := max maxInflightFiles 1
  inflightTtl := max inflightTtl 1000000

/-- Creates an assembler with the default limits: 256 files, 90 seconds. -/
def new (duplicateCacheSize : ℕ) : QbtFileAssembler :=
  withLimits duplicateCacheSize 256 (90 * 1000000000)

/-! ## Eviction and duplicate suppression -/

/-- Forgets the oldest completed keys beyond the cache size. -/
def forgetCompleted (size : ℕ) : List Str → Finset Str → List Str × Finset Str
  | [], index => ([], index)
  | old :: recent, index =>
      if size < (old :: recent).length then forgetCompleted size recent (index.erase old)
      else (old :: recent, index)

/-- Remembers a completed file key for duplicate suppression. -/
def rememberCompleted (asm : QbtFileAssembler) (key : Str) : QbtFileAssembler :=
  if key ∈ asm.completedIndex then asm
  else
    let r := forgetCompleted asm.duplicateCacheSize (asm.completedRecent ++ [key])
      (insert key asm.completedIndex)
    { asm with completedRecent := r.1, completedIndex := r.2 }

/-- Whether an entry is within its TTL; time differences saturate at zero. -/
def isLive (asm : QbtFileAssembler) (now : ℕ) (inflight : InflightFile) : Bool :=
  now - inflight.lastSeen ≤ asm.inflightTtl

/-- Evicts inflight entries that have exceeded the TTL. -/
def evictStaleInflight (asm : QbtFileAssembler) (now : ℕ) : QbtFileAssembler :=
  { asm with byKey := asm.byKey.retain fun _ inflight => asm.isLive now inflight }

/-- One pass of the loop that evicts the oldest entry. -/
def evictPass (order : IterationOrder (Σ _ : Str, InflightFile)) (minCapacity : ℕ)
    (m : AList fun _ : Str => InflightFile) : Pass (AList fun _ : Str => InflightFile) Empty :=
  if minCapacity ≤ m.entries.length then
    match (order.run m.entries).argmin fun e => e.2.lastSeen with
    | none => ⟨[], m, false⟩
    | some oldest => ⟨[], m.erase oldest.1, true⟩
  else ⟨[], m, false⟩

/-- The eviction loop; every eviction shortens the map. -/
def evictLoop (order : IterationOrder (Σ _ : Str, InflightFile)) (minCapacity : ℕ) :
    Ranked (AList fun _ : Str => InflightFile) Empty where
  body := evictPass order minCapacity
  rank m := m.entries.length
  rank_lt m h := by
    unfold evictPass at h ⊢
    split_ifs at h ⊢
    cases hmin : (order.run m.entries).argmin fun e => e.2.lastSeen with
    | none => rw [hmin] at h; cases h
    | some oldest =>
        have hmem : oldest ∈ m.entries := (order.perm _).mem_iff.mp (List.argmin_mem hmin)
        exact AList.length_erase_lt (List.mem_map_of_mem hmem)

/-- Evicts the oldest inflight entries to make room for new ones. -/
def evictOverflowInflight (asm : QbtFileAssembler)
    (order : IterationOrder (Σ _ : Str, InflightFile)) (minCapacity : ℕ) : QbtFileAssembler :=
  { asm with byKey := ((evictLoop order minCapacity).drain asm.byKey).2 }

/-! ## Pushing a segment -/

section Push

variable (toLowercase : Str → Str)

/-- Seconds and nanoseconds since the epoch; earlier times count as the epoch. -/
def timestampText (timestamp : ℤ) : Str :=
  if 0 ≤ timestamp then
    Str.ofNat (timestamp.toNat / 1000000000) ++
      '.' :: (Str.ofNat (timestamp.toNat % 1000000000)).leftpad 9 '0'
  else "0.000000000".toList

/-- Generates the duplicate-suppression key for a segment. -/
def fileKey (segment : QbtSegment) : Str :=
  toLowercase segment.filename ++ '_' :: timestampText segment.timestampUtc

/-- Whether a segment is dropped before it reaches the collected blocks. -/
def ignores (asm : QbtFileAssembler) (segment : QbtSegment) : Bool :=
  Str.eqIgnoreAsciiCase segment.filename "FILLFILE.TXT".toList ||
  (segment.totalBlocks == 0 || segment.blockNumber == 0 ||
    segment.totalBlocks < segment.blockNumber) ||
  fileKey toLowercase segment ∈ asm.completedIndex

/-- The assembler after the evictions that a push makes for its key. -/
def evicted (asm : QbtFileAssembler) (segment : QbtSegment) (now : ℕ)
    (order : IterationOrder (Σ _ : Str, InflightFile)) : QbtFileAssembler :=
  let asm := asm.evictStaleInflight now
  -- room is made only for a new entry
  if fileKey toLowercase segment ∈ asm.byKey then asm
  else asm.evictOverflowInflight order asm.maxInflightFiles

/-- The entry of a segment's key once the segment is stored in it. -/
def storedEntry (asm : QbtFileAssembler) (segment : QbtSegment) (now : ℕ) : InflightFile :=
  let entry := (asm.byKey.lookup (fileKey toLowercase segment)).getD
    ⟨segment.totalBlocks, OrderedMap.empty, now⟩
  -- the latest segment decides the total, also for blocks that announced another one
  { totalBlocks := segment.totalBlocks
    parts := entry.parts.insert segment.blockNumber.toNat segment
    lastSeen := now }

/-- The file made of the blocks of an entry. -/
def completedFile (first : QbtSegment) (entry : InflightFile) : QbtCompletedFile where
  filename := first.filename
  data := (entry.parts.values.map QbtSegment.content).flatten
  timestampUtc := first.timestampUtc

/-- Pushes one segment into the assembler. -/
def push (asm : QbtFileAssembler) (segment : QbtSegment) (now : ℕ)
    (order : IterationOrder (Σ _ : Str, InflightFile)) :
    Option QbtCompletedFile × QbtFileAssembler :=
  if ignores toLowercase asm segment then (none, asm)
  else
    let key := fileKey toLowercase segment
    let asm := evicted toLowercase asm segment now order
    let entry := storedEntry toLowercase asm segment now
    let asm := { asm with byKey := asm.byKey.insert key entry }
    -- the number of parts is compared as a `u32`
    if entry.parts.size % 2 ^ 32 ≠ segment.totalBlocks.toNat then (none, asm)
    else
      match entry.parts.values.head? with
      | none => (none, asm)
      | some first =>
          (some (completedFile first entry),
            { asm with byKey := asm.byKey.erase key }.rememberCompleted key)

/-- Clears all in-progress and completed files. -/
def clear (asm : QbtFileAssembler) : QbtFileAssembler :=
  { asm with byKey := ∅, completedRecent := [], completedIndex := ∅ }

/-! ## Runs -/

/-- A call of the assembler's interface. -/
inductive Call where
  | push (segment : QbtSegment) (now : ℕ) (order : IterationOrder (Σ _ : Str, InflightFile))
  | clear

/-- The segment of a push. -/
def Call.segment? : Call → Option QbtSegment
  | .push segment _ _ => some segment
  | .clear => none

/-- The segments pushed in a run. -/
def pushed (calls : List Call) : List QbtSegment := calls.filterMap Call.segment?

/-- One call: the file it returns and the assembler it leaves. -/
def step (asm : QbtFileAssembler) : Call → Option QbtCompletedFile × QbtFileAssembler
  | .push segment now order => push toLowercase asm segment now order
  | .clear => (none, asm.clear)

/-- The assembler after a run. -/
def exec (asm : QbtFileAssembler) (calls : List Call) : QbtFileAssembler :=
  calls.foldl (fun asm call => (step toLowercase asm call).2) asm

end Push

end QbtFileAssembler

end Qbt
