/-
# Every file is delivered once

What `QbtFileAssembler` is for: files are cut into numbered blocks, the blocks of many
files arrive interleaved, out of order and more than once, and every file is returned
once, when the last of its blocks has arrived.

`delivered` says this of a receiver that never forgets: it is computed from the blocks
that have arrived alone.  The assembler has a time to live for what it has not
completed, room for so many files, and remembers so many completed ones.  As long as a
run stays within these limits (`WithinLimits`) the assembler returns exactly what that
receiver delivers; `Tracks` is the relation between the two, kept by every push.
-/
import Emwin.Qbt.FileIntegrity

namespace Qbt

namespace QbtFileAssembler

open StepLoop

/-! ## Files and their blocks -/

/-- A file as its sender cuts it: the contents of its blocks, block 1 first. -/
structure OutgoingFile where
  filename : Str
  timestampUtc : ℤ
  blocks : List (List UInt8)
  deriving DecidableEq, Repr

/-- The file put together again. -/
def OutgoingFile.completed (f : OutgoingFile) : QbtCompletedFile where
  filename := f.filename
  data := f.blocks.flatten
  timestampUtc := f.timestampUtc

/-- The segment is one of the file's blocks. -/
structure Carries (f : OutgoingFile) (s : QbtSegment) : Prop where
  filename : s.filename = f.filename
  timestamp : s.timestampUtc = f.timestampUtc
  total : s.totalBlocks.toNat = f.blocks.length
  number_pos : 1 ≤ s.blockNumber.toNat
  content : f.blocks[s.blockNumber.toNat - 1]? = some s.content

/-- A segment pushed at some time, with the iteration order it meets. -/
structure Push where
  segment : QbtSegment
  now : ℕ
  order : IterationOrder (Σ _ : Str, InflightFile)

section Definitions

variable (toLowercase : Str → Str)

/-- The key under which the blocks of a file are collected. -/
def OutgoingFile.key (f : OutgoingFile) : Str :=
  toLowercase f.filename ++ '_' :: timestampText f.timestampUtc

/-- Files that are told apart by their keys, with at least one block each. -/
structure Distinct (files : List OutgoingFile) : Prop where
  keys : (files.map (OutgoingFile.key toLowercase)).Nodup
  nonempty : ∀ f ∈ files, f.blocks ≠ []
  not_fill : ∀ f ∈ files, Str.eqIgnoreAsciiCase f.filename "FILLFILE.TXT".toList = false

/-! ## A receiver without limits -/

/-- A block of the file has arrived under this number. -/
def Arrived (f : OutgoingFile) (seen : List Push) (n : ℕ) : Prop :=
  ∃ p ∈ seen, fileKey toLowercase p.segment = f.key toLowercase ∧ p.segment.blockNumber.toNat = n

/-- Every block of the file has arrived. -/
def Complete (f : OutgoingFile) (seen : List Push) : Prop :=
  ∀ n ∈ List.range' 1 f.blocks.length, Arrived toLowercase f seen n

/-- Some block of the file has arrived, but not every one. -/
def InFlight (f : OutgoingFile) (seen : List Push) : Prop :=
  (∃ n, Arrived toLowercase f seen n) ∧ ¬ Complete toLowercase f seen

instance (f : OutgoingFile) (seen : List Push) (n : ℕ) : Decidable (Arrived toLowercase f seen n) :=
  inferInstanceAs (Decidable (∃ p ∈ seen, _))

instance (f : OutgoingFile) (seen : List Push) : Decidable (Complete toLowercase f seen) :=
  inferInstanceAs (Decidable (∀ n ∈ List.range' 1 f.blocks.length, Arrived toLowercase f seen n))

instance (f : OutgoingFile) (seen : List Push) : Decidable (∃ n, Arrived toLowercase f seen n) :=
  decidable_of_iff (∃ p ∈ seen, fileKey toLowercase p.segment = f.key toLowercase)
    ⟨fun ⟨p, hp, hkey⟩ => ⟨_, p, hp, hkey, rfl⟩, fun ⟨_, p, hp, hkey, _⟩ => ⟨p, hp, hkey⟩⟩

instance (f : OutgoingFile) (seen : List Push) : Decidable (InFlight toLowercase f seen) :=
  inferInstanceAs (Decidable ((∃ n, Arrived toLowercase f seen n) ∧ _))

variable (files : List OutgoingFile)

/-- The file that a push completes. -/
def completion (seen : List Push) (p : Push) : Option OutgoingFile :=
  files.find? fun f =>
    ¬ Complete toLowercase f seen ∧ Complete toLowercase f (seen ++ [p])

/-- The files that later pushes complete, in order. -/
def deliveredFrom (seen : List Push) : List Push → List OutgoingFile
  | [] => []
  | p :: rest => (completion toLowercase files seen p).toList ++ deliveredFrom (seen ++ [p]) rest

/-- The files that a run delivers, in order. -/
def delivered (pushes : List Push) : List OutgoingFile := deliveredFrom toLowercase files [] pushes

/-- The last push for a file. -/
def lastPush (f : OutgoingFile) (seen : List Push) : Option Push :=
  (seen.filter fun p => fileKey toLowercase p.segment = f.key toLowercase).getLast?

/-! ## The limits of the assembler -/

/-- A push that finds the assembler within its limits. -/
structure Fits (limits : QbtFileAssembler) (seen : List Push) (p : Push) : Prop where
  /-- No file in flight has been silent for longer than the time to live. -/
  fresh : ∀ f ∈ files, InFlight toLowercase f seen →
    ∀ q ∈ lastPush toLowercase f seen, p.now - q.now ≤ limits.inflightTtl
  /-- There is room for one more file when one begins. -/
  room : (∀ f ∈ files, fileKey toLowercase p.segment = f.key toLowercase →
      ¬ InFlight toLowercase f seen ∧ ¬ Complete toLowercase f seen) →
    (files.filter fun f => InFlight toLowercase f seen).length < limits.maxInflightFiles
  /-- A block of a delivered file is repeated only while the file is remembered. -/
  remembered : ∀ f ∈ files, fileKey toLowercase p.segment = f.key toLowercase →
    Complete toLowercase f seen →
    f ∈ (delivered toLowercase files seen).rtake limits.duplicateCacheSize

/-- A run of blocks of the files that stays within the limits. -/
structure WithinLimits (limits : QbtFileAssembler) (pushes : List Push) : Prop where
  carried : ∀ p ∈ pushes, ∃ f ∈ files, Carries f p.segment
  fits : ∀ seen p rest, pushes = seen ++ p :: rest → Fits toLowercase files limits seen p

/-- The files that a run of pushes returns. -/
def emitted (asm : QbtFileAssembler) : List Push → List QbtCompletedFile
  | [] => []
  | p :: rest =>
      (push toLowercase asm p.segment p.now p.order).1.toList ++
        emitted (push toLowercase asm p.segment p.now p.order).2 rest

end Definitions

/-! ## What arrives and what is delivered -/

section Receiver

variable {toLowercase : Str → Str} {files : List OutgoingFile} {f g : OutgoingFile}
  {seen : List Push} {p : Push}

theorem Carries.fileKey_eq {s : QbtSegment} (h : Carries f s) :
    fileKey toLowercase s = f.key toLowercase := by
  unfold fileKey OutgoingFile.key
  rw [h.filename, h.timestamp]

theorem Carries.number_le {s : QbtSegment} (h : Carries f s) :
    s.blockNumber.toNat ≤ f.blocks.length := by
  have hlt := (List.getElem?_eq_some_iff.mp h.content).1
  have hpos := h.number_pos
  omega

/-- Files are told apart by their keys. -/
theorem Distinct.eq_of_key (h : Distinct toLowercase files) (hf : f ∈ files) (hg : g ∈ files)
    (hkey : f.key toLowercase = g.key toLowercase) : f = g :=
  List.inj_on_of_nodup_map h.keys hf hg hkey

theorem arrived_concat {n : ℕ} : Arrived toLowercase f (seen ++ [p]) n ↔
    Arrived toLowercase f seen n ∨
      (fileKey toLowercase p.segment = f.key toLowercase ∧ p.segment.blockNumber.toNat = n) := by
  unfold Arrived
  constructor
  · rintro ⟨q, hq, hkey, hn⟩
    rcases List.mem_append.mp hq with hq | hq
    · exact Or.inl ⟨q, hq, hkey, hn⟩
    · obtain rfl := List.mem_singleton.mp hq
      exact Or.inr ⟨hkey, hn⟩
  · rintro (⟨q, hq, hkey, hn⟩ | ⟨hkey, hn⟩)
    · exact ⟨q, List.mem_append_left _ hq, hkey, hn⟩
    · exact ⟨p, by simp, hkey, hn⟩

/-- A push for another file changes nothing for this one. -/
theorem arrived_concat_of_ne (h : fileKey toLowercase p.segment ≠ f.key toLowercase) (n : ℕ) :
    Arrived toLowercase f (seen ++ [p]) n ↔ Arrived toLowercase f seen n := by
  rw [arrived_concat, or_iff_left fun hp => h hp.1]

theorem complete_concat_of_ne (h : fileKey toLowercase p.segment ≠ f.key toLowercase) :
    Complete toLowercase f (seen ++ [p]) ↔ Complete toLowercase f seen := by
  unfold Complete
  simp only [arrived_concat_of_ne h]

theorem inFlight_concat_of_ne (h : fileKey toLowercase p.segment ≠ f.key toLowercase) :
    InFlight toLowercase f (seen ++ [p]) ↔ InFlight toLowercase f seen := by
  unfold InFlight
  simp only [arrived_concat_of_ne h, complete_concat_of_ne h]

theorem lastPush_concat_of_ne (h : fileKey toLowercase p.segment ≠ f.key toLowercase) :
    lastPush toLowercase f (seen ++ [p]) = lastPush toLowercase f seen := by
  unfold lastPush
  rw [List.filter_append, List.filter_singleton, decide_eq_false h]
  simp

theorem lastPush_concat (h : fileKey toLowercase p.segment = f.key toLowercase) :
    lastPush toLowercase f (seen ++ [p]) = some p := by
  unfold lastPush
  rw [List.filter_append, List.filter_singleton, decide_eq_true h]
  simp

/-- What is complete stays complete. -/
theorem Complete.concat (h : Complete toLowercase f seen) (p : Push) :
    Complete toLowercase f (seen ++ [p]) := fun n hn => arrived_concat.mpr (Or.inl (h n hn))

/-- A push completes at most the file that it carries a block of. -/
theorem completion_eq_some (hd : Distinct toLowercase files) :
    completion toLowercase files seen p = some f ↔
      f ∈ files ∧ ¬ Complete toLowercase f seen ∧ Complete toLowercase f (seen ++ [p]) := by
  have hkey : ∀ g, ¬ Complete toLowercase g seen → Complete toLowercase g (seen ++ [p]) →
      fileKey toLowercase p.segment = g.key toLowercase := by
    intro g hbefore hafter
    by_contra hne
    exact hbefore ((complete_concat_of_ne hne).mp hafter)
  unfold completion
  constructor
  · intro h
    have hp := List.find?_some h
    exact ⟨List.mem_of_find?_eq_some h, by simpa using hp⟩
  · rintro ⟨hf, hbefore, hafter⟩
    cases hfind : files.find? fun f =>
        ¬ Complete toLowercase f seen ∧ Complete toLowercase f (seen ++ [p]) with
    | none =>
        have hnone := List.find?_eq_none.mp hfind f hf
        simp only [decide_eq_true_eq] at hnone
        exact absurd ⟨hbefore, hafter⟩ hnone
    | some g =>
        have hp : ¬ Complete toLowercase g seen ∧ Complete toLowercase g (seen ++ [p]) := by
          simpa using List.find?_some hfind
        rw [hd.eq_of_key hf (List.mem_of_find?_eq_some hfind)
          ((hkey f hbefore hafter).symm.trans (hkey g hp.1 hp.2))]

theorem deliveredFrom_append (toLowercase : Str → Str) (files : List OutgoingFile)
    (seen pushes rest : List Push) :
    deliveredFrom toLowercase files seen (pushes ++ rest) =
      deliveredFrom toLowercase files seen pushes ++
        deliveredFrom toLowercase files (seen ++ pushes) rest := by
  induction pushes generalizing seen with
  | nil => simp [deliveredFrom]
  | cons p pushes ih =>
      rw [List.cons_append, deliveredFrom, deliveredFrom, ih, List.append_assoc,
        List.append_assoc, List.singleton_append]

theorem delivered_concat : delivered toLowercase files (seen ++ [p]) =
    delivered toLowercase files seen ++ (completion toLowercase files seen p).toList := by
  unfold delivered
  rw [deliveredFrom_append, List.nil_append, deliveredFrom, deliveredFrom, List.append_nil]

/-- Delivered are the files of which every block has arrived. -/
theorem mem_delivered (hd : Distinct toLowercase files) :
    f ∈ delivered toLowercase files seen ↔ f ∈ files ∧ Complete toLowercase f seen := by
  induction seen using List.reverseRecOn with
  | nil =>
      constructor
      · intro h
        cases h
      · rintro ⟨hf, hcomplete⟩
        have hpos := List.length_pos_iff.mpr (hd.nonempty f hf)
        obtain ⟨p, hp, -⟩ := hcomplete 1 (by rw [List.mem_range'_1]; omega)
        cases hp
  | append_singleton seen p ih =>
      rw [delivered_concat, List.mem_append, ih, Option.mem_toList, completion_eq_some hd]
      constructor
      · rintro (⟨hf, h⟩ | ⟨hf, -, h⟩)
        · exact ⟨hf, h.concat p⟩
        · exact ⟨hf, h⟩
      · rintro ⟨hf, h⟩
        by_cases hbefore : Complete toLowercase f seen
        · exact Or.inl ⟨hf, hbefore⟩
        · exact Or.inr ⟨hf, hbefore, h⟩

/-- No file is delivered twice. -/
theorem nodup_delivered (hd : Distinct toLowercase files) :
    (delivered toLowercase files seen).Nodup := by
  induction seen using List.reverseRecOn with
  | nil => exact List.nodup_nil
  | append_singleton seen p ih =>
      rw [delivered_concat]
      cases hc : completion toLowercase files seen p with
      | none => simpa using ih
      | some f =>
          have hnew : f ∉ delivered toLowercase files seen := fun hmem =>
            ((completion_eq_some hd).mp hc).2.1 ((mem_delivered hd).mp hmem).2
          simpa using List.Nodup.concat hnew ih

end Receiver

/-! ## The assembler within its limits -/

section Tracking

variable {toLowercase : Str → Str} {files : List OutgoingFile} {limits asm : QbtFileAssembler}
  {f : OutgoingFile} {seen : List Push} {p : Push}

/-- The entry of a file in flight holds the blocks that have arrived. -/
structure Holds (toLowercase : Str → Str) (f : OutgoingFile) (seen : List Push)
    (entry : InflightFile) : Prop where
  arrived : ∀ n, (entry.parts.lookup n).isSome ↔ Arrived toLowercase f seen n
  parts : ∀ n s, entry.parts.lookup n = some s → Carries f s ∧ s.blockNumber.toNat = n
  lastSeen : ∃ q ∈ lastPush toLowercase f seen, entry.lastSeen = q.now

/-- The assembler after `seen` stands for the receiver without limits: an entry for every
file in flight and for no other key, and the last of the delivered files remembered. -/
structure Tracks (toLowercase : Str → Str) (files : List OutgoingFile)
    (limits : QbtFileAssembler) (seen : List Push) (asm : QbtFileAssembler) : Prop where
  duplicateCacheSize : asm.duplicateCacheSize = limits.duplicateCacheSize
  maxInflightFiles : asm.maxInflightFiles = limits.maxInflightFiles
  inflightTtl : asm.inflightTtl = limits.inflightTtl
  held : ∀ f ∈ files, InFlight toLowercase f seen →
    ∃ entry, asm.byKey.lookup (f.key toLowercase) = some entry ∧ Holds toLowercase f seen entry
  known : ∀ key entry, asm.byKey.lookup key = some entry →
    ∃ f ∈ files, f.key toLowercase = key ∧ InFlight toLowercase f seen
  recent : asm.completedRecent = ((delivered toLowercase files seen).map
    (OutgoingFile.key toLowercase)).rtake limits.duplicateCacheSize
  index : ∀ key, key ∈ asm.completedIndex ↔ key ∈ asm.completedRecent

/-- An entry belongs to a file in flight and holds its blocks. -/
theorem Tracks.holds (h : Tracks toLowercase files limits seen asm) {key : Str}
    {entry : InflightFile} (hl : asm.byKey.lookup key = some entry) :
    ∃ f ∈ files, f.key toLowercase = key ∧ InFlight toLowercase f seen ∧
      Holds toLowercase f seen entry := by
  obtain ⟨f, hf, rfl, hflight⟩ := h.known key entry hl
  obtain ⟨entry', hl', hholds⟩ := h.held f hf hflight
  obtain rfl : entry = entry' := Option.some.inj (hl.symm.trans hl')
  exact ⟨f, hf, rfl, hflight, hholds⟩

/-- There are at most as many entries as files in flight. -/
theorem Tracks.length_entries_le (h : Tracks toLowercase files limits seen asm) :
    asm.byKey.entries.length ≤ (files.filter fun f => InFlight toLowercase f seen).length := by
  have hsub : asm.byKey.keys ⊆ (files.filter fun f => InFlight toLowercase f seen).map
      (OutgoingFile.key toLowercase) := by
    intro key hkey
    obtain ⟨entry, hl⟩ := Option.isSome_iff_exists.mp (AList.lookup_isSome.mpr hkey)
    obtain ⟨f, hf, hfkey, hflight⟩ := h.known key entry hl
    refine List.mem_map.mpr ⟨f, List.mem_filter.mpr ⟨hf, ?_⟩, hfkey⟩
    simpa using hflight
  have hle := (List.subperm_of_subset asm.byKey.nodupKeys hsub).length_le
  rw [List.length_map] at hle
  simpa [AList.keys, List.keys] using hle

/-- Within its limits the assembler evicts nothing. -/
theorem Tracks.evicted_eq (h : Tracks toLowercase files limits seen asm)
    (hfits : Fits toLowercase files limits seen p)
    (hnew : ∀ f ∈ files, fileKey toLowercase p.segment = f.key toLowercase →
      ¬ Complete toLowercase f seen) :
    evicted toLowercase asm p.segment p.now p.order = asm := by
  have hlive : ∀ key entry, asm.byKey.lookup key = some entry →
      asm.isLive p.now entry = true := by
    intro key entry hl
    obtain ⟨f, hf, -, hflight, hholds⟩ := h.holds hl
    obtain ⟨q, hq, hlast⟩ := hholds.lastSeen
    have hfresh := hfits.fresh f hf hflight q hq
    rw [isLive, hlast, h.inflightTtl]
    simpa using hfresh
  have hstale : asm.evictStaleInflight p.now = asm := by
    have hkept : asm.byKey.retain (fun _ inflight => asm.isLive p.now inflight) = asm.byKey := by
      apply AList.ext
      refine List.filter_eq_self.mpr fun e he => ?_
      exact hlive e.1 e.2 (AList.mem_lookup_iff.mpr he)
    unfold evictStaleInflight
    rw [hkept]
  unfold evicted
  dsimp only
  rw [hstale]
  split
  · rfl
  · next hkey =>
      have hroom : asm.byKey.entries.length < asm.maxInflightFiles := by
        rw [h.maxInflightFiles]
        refine lt_of_le_of_lt h.length_entries_le
          (hfits.room fun f hf hfkey => ⟨?_, hnew f hf hfkey⟩)
        intro hflight
        obtain ⟨entry, hl, -⟩ := h.held f hf hflight
        rw [← hfkey] at hl
        exact hkey (AList.lookup_isSome.mp (by rw [hl]; rfl))
      have hpass : evictPass p.order asm.maxInflightFiles asm.byKey = ⟨[], asm.byKey, false⟩ := by
        unfold evictPass
        rw [if_neg (by omega)]
      have hdrain := (evictLoop p.order asm.maxInflightFiles).drain_of_stop (s := asm.byKey)
        (show (evictPass p.order asm.maxInflightFiles asm.byKey).again = false by rw [hpass])
      unfold evictOverflowInflight
      rw [hdrain]
      show { asm with byKey := (evictPass p.order asm.maxInflightFiles asm.byKey).state } = asm
      rw [hpass]

/-- A block of a delivered file is ignored, and any other is not. -/
theorem Tracks.ignores_eq (h : Tracks toLowercase files limits seen asm)
    (hd : Distinct toLowercase files) (hfits : Fits toLowercase files limits seen p)
    (hf : f ∈ files) (hcarries : Carries f p.segment) :
    ignores toLowercase asm p.segment = decide (Complete toLowercase f seen) := by
  have hkey : fileKey toLowercase p.segment = f.key toLowercase := hcarries.fileKey_eq
  have hindex : fileKey toLowercase p.segment ∈ asm.completedIndex ↔
      Complete toLowercase f seen := by
    rw [h.index, h.recent, hkey]
    constructor
    · intro hmem
      obtain ⟨g, hg, hgkey⟩ := List.mem_map.mp (List.mem_of_mem_drop hmem)
      obtain ⟨hgf, hcomplete⟩ := (mem_delivered hd).mp hg
      rwa [← hd.eq_of_key hgf hf hgkey]
    · intro hcomplete
      have hmem := List.mem_map_of_mem (f := OutgoingFile.key toLowercase)
        (hfits.remembered f hf hkey hcomplete)
      rwa [List.rtake, List.map_drop, ← List.length_map (OutgoingFile.key toLowercase)] at hmem
  have hpos := hcarries.number_pos
  have hle := hcarries.number_le
  have htotal := hcarries.total
  have hblock : p.segment.blockNumber ≠ 0 := by
    intro hzero
    rw [hzero] at hpos
    exact absurd hpos (by decide)
  have htotal0 : p.segment.totalBlocks ≠ 0 := by
    intro hzero
    rw [hzero, UInt32.toNat_zero] at htotal
    omega
  have hnumber : ¬ p.segment.totalBlocks < p.segment.blockNumber := by
    rw [UInt32.lt_iff_toNat_lt]
    omega
  unfold ignores
  rw [hcarries.filename, hd.not_fill f hf, beq_eq_false_iff_ne.mpr htotal0,
    beq_eq_false_iff_ne.mpr hblock, decide_eq_false hnumber, decide_eq_decide.mpr hindex]
  rfl

/-- The stored entry holds the block that was pushed beside those it held. -/
theorem Tracks.holds_storedEntry (h : Tracks toLowercase files limits seen asm) (hf : f ∈ files)
    (hcarries : Carries f p.segment) (hbefore : ¬ Complete toLowercase f seen) :
    Holds toLowercase f (seen ++ [p]) (storedEntry toLowercase asm p.segment p.now) := by
  have hkey : fileKey toLowercase p.segment = f.key toLowercase := hcarries.fileKey_eq
  -- the parts that were there, none for a file that begins
  obtain ⟨parts, hstored, harrived, hparts⟩ : ∃ parts : OrderedMap ℕ QbtSegment,
      (storedEntry toLowercase asm p.segment p.now).parts =
        parts.insert p.segment.blockNumber.toNat p.segment ∧
      (∀ n, (parts.lookup n).isSome ↔ Arrived toLowercase f seen n) ∧
      ∀ n s, parts.lookup n = some s → Carries f s ∧ s.blockNumber.toNat = n := by
    by_cases hbegun : ∃ n, Arrived toLowercase f seen n
    · obtain ⟨entry, hl, hholds⟩ := h.held f hf ⟨hbegun, hbefore⟩
      refine ⟨entry.parts, ?_, hholds.arrived, hholds.parts⟩
      unfold storedEntry
      dsimp only
      rw [hkey, hl]
      rfl
    · have hnone : asm.byKey.lookup (f.key toLowercase) = none := by
        cases hl : asm.byKey.lookup (f.key toLowercase) with
        | none => rfl
        | some entry =>
            obtain ⟨g, hg, hgkey, ⟨n, q, hq, hqkey, hn⟩, -⟩ := h.known _ _ hl
            exact absurd ⟨n, q, hq, hqkey.trans hgkey, hn⟩ hbegun
      refine ⟨OrderedMap.empty, ?_, fun n => ?_, fun n s hl => by cases hl⟩
      · unfold storedEntry
        dsimp only
        rw [hkey, hnone]
        rfl
      · constructor
        · intro hsome
          cases hsome
        · intro harrived
          exact absurd ⟨n, harrived⟩ hbegun
  refine ⟨fun n => ?_, fun n s hl => ?_, p, lastPush_concat hkey, rfl⟩
  · rw [hstored, arrived_concat]
    by_cases hn : n = p.segment.blockNumber.toNat
    · subst hn
      simp [hkey]
    · rw [OrderedMap.lookup_insert_of_ne _ hn, harrived, or_iff_left fun hp => hn hp.2.symm]
  · rw [hstored] at hl
    by_cases hn : n = p.segment.blockNumber.toNat
    · subst hn
      rw [OrderedMap.lookup_insert_self] at hl
      obtain rfl := Option.some.inj hl
      exact ⟨hcarries, rfl⟩
    · rw [OrderedMap.lookup_insert_of_ne _ hn] at hl
      exact hparts n s hl

section Entries

variable {entry : InflightFile}

/-- The numbers of the parts are the numbers that have arrived. -/
theorem Holds.mem_keys (h : Holds toLowercase f seen entry) {n : ℕ} :
    n ∈ entry.parts.keys ↔ Arrived toLowercase f seen n := by
  rw [← h.arrived, Option.isSome_iff_exists]
  constructor
  · intro hn
    obtain ⟨⟨k, s⟩, he, rfl⟩ := List.mem_map.mp hn
    exact ⟨s, OrderedMap.mem_entries_iff.mp he⟩
  · rintro ⟨s, hl⟩
    exact List.mem_map.mpr ⟨(n, s), OrderedMap.mem_entries_iff.mpr hl, rfl⟩

/-- The parts are blocks of the file, under their numbers. -/
theorem Holds.carries (h : Holds toLowercase f seen entry) {e : ℕ × QbtSegment}
    (he : e ∈ entry.parts.entries) : Carries f e.2 ∧ e.2.blockNumber.toNat = e.1 :=
  h.parts e.1 e.2 (OrderedMap.mem_entries_iff.mp he)

theorem Holds.range (h : Holds toLowercase f seen entry) :
    ∀ k ∈ entry.parts.keys, 1 ≤ k ∧ k ≤ f.blocks.length := by
  intro k hk
  obtain ⟨e, he, rfl⟩ := List.mem_map.mp hk
  obtain ⟨hcarries, hnumber⟩ := h.carries he
  rw [← hnumber]
  exact ⟨hcarries.number_pos, hcarries.number_le⟩

/-- Counting the parts tells whether every block has arrived. -/
theorem Holds.size_eq_iff (h : Holds toLowercase f seen entry) :
    entry.parts.size = f.blocks.length ↔ Complete toLowercase f seen := by
  constructor
  · intro hsize n hn
    rw [← OrderedMap.keys_eq_range' h.range hsize] at hn
    exact h.mem_keys.mp hn
  · intro hcomplete
    have hsub : List.range' 1 f.blocks.length ⊆ entry.parts.keys := fun n hn =>
      h.mem_keys.mpr (hcomplete n hn)
    have hge := (List.subperm_of_subset List.nodup_range' hsub).length_le
    rw [List.length_range', OrderedMap.keys, List.length_map] at hge
    exact le_antisymm (OrderedMap.size_le_of_range h.range) hge

/-- The contents of all parts in order are the blocks of the file. -/
theorem Holds.contents_eq (h : Holds toLowercase f seen entry)
    (hsize : entry.parts.size = f.blocks.length) :
    entry.parts.values.map QbtSegment.content = f.blocks := by
  have hkeys := OrderedMap.keys_eq_range' h.range hsize
  apply List.ext_getElem?
  intro i
  rw [List.getElem?_map, OrderedMap.values, List.getElem?_map]
  cases he : entry.parts.entries[i]? with
  | none =>
      have hi : f.blocks.length ≤ i := by
        rw [← hsize]
        exact List.getElem?_eq_none_iff.mp he
      rw [List.getElem?_eq_none hi]
      rfl
  | some e =>
      obtain ⟨hcarries, hnumber⟩ := h.carries (List.mem_of_getElem? he)
      have hi : i < f.blocks.length := by
        rw [← hsize]
        exact (List.getElem?_eq_some_iff.mp he).1
      have hkey : some e.1 = some (1 + i) := by
        have hget : entry.parts.keys[i]? = some e.1 := by
          rw [OrderedMap.keys, List.getElem?_map, he]
          rfl
        rw [← hget, hkeys, List.getElem?_range' hi, Nat.one_mul]
      have hindex : e.2.blockNumber.toNat - 1 = i := by
        have := Option.some.inj hkey
        omega
      rw [← hindex, hcarries.content]
      rfl

/-- The file made of all parts is the one that was sent. -/
theorem Holds.completedFile_eq (h : Holds toLowercase f seen entry)
    (hsize : entry.parts.size = f.blocks.length) (hne : f.blocks ≠ []) :
    ∃ first, entry.parts.values.head? = some first ∧ completedFile first entry = f.completed := by
  have hcontents := h.contents_eq hsize
  cases he : entry.parts.entries with
  | nil =>
      rw [OrderedMap.values, he] at hcontents
      exact absurd hcontents.symm hne
  | cons e rest =>
      have hcarries := (h.carries (e := e) (by rw [he]; exact List.mem_cons_self)).1
      refine ⟨e.2, by rw [OrderedMap.values, he]; rfl, ?_⟩
      unfold completedFile OutgoingFile.completed
      rw [hcontents, hcarries.filename, hcarries.timestamp]

end Entries

/-! ## Remembering completed files -/

/-- The oldest keys beyond the cache size are forgotten, in the list and in the index. -/
theorem forgetCompleted_eq (size : ℕ) (recent : List Str) (index : Finset Str)
    (hnodup : recent.Nodup) (hindex : ∀ key, key ∈ index ↔ key ∈ recent) :
    (forgetCompleted size recent index).1 = recent.rtake size ∧
      ∀ key, key ∈ (forgetCompleted size recent index).2 ↔ key ∈ recent.rtake size := by
  induction recent generalizing index with
  | nil => exact ⟨by simp [forgetCompleted], by simpa [forgetCompleted] using hindex⟩
  | cons old recent ih =>
      obtain ⟨hold, hnodup'⟩ := List.nodup_cons.mp hnodup
      rw [forgetCompleted]
      split
      · next hlt =>
          have hrtake : (old :: recent).rtake size = recent.rtake size := by
            rw [List.length_cons] at hlt
            rw [List.rtake, List.rtake, List.length_cons,
              show recent.length + 1 - size = recent.length - size + 1 by omega,
              List.drop_succ_cons]
          rw [hrtake]
          refine ih _ hnodup' fun key => ?_
          rw [Finset.mem_erase, hindex, List.mem_cons]
          constructor
          · rintro ⟨hne, rfl | hmem⟩
            · exact absurd rfl hne
            · exact hmem
          · intro hmem
            exact ⟨fun heq => hold (heq ▸ hmem), Or.inr hmem⟩
      · next hle =>
          have hrtake : (old :: recent).rtake size = old :: recent :=
            ListSearch.rtake_of_length_le (by omega)
          rw [hrtake]
          exact ⟨rfl, hindex⟩

/-! ## One push, and runs -/

/-- A push for another file leaves the entry of a file as it is. -/
theorem Holds.concat_of_ne {entry : InflightFile} (h : Holds toLowercase f seen entry)
    (hne : fileKey toLowercase p.segment ≠ f.key toLowercase) :
    Holds toLowercase f (seen ++ [p]) entry where
  arrived n := by rw [arrived_concat_of_ne hne, h.arrived]
  parts := h.parts
  lastSeen := by rw [lastPush_concat_of_ne hne]; exact h.lastSeen

/-- The relation after a push for the file `f` concerns only the entry of `f` and what is
remembered. -/
theorem Tracks.concat (h : Tracks toLowercase files limits seen asm)
    (hd : Distinct toLowercase files) (hf : f ∈ files) (hcarries : Carries f p.segment)
    {asm' : QbtFileAssembler}
    (hlimits : asm'.duplicateCacheSize = asm.duplicateCacheSize ∧
      asm'.maxInflightFiles = asm.maxInflightFiles ∧ asm'.inflightTtl = asm.inflightTtl)
    (hother : ∀ key, key ≠ f.key toLowercase → asm'.byKey.lookup key = asm.byKey.lookup key)
    (hknown : ∀ entry, asm'.byKey.lookup (f.key toLowercase) = some entry →
      InFlight toLowercase f (seen ++ [p]))
    (hheld : InFlight toLowercase f (seen ++ [p]) →
      ∃ entry, asm'.byKey.lookup (f.key toLowercase) = some entry ∧
        Holds toLowercase f (seen ++ [p]) entry)
    (hrecent : asm'.completedRecent = ((delivered toLowercase files (seen ++ [p])).map
      (OutgoingFile.key toLowercase)).rtake limits.duplicateCacheSize)
    (hindex : ∀ key, key ∈ asm'.completedIndex ↔ key ∈ asm'.completedRecent) :
    Tracks toLowercase files limits (seen ++ [p]) asm' := by
  have hkey : fileKey toLowercase p.segment = f.key toLowercase := hcarries.fileKey_eq
  refine ⟨hlimits.1.trans h.duplicateCacheSize, hlimits.2.1.trans h.maxInflightFiles,
    hlimits.2.2.trans h.inflightTtl, fun g hg hflight => ?_, fun key entry hl => ?_, hrecent,
    hindex⟩
  · by_cases hgf : g.key toLowercase = f.key toLowercase
    · obtain rfl := hd.eq_of_key hg hf hgf
      exact hheld hflight
    · have hne : fileKey toLowercase p.segment ≠ g.key toLowercase := fun heq =>
        hgf (heq.symm.trans hkey)
      obtain ⟨entry, hl, hholds⟩ := h.held g hg ((inFlight_concat_of_ne hne).mp hflight)
      exact ⟨entry, (hother _ hgf).trans hl, hholds.concat_of_ne hne⟩
  · by_cases hkf : key = f.key toLowercase
    · subst hkf
      exact ⟨f, hf, rfl, hknown entry hl⟩
    · rw [hother key hkf] at hl
      obtain ⟨g, hg, rfl, hflight⟩ := h.known key entry hl
      have hne : fileKey toLowercase p.segment ≠ g.key toLowercase := fun heq =>
        hkf (heq.symm.trans hkey)
      exact ⟨g, hg, rfl, (inFlight_concat_of_ne hne).mpr hflight⟩

/-- A push completes no other file than the one it belongs to. -/
theorem eq_of_completion (hd : Distinct toLowercase files) (hf : f ∈ files)
    (hcarries : Carries f p.segment) {g : OutgoingFile}
    (hg : completion toLowercase files seen p = some g) : g = f := by
  obtain ⟨hgf, hbefore, hafter⟩ := (completion_eq_some hd).mp hg
  refine hd.eq_of_key hgf hf (Eq.symm ?_)
  by_contra hne
  exact hbefore ((complete_concat_of_ne (hcarries.fileKey_eq ▸ hne)).mp hafter)

/-- A push for a file that was complete before, or is not complete behind it, delivers nothing. -/
theorem completion_eq_none (hd : Distinct toLowercase files) (hf : f ∈ files)
    (hcarries : Carries f p.segment)
    (hnot : Complete toLowercase f seen ∨ ¬ Complete toLowercase f (seen ++ [p])) :
    completion toLowercase files seen p = none := by
  cases hc : completion toLowercase files seen p with
  | none => rfl
  | some g =>
      obtain rfl := eq_of_completion hd hf hcarries hc
      obtain ⟨-, hbefore, hafter⟩ := (completion_eq_some hd).mp hc
      rcases hnot with hcomplete | hincomplete
      · exact absurd hcomplete hbefore
      · exact absurd hafter hincomplete

/-- The count in the stored entry, which the code casts to 32 bits, tells whether the file is
complete. -/
theorem Holds.count_eq_iff {entry : InflightFile} (h : Holds toLowercase f (seen ++ [p]) entry)
    (hcarries : Carries f p.segment) :
    entry.parts.size % 2 ^ 32 = p.segment.totalBlocks.toNat ↔
      Complete toLowercase f (seen ++ [p]) := by
  have hlt := p.segment.totalBlocks.toNat_lt
  have hle := OrderedMap.size_le_of_range h.range
  rw [hcarries.total, ← h.size_eq_iff, Nat.mod_eq_of_lt]
  rw [hcarries.total] at hlt
  omega

/-- A repeated block of a file that was delivered. -/
theorem Tracks.step_repeated (h : Tracks toLowercase files limits seen asm)
    (hd : Distinct toLowercase files) (hfits : Fits toLowercase files limits seen p)
    (hf : f ∈ files) (hcarries : Carries f p.segment) (hbefore : Complete toLowercase f seen) :
    (push toLowercase asm p.segment p.now p.order).1 =
        (completion toLowercase files seen p).map OutgoingFile.completed ∧
      Tracks toLowercase files limits (seen ++ [p])
        (push toLowercase asm p.segment p.now p.order).2 := by
  have hnone := completion_eq_none hd hf hcarries (Or.inl hbefore)
  have hpush : push toLowercase asm p.segment p.now p.order = (none, asm) := by
    unfold push
    rw [h.ignores_eq hd hfits hf hcarries, decide_eq_true hbefore]
    rfl
  rw [hpush, hnone]
  refine ⟨rfl, h.concat hd hf hcarries ⟨rfl, rfl, rfl⟩ (fun _ _ => rfl) ?_ ?_ ?_ h.index⟩
  · intro entry hl
    obtain ⟨g, hg, hgkey, hflight⟩ := h.known _ entry hl
    rw [hd.eq_of_key hg hf hgkey] at hflight
    exact absurd hbefore hflight.2
  · intro hflight
    exact absurd (hbefore.concat p) hflight.2
  · rw [delivered_concat, hnone, Option.toList_none, List.append_nil]
    exact h.recent

/-- The push of a block that a file is missing.  It is neither ignored nor is anything evicted for
it; the file is returned if the block was the last one. -/
theorem Tracks.push_eq (h : Tracks toLowercase files limits seen asm)
    (hd : Distinct toLowercase files) (hfits : Fits toLowercase files limits seen p)
    (hf : f ∈ files) (hcarries : Carries f p.segment) (hbefore : ¬ Complete toLowercase f seen) :
    push toLowercase asm p.segment p.now p.order =
      if Complete toLowercase f (seen ++ [p]) then
        (some f.completed, { asm with
          byKey := (asm.byKey.insert (f.key toLowercase)
            (storedEntry toLowercase asm p.segment p.now)).erase (f.key toLowercase)
          }.rememberCompleted (f.key toLowercase))
      else (none, { asm with
        byKey := asm.byKey.insert (f.key toLowercase)
          (storedEntry toLowercase asm p.segment p.now) }) := by
  have hkey : fileKey toLowercase p.segment = f.key toLowercase := hcarries.fileKey_eq
  have hignores : ignores toLowercase asm p.segment = false := by
    rw [h.ignores_eq hd hfits hf hcarries, decide_eq_false hbefore]
  have hevicted := h.evicted_eq hfits fun g hg hgkey => by
    rwa [← hd.eq_of_key hf hg (hkey.symm.trans hgkey)]
  have hholds := h.holds_storedEntry hf hcarries hbefore
  have hcount := hholds.count_eq_iff hcarries
  unfold push
  rw [hignores, if_neg Bool.false_ne_true, hevicted]
  dsimp only
  rw [hkey]
  by_cases hafter : Complete toLowercase f (seen ++ [p])
  · obtain ⟨first, hfirst, hfile⟩ :=
      hholds.completedFile_eq (hholds.size_eq_iff.mpr hafter) (hd.nonempty f hf)
    rw [if_neg (not_not.mpr (hcount.mpr hafter)), if_pos hafter, hfirst]
    dsimp only
    rw [hfile]
  · rw [if_pos fun heq => hafter (hcount.mp heq), if_neg hafter]

/-- What is remembered behind the last missing block of a file. -/
theorem Tracks.rememberCompleted_spec (h : Tracks toLowercase files limits seen asm)
    (hd : Distinct toLowercase files) (hf : f ∈ files)
    (hcompletion : completion toLowercase files seen p = some f)
    (rest : AList fun _ : Str => InflightFile) :
    ∃ recent index, { asm with byKey := rest }.rememberCompleted (f.key toLowercase) =
        { asm with byKey := rest, completedRecent := recent, completedIndex := index } ∧
      recent = ((delivered toLowercase files (seen ++ [p])).map
        (OutgoingFile.key toLowercase)).rtake limits.duplicateCacheSize ∧
      ∀ key, key ∈ index ↔ key ∈ recent := by
  have hbefore := ((completion_eq_some hd).mp hcompletion).2.1
  have hnew : f.key toLowercase ∉ asm.completedIndex := by
    rw [h.index, h.recent]
    intro hmem
    obtain ⟨g, hg, hgkey⟩ := List.mem_map.mp (List.mem_of_mem_drop hmem)
    obtain ⟨hgf, hcomplete⟩ := (mem_delivered hd).mp hg
    rw [hd.eq_of_key hgf hf hgkey] at hcomplete
    exact hbefore hcomplete
  -- the remembered keys with the new one
  have hkeys : (delivered toLowercase files (seen ++ [p])).map (OutgoingFile.key toLowercase) =
      (delivered toLowercase files seen).map (OutgoingFile.key toLowercase) ++
        [f.key toLowercase] := by
    rw [delivered_concat, hcompletion, List.map_append]
    rfl
  have hnodup : (asm.completedRecent ++ [f.key toLowercase]).Nodup := by
    have hdelivered : (delivered toLowercase files (seen ++ [p])).Nodup := nodup_delivered hd
    have hall := hdelivered.map_on fun g hg g' hg' =>
      hd.eq_of_key ((mem_delivered hd).mp hg).1 ((mem_delivered hd).mp hg').1
    rw [hkeys] at hall
    rw [h.recent]
    exact hall.sublist ((List.drop_sublist _ _).append (List.Sublist.refl _))
  obtain ⟨hrecent, hindex⟩ := forgetCompleted_eq limits.duplicateCacheSize
    (asm.completedRecent ++ [f.key toLowercase])
    (insert (f.key toLowercase) asm.completedIndex) hnodup fun key => by
      rw [Finset.mem_insert, h.index, List.mem_append, List.mem_singleton, or_comm]
  refine ⟨(forgetCompleted limits.duplicateCacheSize
      (asm.completedRecent ++ [f.key toLowercase])
      (insert (f.key toLowercase) asm.completedIndex)).1,
    (forgetCompleted limits.duplicateCacheSize
      (asm.completedRecent ++ [f.key toLowercase])
      (insert (f.key toLowercase) asm.completedIndex)).2, ?_, ?_, ?_⟩
  · unfold rememberCompleted
    rw [if_neg hnew]
    dsimp only
    rw [h.duplicateCacheSize]
  · rw [hrecent, hkeys, h.recent, ListSearch.rtake_rtake_append]
  · intro key
    rw [hindex, hrecent]

/-- The last missing block of a file. -/
theorem Tracks.step_last (h : Tracks toLowercase files limits seen asm)
    (hd : Distinct toLowercase files) (hfits : Fits toLowercase files limits seen p)
    (hf : f ∈ files) (hcarries : Carries f p.segment) (hbefore : ¬ Complete toLowercase f seen)
    (hafter : Complete toLowercase f (seen ++ [p])) :
    (push toLowercase asm p.segment p.now p.order).1 =
        (completion toLowercase files seen p).map OutgoingFile.completed ∧
      Tracks toLowercase files limits (seen ++ [p])
        (push toLowercase asm p.segment p.now p.order).2 := by
  have hcompletion : completion toLowercase files seen p = some f :=
    (completion_eq_some hd).mpr ⟨hf, hbefore, hafter⟩
  set rest := (asm.byKey.insert (f.key toLowercase)
    (storedEntry toLowercase asm p.segment p.now)).erase (f.key toLowercase) with hrest
  obtain ⟨recent, index, hremember, hrecent, hindex⟩ :=
    h.rememberCompleted_spec hd hf hcompletion rest
  rw [h.push_eq hd hfits hf hcarries hbefore, if_pos hafter, hcompletion, ← hrest, hremember]
  refine ⟨rfl, h.concat hd hf hcarries ⟨rfl, rfl, rfl⟩ ?_ ?_ ?_ hrecent hindex⟩
  · intro key hne
    show rest.lookup key = _
    rw [hrest, AList.lookup_erase_ne hne, AList.lookup_insert_ne hne]
  · intro _ hl
    exact absurd ((AList.lookup_erase _ _).symm.trans hl) (Option.some_ne_none _).symm
  · intro hflight
    exact absurd hafter hflight.2

/-- A block of a file that stays in flight. -/
theorem Tracks.step_inFlight (h : Tracks toLowercase files limits seen asm)
    (hd : Distinct toLowercase files) (hfits : Fits toLowercase files limits seen p)
    (hf : f ∈ files) (hcarries : Carries f p.segment) (hbefore : ¬ Complete toLowercase f seen)
    (hafter : ¬ Complete toLowercase f (seen ++ [p])) :
    (push toLowercase asm p.segment p.now p.order).1 =
        (completion toLowercase files seen p).map OutgoingFile.completed ∧
      Tracks toLowercase files limits (seen ++ [p])
        (push toLowercase asm p.segment p.now p.order).2 := by
  have hnone := completion_eq_none hd hf hcarries (Or.inr hafter)
  have hholds := h.holds_storedEntry hf hcarries hbefore
  rw [h.push_eq hd hfits hf hcarries hbefore, if_neg hafter, hnone]
  refine ⟨rfl, h.concat hd hf hcarries ⟨rfl, rfl, rfl⟩ ?_ ?_ ?_ ?_ h.index⟩
  · intro key hne
    exact AList.lookup_insert_ne hne
  · intro _ _
    exact ⟨⟨_, arrived_concat.mpr (Or.inr ⟨hcarries.fileKey_eq, rfl⟩)⟩, hafter⟩
  · intro _
    exact ⟨_, AList.lookup_insert _, hholds⟩
  · rw [delivered_concat, hnone, Option.toList_none, List.append_nil]
    exact h.recent

/-- **Step.**  A push within the limits returns what the receiver without limits delivers,
and the assembler keeps standing for it. -/
theorem Tracks.step (h : Tracks toLowercase files limits seen asm)
    (hd : Distinct toLowercase files) (hfits : Fits toLowercase files limits seen p)
    (hf : f ∈ files) (hcarries : Carries f p.segment) :
    (push toLowercase asm p.segment p.now p.order).1 =
        (completion toLowercase files seen p).map OutgoingFile.completed ∧
      Tracks toLowercase files limits (seen ++ [p])
        (push toLowercase asm p.segment p.now p.order).2 := by
  by_cases hbefore : Complete toLowercase f seen
  · exact h.step_repeated hd hfits hf hcarries hbefore
  · by_cases hafter : Complete toLowercase f (seen ++ [p])
    · exact h.step_last hd hfits hf hcarries hbefore hafter
    · exact h.step_inFlight hd hfits hf hcarries hbefore hafter

/-- A fresh assembler stands for a receiver that has seen nothing. -/
theorem tracks_nil (duplicateCacheSize maxInflightFiles inflightTtl : ℕ) :
    Tracks toLowercase files (withLimits duplicateCacheSize maxInflightFiles inflightTtl) []
      (withLimits duplicateCacheSize maxInflightFiles inflightTtl) where
  duplicateCacheSize := rfl
  maxInflightFiles := rfl
  inflightTtl := rfl
  held f hf hflight := by
    obtain ⟨⟨n, p, hp, -⟩, -⟩ := hflight
    cases hp
  known key entry hl := absurd hl (Option.some_ne_none _).symm
  recent := by simp [withLimits, delivered, deliveredFrom]
  index key := by simp [withLimits]

/-- **Run.**  What the assembler returns from some point on is what is delivered from there. -/
theorem emitted_eq (hd : Distinct toLowercase files) {pushes : List Push}
    (hpushes : WithinLimits toLowercase files limits pushes) (rest : List Push)
    (h : Tracks toLowercase files limits seen asm) (hsplit : pushes = seen ++ rest) :
    emitted toLowercase asm rest =
      (deliveredFrom toLowercase files seen rest).map OutgoingFile.completed := by
  induction rest generalizing seen asm with
  | nil => rfl
  | cons p rest ih =>
      obtain ⟨f, hf, hcarries⟩ := hpushes.carried p (by rw [hsplit]; simp)
      obtain ⟨hout, htracks⟩ := h.step hd (hpushes.fits seen p rest hsplit) hf hcarries
      rw [emitted, deliveredFrom, List.map_append, hout,
        ih htracks (by rw [hsplit, List.append_assoc, List.singleton_append])]
      congr 1
      cases completion toLowercase files seen p <;> rfl

/-- Files with distinct keys differ as they are returned. -/
theorem completed_injective (hd : Distinct toLowercase files) (hf : f ∈ files)
    {g : OutgoingFile} (hg : g ∈ files) (h : f.completed = g.completed) : f = g := by
  have hname : f.filename = g.filename := congrArg QbtCompletedFile.filename h
  have htime : f.timestampUtc = g.timestampUtc := congrArg QbtCompletedFile.timestampUtc h
  refine hd.eq_of_key hf hg ?_
  unfold OutgoingFile.key
  rw [hname, htime]

/-- Few files whose blocks arrive soon after one another stay within the limits. -/
theorem withinLimits_of_few (hd : Distinct toLowercase files) {pushes : List Push}
    (hcarried : ∀ p ∈ pushes, ∃ f ∈ files, Carries f p.segment)
    (hroom : files.length ≤ limits.maxInflightFiles)
    (hcache : files.length ≤ limits.duplicateCacheSize)
    (htime : ∀ p ∈ pushes, ∀ q ∈ pushes, p.now - q.now ≤ limits.inflightTtl) :
    WithinLimits toLowercase files limits pushes := by
  refine ⟨hcarried, fun seen p rest hsplit => ⟨fun f _ _ q hq => ?_, fun hnew => ?_, ?_⟩⟩
  · have hmem : q ∈ seen := List.mem_of_mem_filter (List.mem_of_getLast? hq)
    exact htime p (by rw [hsplit]; simp) q (by rw [hsplit]; simp [hmem])
  · -- the file that begins is not among those in flight
    obtain ⟨f, hf, hcarries⟩ := hcarried p (by rw [hsplit]; simp)
    refine lt_of_lt_of_le (List.length_filter_lt_length_iff_exists.mpr ⟨f, hf, ?_⟩) hroom
    simpa using (hnew f hf hcarries.fileKey_eq).1
  · intro f hf _ hcomplete
    have hmem := (mem_delivered hd).mpr ⟨hf, hcomplete⟩
    have hle : (delivered toLowercase files seen).length ≤ limits.duplicateCacheSize :=
      ((nodup_delivered hd).subperm fun g hg => ((mem_delivered hd).mp hg).1).length_le.trans hcache
    rwa [ListSearch.rtake_of_length_le hle]

section Limits

variable {duplicateCacheSize maxInflightFiles inflightTtl : ℕ} {pushes : List Push}

/-- A run within the limits returns the delivered files. -/
theorem emitted_eq_delivered (hd : Distinct toLowercase files)
    (hpushes : WithinLimits toLowercase files
      (withLimits duplicateCacheSize maxInflightFiles inflightTtl) pushes) :
    emitted toLowercase (withLimits duplicateCacheSize maxInflightFiles inflightTtl) pushes =
      (delivered toLowercase files pushes).map OutgoingFile.completed :=
  emitted_eq hd hpushes pushes (tracks_nil _ _ _) (List.nil_append _).symm

/-- No file is returned twice. -/
theorem nodup_emitted (hd : Distinct toLowercase files)
    (hpushes : WithinLimits toLowercase files
      (withLimits duplicateCacheSize maxInflightFiles inflightTtl) pushes) :
    (emitted toLowercase (withLimits duplicateCacheSize maxInflightFiles inflightTtl)
      pushes).Nodup := by
  rw [emitted_eq_delivered hd hpushes]
  refine (nodup_delivered hd).map_on fun f hf g hg heq => ?_
  exact completed_injective hd ((mem_delivered hd).mp hf).1 ((mem_delivered hd).mp hg).1 heq

/-- Returned are the files of which every block was pushed. -/
theorem mem_emitted (hd : Distinct toLowercase files)
    (hpushes : WithinLimits toLowercase files
      (withLimits duplicateCacheSize maxInflightFiles inflightTtl) pushes)
    (file : QbtCompletedFile) :
    file ∈ emitted toLowercase (withLimits duplicateCacheSize maxInflightFiles inflightTtl) pushes ↔
      ∃ f ∈ files, file = f.completed ∧ ∀ n, 1 ≤ n → n ≤ f.blocks.length →
        ∃ p ∈ pushes, Carries f p.segment ∧ p.segment.blockNumber.toNat = n := by
  -- a push under the key of a file carries one of its blocks
  have hblock : ∀ f ∈ files, ∀ n, Arrived toLowercase f pushes n ↔
      ∃ p ∈ pushes, Carries f p.segment ∧ p.segment.blockNumber.toNat = n := by
    intro f hf n
    constructor
    · rintro ⟨p, hp, hkey, hn⟩
      obtain ⟨g, hg, hcarries⟩ := hpushes.carried p hp
      rw [hd.eq_of_key hf hg (hkey.symm.trans hcarries.fileKey_eq)]
      exact ⟨p, hp, hcarries, hn⟩
    · rintro ⟨p, hp, hcarries, hn⟩
      exact ⟨p, hp, hcarries.fileKey_eq, hn⟩
  rw [emitted_eq_delivered hd hpushes, List.mem_map]
  constructor
  · rintro ⟨f, hmem, rfl⟩
    obtain ⟨hf, hcomplete⟩ := (mem_delivered hd).mp hmem
    refine ⟨f, hf, rfl, fun n hpos hle => (hblock f hf n).mp (hcomplete n ?_)⟩
    rw [List.mem_range'_1]
    omega
  · rintro ⟨f, hf, rfl, hall⟩
    refine ⟨f, (mem_delivered hd).mpr ⟨hf, fun n hn => (hblock f hf n).mpr ?_⟩, rfl⟩
    rw [List.mem_range'_1] at hn
    exact hall n (by omega) (by omega)

end Limits

end Tracking

/-- **Exactly once.**  However the blocks of the files are interleaved, reordered and
repeated, a run within the limits returns no file twice, and returns exactly the files of
which every block was pushed, each put together as it was sent. -/
theorem delivers_exactly_once (toLowercase : Str → Str) {files : List OutgoingFile}
    (hd : Distinct toLowercase files) (duplicateCacheSize maxInflightFiles inflightTtl : ℕ)
    {pushes : List Push}
    (hpushes : WithinLimits toLowercase files
      (withLimits duplicateCacheSize maxInflightFiles inflightTtl) pushes) :
    let out := emitted toLowercase
      (withLimits duplicateCacheSize maxInflightFiles inflightTtl) pushes
    out.Nodup ∧ ∀ file, file ∈ out ↔ ∃ f ∈ files, file = f.completed ∧
      ∀ n, 1 ≤ n → n ≤ f.blocks.length →
        ∃ p ∈ pushes, Carries f p.segment ∧ p.segment.blockNumber.toNat = n :=
  ⟨nodup_emitted hd hpushes, mem_emitted hd hpushes⟩

/-- A file of two blocks and a file of one. -/
def twoFiles : List OutgoingFile :=
  [⟨"a.txt".toList, 0, [[0x41], [0x42]]⟩, ⟨"b.txt".toList, 0, [[0x43]]⟩]

/-- The second block of the first file, the second file, the first block, and a repetition. -/
def twoFilesPushes : List Push :=
  [⟨blockOfA 2 2 [0x42], 0, .plain⟩,
    ⟨{ blockOfA 1 1 [0x43] with filename := "b.txt".toList }, 1, .plain⟩,
    ⟨blockOfA 1 2 [0x41], 2, .plain⟩, ⟨blockOfA 2 2 [0x42], 3, .plain⟩]

/-- The theorem at these four pushes. -/
theorem delivers_exactly_once_two_files :
    let out := emitted id (withLimits 100 256 (90 * 1000000000)) twoFilesPushes
    out.Nodup ∧ ∀ file, file ∈ out ↔ ∃ f ∈ twoFiles, file = f.completed ∧
      ∀ n, 1 ≤ n → n ≤ f.blocks.length →
        ∃ p ∈ twoFilesPushes, Carries f p.segment ∧ p.segment.blockNumber.toNat = n := by
  have hd : Distinct id twoFiles := ⟨by decide, by decide, by decide⟩
  have hcarried : ∀ p ∈ twoFilesPushes, ∃ f ∈ twoFiles, Carries f p.segment := by
    intro p hp
    simp only [twoFilesPushes, List.mem_cons, List.not_mem_nil, or_false] at hp
    rcases hp with rfl | rfl | rfl | rfl
    · exact ⟨_, List.mem_cons_self, rfl, rfl, rfl, by decide, rfl⟩
    · exact ⟨_, List.mem_cons_of_mem _ List.mem_cons_self, rfl, rfl, rfl, by decide, rfl⟩
    · exact ⟨_, List.mem_cons_self, rfl, rfl, rfl, by decide, rfl⟩
    · exact ⟨_, List.mem_cons_self, rfl, rfl, rfl, by decide, rfl⟩
  exact delivers_exactly_once id hd 100 256 (90 * 1000000000)
    (withinLimits_of_few hd hcarried (by decide) (by decide) (by decide))

end QbtFileAssembler

end Qbt
