/-
# The store of retained files

`RetainedFiles` keeps the files that completed last, at most so many of them and each for at most
so long.  A map holds the files under their names and a queue holds the names in the order of
their insertion.  An insertion under a name that is there already leaves the old place in the
queue behind; the numbers of the insertions tell it from the new one.

What the store holds is a list of the newest entries: an insertion pushes an entry, and every
operation first drops the expired ones.  The invariant `Represents` ties the map and the queue
to this list.

Instants are nanoseconds since the epoch, and the clock is read once in every operation.
-/
import Emwin.Lib.Maps
import Emwin.Lib.Recency
import Emwin.Lib.Saturating
import Emwin.Live.StoragePlan

namespace Live

open Recency Saturating

/-! ## The store -/

/-- `RetainedFile`. -/
structure RetainedFile where
  data : List UInt8
  completedAt : ℤ
  metadata : CompletedFileMetadata
  deriving DecidableEq

/-- `StoredRetainedFile`. -/
structure StoredRetainedFile where
  generation : ℕ
  file : RetainedFile
  deriving DecidableEq

/-- The map of files under their names. -/
abbrev FileMap := AList fun _ : Str => StoredRetainedFile

/-- `RetainedFiles`. -/
structure RetainedFiles where
  byName : FileMap
  /-- Names and the numbers of their insertions, the oldest first. -/
  order : List (Str × ℕ)
  nextGeneration : ℕ
  maxEntries : ℕ
  /-- Nanoseconds. -/
  ttl : ℕ

/-- `RetainedFiles::new`. -/
def RetainedFiles.new (maxEntries ttl : ℕ) : RetainedFiles where
  byName := ∅
  order := []
  nextGeneration := 1
  maxEntries := max maxEntries 1
  ttl := max ttl 1000000000

/-! ## The operations -/

/-- `now.duration_since(completed_at)`, and nothing where the instant is still to come. -/
def age (now completedAt : ℤ) : ℕ := (now - completedAt).toNat

/-- Whether a place of the queue is that of the stored file of its name. -/
def isCurrent (m : FileMap) (entry : Str × ℕ) : Bool :=
  (m.lookup entry.1).any fun stored => stored.generation = entry.2

/-- The closure of `evict_expired` on the places of the queue, one after the other. -/
def evictLoop (now : ℤ) (ttl : ℕ) : List (Str × ℕ) → FileMap → List (Str × ℕ) × FileMap
  | [], m => ([], m)
  | (name, generation) :: rest, m =>
      match m.lookup name with
      | none => evictLoop now ttl rest m
      | some stored =>
          if stored.generation ≠ generation then evictLoop now ttl rest m
          else if ttl < age now stored.file.completedAt then evictLoop now ttl rest (m.erase name)
          else
            let (kept, m') := evictLoop now ttl rest m
            ((name, generation) :: kept, m')

/-- `evict_expired`. -/
def RetainedFiles.evictExpired (now : ℤ) (s : RetainedFiles) : RetainedFiles :=
  let (order, byName) := evictLoop now s.ttl s.order s.byName
  { s with order, byName }

/-- The loop of `insert_processed` that makes room. -/
def trimLoop (maxEntries : ℕ) : List (Str × ℕ) → FileMap → List (Str × ℕ) × FileMap
  | [], m => ([], m)
  | oldest :: rest, m =>
      if m.keys.length ≤ maxEntries then (oldest :: rest, m)
      else trimLoop maxEntries rest (if isCurrent m oldest then m.erase oldest.1 else m)

/-- `compact_stale_order_entries`. -/
def RetainedFiles.compactStaleOrderEntries (s : RetainedFiles) : RetainedFiles :=
  if s.order.length ≤ max (min (s.maxEntries * 4) U64_MAX) 16 then s
  else { s with order := s.order.filter (isCurrent s.byName) }

/-- `insert_processed`. -/
def RetainedFiles.insertProcessed (filename : Str) (data : List UInt8)
    (metadata : CompletedFileMetadata) (completedAt now : ℤ) (s : RetainedFiles) :
    RetainedFiles × CompletedFileMetadata :=
  let s := s.evictExpired now
  let generation := s.nextGeneration
  let (order, byName) := trimLoop s.maxEntries (s.order ++ [(filename, generation)])
    (s.byName.insert filename ⟨generation, ⟨data, completedAt, metadata⟩⟩)
  (RetainedFiles.compactStaleOrderEntries
      { s with order, byName, nextGeneration := saturatingAdd generation 1 },
    metadata)

/-- `list`. -/
def RetainedFiles.list (now : ℤ) (s : RetainedFiles) :
    RetainedFiles × List CompletedFileMetadata :=
  let s := s.evictExpired now
  (s, (s.order.reverse.filterMap fun (name, generation) =>
    (s.byName.lookup name).filter fun stored => stored.generation = generation).map
      (·.file.metadata))

/-- `get`. -/
def RetainedFiles.get (filename : Str) (now : ℤ) (s : RetainedFiles) :
    RetainedFiles × Option RetainedFile :=
  let s := s.evictExpired now
  (s, (s.byName.lookup filename).map (·.file))

/-- `len`. -/
def RetainedFiles.len (now : ℤ) (s : RetainedFiles) : RetainedFiles × ℕ :=
  let s := s.evictExpired now
  (s, s.byName.keys.length)

/-! ## Runs -/

/-- A call of the store, with what the clock shows in it. -/
inductive Call where
  | insertProcessed (filename : Str) (file : RetainedFile) (now : ℤ)
  | list (now : ℤ)
  | get (filename : Str) (now : ℤ)
  | len (now : ℤ)

/-- What the clock shows in a call. -/
def Call.now : Call → ℤ
  | .insertProcessed _ _ now => now
  | .list now => now
  | .get _ now => now
  | .len now => now

/-- What a call inserts. -/
def Call.insertion : Call → Option (Str × RetainedFile)
  | .insertProcessed filename file _ => some (filename, file)
  | _ => none

/-- The store after a call. -/
def Call.run : Call → RetainedFiles → RetainedFiles
  | .insertProcessed filename file now, s =>
      (s.insertProcessed filename file.data file.metadata file.completedAt now).1
  | .list now, s => (s.list now).1
  | .get filename now, s => (s.get filename now).1
  | .len now, s => (s.len now).1

/-- The store after some calls. -/
def runCalls (maxEntries ttl : ℕ) (calls : List Call) : RetainedFiles :=
  calls.foldl (fun s call => call.run s) (RetainedFiles.new maxEntries ttl)

/-- What some calls inserted, the newest first. -/
def insertions (calls : List Call) : List (Str × RetainedFile) :=
  (calls.filterMap Call.insertion).reverse

/-! ## The queue follows the map -/

/-- The place of a stored file in the queue. -/
def place (e : Str × StoredRetainedFile) : Str × ℕ := (e.1, e.2.generation)

/-- Whether a stored file has not expired. -/
def isFresh (now : ℤ) (ttl : ℕ) (e : Str × StoredRetainedFile) : Bool :=
  age now e.2.file.completedAt ≤ ttl

/-- A map holds some entries, and the current places of a queue are theirs, in this order. -/
structure Tracks (order : List (Str × ℕ)) (m : FileMap)
    (entries : List (Str × StoredRetainedFile)) : Prop where
  lookup : ∀ e, m.lookup e.1 = some e.2 ↔ e ∈ entries
  nodup : (entries.map Prod.fst).Nodup
  current : order.filter (isCurrent m) = (entries.map place).reverse

variable {order : List (Str × ℕ)} {m : FileMap} {entries : List (Str × StoredRetainedFile)}
  {now : ℤ} {ttl : ℕ}

/-- A place is current if the map has an entry for it. -/
theorem isCurrent_iff {p : Str × ℕ} :
    isCurrent m p = true ↔ ∃ stored, m.lookup p.1 = some stored ∧ stored.generation = p.2 := by
  simp only [isCurrent, Option.any_eq_true, decide_eq_true_eq]

/-- The map has as many entries as it holds. -/
theorem Tracks.length_keys (h : Tracks order m entries) : m.keys.length = entries.length := by
  have hperm : m.keys.Perm (entries.map Prod.fst) := by
    refine (List.perm_ext_iff_of_nodup m.keys_nodup h.nodup).mpr ?_
    intro name
    rw [← AList.mem_keys, ← AList.lookup_isSome, Option.isSome_iff_exists, List.mem_map]
    constructor
    · rintro ⟨stored, hstored⟩
      exact ⟨(name, stored), (h.lookup (name, stored)).mp hstored, rfl⟩
    · rintro ⟨e, he, rfl⟩
      exact ⟨e.2, (h.lookup e).mpr he⟩
  rw [hperm.length_eq, List.length_map]

/-- A place of the queue that is not that of the file of its name is not current. -/
theorem isCurrent_erase {p q : Str × ℕ} (hq : isCurrent m q = true) (hne : p ≠ q) :
    isCurrent (m.erase q.1) p = isCurrent m p := by
  by_cases hname : p.1 = q.1
  · have herased : isCurrent (m.erase q.1) p = false := by
      rw [isCurrent, hname, AList.lookup_erase]
      rfl
    rw [herased, eq_comm, Bool.eq_false_iff]
    intro hp
    obtain ⟨stored, hstored, hgeneration⟩ := isCurrent_iff.mp hq
    obtain ⟨stored', hstored', hgeneration'⟩ := isCurrent_iff.mp hp
    rw [hname, hstored] at hstored'
    obtain rfl := Option.some.inj hstored'
    exact hne (Prod.ext hname (hgeneration'.symm.trans hgeneration))
  · rw [isCurrent, isCurrent, AList.lookup_erase_ne hname]

/-! ## Expiry -/

/-- The places that the loop of `evict_expired` keeps. -/
theorem evictLoop_order (hnodup : order.Nodup) :
    (evictLoop now ttl order m).1 = order.filter fun p =>
      isCurrent m p && (m.lookup p.1).all fun stored => isFresh now ttl (p.1, stored) := by
  induction order generalizing m with
  | nil => rfl
  | cons p rest ih =>
      obtain ⟨name, generation⟩ := p
      obtain ⟨hnot, hrest⟩ := List.nodup_cons.mp hnodup
      rw [evictLoop]
      cases hlookup : m.lookup name with
      | none =>
          have hstale : isCurrent m (name, generation) = false := by
            rw [isCurrent, hlookup]
            rfl
          rw [List.filter_cons_of_neg (by simp [hstale])]
          exact ih hrest
      | some stored =>
          dsimp only
          split_ifs with hgeneration hexpired
          · have hstale : isCurrent m (name, generation) = false := by
              rw [isCurrent, hlookup]
              simpa using hgeneration
            rw [List.filter_cons_of_neg (by simp [hstale])]
            exact ih hrest
          · -- what is left of the queue has no current place of this name
            have hcurrent : isCurrent m (name, generation) = true :=
              isCurrent_iff.mpr ⟨stored, hlookup, not_not.mp hgeneration⟩
            rw [List.filter_cons_of_neg (by simp [hlookup, isFresh, hexpired]), ih hrest]
            refine List.filter_congr ?_
            intro p hp
            have hne : p ≠ (name, generation) := fun h => hnot (h ▸ hp)
            rw [isCurrent_erase hcurrent hne]
            by_cases hname : p.1 = name
            · have hstale : isCurrent m p = false := by
                rw [← isCurrent_erase hcurrent hne, isCurrent, hname, AList.lookup_erase]
                rfl
              rw [hstale, Bool.false_and, Bool.false_and]
            · rw [AList.lookup_erase_ne hname]
          · have hcurrent : isCurrent m (name, generation) = true :=
              isCurrent_iff.mpr ⟨stored, hlookup, not_not.mp hgeneration⟩
            rw [List.filter_cons_of_pos (by
              simpa [hcurrent, hlookup, isFresh] using hexpired), ← ih hrest]

/-- What the map holds after the loop of `evict_expired`. -/
theorem lookup_evictLoop (hnodup : order.Nodup) (name : Str) :
    (evictLoop now ttl order m).2.lookup name = (m.lookup name).filter fun stored =>
      (name, stored.generation) ∉ order ∨ isFresh now ttl (name, stored) := by
  induction order generalizing m with
  | nil =>
      rw [evictLoop]
      cases m.lookup name with
      | none => rfl
      | some stored => rw [Option.filter_some, if_pos (by simp)]
  | cons p rest ih =>
      obtain ⟨name', generation⟩ := p
      obtain ⟨hnot, hrest⟩ := List.nodup_cons.mp hnodup
      -- a place that is not the one of the stored file changes nothing
      have hother : (∀ stored, m.lookup name = some stored →
            (name, stored.generation) ≠ (name', generation)) →
          (m.lookup name).filter (fun stored => (name, stored.generation) ∉ rest ∨
              isFresh now ttl (name, stored) = true) =
            (m.lookup name).filter fun stored =>
              (name, stored.generation) ∉ (name', generation) :: rest ∨
                isFresh now ttl (name, stored) = true := by
        intro hne
        cases hlookup : m.lookup name with
        | none => rfl
        | some stored =>
            have := hne stored hlookup
            simp only [Option.filter_some, List.mem_cons, this, false_or]
      rw [evictLoop]
      cases hlookup : m.lookup name' with
      | none =>
          dsimp only
          rw [ih hrest]
          refine hother ?_
          rintro stored hstored heq
          obtain ⟨rfl, -⟩ := Prod.mk.inj heq
          rw [hlookup] at hstored
          exact absurd hstored (by simp)
      | some stored' =>
          dsimp only
          split_ifs with hgeneration hexpired
          · rw [ih hrest]
            refine hother ?_
            rintro stored hstored heq
            obtain ⟨rfl, rfl⟩ := Prod.mk.inj heq
            rw [hlookup] at hstored
            exact hgeneration (by rw [Option.some.inj hstored])
          · rw [ih hrest]
            by_cases hname : name = name'
            · subst hname
              rw [AList.lookup_erase, hlookup, Option.filter_some, if_neg]
              · rfl
              · simp [not_not.mp hgeneration, isFresh, hexpired]
            · rw [AList.lookup_erase_ne hname]
              exact hother fun stored _ heq => hname (Prod.mk.inj heq).1
          · rw [ih hrest]
            by_cases hname : name = name'
            · subst hname
              have hfresh : isFresh now ttl (name, stored') = true := by
                simpa [isFresh] using hexpired
              rw [hlookup, Option.filter_some, Option.filter_some, hfresh]
              simp
            · exact hother fun stored _ heq => hname (Prod.mk.inj heq).1

/-- **Expiry.**  The loop of `evict_expired` keeps the entries that have not expired, and the
places of these only. -/
theorem Tracks.evictLoop (h : Tracks order m entries) (hnodup : order.Nodup) :
    Tracks (evictLoop now ttl order m).1 (evictLoop now ttl order m).2
        (entries.filter (isFresh now ttl)) ∧
      (Live.evictLoop now ttl order m).1 =
        ((entries.filter (isFresh now ttl)).map place).reverse := by
  have hplace : ∀ e ∈ entries, place e ∈ order := by
    intro e he
    have hmem : place e ∈ (entries.map place).reverse :=
      List.mem_reverse.mpr (List.mem_map_of_mem he)
    rw [← h.current] at hmem
    exact (List.mem_filter.mp hmem).1
  have horder : (Live.evictLoop now ttl order m).1 =
      ((entries.filter (isFresh now ttl)).map place).reverse := by
    have hfresh : ∀ e ∈ entries,
        (m.lookup (place e).1).all (fun stored => isFresh now ttl ((place e).1, stored)) =
          isFresh now ttl e := by
      intro e he
      rw [show m.lookup (place e).1 = some e.2 from (h.lookup e).mpr he]
      rfl
    rw [evictLoop_order hnodup, ← List.filter_filter, List.filter_comm, h.current,
      List.filter_reverse, List.filter_map]
    congr 2
    exact List.filter_congr hfresh
  have hlookup : ∀ e, (Live.evictLoop now ttl order m).2.lookup e.1 = some e.2 ↔
      e ∈ entries.filter (isFresh now ttl) := by
    intro e
    rw [lookup_evictLoop hnodup, Option.filter_eq_some_iff, h.lookup, List.mem_filter]
    refine and_congr_right fun he => ?_
    have : (e.1, e.2.generation) ∈ order := hplace e he
    simp [this]
  refine ⟨⟨hlookup, h.nodup.sublist (List.filter_sublist.map _), ?_⟩, horder⟩
  rw [horder]
  refine List.filter_eq_self.mpr ?_
  intro p hp
  obtain ⟨e, he, rfl⟩ := List.mem_map.mp (List.mem_reverse.mp hp)
  exact isCurrent_iff.mpr ⟨e.2, (hlookup e).mpr he, rfl⟩

/-! ## Insertion -/

/-- An insertion adds an entry in front and makes the old place of its name stale. -/
theorem Tracks.insert (h : Tracks order m entries) {generation : ℕ}
    (hnew : ∀ p ∈ order, p.2 < generation) (filename : Str) (file : RetainedFile) :
    Tracks (order ++ [(filename, generation)]) (m.insert filename ⟨generation, file⟩)
      ((filename, ⟨generation, file⟩) :: without Prod.fst filename entries) := by
  have hold : ∀ p ∈ order, isCurrent (m.insert filename ⟨generation, file⟩) p =
      (decide (p.1 ≠ filename) && isCurrent m p) := by
    intro p hp
    by_cases hname : p.1 = filename
    · have hlt := hnew p hp
      simp only [hname, ne_eq, not_true_eq_false, decide_false, Bool.false_and]
      rw [isCurrent, hname, AList.lookup_insert, Option.any_some, decide_eq_false_iff_not]
      dsimp only
      omega
    · rw [isCurrent, AList.lookup_insert_ne hname]
      simp [hname, isCurrent]
  refine ⟨?_, ?_, ?_⟩
  · rintro ⟨name, stored⟩
    rw [List.mem_cons, mem_without, ← h.lookup]
    by_cases hname : name = filename
    · subst hname
      simp [AList.lookup_insert, eq_comm]
    · rw [AList.lookup_insert_ne hname]
      simp [hname]
  · rw [List.map_cons, List.nodup_cons]
    refine ⟨?_, h.nodup.sublist (List.filter_sublist.map _)⟩
    intro hmem
    obtain ⟨e, he, hname⟩ := List.mem_map.mp hmem
    exact (mem_without.mp he).2 hname
  · have hnewest : isCurrent (m.insert filename ⟨generation, file⟩) (filename, generation) = true :=
      isCurrent_iff.mpr ⟨_, AList.lookup_insert m, rfl⟩
    rw [List.filter_append, List.filter_cons_of_pos hnewest, List.filter_nil,
      List.filter_congr hold, ← List.filter_filter, h.current, List.filter_reverse,
      List.filter_map, List.map_cons, List.reverse_cons]
    rfl

/-- **Capacity.**  The loop of `insert_processed` that makes room keeps the newest entries. -/
theorem Tracks.trimLoop (h : Tracks order m entries) (hnodup : order.Nodup) (maxEntries : ℕ) :
    Tracks (trimLoop maxEntries order m).1 (trimLoop maxEntries order m).2
        (entries.take maxEntries) ∧
      (Live.trimLoop maxEntries order m).1.Sublist order := by
  induction order generalizing m entries with
  | nil =>
      have hnil : entries = [] := by
        have := h.current
        rwa [List.filter_nil, eq_comm, List.reverse_eq_nil_iff, List.map_eq_nil_iff] at this
      subst hnil
      exact ⟨by rwa [List.take_nil], List.Sublist.refl _⟩
  | cons oldest rest ih =>
      obtain ⟨hnot, hrest⟩ := List.nodup_cons.mp hnodup
      rw [Live.trimLoop]
      by_cases hroom : m.keys.length ≤ maxEntries
      · rw [if_pos hroom, List.take_of_length_le (h.length_keys ▸ hroom)]
        exact ⟨h, List.Sublist.refl _⟩
      rw [if_neg hroom]
      by_cases hcurrent : isCurrent m oldest = true
      · rw [if_pos hcurrent]
        -- the place in front is that of the oldest entry
        have hplaces := h.current
        rw [List.filter_cons_of_pos hcurrent] at hplaces
        obtain rfl | ⟨older, last, rfl⟩ := List.eq_nil_or_concat' entries
        · simp at hplaces
        rw [List.map_append, List.map_cons, List.map_nil, List.reverse_append,
          List.reverse_singleton, List.singleton_append, List.cons.injEq] at hplaces
        obtain ⟨rfl, hplaces⟩ := hplaces
        have hlast : last.1 ∉ older.map Prod.fst := by
          have := h.nodup
          rw [List.map_append, List.nodup_append] at this
          exact fun hmem => this.2.2 _ hmem _ (List.mem_singleton_self _) rfl
        have herased : Tracks rest (m.erase last.1) older := by
          refine ⟨?_, h.nodup.sublist ((List.sublist_append_left _ _).map _), ?_⟩
          · intro e
            by_cases hname : e.1 = last.1
            · rw [hname, AList.lookup_erase]
              refine iff_of_false (by simp) ?_
              intro he
              exact hlast (hname ▸ List.mem_map_of_mem he)
            · rw [AList.lookup_erase_ne hname, h.lookup, List.mem_append, List.mem_singleton]
              exact or_iff_left fun he => hname (by rw [he])
          · rw [← hplaces]
            refine List.filter_congr ?_
            intro p hp
            exact isCurrent_erase hcurrent fun heq => hnot (heq ▸ hp)
        have hlong : maxEntries ≤ older.length := by
          have := h.length_keys
          rw [List.length_append, List.length_singleton] at this
          omega
        rw [List.take_append_of_le_length hlong]
        obtain ⟨htracks, hsub⟩ := ih herased hrest
        exact ⟨htracks, hsub.cons _⟩
      · rw [if_neg hcurrent]
        have hskipped : Tracks rest m entries :=
          ⟨h.lookup, h.nodup, by rw [← h.current, List.filter_cons_of_neg hcurrent]⟩
        obtain ⟨htracks, hsub⟩ := ih hskipped hrest
        exact ⟨htracks, hsub.cons _⟩

/-! ## The invariant -/

/-- An entry without the number of its insertion. -/
def forget (e : Str × StoredRetainedFile) : Str × RetainedFile := (e.1, e.2.file)

/-- A store holds some entries, the newest first. -/
structure Represents (s : RetainedFiles) (entries : List (Str × StoredRetainedFile)) : Prop where
  tracks : Tracks s.order s.byName entries
  sorted : (s.order.map Prod.snd).Pairwise (· < ·)
  numbered : ∀ p ∈ s.order, p.2 < s.nextGeneration
  length_le : entries.length ≤ s.maxEntries
  order_length_le : s.order.length ≤ s.maxEntries + 1

variable {s : RetainedFiles}

/-- Numbers that increase are different, and so are their places. -/
theorem Represents.nodup_order (h : Represents s entries) : s.order.Nodup :=
  List.Nodup.of_map Prod.snd (h.sorted.imp fun hlt => ne_of_lt hlt)

theorem represents_new (maxEntries ttl : ℕ) :
    Represents (RetainedFiles.new maxEntries ttl) [] where
  tracks := ⟨fun e => by simp [RetainedFiles.new], List.nodup_nil, rfl⟩
  sorted := List.Pairwise.nil
  numbered := fun p hp => absurd hp List.not_mem_nil
  length_le := Nat.zero_le _
  order_length_le := Nat.zero_le _

/-- After eviction the queue holds the places of what is left, and no others. -/
theorem order_evictExpired (h : Represents s entries) (now : ℤ) :
    (s.evictExpired now).order =
      ((entries.filter (isFresh now s.ttl)).map place).reverse :=
  (h.tracks.evictLoop h.nodup_order).2

/-- **Step.**  Eviction drops the expired entries. -/
theorem represents_evictExpired (h : Represents s entries) (now : ℤ) :
    Represents (s.evictExpired now) (entries.filter (isFresh now s.ttl)) := by
  have hsub : (s.evictExpired now).order.Sublist s.order := by
    show (evictLoop now s.ttl s.order s.byName).1.Sublist s.order
    rw [evictLoop_order h.nodup_order]
    exact List.filter_sublist
  refine ⟨(h.tracks.evictLoop h.nodup_order).1, h.sorted.sublist (hsub.map _), ?_,
    (List.length_filter_le _ _).trans h.length_le, hsub.length_le.trans h.order_length_le⟩
  exact fun p hp => h.numbered p (hsub.subset hp)

/-- Compaction drops places that are not current. -/
theorem represents_compact (h : Represents s entries) :
    Represents s.compactStaleOrderEntries entries := by
  rw [RetainedFiles.compactStaleOrderEntries]
  split_ifs with hshort
  · exact h
  · refine ⟨⟨h.tracks.lookup, h.tracks.nodup, ?_⟩, h.sorted.sublist (List.filter_sublist.map _),
      fun p hp => h.numbered p (List.mem_filter.mp hp).1, h.length_le,
      (List.length_filter_le _ _).trans h.order_length_le⟩
    dsimp only
    rw [List.filter_filter, ← h.tracks.current]
    exact List.filter_congr fun p _ => Bool.and_self _

/-- The entry that an insertion makes. -/
def newEntry (filename : Str) (file : RetainedFile) (s : RetainedFiles) :
    Str × StoredRetainedFile :=
  (filename, ⟨s.nextGeneration, file⟩)

/-- **Step.**  An insertion drops the expired entries and pushes the new one. -/
theorem represents_insertProcessed (h : Represents s entries) (hgeneration : s.nextGeneration <
    U64_MAX) (filename : Str) (file : RetainedFile) (now : ℤ) :
    Represents (s.insertProcessed filename file.data file.metadata file.completedAt now).1
      (push Prod.fst s.maxEntries (newEntry filename file s)
        (entries.filter (isFresh now s.ttl))) := by
  have hevicted := represents_evictExpired h now
  have hsorted : ((s.evictExpired now).order ++ [(filename, s.nextGeneration)]).Pairwise
      (fun p q => p.2 < q.2) := by
    rw [List.pairwise_append]
    refine ⟨List.pairwise_map.mp hevicted.sorted, List.pairwise_singleton _ _, ?_⟩
    rintro p hp q hq
    rw [List.mem_singleton.mp hq]
    exact hevicted.numbered p hp
  have hnodup : ((s.evictExpired now).order ++ [(filename, s.nextGeneration)]).Nodup :=
    hsorted.imp fun hlt heq => absurd hlt (by rw [heq]; exact lt_irrefl _)
  obtain ⟨htracks, hsub⟩ := (hevicted.tracks.insert hevicted.numbered
    filename file).trimLoop hnodup s.maxEntries
  refine represents_compact ⟨htracks, ?_, ?_, length_push_le, ?_⟩
  · exact (List.pairwise_map.mpr hsorted).sublist (hsub.map _)
  · intro p hp
    show p.2 < saturatingAdd s.nextGeneration 1
    have hle : p.2 ≤ s.nextGeneration := by
      rcases List.mem_append.mp (hsub.subset hp) with hp | hp
      · exact (hevicted.numbered p hp).le
      · rw [List.mem_singleton.mp hp]
        exact le_refl _
    rw [saturatingAdd]
    omega
  · refine hsub.length_le.trans ?_
    rw [List.length_append, order_evictExpired h, List.length_reverse, List.length_map]
    exact Nat.add_le_add_right hevicted.length_le 1

/-! ## Runs -/

/-- The entries after a call. -/
def Call.retained (call : Call) (s : RetainedFiles)
    (entries : List (Str × StoredRetainedFile)) : List (Str × StoredRetainedFile) :=
  match call.insertion with
  | none => entries.filter (isFresh call.now s.ttl)
  | some (filename, file) =>
      push Prod.fst s.maxEntries (newEntry filename file s)
        (entries.filter (isFresh call.now s.ttl))

/-- **Step.**  Every call keeps the invariant. -/
theorem represents_run (h : Represents s entries) (call : Call)
    (hgeneration : s.nextGeneration < U64_MAX) :
    Represents (call.run s) (call.retained s entries) := by
  cases call with
  | insertProcessed filename file now =>
      exact represents_insertProcessed h hgeneration filename file now
  | list now => exact represents_evictExpired h now
  | get filename now => exact represents_evictExpired h now
  | len now => exact represents_evictExpired h now

theorem maxEntries_run (call : Call) (s : RetainedFiles) :
    (call.run s).maxEntries = s.maxEntries := by
  cases call with
  | insertProcessed filename file now =>
      show (RetainedFiles.compactStaleOrderEntries _).maxEntries = _
      rw [RetainedFiles.compactStaleOrderEntries]
      split_ifs <;> rfl
  | list now => rfl
  | get filename now => rfl
  | len now => rfl

/-- The number of insertions never decreases. -/
theorem nextGeneration_of_run {call : Call} (h : (call.run s).nextGeneration < U64_MAX) :
    s.nextGeneration < U64_MAX := by
  cases call with
  | insertProcessed filename file now =>
      have hnext : (Call.run (.insertProcessed filename file now) s).nextGeneration =
          saturatingAdd s.nextGeneration 1 := by
        show (RetainedFiles.compactStaleOrderEntries _).nextGeneration = _
        rw [RetainedFiles.compactStaleOrderEntries]
        split_ifs <;> rfl
      rw [hnext, saturatingAdd] at h
      omega
  | list now => exact h
  | get filename now => exact h
  | len now => exact h

/-- What a further call inserts is newer than all the rest. -/
theorem insertions_append (calls : List Call) (call : Call) :
    insertions (calls ++ [call]) = call.insertion.toList ++ insertions calls := by
  rw [insertions, List.filterMap_append, List.reverse_append]
  cases hcall : call.insertion <;> simp [hcall, insertions]

/-- Without the numbers, an insertion pushes the file under its name. -/
theorem map_forget_push (capacity : ℕ) (inserted : Str × RetainedFile) (s : RetainedFiles)
    (entries : List (Str × StoredRetainedFile)) :
    (push Prod.fst capacity (newEntry inserted.1 inserted.2 s) entries).map forget =
      push Prod.fst capacity inserted (entries.map forget) :=
  map_push forget fun _ => rfl

/-- The entries after a call follow what was inserted. -/
theorem entries_sublist_latest {calls : List Call} (call : Call)
    (h : (entries.map forget).Sublist (latest Prod.fst (insertions calls))) :
    ((call.retained s entries).map forget).Sublist
      (latest Prod.fst (insertions (calls ++ [call]))) := by
  have hfresh := ((List.filter_sublist (p := isFresh call.now s.ttl)).map forget).trans h
  rw [Call.retained, insertions_append]
  cases call.insertion with
  | none => exact hfresh
  | some inserted =>
      dsimp only
      rw [map_forget_push]
      exact push_sublist_latest hfresh

/-- **Run.**  What the store holds after some calls are the newest of their insertions. -/
theorem represents_runCalls (maxEntries ttl : ℕ) (calls : List Call)
    (hgeneration : (runCalls maxEntries ttl calls).nextGeneration < U64_MAX) :
    ∃ entries, Represents (runCalls maxEntries ttl calls) entries ∧
      (entries.map forget).Sublist (latest Prod.fst (insertions calls)) := by
  induction calls using List.reverseRecOn with
  | nil => exact ⟨[], represents_new maxEntries ttl, List.nil_sublist _⟩
  | append_singleton calls call ih =>
      rw [runCalls, List.foldl_append] at hgeneration ⊢
      have hbefore := nextGeneration_of_run hgeneration
      obtain ⟨entries, hrepresents, hlatest⟩ := ih hbefore
      exact ⟨_, represents_run hrepresents call hbefore, entries_sublist_latest call hlatest⟩

theorem maxEntries_runCalls (maxEntries ttl : ℕ) (calls : List Call) :
    (runCalls maxEntries ttl calls).maxEntries = max maxEntries 1 := by
  induction calls using List.reverseRecOn with
  | nil => rfl
  | append_singleton calls call ih =>
      rw [runCalls, List.foldl_append, List.foldl_cons, List.foldl_nil, maxEntries_run]
      exact ih

/-! ## What is retained -/

/-- `list` shows the metadata of the entries that have not expired. -/
theorem list_eq (h : Represents s entries) (now : ℤ) :
    (s.list now).2 = ((entries.filter (isFresh now s.ttl)).map forget).map (·.2.metadata) := by
  have hevicted := represents_evictExpired h now
  have hplaces : ∀ l : List (Str × StoredRetainedFile),
      (∀ e ∈ l, (s.evictExpired now).byName.lookup e.1 = some e.2) →
      (l.map place).filterMap (fun p => ((s.evictExpired now).byName.lookup p.1).filter
        fun stored => stored.generation = p.2) = l.map Prod.snd := by
    intro l hl
    rw [List.filterMap_map]
    refine (List.filterMap_congr ?_).trans (congrFun List.filterMap_eq_map' l)
    intro e he
    simp [place, hl e he]
  show List.map _ (List.filterMap _ (s.evictExpired now).order.reverse) = _
  rw [order_evictExpired h, List.reverse_reverse]
  refine (congrArg (List.map _) (hplaces _ fun e he => (hevicted.tracks.lookup e).mpr he)).trans ?_
  rw [List.map_map, List.map_map]
  rfl

/-- `get` answers with the entries that have not expired. -/
theorem get_eq_some_iff (h : Represents s entries) {filename : Str} {file : RetainedFile} :
    (s.get filename now).2 = some file ↔
      (filename, file) ∈ (entries.filter (isFresh now s.ttl)).map forget := by
  have hevicted := represents_evictExpired h now
  show ((s.evictExpired now).byName.lookup filename).map _ = some file ↔ _
  rw [Option.map_eq_some_iff, List.mem_map]
  constructor
  · rintro ⟨stored, hstored, rfl⟩
    exact ⟨(filename, stored), (hevicted.tracks.lookup (filename, stored)).mp hstored, rfl⟩
  · rintro ⟨e, he, heq⟩
    obtain ⟨rfl, rfl⟩ := Prod.mk.inj heq
    exact ⟨e.2, (hevicted.tracks.lookup e).mpr he, rfl⟩

/-- **Insertion.**  What a call inserts is in the store behind the call. -/
theorem lookup_insertProcessed (h : Represents s entries) (hgeneration : s.nextGeneration < U64_MAX)
    (hcapacity : 0 < s.maxEntries) (filename : Str) (file : RetainedFile) (now : ℤ) :
    (Call.run (.insertProcessed filename file now) s).byName.lookup filename =
      some ⟨s.nextGeneration, file⟩ := by
  have hrun := represents_insertProcessed h hgeneration filename file now
  exact (hrun.tracks.lookup (newEntry filename file s)).mpr (mem_push hcapacity)

/-- **Disappearance.**  An entry that a call removes has expired, or as many other names were
inserted after it as there are places. -/
theorem expired_or_displaced (h : Represents s entries) {calls : List Call} {call : Call}
    (hlatest : (entries.map forget).Sublist (latest Prod.fst (insertions calls)))
    (hgeneration : s.nextGeneration < U64_MAX) (hcapacity : 0 < s.maxEntries)
    {name : Str} {stored : StoredRetainedFile} (hbefore : s.byName.lookup name = some stored)
    (hafter : (call.run s).byName.lookup name = none) :
    s.ttl < age call.now stored.file.completedAt ∨
      s.maxEntries ≤ (laterKeys Prod.fst name (insertions (calls ++ [call]))).card := by
  by_cases hfresh : isFresh call.now s.ttl (name, stored) = true
  swap
  · exact Or.inl (by simpa [isFresh] using hfresh)
  refine Or.inr ?_
  have hrun := represents_run h call hgeneration
  have hgone : ∀ e ∈ call.retained s entries, e.1 ≠ name := by
    rintro e he rfl
    rw [(hrun.tracks.lookup e).mpr he] at hafter
    exact absurd hafter (by simp)
  have hkept : (name, stored) ∈ entries.filter (isFresh call.now s.ttl) :=
    List.mem_filter.mpr ⟨(h.tracks.lookup (name, stored)).mp hbefore, hfresh⟩
  rw [insertions_append]
  rw [Call.retained] at hgone
  cases hcall : call.insertion with
  | none =>
      rw [hcall] at hgone
      exact absurd rfl (hgone _ hkept)
  | some inserted =>
      rw [hcall] at hgone
      dsimp only at hgone
      -- the new entry has a place, so the name is another one
      have hne : name ≠ inserted.1 := (hgone _ (mem_push hcapacity)).symm
      have hsub := ((List.filter_sublist (p := isFresh call.now s.ttl)).map forget).trans hlatest
      have hmapped : (name, stored.file) ∈
          (entries.filter (isFresh call.now s.ttl)).map forget :=
        List.mem_map_of_mem (f := forget) hkept
      refine capacity_le_of_dropped hsub hmapped hne ?_
      intro hmem
      rw [← map_forget_push (s := s)] at hmem
      obtain ⟨e, he, heq⟩ := List.mem_map.mp hmem
      exact hgone e he (Prod.mk.inj heq).1

/-- **Retained files.**  Of a store that served any calls, the map and the queue agree on every
file and keep within their bounds, `list` shows the retained files in decreasing order of their
insertion, `get` answers with what was inserted last, a file that is inserted is in the store, and
a file disappears only if it has expired or as many other names were inserted after it as there
are places. -/
theorem retained_files_invariant (maxEntries ttl : ℕ) (calls : List Call)
    (hgeneration : (runCalls maxEntries ttl calls).nextGeneration < U64_MAX) :
    let s := runCalls maxEntries ttl calls
    (∀ name stored, s.byName.lookup name = some stored →
      s.order.count (name, stored.generation) = 1) ∧
    s.byName.keys.length ≤ s.maxEntries ∧ s.order.length ≤ s.maxEntries + 1 ∧
    (∀ now, ∃ files : List (Str × RetainedFile),
      (s.list now).2 = files.map (·.2.metadata) ∧
      (files.map Prod.fst).Nodup ∧ files.Sublist (latest Prod.fst (insertions calls)) ∧
      (∀ name, name ∈ files.map Prod.fst ↔ name ∈ (s.list now).1.byName.keys) ∧
      (∀ name, name ∈ files.map Prod.fst ↔ (s.get name now).2.isSome) ∧
      ((∀ inserted ∈ insertions calls, inserted.2.metadata.filename = inserted.1) →
        (s.list now).2.map (·.filename) = files.map Prod.fst)) ∧
    (∀ name now file, (s.get name now).2 = some file →
      (insertions calls).find? (fun inserted => inserted.1 = name) = some (name, file)) ∧
    (∀ name file now, ∃ stored, (Call.run (.insertProcessed name file now) s).byName.lookup name =
      some stored ∧ stored.file = file) ∧
    (∀ call name stored, s.byName.lookup name = some stored →
      (call.run s).byName.lookup name = none →
      s.ttl < age call.now stored.file.completedAt ∨
        s.maxEntries ≤ (laterKeys Prod.fst name (insertions (calls ++ [call]))).card) := by
  intro s
  obtain ⟨entries, hrepresents, hlatest⟩ := represents_runCalls maxEntries ttl calls hgeneration
  have hcapacity : 0 < s.maxEntries := by
    rw [maxEntries_runCalls]
    exact lt_of_lt_of_le Nat.one_pos (le_max_right _ _)
  refine ⟨?_, ?_, hrepresents.order_length_le, ?_, ?_, ?_, ?_⟩
  · intro name stored hstored
    have hplace : (name, stored.generation) ∈ (entries.map place).reverse :=
      List.mem_reverse.mpr (List.mem_map_of_mem
        ((hrepresents.tracks.lookup (name, stored)).mp hstored))
    rw [← hrepresents.tracks.current] at hplace
    exact List.count_eq_one_of_mem hrepresents.nodup_order (List.mem_filter.mp hplace).1
  · rw [hrepresents.tracks.length_keys]
    exact hrepresents.length_le
  · intro now
    have hfiles := ((List.filter_sublist (p := isFresh now s.ttl)).map forget).trans hlatest
    have hget : ∀ name, name ∈ ((entries.filter (isFresh now s.ttl)).map forget).map Prod.fst ↔
        (s.get name now).2.isSome := by
      intro name
      rw [Option.isSome_iff_exists, List.mem_map]
      constructor
      · rintro ⟨⟨_, file⟩, hfile, rfl⟩
        exact ⟨file, (get_eq_some_iff hrepresents).mpr hfile⟩
      · rintro ⟨file, hfile⟩
        exact ⟨(name, file), (get_eq_some_iff hrepresents).mp hfile, rfl⟩
    refine ⟨(entries.filter (isFresh now s.ttl)).map forget, list_eq hrepresents now,
      nodup_latest.sublist (hfiles.map Prod.fst), hfiles, ?_, hget, ?_⟩
    · intro name
      rw [hget, ← AList.mem_keys, ← AList.lookup_isSome]
      show (Option.map _ ((s.evictExpired now).byName.lookup name)).isSome ↔ _
      rw [Option.isSome_map]
      rfl
    · intro hnamed
      rw [list_eq hrepresents, List.map_map]
      refine List.map_congr_left ?_
      intro inserted hmem
      exact hnamed inserted (latest_sublist.subset (hfiles.subset hmem))
  · intro name now file hfile
    have hmem := (get_eq_some_iff hrepresents).mp hfile
    exact find?_of_mem_latest (hlatest.subset ((List.filter_sublist.map forget).subset hmem))
  · intro name file now
    exact ⟨_, lookup_insertProcessed hrepresents hgeneration hcapacity name file now, rfl⟩
  · intro call name stored hbefore hafter
    exact expired_or_displaced hrepresents hlatest hgeneration hcapacity hbefore hafter

/-- A file that is inserted again keeps one place in a queue for two files. -/
theorem retained_files_invariant_reinserted :
    let file : RetainedFile := ⟨[], 0, ⟨['a'], 0, 0, .qbt, ⟨none, none⟩⟩⟩
    let s := runCalls 1 0 [.insertProcessed ['a'] file 0, .insertProcessed ['a'] file 0, .len 0]
    s.order.length ≤ 2 ∧ s.order.count (['a'], 2) = 1 := by
  intro file s
  obtain ⟨hcount, -, hlength, -⟩ := retained_files_invariant 1 0
    [.insertProcessed ['a'] file 0, .insertProcessed ['a'] file 0, .len 0] (by decide)
  have hentry : s.byName.lookup ['a'] = some ⟨2, file⟩ := by decide
  rw [maxEntries_runCalls] at hlength
  exact ⟨hlength, hcount ['a'] ⟨2, file⟩ hentry⟩

end Live
