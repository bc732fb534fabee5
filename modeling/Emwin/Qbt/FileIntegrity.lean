/-
# What the assembled files are made of

Along every run of the assembler, the parts of an in-flight entry are segments that
were pushed under the entry's key, filed under their own block numbers
(`exec_stored`).  A file is emitted when the number of parts equals the total of the
latest segment, whatever the totals of the other parts are; so a file is sure to be
intact when, at the push that completes it, the other parts announced that total
as well (`files_intact`), and a change of the total in between breaks it.
-/
import Emwin.Qbt.Assembler

namespace Qbt

namespace QbtFileAssembler

open StepLoop

variable (toLowercase : Str → Str)

/-- A file made of all the blocks of one transmission: `blocks` are segments of the
history with the key of `segment`, numbered from one, that announce their number. -/
def Intact (history : List QbtSegment) (segment : QbtSegment) (file : QbtCompletedFile) : Prop :=
  ∃ blocks : List QbtSegment, blocks ≠ [] ∧
    (∀ i block, blocks[i]? = some block →
      block ∈ history ∧ fileKey toLowercase block = fileKey toLowercase segment ∧
      block.blockNumber.toNat = i + 1 ∧ block.totalBlocks.toNat = blocks.length) ∧
    file.data = (blocks.map QbtSegment.content).flatten

/-- The parts of an entry are segments of the history, filed under their numbers. -/
def Stored (history : List QbtSegment) (key : Str) (entry : InflightFile) : Prop :=
  ∀ e ∈ entry.parts.entries, e.2 ∈ history ∧ fileKey toLowercase e.2 = key ∧
    e.2.blockNumber.toNat = e.1 ∧ 1 ≤ e.1 ∧ e.1 ≤ e.2.totalBlocks.toNat

/-- The invariant of the assembler: every entry is made of pushed segments. -/
def AssemblerOk (history : List QbtSegment) (asm : QbtFileAssembler) : Prop :=
  ∀ key entry, asm.byKey.lookup key = some entry → Stored toLowercase history key entry

/-- A completing push meets only parts that announced the same total. -/
def Consistent (asm : QbtFileAssembler) : Call → Prop
  | .clear => True
  | .push segment now _ =>
      ignores toLowercase asm segment = false →
      ∀ entry, asm.byKey.lookup (fileKey toLowercase segment) = some entry →
        asm.isLive now entry = true →
        (entry.parts.insert segment.blockNumber.toNat segment).size % 2 ^ 32 =
          segment.totalBlocks.toNat →
        ∀ part ∈ entry.parts.values, part.blockNumber ≠ segment.blockNumber →
          part.totalBlocks = segment.totalBlocks

/-! ## Evictions only remove entries -/

section Evictions

/-- The overflow loop maps no key to anything new. -/
theorem lookup_of_evictLoop {order : IterationOrder (Σ _ : Str, InflightFile)} {minCapacity : ℕ}
    {m : AList fun _ : Str => InflightFile} {key : Str} {entry : InflightFile}
    (h : ((evictLoop order minCapacity).drain m).2.lookup key = some entry) :
    m.lookup key = some entry := by
  have hruns := (evictLoop order minCapacity).runs_drain m
  refine hruns.invariant
    (P := fun u => ∀ k v, u.lookup k = some v → m.lookup k = some v) ?_ (fun _ _ h => h) key entry h
  intro u hu k v hk
  have hbody : (evictLoop order minCapacity).body u = evictPass order minCapacity u := rfl
  rw [hbody] at hk
  unfold evictPass at hk
  split_ifs at hk
  · cases hmin : (order.run u.entries).argmin fun e => e.2.lastSeen with
    | none => rw [hmin] at hk; exact hu k v hk
    | some oldest =>
        rw [hmin] at hk
        by_cases heq : k = oldest.1
        · subst heq
          have hnone : (u.erase oldest.1).lookup oldest.1 = none := AList.lookup_erase _ _
          exact absurd (hnone.symm.trans hk) (by simp)
        · exact hu k v ((AList.lookup_erase_ne heq).symm.trans hk)
  · exact hu k v hk

variable {toLowercase} {asm : QbtFileAssembler} {segment : QbtSegment} {now : ℕ}
  {order : IterationOrder (Σ _ : Str, InflightFile)}

theorem lookup_evictStaleInflight (key : Str) :
    (asm.evictStaleInflight now).byKey.lookup key =
      (asm.byKey.lookup key).filter (asm.isLive now) :=
  AList.lookup_retain _ _ _

/-- What is left after the evictions was there before. -/
theorem lookup_of_evicted {key : Str} {entry : InflightFile}
    (h : (evicted toLowercase asm segment now order).byKey.lookup key = some entry) :
    asm.byKey.lookup key = some entry ∧ asm.isLive now entry = true := by
  have hstale : (asm.evictStaleInflight now).byKey.lookup key = some entry := by
    unfold evicted at h
    dsimp only at h
    split at h
    · exact h
    · exact lookup_of_evictLoop h
  rw [lookup_evictStaleInflight] at hstale
  exact Option.filter_eq_some_iff.mp hstale

/-- The invariant survives evictions. -/
theorem AssemblerOk.evicted {history : List QbtSegment}
    (h : AssemblerOk toLowercase history asm) :
    AssemblerOk toLowercase history (evicted toLowercase asm segment now order) := by
  intro key entry hentry
  exact h key entry (lookup_of_evicted hentry).1

end Evictions

/-! ## One call -/

section Steps

variable {toLowercase} {history : List QbtSegment} {asm : QbtFileAssembler}
  {segment : QbtSegment} {now : ℕ} {order : IterationOrder (Σ _ : Str, InflightFile)}

theorem Stored.mono {history' : List QbtSegment} {key : Str} {entry : InflightFile}
    (hsub : history ⊆ history') (h : Stored toLowercase history key entry) :
    Stored toLowercase history' key entry := by
  intro e he
  obtain ⟨hmem, hrest⟩ := h e he
  exact ⟨hsub hmem, hrest⟩

/-- A segment that is not ignored is numbered from one to its total. -/
theorem numbering_of_not_ignores (h : ignores toLowercase asm segment = false) :
    1 ≤ segment.blockNumber.toNat ∧ segment.blockNumber.toNat ≤ segment.totalBlocks.toNat := by
  simp only [ignores, Bool.or_eq_false_iff, beq_eq_false_iff_ne, decide_eq_false_iff_not] at h
  obtain ⟨⟨-, ⟨-, hzero⟩, hle⟩, -⟩ := h
  refine ⟨?_, UInt32.le_iff_toNat_le.mp (UInt32.not_lt.mp hle)⟩
  have hne : segment.blockNumber.toNat ≠ 0 := fun h0 => hzero (UInt32.toNat_inj.mp h0)
  omega

/-- The parts of the stored entry: the segment, and earlier parts with other numbers. -/
theorem mem_storedEntry {e : ℕ × QbtSegment}
    (h : e ∈ (storedEntry toLowercase asm segment now).parts.entries) :
    e = (segment.blockNumber.toNat, segment) ∨
      ∃ entry, asm.byKey.lookup (fileKey toLowercase segment) = some entry ∧
        e ∈ entry.parts.entries ∧ e.1 ≠ segment.blockNumber.toNat := by
  unfold storedEntry at h
  dsimp only at h
  cases hl : asm.byKey.lookup (fileKey toLowercase segment) with
  | none =>
      rw [hl] at h
      rcases OrderedMap.mem_insert h with h | ⟨h, -⟩
      · exact Or.inl h
      · cases h
  | some entry =>
      rw [hl] at h
      rcases OrderedMap.mem_insert h with h | ⟨h, hne⟩
      · exact Or.inl h
      · exact Or.inr ⟨entry, rfl, h, hne⟩

/-- Storing a segment keeps its entry made of pushed segments. -/
theorem stored_storedEntry (hok : AssemblerOk toLowercase history asm)
    (hnum : 1 ≤ segment.blockNumber.toNat ∧
      segment.blockNumber.toNat ≤ segment.totalBlocks.toNat) :
    Stored toLowercase (history ++ [segment]) (fileKey toLowercase segment)
      (storedEntry toLowercase asm segment now) := by
  intro e he
  rcases mem_storedEntry he with rfl | ⟨entry, hl, hmem, -⟩
  · exact ⟨by simp, rfl, rfl, hnum⟩
  · exact (hok _ _ hl).mono (List.subset_append_left _ _) e hmem

/-- Remembering a key does not touch the entries. -/
theorem byKey_rememberCompleted (key : Str) : (asm.rememberCompleted key).byKey = asm.byKey := by
  unfold rememberCompleted
  split <;> rfl

/-- What a push can do: ignore the segment, store it, or store it and emit a file. -/
theorem push_cases (toLowercase : Str → Str) (asm : QbtFileAssembler) (segment : QbtSegment)
    (now : ℕ) (order : IterationOrder (Σ _ : Str, InflightFile)) :
    let asm' := evicted toLowercase asm segment now order
    let entry := storedEntry toLowercase asm' segment now
    push toLowercase asm segment now order = (none, asm) ∨
    (ignores toLowercase asm segment = false ∧ push toLowercase asm segment now order =
      (none, { asm' with byKey := asm'.byKey.insert (fileKey toLowercase segment) entry })) ∨
    (ignores toLowercase asm segment = false ∧
      entry.parts.size % 2 ^ 32 = segment.totalBlocks.toNat ∧
      ∃ first, entry.parts.values.head? = some first ∧
        (push toLowercase asm segment now order).1 = some (completedFile first entry) ∧
        (push toLowercase asm segment now order).2.byKey =
          (asm'.byKey.insert (fileKey toLowercase segment) entry).erase
            (fileKey toLowercase segment)) := by
  intro asm' entry
  unfold push
  cases hig : ignores toLowercase asm segment with
  | true => exact Or.inl rfl
  | false =>
      right
      simp only [Bool.false_eq_true, if_false]
      split_ifs with hsize
      · exact Or.inl ⟨trivial, rfl⟩
      · cases hhead : (storedEntry toLowercase (evicted toLowercase asm segment now order)
            segment now).parts.values.head? with
        | none => exact Or.inl ⟨trivial, rfl⟩
        | some first =>
            refine Or.inr ⟨trivial, not_not.mp hsize, first, rfl, rfl, ?_⟩
            exact byKey_rememberCompleted _

/-- **Step.**  Every push keeps the entries made of pushed segments. -/
theorem push_ok (hok : AssemblerOk toLowercase history asm) :
    AssemblerOk toLowercase (history ++ [segment])
      (push toLowercase asm segment now order).2 := by
  have hgrow : ∀ key entry, asm.byKey.lookup key = some entry →
      Stored toLowercase (history ++ [segment]) key entry := fun key entry hl =>
    (hok key entry hl).mono (List.subset_append_left _ _)
  intro key entry hentry
  rcases push_cases toLowercase asm segment now order with h | ⟨hig, h⟩ | ⟨hig, -, first, -, -, h⟩
  · rw [h] at hentry
    exact hgrow key entry hentry
  · rw [h] at hentry
    by_cases hkey : key = fileKey toLowercase segment
    · subst hkey
      have hself := AList.lookup_insert (a := fileKey toLowercase segment)
        (b := storedEntry toLowercase (evicted toLowercase asm segment now order) segment now)
        (evicted toLowercase asm segment now order).byKey
      cases Option.some.inj (hself.symm.trans hentry)
      exact stored_storedEntry hok.evicted (numbering_of_not_ignores hig)
    · have hother := (AList.lookup_insert_ne hkey).symm.trans hentry
      exact hgrow key entry (lookup_of_evicted hother).1
  · rw [h] at hentry
    by_cases hkey : key = fileKey toLowercase segment
    · subst hkey
      exact absurd ((AList.lookup_erase _ _).symm.trans hentry) (by simp)
    · have hother := (AList.lookup_erase_ne hkey).symm.trans hentry
      have hother' := (AList.lookup_insert_ne hkey).symm.trans hother
      exact hgrow key entry (lookup_of_evicted hother').1

/-- A file emitted by a consistent push is intact. -/
theorem intact_of_push (hok : AssemblerOk toLowercase history asm)
    (hcons : Consistent toLowercase asm (.push segment now order)) {file : QbtCompletedFile}
    (hfile : (push toLowercase asm segment now order).1 = some file) :
    Intact toLowercase (history ++ [segment]) segment file := by
  rcases push_cases toLowercase asm segment now order with h | ⟨-, h⟩ | ⟨hig, hsize, first, -, h, -⟩
  · rw [h] at hfile
    cases hfile
  · rw [h] at hfile
    cases hfile
  · rw [h] at hfile
    obtain rfl := Option.some.inj hfile
    set asm' := evicted toLowercase asm segment now order with hasm'
    set entry := storedEntry toLowercase asm' segment now with hentry
    have hnum := numbering_of_not_ignores hig
    have hstored : Stored toLowercase (history ++ [segment]) (fileKey toLowercase segment) entry :=
      stored_storedEntry hok.evicted hnum
    -- every part announced the total of the completing segment
    have htotal : ∀ e ∈ entry.parts.entries, e.2.totalBlocks = segment.totalBlocks := by
      intro e he
      rcases mem_storedEntry he with rfl | ⟨old, hl, hmem, hne⟩
      · rfl
      · obtain ⟨hold, hlive⟩ := lookup_of_evicted hl
        have hparts : entry.parts = old.parts.insert segment.blockNumber.toNat segment := by
          rw [hentry, storedEntry, hl]
          rfl
        refine hcons hig old hold hlive (hparts ▸ hsize) e.2 (List.mem_map_of_mem hmem) ?_
        intro heq
        exact hne (by rw [← (hok.evicted _ _ hl e hmem).2.2.1, heq])
    have hrange : ∀ k ∈ entry.parts.keys, 1 ≤ k ∧ k ≤ segment.totalBlocks.toNat := by
      intro k hk
      obtain ⟨e, he, rfl⟩ := List.mem_map.mp hk
      obtain ⟨-, -, -, h1, h2⟩ := hstored e he
      rw [htotal e he] at h2
      exact ⟨h1, h2⟩
    have hlt := segment.totalBlocks.toNat_lt
    have hle := OrderedMap.size_le_of_range hrange
    have hcount : entry.parts.size = segment.totalBlocks.toNat := by
      rw [← hsize, Nat.mod_eq_of_lt (by omega)]
    have hkeys := OrderedMap.keys_eq_range' hrange hcount
    refine ⟨entry.parts.values, ?_, ?_, rfl⟩
    · intro hnil
      have : entry.parts.size = 0 := by
        rw [OrderedMap.size, ← List.length_map Prod.snd]
        exact congrArg List.length hnil
      omega
    · intro i block hblock
      obtain ⟨e, he, rfl⟩ := Option.map_eq_some_iff.mp ((List.getElem?_map ..).symm.trans hblock)
      have hmem := List.mem_of_getElem? he
      obtain ⟨h1, h2, h3, -, -⟩ := hstored e hmem
      have hi : i < segment.totalBlocks.toNat := by
        rw [← hcount]
        exact (List.getElem?_eq_some_iff.mp he).1
      have hkey : some e.1 = some (1 + i) := by
        have hget : entry.parts.keys[i]? = some e.1 := by
          rw [OrderedMap.keys, List.getElem?_map, he]
          rfl
        rw [← hget, hkeys, List.getElem?_range' hi]
        simp
      refine ⟨h1, h2, ?_, ?_⟩
      · rw [h3, Option.some.inj hkey, Nat.add_comm]
      · rw [htotal e hmem, ← hcount, OrderedMap.size, OrderedMap.values, List.length_map]

end Steps

/-! ## Runs -/

section Runs

variable {toLowercase}

/-- **Run.**  Along every run the entries are made of segments pushed in it. -/
theorem exec_stored (duplicateCacheSize maxInflightFiles inflightTtl : ℕ) (calls : List Call) :
    AssemblerOk toLowercase (pushed calls)
      (exec toLowercase (withLimits duplicateCacheSize maxInflightFiles inflightTtl) calls) := by
  induction calls using List.reverseRecOn with
  | nil =>
      intro key entry hentry
      exact absurd ((AList.lookup_empty key).symm.trans hentry) (by simp)
  | append_singleton calls call ih =>
      unfold exec at ih ⊢
      rw [List.foldl_append, List.foldl_cons, List.foldl_nil]
      unfold pushed at ih ⊢
      rw [List.filterMap_append]
      cases call with
      | push segment now order => exact push_ok ih
      | clear =>
          intro key entry hentry
          exact absurd ((AList.lookup_empty key).symm.trans hentry) (by simp)

/-- Where a key is announced with one total only, its pushes are consistent. -/
theorem consistent_of_same_total (duplicateCacheSize maxInflightFiles inflightTtl : ℕ)
    {before : List Call} {segment : QbtSegment} {now : ℕ}
    {order : IterationOrder (Σ _ : Str, InflightFile)}
    (h : ∀ s ∈ pushed before, fileKey toLowercase s = fileKey toLowercase segment →
      s.totalBlocks = segment.totalBlocks) :
    Consistent toLowercase (exec toLowercase
      (withLimits duplicateCacheSize maxInflightFiles inflightTtl) before)
        (.push segment now order) := by
  intro _ entry hentry _ _ part hpart _
  obtain ⟨e, he, rfl⟩ := List.mem_map.mp hpart
  obtain ⟨hmem, hkey, -⟩ := exec_stored _ _ _ before _ entry hentry e he
  exact h e.2 hmem hkey

end Runs

/-- **File integrity.**  In a run whose pushes are all consistent, every emitted file
is made of all the blocks of one transmission. -/
theorem files_intact (duplicateCacheSize maxInflightFiles inflightTtl : ℕ) (calls : List Call)
    (hsteps : ∀ before call, before ++ [call] <+: calls →
      Consistent toLowercase (exec toLowercase
        (withLimits duplicateCacheSize maxInflightFiles inflightTtl) before) call)
    (before : List Call) (segment : QbtSegment) (now : ℕ)
    (order : IterationOrder (Σ _ : Str, InflightFile)) (file : QbtCompletedFile)
    (hrun : before ++ [.push segment now order] <+: calls)
    (hfile : (push toLowercase (exec toLowercase
      (withLimits duplicateCacheSize maxInflightFiles inflightTtl) before)
        segment now order).1 = some file) :
    Intact toLowercase (pushed (before ++ [.push segment now order])) segment file := by
  have hok : AssemblerOk toLowercase (pushed before) _ :=
    exec_stored duplicateCacheSize maxInflightFiles inflightTtl before
  have hintact := intact_of_push hok (hsteps _ _ hrun) hfile
  unfold pushed at hintact ⊢
  rw [List.filterMap_append]
  exact hintact

/-- A block of `a.txt` at the epoch. -/
def blockOfA (number total : UInt32) (content : List UInt8) : QbtSegment where
  filename := "a.txt".toList
  blockNumber := number
  totalBlocks := total
  content := content
  checksum := 0
  length := content.length
  version := .v1
  timestampUtc := 0
  source := none

/-- Two blocks that announce the same total make an intact file. -/
theorem files_intact_two_blocks :
    Intact (List.map Char.toLower) [blockOfA 2 2 [0x44], blockOfA 1 2 [0x41]]
      (blockOfA 1 2 [0x41]) ⟨"a.txt".toList, [0x41, 0x44], 0⟩ := by
  refine files_intact (List.map Char.toLower) 10 10 1000000000
    [.push (blockOfA 2 2 [0x44]) 0 .plain, .push (blockOfA 1 2 [0x41]) 1 .plain] ?_
    [.push (blockOfA 2 2 [0x44]) 0 .plain] (blockOfA 1 2 [0x41]) 1 .plain
    ⟨"a.txt".toList, [0x41, 0x44], 0⟩ (List.prefix_refl _) (by decide +kernel)
  intro before call hrun
  have htotal : ∀ c ∈ before ++ [call], ∀ s ∈ c.segment?, s.totalBlocks = 2 := by
    intro c hc
    rcases List.mem_cons.mp (hrun.subset hc) with rfl | hc
    · intro s hs
      cases hs
      rfl
    · obtain rfl := List.mem_singleton.mp hc
      intro s hs
      cases hs
      rfl
  cases call with
  | clear => trivial
  | push segment now order =>
      refine consistent_of_same_total 10 10 1000000000 fun s hs _ => ?_
      obtain ⟨c, hc, hseg⟩ := List.mem_filterMap.mp hs
      exact (htotal c (List.mem_append_left _ hc) s hseg).trans
        (htotal _ (List.mem_append_right _ List.mem_cons_self) segment rfl).symm

/-- A block of three and then a first block of two are emitted as one file. -/
theorem mixed_totals_not_intact :
    ¬ ∀ (toLowercase : Str → Str) (duplicateCacheSize maxInflightFiles inflightTtl : ℕ)
      (before : List Call) (segment : QbtSegment) (now : ℕ)
      (order : IterationOrder (Σ _ : Str, InflightFile)) (file : QbtCompletedFile),
      (push toLowercase (exec toLowercase
        (withLimits duplicateCacheSize maxInflightFiles inflightTtl) before)
          segment now order).1 = some file →
      Intact toLowercase (pushed (before ++ [.push segment now order])) segment file := by
  intro h
  obtain ⟨blocks, hne, hblocks, -⟩ := h (List.map Char.toLower) 10 10 1000000000
    [.push (blockOfA 3 3 [0x43]) 0 .plain] (blockOfA 1 2 [0x41]) 1 .plain
    ⟨"a.txt".toList, [0x41, 0x43], 0⟩ (by decide +kernel)
  have hhistory : pushed ([Call.push (blockOfA 3 3 [0x43]) 0 .plain] ++
      [.push (blockOfA 1 2 [0x41]) 1 .plain]) = [blockOfA 3 3 [0x43], blockOfA 1 2 [0x41]] := rfl
  rw [hhistory] at hblocks
  -- the first block is the one of two, and there is no second one
  have hmem : ∀ i block, blocks[i]? = some block →
      (i = 2 ∧ blocks.length = 3) ∨ (i = 0 ∧ blocks.length = 2) := by
    intro i block hi
    obtain ⟨hin, -, hnum, htotal⟩ := hblocks i block hi
    rcases List.mem_cons.mp hin with rfl | hin
    · exact Or.inl ⟨by simpa [blockOfA] using hnum.symm, by simpa [blockOfA] using htotal.symm⟩
    · obtain rfl := List.mem_singleton.mp hin
      exact Or.inr ⟨by simpa [blockOfA] using hnum.symm, by simpa [blockOfA] using htotal.symm⟩
  have hpos : 0 < blocks.length := List.length_pos_iff.mpr hne
  rcases hmem 0 _ (List.getElem?_eq_getElem hpos) with ⟨h0, -⟩ | ⟨-, hlen⟩
  · cases h0
  · rcases hmem 1 _ (List.getElem?_eq_getElem (by omega)) with ⟨h1, -⟩ | ⟨h1, -⟩
    · cases h1
    · cases h1

end QbtFileAssembler

end Qbt
