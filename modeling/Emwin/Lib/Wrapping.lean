/-
# Wrapped words

Words that are wrapped at ASCII white space, whatever there is of it, are compacted to the words
with single spaces between them (`compactWhitespace_eq_unwords`).
-/
import Emwin.Lib.Ascii
import Emwin.Lib.Words

namespace Str

variable {s : Str} {c : Char} {ws : List Str}

/-- Words with single spaces between them. -/
def unwords (ws : List Str) : Str := List.intercalate [' '] ws

@[simp] theorem unwords_nil : unwords [] = [] := rfl

@[simp] theorem unwords_singleton (w : Str) : unwords [w] = w := List.intercalate_singleton

theorem unwords_cons (w : Str) (hws : ws ≠ []) : unwords (w :: ws) = w ++ ' ' :: unwords ws := by
  rw [unwords, List.intercalate_cons_of_ne_nil hws, List.append_assoc]
  rfl

/-- A word has a character, and no white space. -/
def IsWord (w : Str) : Prop := w ≠ [] ∧ ∀ c ∈ w, isWhitespace c = false

instance (w : Str) : Decidable (IsWord w) := inferInstanceAs (Decidable (_ ∧ _))

theorem isWhitespace_of_isAsciiWhitespace (h : isAsciiWhitespace c = true) :
    isWhitespace c = true := by
  simp only [isAsciiWhitespace, Bool.or_eq_true, decide_eq_true_eq] at h
  rcases h with (((rfl | rfl) | rfl) | rfl) | rfl <;> decide

/-! ## Words -/

/-- The first word, and the words behind it. -/
theorem splitWhitespace_cons_of_visible (hc : isWhitespace c = false) (s : Str) :
    splitWhitespace (c :: s) = (c :: s.takeWhile fun d => !isWhitespace d) ::
      splitWhitespace (s.dropWhile fun d => !isWhitespace d) := by
  have hword : ∀ d ∈ c :: s.takeWhile (fun d => !isWhitespace d), isWhitespace d = false := by
    refine List.forall_mem_cons.mpr ⟨hc, fun d hd => ?_⟩
    simpa using List.mem_takeWhile_imp hd
  have hsplit : c :: s = (c :: s.takeWhile fun d => !isWhitespace d) ++
      s.dropWhile fun d => !isWhitespace d := by
    rw [List.cons_append, List.takeWhile_append_dropWhile]
  rw [hsplit]
  rcases hrest : s.dropWhile fun d => !isWhitespace d with _ | ⟨d, rest⟩
  · rw [List.append_nil, splitWhitespace_eq_singleton (by simp) hword, splitWhitespace_nil]
  · have hd : isWhitespace d = true := by
      have hhead := List.head?_dropWhile_not (fun d => !isWhitespace d) s
      rw [hrest] at hhead
      simpa using hhead
    rw [splitWhitespace_append_cons hd, splitWhitespace_cons hd,
      splitWhitespace_eq_singleton (by simp) hword]
    rfl

/-- The words of texts that are joined by spaces are those of the texts. -/
theorem splitWhitespace_unwords_flatMap (texts : List Str) :
    splitWhitespace (unwords texts) = texts.flatMap splitWhitespace := by
  induction texts with
  | nil => rfl
  | cons text texts ih =>
      by_cases hnil : texts = []
      · rw [hnil, unwords_singleton, List.flatMap_singleton]
      · rw [unwords_cons text hnil, splitWhitespace_append_cons (by decide), ih, List.flatMap_cons]

/-- The words are those between the spaces. -/
theorem splitWhitespace_unwords (hws : ∀ w ∈ ws, IsWord w) : splitWhitespace (unwords ws) = ws := by
  have hword : ∀ w ∈ ws, splitWhitespace w = [w] := by
    intro w hw
    exact splitWhitespace_eq_singleton (hws w hw).1 (hws w hw).2
  rw [splitWhitespace_unwords_flatMap, List.flatMap_congr hword, List.flatMap_singleton']

theorem unwords_ne_nil (hne : ws ≠ []) (hws : ∀ w ∈ ws, IsWord w) : unwords ws ≠ [] := by
  obtain ⟨w, ws, rfl⟩ := List.exists_cons_of_ne_nil hne
  have hw := (hws w List.mem_cons_self).1
  by_cases hnil : ws = []
  · rwa [hnil, unwords_singleton]
  · rw [unwords_cons w hnil]
    exact List.append_ne_nil_of_left_ne_nil hw _

/-- The last word does not end with white space. -/
theorem isWhitespace_getLast_unwords (hws : ∀ w ∈ ws, IsWord w) :
    ∀ c ∈ (unwords ws).getLast?, isWhitespace c = false := by
  induction ws with
  | nil => exact fun _ h => nomatch h
  | cons w ws ih =>
      obtain ⟨⟨hne, hword⟩, hrest⟩ := List.forall_mem_cons.mp hws
      intro c hc
      by_cases hnil : ws = []
      · rw [hnil, unwords_singleton] at hc
        exact hword c (List.mem_of_getLast? hc)
      · rw [unwords_cons w hnil, List.getLast?_append_cons, List.getLast?_cons] at hc
        have hd := List.getLast?_eq_getLast_of_ne_nil (unwords_ne_nil hnil hrest)
        rw [hd] at hc ih
        exact ih hrest c hc

/-- What goes on behind the last word belongs to it. -/
theorem unwords_splitWhitespace_append (hne : ws ≠ []) (hws : ∀ w ∈ ws, IsWord w)
    (hs : ∀ c ∈ s, isWhitespace c = false) :
    unwords (splitWhitespace (unwords ws ++ s)) = unwords ws ++ s := by
  induction ws with
  | nil => exact absurd rfl hne
  | cons w ws ih =>
      obtain ⟨⟨hw, hword⟩, hrest⟩ := List.forall_mem_cons.mp hws
      by_cases hnil : ws = []
      · rw [hnil, unwords_singleton, splitWhitespace_eq_singleton (by simp [hw])
          (List.forall_mem_append.mpr ⟨hword, hs⟩), unwords_singleton]
      · have hsome : splitWhitespace (unwords ws ++ s) ≠ [] := by
          intro h
          have happend := ih hnil hrest
          rw [h, unwords_nil] at happend
          exact unwords_ne_nil hnil hrest (List.append_eq_nil_iff.mp happend.symm).1
        rw [unwords_cons w hnil, List.append_assoc, List.cons_append,
          splitWhitespace_append_cons (by decide), splitWhitespace_eq_singleton hw hword,
          List.singleton_append, unwords_cons w hsome, ih hnil hrest]

/-! ## Compaction -/

/-- Words behind a text that has been kept. -/
def joinWords (kept : Str) (ws : List Str) : Str :=
  if kept = [] then unwords ws else unwords (kept :: ws)

theorem joinWords_nil (kept : Str) : joinWords kept [] = kept := by
  unfold joinWords
  split_ifs with h
  · rw [h, unwords_nil]
  · exact unwords_singleton kept

theorem joinWords_of_ne_nil {kept : Str} (h : kept ≠ []) (ws : List Str) :
    joinWords kept ws = unwords (kept :: ws) := if_neg h

/-- A word that is kept. -/
theorem joinWords_cons {kept : Str} (h : kept ≠ []) (w : Str) (ws : List Str) :
    joinWords kept (w :: ws) = joinWords (kept ++ ' ' :: w) ws := by
  rw [joinWords_of_ne_nil h, joinWords_of_ne_nil (by simp)]
  cases ws with
  | nil => rw [unwords_cons _ (List.cons_ne_nil _ _), unwords_singleton, unwords_singleton]
  | cons next ws =>
      rw [unwords_cons kept (List.cons_ne_nil _ _), unwords_cons w (List.cons_ne_nil _ _),
        unwords_cons _ (List.cons_ne_nil _ _), List.append_assoc, List.cons_append]

/-- A run of the loop; a word goes on unless white space has been read. -/
theorem foldl_compaction (hs : ∀ c ∈ s, isWhitespace c = true → isAsciiWhitespace c = true)
    (kept : Str) (pending : Bool) :
    (s.foldl Compaction.push ⟨kept, pending⟩).kept =
      if pending = true ∨ kept = [] then joinWords kept (splitWhitespace s)
      else joinWords (kept ++ s.takeWhile fun d => !isWhitespace d)
        (splitWhitespace (s.dropWhile fun d => !isWhitespace d)) := by
  induction s generalizing kept pending with
  | nil =>
      rw [List.foldl_nil, List.takeWhile_nil, List.dropWhile_nil, List.append_nil,
        splitWhitespace_nil, joinWords_nil]
      exact (ite_self _).symm
  | cons c s ih =>
      obtain ⟨hascii, hrest⟩ := List.forall_mem_cons.mp hs
      rw [List.foldl_cons, Compaction.push]
      cases hc : isWhitespace c with
      | true =>
          rw [if_pos (hascii hc), ih hrest, if_pos (.inl rfl),
            List.takeWhile_cons_of_neg (by simp [hc]),
            List.dropWhile_cons_of_neg (by simp [hc]), List.append_nil, splitWhitespace_cons hc]
          exact (ite_self _).symm
      | false =>
          have hvisible : isAsciiWhitespace c ≠ true := by
            intro h
            rw [isWhitespace_of_isAsciiWhitespace h] at hc
            cases hc
          rw [if_neg hvisible, ih hrest, if_neg (by simp), splitWhitespace_cons_of_visible hc,
            List.takeWhile_cons_of_pos (by simp [hc]), List.dropWhile_cons_of_pos (by simp [hc])]
          by_cases hkept : kept = []
          · simp [hkept, joinWords]
          · cases pending with
            | true => simp [hkept, joinWords_cons]
            | false => simp [hkept]

/-- White space that is all ASCII is compacted to the spaces between words. -/
theorem compactWhitespace_eq_unwords
    (hs : ∀ c ∈ s, isWhitespace c = true → isAsciiWhitespace c = true) :
    compactWhitespace s = unwords (splitWhitespace s) := by
  rw [compactWhitespace, foldl_compaction hs, if_pos (.inr rfl)]
  rfl

end Str
