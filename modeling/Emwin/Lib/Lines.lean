/-
# Lines, words, and blocks of lines

A text is cut into lines at line feeds; a carriage return in front of one belongs to it.
Words are what stands between white space.

`scan` reads blocks: some lines start a block, and a collector says what the block is and how
many of the lines behind its first belong to it.  A collector that stops in front of a blank
line reads the lines before and behind one separately (`scan_append_blank`).  Reading can
fail as a whole, which is `none`.
-/
import Emwin.Lib.Text

namespace Str

/-! ## Lines -/

/-- Remove a carriage return at the end. -/
def stripReturn (line : Str) : Str := (stripSuffix ['\r'] line).getD line

/-- A line without a carriage return at its end is left as it is. -/
theorem stripReturn_eq_self {line : Str} (h : '\r' ∉ line) : stripReturn line = line := by
  unfold stripReturn stripSuffix
  rw [if_neg fun hsuffix => h (hsuffix.subset (by simp))]
  rfl

/-- The lines of a text of which `line` has been read as the beginning of one. -/
def linesFrom (line : Str) : Str → List Str
  | [] => if line = [] then [] else [line]
  | c :: s => if c = '\n' then stripReturn line :: linesFrom [] s else linesFrom (line ++ [c]) s

/-- The lines of a text. -/
def lines (s : Str) : List Str := linesFrom [] s

/-- A line feed ends a line. -/
theorem linesFrom_append (line s t : Str) :
    linesFrom line (s ++ '\n' :: t) = linesFrom line (s ++ ['\n']) ++ linesFrom [] t := by
  induction s generalizing line with
  | nil => simp [linesFrom]
  | cons c s ih =>
      by_cases hc : c = '\n'
      · simp [linesFrom, hc, ih]
      · simp [linesFrom, hc, ih]

/-- The lines before and behind a line feed. -/
theorem lines_append (s t : Str) : lines (s ++ '\n' :: t) = lines (s ++ ['\n']) ++ lines t :=
  linesFrom_append [] s t

/-- A text without line feeds is one line. -/
theorem linesFrom_line {line s : Str} (h : '\n' ∉ s) (hne : line ++ s ≠ []) :
    linesFrom line s = [line ++ s] := by
  induction s generalizing line with
  | nil => simpa [linesFrom] using hne
  | cons c s ih =>
      have hc : c ≠ '\n' := fun he => h (he ▸ List.mem_cons_self)
      rw [linesFrom, if_neg hc, ih (fun hs => h (List.mem_cons_of_mem _ hs)) (by simp)]
      simp

/-- A text with a line feed at its end only is one line. -/
theorem linesFrom_terminated {line s : Str} (h : '\n' ∉ s) :
    linesFrom line (s ++ ['\n']) = [stripReturn (line ++ s)] := by
  induction s generalizing line with
  | nil => simp [linesFrom]
  | cons c s ih =>
      have hc : c ≠ '\n' := fun he => h (he ▸ List.mem_cons_self)
      rw [List.cons_append, linesFrom, if_neg hc, ih fun hs => h (List.mem_cons_of_mem _ hs)]
      simp

/-- With a line feed behind it, a text has the same lines, except that the last one may lose
a carriage return and that an empty line may be added. -/
theorem linesFrom_feed (line s : Str) :
    linesFrom line (s ++ ['\n']) = linesFrom line s ++ [[]] ∨
      ∃ init last, linesFrom line s = init ++ [last] ∧
        linesFrom line (s ++ ['\n']) = init ++ [stripReturn last] := by
  induction s generalizing line with
  | nil =>
      by_cases hline : line = []
      · left
        subst hline
        simp [linesFrom, stripReturn, stripSuffix]
      · exact .inr ⟨[], line, by simp [linesFrom, hline], by simp [linesFrom]⟩
  | cons c s ih =>
      by_cases hc : c = '\n'
      · obtain h | ⟨init, last, h, h'⟩ := ih []
        · exact .inl (by simp [linesFrom, hc, h])
        · exact .inr ⟨stripReturn line :: init, last, by simp [linesFrom, hc, h],
            by simp [linesFrom, hc, h']⟩
      · simpa [linesFrom, hc] using ih (line ++ [c])

/-- The characters of lines are those of the text. -/
theorem mem_of_mem_linesFrom {line s l : Str} (h : l ∈ linesFrom line s) {c : Char} (hc : c ∈ l) :
    c ∈ line ∨ c ∈ s := by
  induction s generalizing line with
  | nil =>
      by_cases hline : line = []
      · simp [linesFrom, hline] at h
      · obtain rfl : l = line := by simpa [linesFrom, hline] using h
        exact .inl hc
  | cons a s ih =>
      rw [linesFrom] at h
      split at h
      · rcases List.mem_cons.mp h with rfl | h
        · left
          unfold stripReturn stripSuffix at hc
          split at hc
          · exact List.mem_of_mem_take hc
          · exact hc
        · rcases ih h with hnil | hs
          · cases hnil
          · exact .inr (List.mem_cons_of_mem _ hs)
      · rcases ih h with hline | hs
        · rcases List.mem_append.mp hline with hline | ha
          · exact .inl hline
          · exact .inr (by simp_all)
        · exact .inr (List.mem_cons_of_mem _ hs)

/-- Lines have no line feeds. -/
theorem notMem_of_mem_linesFrom {line s l : Str} (h : l ∈ linesFrom line s) (hline : '\n' ∉ line) :
    '\n' ∉ l := by
  induction s generalizing line with
  | nil =>
      by_cases hnil : line = []
      · simp [linesFrom, hnil] at h
      · obtain rfl : l = line := by simpa [linesFrom, hnil] using h
        exact hline
  | cons a s ih =>
      rw [linesFrom] at h
      split at h
      · rcases List.mem_cons.mp h with rfl | h
        · intro hc
          unfold stripReturn stripSuffix at hc
          split at hc
          · exact hline (List.mem_of_mem_take hc)
          · exact hline hc
        · exact ih h List.not_mem_nil
      · next ha => exact ih h (by simpa [hline] using Ne.symm ha)

/-- The first line begins with what has been read of it. -/
theorem exists_linesFrom_eq_cons {line : Str} (hne : line ≠ []) (hreturn : '\r' ∉ line)
    (t s : Str) :
    ∃ t' ls, linesFrom (line ++ t) s = (line ++ t') :: ls := by
  induction s generalizing t with
  | nil => exact ⟨t, [], by simp [linesFrom, hne]⟩
  | cons c s ih =>
      rw [linesFrom]
      split
      · rcases List.eq_nil_or_concat t with rfl | ⟨front, d, rfl⟩
        · exact ⟨[], _, by rw [List.append_nil, stripReturn_eq_self hreturn]⟩
        · by_cases hd : d = '\r'
          · refine ⟨front, linesFrom [] s, congrArg (· :: _) ?_⟩
            rw [stripReturn, stripSuffix, hd, List.concat_eq_append, ← List.append_assoc,
              if_pos (List.suffix_append _ _), List.length_append, List.length_singleton,
              Nat.add_sub_cancel, List.take_left]
            rfl
          · refine ⟨front ++ [d], linesFrom [] s, congrArg (· :: _) ?_⟩
            have hnot : ¬ ['\r'] <:+ line ++ front ++ [d] := by
              rintro ⟨u, hu⟩
              exact hd (List.singleton_inj.mp (List.append_inj' hu rfl).2).symm
            rw [stripReturn, stripSuffix, List.concat_eq_append, ← List.append_assoc, if_neg hnot]
            rfl
      · rw [List.append_assoc]
        exact ih (t ++ [c])

/-- The lines of lines that are joined: an empty one at the end is lost. -/
theorem lines_intercalate : ∀ {ls : List Str}, (∀ l ∈ ls, '\n' ∉ l ∧ '\r' ∉ l) →
    lines (List.intercalate ['\n'] ls) <+: ls
  | [], _ => List.prefix_refl _
  | [l], h => by
      rw [List.intercalate_singleton]
      by_cases hl : l = []
      · subst hl
        exact List.nil_prefix
      · have hline : linesFrom [] l = [[] ++ l] :=
          linesFrom_line (h l List.mem_cons_self).1 (by simpa using hl)
        rw [lines, hline]
        exact List.prefix_refl _
  | l :: l' :: ls, h => by
      obtain ⟨hfeed, hreturn⟩ := h l List.mem_cons_self
      have ih : lines (List.intercalate ['\n'] (l' :: ls)) <+: l' :: ls :=
        lines_intercalate fun a ha => h a (List.mem_cons_of_mem _ ha)
      have hline : lines (l ++ ['\n']) = [l] := by
        rw [lines, linesFrom_terminated hfeed, List.nil_append, stripReturn_eq_self hreturn]
      rw [List.intercalate_cons_cons, List.append_assoc, List.singleton_append, lines_append, hline,
        List.singleton_append]
      exact (List.cons_prefix_cons).mpr ⟨rfl, ih⟩

/-- The lines of a text, without carriage returns at their ends. -/
def bareLines (s : Str) : List Str := (lines s).map (trimEndMatches ['\r'])

/-- Carriage returns at the end are removed, and nothing else. -/
theorem trimEndMatches_return_cases (line : Str) :
    trimEndMatches ['\r'] line = line ∨ ∃ front, line = front ++ ['\r'] ∧
      trimEndMatches ['\r'] line = trimEndMatches ['\r'] front := by
  induction line using List.reverseRecOn with
  | nil => exact .inl rfl
  | append_singleton front c _ =>
      by_cases hc : c = '\r'
      · subst hc
        exact .inr ⟨front, rfl, List.rdropWhile_concat_pos _ _ _ (by simp)⟩
      · exact .inl (List.rdropWhile_concat_neg _ _ _ (by simpa using hc))

/-- A property of lines that a carriage return does not change. -/
theorem trimEndMatches_return_induction {α : Type*} {f : Str → α}
    (h : ∀ front, f (front ++ ['\r']) = f front) (line : Str) :
    f (trimEndMatches ['\r'] line) = f line := by
  induction line using List.reverseRecOn with
  | nil => rfl
  | append_singleton front c ih =>
      rcases trimEndMatches_return_cases (front ++ [c]) with heq | ⟨front', hfront, heq⟩
      · rw [heq]
      · obtain ⟨rfl, hc⟩ := List.append_inj' hfront rfl
        rw [heq, ih, hc, h]

/-- Removing one carriage return first makes no difference. -/
theorem trimEndMatches_stripReturn (line : Str) :
    trimEndMatches ['\r'] (stripReturn line) = trimEndMatches ['\r'] line := by
  unfold stripReturn stripSuffix
  split
  · next hsuffix =>
      obtain ⟨front, rfl⟩ := hsuffix
      simp [trimEndMatches]
  · rfl

/-- A blank line stays between the lines of two texts. -/
theorem bareLines_append_blank (s t : Str) :
    bareLines (s ++ "\n\n".toList ++ t) = bareLines s ++ [] :: bareLines t ∨
      bareLines (s ++ "\n\n".toList ++ t) = bareLines s ++ [] :: [] :: bareLines t := by
  have hsplit : s ++ "\n\n".toList ++ t = s ++ '\n' :: ('\n' :: t) := by simp
  have hblank : bareLines ('\n' :: t) = [] :: bareLines t := by
    simp [bareLines, lines, linesFrom, stripReturn, stripSuffix, trimEndMatches]
  have hlines : bareLines (s ++ '\n' :: ('\n' :: t)) =
      bareLines (s ++ ['\n']) ++ bareLines ('\n' :: t) := by
    rw [bareLines, lines_append, List.map_append]
    rfl
  rw [hsplit, hlines, hblank]
  rcases linesFrom_feed [] s with hfeed | ⟨init, last, hs, hfeed⟩
  · right
    have : bareLines (s ++ ['\n']) = bareLines s ++ [[]] := by
      rw [bareLines, lines, hfeed, List.map_append]
      rfl
    rw [this]
    simp
  · left
    have : bareLines (s ++ ['\n']) = bareLines s := by
      rw [bareLines, bareLines, lines, lines, hfeed, hs]
      simp [trimEndMatches_stripReturn]
    rw [this]

/-! ## Broken texts -/

/-- What may stand behind a piece of text: nothing, or the end of a line. -/
inductive LineBreak where
  | none
  | feed
  | returnFeed
  deriving DecidableEq, Repr

/-- The characters of a line break. -/
def LineBreak.text : LineBreak → Str
  | .none => []
  | .feed => ['\n']
  | .returnFeed => ['\r', '\n']

/-- A text from its pieces. -/
def render (pieces : List (Str × LineBreak)) : Str :=
  pieces.flatMap fun piece => piece.1 ++ piece.2.text

/-- The lines that pieces make, behind `line`. -/
def broken (line : Str) : List (Str × LineBreak) → List Str
  | [] => if line = [] then [] else [line]
  | (piece, .none) :: pieces => broken (line ++ piece) pieces
  | (piece, _) :: pieces => (line ++ piece) :: broken [] pieces

/-- A piece without line feeds continues the line. -/
theorem linesFrom_append_piece {line piece : Str} (h : '\n' ∉ piece) (s : Str) :
    linesFrom line (piece ++ s) = linesFrom (line ++ piece) s := by
  induction piece generalizing line with
  | nil => simp
  | cons c piece ih =>
      have hc : c ≠ '\n' := fun he => h (he ▸ List.mem_cons_self)
      rw [List.cons_append, linesFrom, if_neg hc, ih fun hp => h (List.mem_cons_of_mem _ hp)]
      simp

/-- The lines of a text from its pieces. -/
theorem linesFrom_render {line : Str} {pieces : List (Str × LineBreak)} (hline : '\r' ∉ line)
    (hpieces : ∀ piece ∈ pieces, '\n' ∉ piece.1 ∧ '\r' ∉ piece.1) :
    linesFrom line (render pieces) = broken line pieces := by
  induction pieces generalizing line with
  | nil => rfl
  | cons piece pieces ih =>
      obtain ⟨piece, lineBreak⟩ := piece
      obtain ⟨hfeed, hreturn⟩ := hpieces _ List.mem_cons_self
      have hrest := fun p hp => hpieces p (List.mem_cons_of_mem _ hp)
      have hjoined : '\r' ∉ line ++ piece := by simp [hline, hreturn]
      have hrender : render ((piece, lineBreak) :: pieces) =
          piece ++ (lineBreak.text ++ render pieces) := by simp [render]
      rw [hrender, linesFrom_append_piece hfeed]
      cases lineBreak with
      | none => exact ih hjoined hrest
      | feed =>
          simp [LineBreak.text, linesFrom, broken, stripReturn_eq_self hjoined,
            ih List.not_mem_nil hrest]
      | returnFeed =>
          have hstrip : stripReturn (line ++ (piece ++ ['\r'])) = line ++ piece := by
            rw [← List.append_assoc, stripReturn, stripSuffix, if_pos (List.suffix_append _ _),
              List.length_append, List.length_singleton, Nat.add_sub_cancel, List.take_left]
            rfl
          simp [LineBreak.text, linesFrom, broken, hstrip, ih List.not_mem_nil hrest]

/-- Lines do not change what the pieces say. -/
theorem flatten_broken (line : Str) (pieces : List (Str × LineBreak)) :
    (broken line pieces).flatten = line ++ pieces.flatMap Prod.fst := by
  induction pieces generalizing line with
  | nil => by_cases h : line = [] <;> simp [broken, h]
  | cons piece pieces ih =>
      obtain ⟨piece, lineBreak⟩ := piece
      cases lineBreak <;> simp [broken, ih]

/-- Every line begins with a piece. -/
theorem piece_prefix_of_mem_broken {line l : Str} {pieces : List (Str × LineBreak)}
    (h : l ∈ broken line pieces) :
    (line ≠ [] ∧ line <+: l) ∨ ∃ piece ∈ pieces, piece.1 <+: l := by
  induction pieces generalizing line with
  | nil =>
      by_cases hline : line = []
      · simp [broken, hline] at h
      · obtain rfl : l = line := by simpa [broken, hline] using h
        exact .inl ⟨hline, List.prefix_refl _⟩
  | cons piece pieces ih =>
      obtain ⟨piece, lineBreak⟩ := piece
      have hfirst : line ++ piece <+: l → (line ≠ [] ∧ line <+: l) ∨
          ∃ p ∈ (piece, lineBreak) :: pieces, p.1 <+: l := by
        intro hbegin
        by_cases hline : line = []
        · subst hline
          exact .inr ⟨_, List.mem_cons_self, hbegin⟩
        · exact .inl ⟨hline, (List.prefix_append _ _).trans hbegin⟩
      have hlater : l ∈ broken [] pieces → (line ≠ [] ∧ line <+: l) ∨
          ∃ p ∈ (piece, lineBreak) :: pieces, p.1 <+: l := by
        intro hl
        rcases ih hl with ⟨hnil, -⟩ | ⟨p, hp, hbegin⟩
        · exact absurd rfl hnil
        · exact .inr ⟨p, List.mem_cons_of_mem _ hp, hbegin⟩
      cases lineBreak with
      | none =>
          rcases ih h with ⟨-, hbegin⟩ | ⟨p, hp, hbegin⟩
          · exact hfirst hbegin
          · exact .inr ⟨p, List.mem_cons_of_mem _ hp, hbegin⟩
      | feed | returnFeed =>
          rcases List.mem_cons.mp h with rfl | hl
          · exact hfirst (List.prefix_refl _)
          · exact hlater hl

/-- Pieces that are not empty make no empty lines. -/
theorem ne_nil_of_mem_broken {l : Str} {pieces : List (Str × LineBreak)} (h : l ∈ broken [] pieces)
    (hpieces : ∀ {piece}, piece ∈ pieces → piece.1 ≠ []) : l ≠ [] := by
  rcases piece_prefix_of_mem_broken h with ⟨hnil, -⟩ | ⟨piece, hpiece, hbegin⟩
  · exact absurd rfl hnil
  · rintro rfl
    exact hpieces hpiece (List.prefix_nil.mp hbegin)

/-- A line that has begun is the first line. -/
theorem broken_eq_cons {line : Str} (h : line ≠ []) (pieces : List (Str × LineBreak)) :
    ∃ first rest, broken line pieces = first :: rest ∧ line <+: first := by
  induction pieces generalizing line with
  | nil => exact ⟨line, [], by simp [broken, h], List.prefix_refl _⟩
  | cons piece pieces ih =>
      obtain ⟨piece, lineBreak⟩ := piece
      cases lineBreak with
      | none =>
          obtain ⟨first, rest, heq, hbegin⟩ := ih (show line ++ piece ≠ [] by simp [h])
          exact ⟨first, rest, heq, (List.prefix_append _ _).trans hbegin⟩
      | feed | returnFeed => exact ⟨_, _, rfl, List.prefix_append _ _⟩

/-- The first line begins with the first piece. -/
theorem broken_cons_eq_cons {piece : Str × LineBreak} (h : piece.1 ≠ [])
    (pieces : List (Str × LineBreak)) :
    ∃ first rest, broken [] (piece :: pieces) = first :: rest ∧ piece.1 <+: first := by
  obtain ⟨piece, lineBreak⟩ := piece
  cases lineBreak with
  | none => exact broken_eq_cons h pieces
  | feed | returnFeed => exact ⟨_, _, rfl, List.prefix_refl _⟩

/-- What the first lines say is what the first pieces say, and pieces are left. -/
theorem flatten_take_broken {line : Str} {pieces : List (Str × LineBreak)} {k : ℕ} (hk : 0 < k)
    (hlen : k < (broken line pieces).length) :
    ∃ front back, pieces = front ++ back ∧ back ≠ [] ∧
      ((broken line pieces).take k).flatten = line ++ front.flatMap Prod.fst := by
  induction pieces generalizing line k with
  | nil =>
      have : (broken line []).length ≤ 1 := by by_cases h : line = [] <;> simp [broken, h]
      omega
  | cons piece pieces ih =>
      obtain ⟨piece, lineBreak⟩ := piece
      have hlater : 0 < k → k < ((line ++ piece) :: broken [] pieces).length →
          ∃ front back, (piece, lineBreak) :: pieces = front ++ back ∧ back ≠ [] ∧
            (((line ++ piece) :: broken [] pieces).take k).flatten =
              line ++ front.flatMap Prod.fst := by
        intro hk hlen
        obtain ⟨k, rfl⟩ : ∃ k', k = k' + 1 := ⟨k - 1, by omega⟩
        rw [List.length_cons, Nat.add_lt_add_iff_right] at hlen
        rcases Nat.eq_zero_or_pos k with rfl | hk
        · refine ⟨[(piece, lineBreak)], pieces, rfl, ?_, by simp⟩
          rintro rfl
          simp [broken] at hlen
        · obtain ⟨front, back, rfl, hback, hflatten⟩ := ih hk hlen
          exact ⟨(piece, lineBreak) :: front, back, rfl, hback, by simp [hflatten]⟩
      cases lineBreak with
      | none =>
          obtain ⟨front, back, rfl, hback, hflatten⟩ := ih hk hlen
          exact ⟨(piece, .none) :: front, back, rfl, hback, by simp [broken, hflatten]⟩
      | feed | returnFeed => exact hlater hk hlen

/-! ## Words -/

/-- The words of a text. -/
def splitWhitespace (s : Str) : List Str := (s.splitOnP isWhitespace).filter (· ≠ [])

end Str

namespace Lines

variable {L C : Type*}

/-! ## Blocks -/

/-- Read the blocks of some lines.  `collect` is given the first line of a block and the lines
behind it, and returns the block, if there is one, with the number of further lines. -/
def scan (starts : L → Bool) (collect : L → List L → Option (Option C × ℕ)) :
    List L → Option (List C)
  | [] => some []
  | l :: ls =>
      if starts l then do
        let (block, further) ← collect l ls
        let blocks ← scan starts collect (ls.drop further)
        some (block.toList ++ blocks)
      else scan starts collect ls
termination_by ls => ls.length
decreasing_by all_goals simp only [List.length_cons, List.length_drop]; omega

/-- The first lines of the blocks that are read, with the lines behind them. -/
def scanned (starts : L → Bool) (collect : L → List L → Option (Option C × ℕ)) :
    List L → List (L × List L)
  | [] => []
  | l :: ls =>
      if starts l then
        (l, ls) :: match collect l ls with
          | none => []
          | some (_, further) => scanned starts collect (ls.drop further)
      else scanned starts collect ls
termination_by ls => ls.length
decreasing_by all_goals simp only [List.length_cons, List.length_drop]; omega

/-- A collector that stops in front of the line `blank`, or at the end of the lines. -/
structure StopsAt (starts : L → Bool) (collect : L → List L → Option (Option C × ℕ)) (blank : L) :
    Prop where
  not_starts : starts blank = false
  collect_append : ∀ l ls rest, collect l (ls ++ blank :: rest) = collect l ls
  further_le : ∀ l ls block further, collect l ls = some (block, further) → further ≤ ls.length

variable {starts : L → Bool} {collect : L → List L → Option (Option C × ℕ)} {blank : L}

/-- Blocks begin where they may. -/
theorem starts_of_mem_scanned {ls : List L} {block : L × List L}
    (h : block ∈ scanned starts collect ls) : starts block.1 = true := by
  induction ls using scan.induct starts with
  | case1 => simp [scanned] at h
  | case2 l ls hl ih =>
      rw [scanned, if_pos hl] at h
      rcases List.mem_cons.mp h with rfl | h
      · exact hl
      · cases hcollect : collect l ls with
        | none => simp [hcollect] at h
        | some found =>
            rw [hcollect] at h
            exact ih found.2 h
  | case3 l ls hl ih =>
      rw [scanned, if_neg hl] at h
      exact ih h

/-- Reading fails if the reading of a block does. -/
theorem scan_eq_none_iff (ls : List L) :
    scan starts collect ls = none ↔
      ∃ block ∈ scanned starts collect ls, collect block.1 block.2 = none := by
  induction ls using scan.induct starts with
  | case1 => simp [scan, scanned]
  | case2 l ls hl ih =>
      rw [scan, if_pos hl, scanned, if_pos hl]
      cases hcollect : collect l ls with
      | none => simp [hcollect]
      | some found =>
          obtain ⟨block, further⟩ := found
          have hhere : ¬ collect l ls = none := by simp [hcollect]
          simp only [Option.bind_eq_bind, Option.bind_some, List.exists_mem_cons_iff, hhere,
            false_or, ← ih further]
          cases scan starts collect (ls.drop further) <;> simp
  | case3 l ls hl ih => rw [scan, if_neg hl, scanned, if_neg hl, ih]

/-- Every block that was read comes from a first line. -/
theorem exists_scanned_of_mem {ls : List L} {blocks : List C} {block : C}
    (h : scan starts collect ls = some blocks) (hmem : block ∈ blocks) :
    ∃ first ∈ scanned starts collect ls, ∃ further,
      collect first.1 first.2 = some (some block, further) := by
  induction ls using scan.induct starts generalizing blocks with
  | case1 =>
      rw [scan, Option.some.injEq] at h
      rw [← h] at hmem
      cases hmem
  | case2 l ls hl ih =>
      rw [scan, if_pos hl] at h
      rw [scanned, if_pos hl]
      cases hcollect : collect l ls with
      | none => simp [hcollect] at h
      | some found =>
          obtain ⟨found, further⟩ := found
          rw [hcollect] at h
          cases hrest : scan starts collect (ls.drop further) with
          | none => simp [hrest] at h
          | some rest =>
              obtain rfl : found.toList ++ rest = blocks := by simpa [hrest] using h
              rcases List.mem_append.mp hmem with hmem | hmem
              · obtain rfl : found = some block := by simpa using hmem
                exact ⟨_, List.mem_cons_self, further, hcollect⟩
              · obtain ⟨first, hfirst, hblock⟩ := ih further hrest hmem
                exact ⟨first, List.mem_cons_of_mem _ hfirst, hblock⟩
  | case3 l ls hl ih =>
      rw [scan, if_neg hl] at h
      rw [scanned, if_neg hl]
      exact ih h hmem

/-- The results of two readings, one after the other. -/
def both {α : Type*} (a b : Option (List α)) : Option (List α) := do
  let as ← a
  let bs ← b
  some (as ++ bs)

@[simp] theorem both_some_nil {α : Type*} (b : Option (List α)) : both (some []) b = b := by
  cases b <;> rfl

/-- What is read of each block does not depend on when it is looked at. -/
theorem map_scan {D : Type*} (f : C → D) (ls : List L) :
    (scan starts collect ls).map (List.map f) =
      scan starts (fun l ls => (collect l ls).map fun block => (block.1.map f, block.2)) ls := by
  induction ls using scan.induct starts with
  | case1 => simp [scan]
  | case2 l ls hl ih =>
      rw [scan, if_pos hl]
      conv_rhs => rw [scan, if_pos hl]
      cases hcollect : collect l ls with
      | none => rfl
      | some found =>
          obtain ⟨block, further⟩ := found
          simp only [Option.bind_eq_bind, Option.bind_some, Option.map_some, ← ih further]
          cases scan starts collect (ls.drop further) <;> cases block <;> simp
  | case3 l ls hl ih =>
      rw [scan, if_neg hl, ih]
      conv_rhs => rw [scan, if_neg hl]

/-- Lines may be changed where no collector sees it. -/
theorem scan_map_lines {f : L → L} (hstarts : ∀ l, starts (f l) = starts l)
    (hcollect : ∀ l ls, starts l = true → collect (f l) (ls.map f) = collect l ls) (ls : List L) :
    scan starts collect (ls.map f) = scan starts collect ls := by
  induction ls using scan.induct starts with
  | case1 => rfl
  | case2 l ls hl ih =>
      rw [List.map_cons, scan, if_pos (by rw [hstarts, hl]), hcollect l ls hl]
      conv_rhs => rw [scan, if_pos hl]
      cases collect l ls with
      | none => rfl
      | some found => simp only [Option.bind_eq_bind, Option.bind_some, ← List.map_drop, ih]
  | case3 l ls hl ih =>
      rw [List.map_cons, scan, if_neg (by rw [hstarts]; exact hl), ih]
      conv_rhs => rw [scan, if_neg hl]

/-- Going on with each result, of two readings. -/
theorem both_bind_mapM {α β : Type*} (f : α → Option β) (a b : Option (List α)) :
    ((both a b).bind fun l => l.mapM f) =
      both (a.bind fun l => l.mapM f) (b.bind fun l => l.mapM f) := by
  cases a with
  | none => rfl
  | some as =>
      cases b with
      | none =>
          cases h : as.mapM f <;> simp [both, h]
      | some bs =>
          simp only [both, Option.bind_eq_bind, Option.bind_some, List.mapM_append]
          cases as.mapM f <;> rfl

/-- No block goes past a blank line. -/
theorem scan_append_blank (h : StopsAt starts collect blank) (ls rest : List L) :
    scan starts collect (ls ++ blank :: rest) =
      both (scan starts collect ls) (scan starts collect rest) := by
  induction ls using scan.induct starts with
  | case1 =>
      have hblank : scan starts collect (blank :: rest) = scan starts collect rest := by
        rw [scan, if_neg (by simp [h.not_starts])]
      rw [List.nil_append, hblank, scan, both_some_nil]
  | case2 l ls hl ih =>
      rw [List.cons_append, scan, if_pos hl, h.collect_append]
      conv_rhs => rw [scan, if_pos hl]
      cases hcollect : collect l ls with
      | none => rfl
      | some found =>
          obtain ⟨block, further⟩ := found
          have hdrop : (ls ++ blank :: rest).drop further = ls.drop further ++ blank :: rest :=
            List.drop_append_of_le_length (h.further_le l ls block further hcollect)
          simp only [Option.bind_eq_bind, Option.bind_some]
          rw [hdrop, ih further]
          cases scan starts collect (ls.drop further) <;> cases scan starts collect rest <;>
            simp [both]
  | case3 l ls hl ih =>
      rw [List.cons_append, scan, if_neg hl, ih]
      conv_rhs => rw [scan, if_neg hl]

/-- The blocks of two texts with a blank line between them. -/
theorem scan_bareLines_append {starts : Str → Bool}
    {collect : Str → List Str → Option (Option C × ℕ)} (h : StopsAt starts collect []) (s t : Str) :
    scan starts collect (Str.bareLines (s ++ "\n\n".toList ++ t)) =
      both (scan starts collect (Str.bareLines s)) (scan starts collect (Str.bareLines t)) := by
  rcases Str.bareLines_append_blank s t with hlines | hlines
  · rw [hlines, scan_append_blank h]
  · have hblank : scan starts collect ([] :: Str.bareLines t) =
        scan starts collect (Str.bareLines t) := by
      rw [scan, if_neg (by simp [h.not_starts])]
    rw [hlines, scan_append_blank h, hblank]

end Lines
