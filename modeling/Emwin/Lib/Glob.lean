/-
# Patterns with stars

A pattern is a list of symbols, and one symbol, the star, stands for any list.  Programs match
such patterns in one pass over the text: they remember the last star, and where nothing else
fits they go back to it and let it take one symbol more.

The pass is sound (`matches_of_run`).  It is not complete: a star in the text is taken for a
star in the pattern first, and what it accepts are the strict fits (`fits_iff`).
-/
import Mathlib.Data.List.Basic
import Mathlib.Data.Set.Function

namespace Glob

variable {α : Type*} [DecidableEq α]

/-- A pattern fits a text. -/
inductive Matches (star : α) : List α → List α → Prop
  | nil : Matches star [] []
  | symbol (a : α) {p t : List α} : Matches star p t → Matches star (a :: p) (a :: t)
  | star (taken : List α) {p t : List α} : Matches star p t → Matches star (star :: p) (taken ++ t)

omit [DecidableEq α] in
/-- Stars fit the empty text. -/
theorem matches_nil {star : α} {p : List α} (h : ∀ a ∈ p, a = star) : Matches star p [] := by
  induction p with
  | nil => exact Matches.nil
  | cons a p ih =>
      obtain ⟨rfl, hp⟩ := List.forall_mem_cons.mp h
      exact Matches.star [] (ih hp)

/-- The text from a star on: what it was given since, and what is left. -/
def sinceStar (since t : List α) : List α := since.reverse ++ t

/-- The pass.  Of the last star it keeps the pattern behind it, and the text taken since in
reverse. -/
def run (star : α) (last : Option (List α × List α)) (p t : List α) : Bool :=
  match t with
  | [] => p.all fun a => a = star
  | c :: t =>
      if p.head? = some c then
        run star (last.map fun (behind, since) => (behind, c :: since)) p.tail t
      else if p.head? = some star then
        run star (some (p.tail, [])) p.tail (c :: t)
      else
        match last with
        | none => false
        | some (behind, since) =>
            run star (some (behind, [])) behind (sinceStar since (c :: t)).tail
  termination_by ((match last with
    | none => t.length + 1
    | some (_, since) => since.length + t.length), t.length, p.length)
  decreasing_by
    · cases last with
      | none => exact Prod.Lex.left _ _ (by simp)
      | some last =>
          simp only [Option.map_some, List.length_cons]
          rw [show last.2.length + 1 + t.length = last.2.length + (t.length + 1) by omega]
          exact Prod.Lex.right _ (Prod.Lex.left _ _ (by simp))
    · obtain ⟨p, rfl⟩ := List.head?_eq_some_iff.mp ‹p.head? = some star›
      cases last with
      | none => exact Prod.Lex.left _ _ (by simp)
      | some last =>
          cases hsince : last.2 with
          | nil =>
              simp only [hsince, List.length_nil]
              exact Prod.Lex.right _ (Prod.Lex.right _ (by simp))
          | cons d since => exact Prod.Lex.left _ _ (by simp [hsince])
    · exact Prod.Lex.left _ _ (by simp [sinceStar])

/-- Whether a text fits a pattern. -/
def fits (star : α) (pattern text : List α) : Bool := run star none pattern text

/-- **Pass.**  What is left of the pattern fits what is left of the text, or the last star
takes more of it. -/
theorem matches_of_run {star : α} {pattern text : List α} {last : Option (List α × List α)}
    {p t : List α} (hrest : Matches star p t → Matches star pattern text)
    (hlast : ∀ behind since, last = some (behind, since) → ∀ taken left,
      sinceStar since t = taken ++ left → Matches star behind left → Matches star pattern text)
    (h : run star last p t = true) : Matches star pattern text := by
  induction last, p, t using run.induct star with
  | case1 last p =>
      rw [run, List.all_eq_true] at h
      exact hrest (matches_nil fun a ha => of_decide_eq_true (h a ha))
  | case2 last p c t hhead ih =>
      rw [run.eq_def] at h
      simp only [if_pos hhead] at h
      obtain ⟨p, rfl⟩ := List.head?_eq_some_iff.mp hhead
      refine ih (fun hmatch => hrest (hmatch.symbol c)) ?_ h
      rintro behind since' hsince taken left hsplit hmatch
      obtain ⟨⟨_, since⟩, rfl, heq⟩ := Option.map_eq_some_iff.mp hsince
      obtain ⟨rfl, rfl⟩ := Prod.mk.inj heq
      refine hlast _ _ rfl taken left ?_ hmatch
      rw [← hsplit]
      simp [sinceStar]
  | case3 last p c t hhead hstar ih =>
      rw [run.eq_def] at h
      simp only [if_neg hhead, if_pos hstar] at h
      obtain ⟨p, rfl⟩ := List.head?_eq_some_iff.mp hstar
      refine ih (fun hmatch => hrest (hmatch.star [])) ?_ h
      rintro behind since ⟨⟩ taken left hsplit hmatch
      change c :: t = taken ++ left at hsplit
      rw [hsplit] at hrest
      exact hrest (hmatch.star taken)
  | case4 p c t hhead hstar =>
      rw [run, if_neg hhead, if_neg hstar] at h
      cases h
  | case5 p c t hhead hstar behind since ih =>
      rw [run, if_neg hhead, if_neg hstar] at h
      -- the star takes the first symbol of what stands behind it
      obtain ⟨d, rest, hrest'⟩ : ∃ d rest, sinceStar since (c :: t) = d :: rest :=
        List.exists_cons_of_ne_nil (by simp [sinceStar])
      rw [hrest', List.tail_cons] at ih h
      refine ih (fun hmatch => hlast _ _ rfl [d] rest hrest' hmatch) ?_ h
      rintro _ _ ⟨⟩ taken left hsplit hmatch
      refine hlast _ _ rfl (d :: taken) left ?_ hmatch
      rw [hrest', List.cons_append, ← hsplit]
      rfl

/-- **Soundness.**  A text that the pass accepts fits the pattern. -/
theorem matches_of_fits {star : α} {pattern text : List α} (h : fits star pattern text = true) :
    Matches star pattern text :=
  matches_of_run id (by rintro _ _ ⟨⟩) h

omit [DecidableEq α] in
/-- A pattern fits behind a text of its own. -/
theorem Matches.append_left {star : α} {p t : List α} (u : List α) (h : Matches star p t) :
    Matches star (u ++ p) (u ++ t) := by
  induction u with
  | nil => exact h
  | cons a u ih => exact ih.symbol a

omit [DecidableEq α] in
/-- A pattern fits itself. -/
theorem matches_self (star : α) (p : List α) : Matches star p p := by
  have hnil : Matches star [] [] := Matches.nil
  simpa using hnil.append_left p

/-- A pattern fits what it is without its stars. -/
theorem matches_filter (star : α) (p : List α) : Matches star p (p.filter (· ≠ star)) := by
  induction p with
  | nil => exact Matches.nil
  | cons a p ih =>
      by_cases ha : a = star
      · subst ha
        rw [List.filter_cons_of_neg (by simp)]
        exact ih.star []
      · rw [List.filter_cons_of_pos (by simpa using ha)]
        exact ih.symbol a

/-- The text has the symbols of the pattern other than stars, in their order. -/
theorem Matches.sublist {star : α} {p t : List α} (h : Matches star p t) :
    (p.filter (· ≠ star)).Sublist t := by
  induction h with
  | nil => exact List.Sublist.slnil
  | symbol a _ ih =>
      by_cases ha : a = star
      · rw [List.filter_cons_of_neg (by simpa using ha)]
        exact ih.cons a
      · rw [List.filter_cons_of_pos (by simpa using ha)]
        exact ih.cons_cons a
  | star taken _ ih =>
      rw [List.filter_cons_of_neg (by simp)]
      exact ih.trans (List.sublist_append_right _ _)

/-! ## Strict fits -/

/-- A pattern fits a text, and a star of it that stands before a star of the text takes just
that one. -/
inductive Strict (star : α) : List α → List α → Prop
  | nil : Strict star [] []
  | symbol (a : α) {p t : List α} : Strict star p t → Strict star (a :: p) (a :: t)
  | star (taken : List α) {p t : List α} : (taken ++ t).head? ≠ some star → Strict star p t →
      Strict star (star :: p) (taken ++ t)

section Strict

omit [DecidableEq α]

variable {star : α}

theorem Strict.matches {p t : List α} (h : Strict star p t) : Matches star p t := by
  induction h with
  | nil => exact Matches.nil
  | symbol a _ ih => exact ih.symbol a
  | star taken _ _ ih => exact ih.star taken

/-- Without a star in the text every fit is strict. -/
theorem Matches.strict {p t : List α} (h : Matches star p t) (ht : star ∉ t) :
    Strict star p t := by
  induction h with
  | nil => exact Strict.nil
  | symbol a _ ih => exact (ih (List.not_mem_of_not_mem_cons ht)).symbol a
  | star taken _ ih =>
      refine (ih fun hmem => ht (List.mem_append_right taken hmem)).star taken ?_
      intro hhead
      exact ht (List.mem_of_mem_head? hhead)

/-- So is every fit of a pattern without stars. -/
theorem Matches.strict_of_not_mem {p t : List α} (h : Matches star p t) (hp : star ∉ p) :
    Strict star p t := by
  induction h with
  | nil => exact Strict.nil
  | symbol a _ ih => exact (ih (List.not_mem_of_not_mem_cons hp)).symbol a
  | star => exact absurd List.mem_cons_self hp

/-- Before its own kind a symbol stands for itself, stars included. -/
theorem strict_cons_cons (a : α) {p t : List α} :
    Strict star (a :: p) (a :: t) ↔ Strict star p t := by
  refine ⟨fun h => ?_, Strict.symbol a⟩
  generalize hpattern : a :: p = pattern at h
  generalize htext : a :: t = text at h
  cases h with
  | nil => cases hpattern
  | symbol b h =>
      obtain ⟨rfl, rfl⟩ := List.cons.inj hpattern
      obtain ⟨-, rfl⟩ := List.cons.inj htext
      exact h
  | star taken hhead _ =>
      obtain ⟨rfl, rfl⟩ := List.cons.inj hpattern
      rw [← htext] at hhead
      exact absurd rfl hhead

/-- A star leaves some of the text to what stands behind it. -/
theorem Strict.exists_left {p t : List α} (h : Strict star (star :: p) t) :
    ∃ left, left <:+ t ∧ Strict star p left := by
  generalize hpattern : star :: p = pattern at h
  cases h with
  | nil => cases hpattern
  | symbol b hrest =>
      obtain ⟨-, rfl⟩ := List.cons.inj hpattern
      exact ⟨_, List.suffix_cons b _, hrest⟩
  | star taken _ hrest =>
      obtain ⟨-, rfl⟩ := List.cons.inj hpattern
      exact ⟨_, List.suffix_append taken _, hrest⟩

/-- Where the text does not go on with a star, a star takes any part of it. -/
theorem strict_star {p t : List α} (h : t.head? ≠ some star) :
    Strict star (star :: p) t ↔ ∃ left, left <:+ t ∧ Strict star p left := by
  refine ⟨Strict.exists_left, ?_⟩
  rintro ⟨left, ⟨taken, rfl⟩, hrest⟩
  exact hrest.star taken h

/-- A symbol that is no star stands for itself only. -/
theorem not_strict_of_ne {p t : List α} {c : α} (hc : p.head? ≠ some c)
    (hstar : p.head? ≠ some star) : ¬ Strict star p (c :: t) := by
  intro h
  generalize htext : c :: t = text at h
  cases h with
  | nil => cases htext
  | symbol b _ =>
      obtain ⟨rfl, -⟩ := List.cons.inj htext
      exact hc rfl
  | star => exact hstar rfl

/-- One star more than the pattern has is one too many. -/
theorem not_strict_star_cons (p : List α) : ¬ Strict star p (star :: p) := by
  induction p with
  | nil => rintro ⟨⟩
  | cons a p ih =>
      intro h
      by_cases ha : a = star
      · subst ha
        exact ih ((strict_cons_cons a).mp h)
      · exact not_strict_of_ne (by simpa using ha) (by simpa using ha) h

/-- The empty text fits the patterns of stars. -/
theorem strict_nil {p : List α} : Strict star p [] ↔ ∀ a ∈ p, a = star := by
  induction p with
  | nil => simp [Strict.nil]
  | cons a p ih =>
      rw [List.forall_mem_cons, ← ih]
      constructor
      · intro h
        generalize htext : ([] : List α) = text at h
        cases h with
        | symbol => cases htext
        | star taken _ hrest =>
            obtain ⟨rfl, rfl⟩ := List.append_eq_nil_iff.mp htext.symm
            exact ⟨rfl, hrest⟩
      · rintro ⟨rfl, hrest⟩
        exact hrest.star [] (by simp)

/-- Where a pattern begins with what the text does, they fit if the rests do. -/
theorem strict_append_append (read : List α) {p t : List α} :
    Strict star (read ++ p) (read ++ t) ↔ Strict star p t := by
  induction read with
  | nil => rfl
  | cons a read ih => rw [List.cons_append, List.cons_append, strict_cons_cons, ih]

/-- **Domination.**  The reading of a pattern symbol by symbol leaves as much of the text as
any fit that starts behind it. -/
theorem exists_suffix_of_strict (read : List α) {p t s : List α} (hs : s <:+ read ++ t)
    (h : Strict star (read ++ p) s) : ∃ left, left <:+ t ∧ Strict star p left := by
  induction read generalizing s with
  | nil => exact ⟨s, hs, h⟩
  | cons a read ih =>
      rcases List.suffix_cons_iff.mp hs with rfl | hs
      · exact ih List.suffix_rfl ((strict_cons_cons a).mp h)
      · generalize hpattern : a :: read ++ p = pattern at h
        cases h with
        | nil => cases hpattern
        | symbol b h =>
            obtain ⟨rfl, rfl⟩ := List.cons.inj hpattern
            exact ih ((List.suffix_cons _ _).trans hs) h
        | star taken _ h =>
            obtain ⟨rfl, rfl⟩ := List.cons.inj hpattern
            exact ih ((List.suffix_append taken _).trans hs) h

/-- Strict fits under another spelling of the symbols. -/
theorem strict_map {β : Type*} {f : α → β} {S : Set α} (hf : Set.InjOn f S) (hstar : star ∈ S)
    {p t : List α} (hp : ∀ a ∈ p, a ∈ S) (ht : ∀ a ∈ t, a ∈ S) :
    Strict (f star) (p.map f) (t.map f) ↔ Strict star p t := by
  constructor
  · intro h
    generalize hpattern : p.map f = pattern at h
    generalize htext : t.map f = text at h
    induction h generalizing p t with
    | nil =>
        rw [List.map_eq_nil_iff.mp hpattern, List.map_eq_nil_iff.mp htext]
        exact Strict.nil
    | symbol b _ ih =>
        obtain ⟨a, p, rfl, rfl, rfl⟩ := List.map_eq_cons_iff.mp hpattern
        obtain ⟨c, t, rfl, hc, rfl⟩ := List.map_eq_cons_iff.mp htext
        obtain ⟨haS, hp'⟩ := List.forall_mem_cons.mp hp
        obtain ⟨hcS, ht'⟩ := List.forall_mem_cons.mp ht
        obtain rfl := hf hcS haS hc
        exact (ih hp' ht' rfl rfl).symbol c
    | star taken hhead _ ih =>
        obtain ⟨a, p, rfl, ha, rfl⟩ := List.map_eq_cons_iff.mp hpattern
        obtain ⟨taken, t, rfl, rfl, rfl⟩ := List.map_eq_append_iff.mp htext
        obtain ⟨haS, hp'⟩ := List.forall_mem_cons.mp hp
        obtain rfl := hf haS hstar ha
        refine (ih hp' (fun a ha => ht a (List.mem_append_right taken ha)) rfl rfl).star taken ?_
        intro h
        rw [← List.map_append, List.head?_map, h] at hhead
        exact hhead rfl
  · intro h
    induction h with
    | nil => exact Strict.nil
    | symbol a _ ih =>
        exact (ih (List.forall_mem_cons.mp hp).2 (List.forall_mem_cons.mp ht).2).symbol (f a)
    | star taken hhead _ ih =>
        rw [List.map_append]
        refine (ih (List.forall_mem_cons.mp hp).2
          fun a ha => ht a (List.mem_append_right taken ha)).star (taken.map f) ?_
        rw [← List.map_append, List.head?_map]
        intro h
        obtain ⟨a, ha, hfa⟩ := Option.map_eq_some_iff.mp h
        obtain rfl := hf (ht a (List.mem_of_mem_head? ha)) hstar hfa
        exact hhead ha

end Strict

/-- What a state of the pass has to find: a strict fit of the rests before the first star, and
one that starts anywhere behind the last star after it. -/
def Finds (star : α) (last : Option (List α × List α)) (p t : List α) : Prop :=
  match last with
  | none => Strict star p t
  | some (behind, since) => ∃ left, left <:+ sinceStar since t ∧ Strict star behind left

omit [DecidableEq α] in
/-- A star that the pass comes to is as good as all that was taken before it. -/
theorem finds_star {star : α} {last : Option (List α × List α)} {p t : List α}
    (h : t.head? ≠ some star)
    (hlast : ∀ behind since, last = some (behind, since) → behind = since.reverse ++ star :: p) :
    Finds star (some (p, [])) p t ↔ Finds star last (star :: p) t := by
  change (∃ left, left <:+ t ∧ Strict star p left) ↔ _
  rw [← strict_star h]
  rcases last with _ | ⟨behind, since⟩
  · rfl
  · obtain rfl := hlast behind since rfl
    constructor
    · intro hfit
      exact ⟨_, List.suffix_rfl, (strict_append_append since.reverse).mpr hfit⟩
    · rintro ⟨s, hs, hfit⟩
      obtain ⟨s', hs', hfit⟩ := exists_suffix_of_strict _ hs hfit
      obtain ⟨left, hleft, hfit⟩ := hfit.exists_left
      exact (strict_star h).mpr ⟨left, hleft.trans hs', hfit⟩

omit [DecidableEq α] in
/-- What does not fit where it stands fits further behind. -/
theorem finds_tail {star : α} {since p t : List α} (h : ¬ Strict star p t)
    (ht : sinceStar since t ≠ []) :
    Finds star (some (since.reverse ++ p, [])) (since.reverse ++ p) (sinceStar since t).tail ↔
      Finds star (some (since.reverse ++ p, since)) p t := by
  obtain ⟨d, rest, hrest⟩ := List.exists_cons_of_ne_nil ht
  have hwhole : ¬ Strict star (since.reverse ++ p) (d :: rest) := by
    rw [← hrest, sinceStar, strict_append_append]
    exact h
  change (∃ left, left <:+ (sinceStar since t).tail ∧ Strict star (since.reverse ++ p) left) ↔
    ∃ left, left <:+ sinceStar since t ∧ Strict star (since.reverse ++ p) left
  rw [hrest, List.tail_cons]
  constructor
  · rintro ⟨left, hleft, hfit⟩
    exact ⟨left, hleft.trans (List.suffix_cons d rest), hfit⟩
  · rintro ⟨left, hleft, hfit⟩
    rcases List.suffix_cons_iff.mp hleft with rfl | hleft
    · exact absurd hfit hwhole
    · exact ⟨left, hleft, hfit⟩

/-- **Pass.**  A state of the pass, in which the text taken since the last star is what the
pattern reads behind it, accepts what it has to find. -/
theorem run_iff {star : α} {last : Option (List α × List α)} {p t : List α}
    (hlast : ∀ behind since, last = some (behind, since) → behind = since.reverse ++ p) :
    run star last p t = true ↔ Finds star last p t := by
  induction last, p, t using run.induct star with
  | case1 last p =>
      rw [run]
      simp only [List.all_eq_true, decide_eq_true_eq, ← strict_nil]
      rcases last with _ | ⟨behind, since⟩
      · rfl
      · obtain rfl := hlast behind since rfl
        constructor
        · intro h
          exact ⟨_, List.suffix_rfl, (strict_append_append since.reverse).mpr h⟩
        · rintro ⟨s, hs, h⟩
          obtain ⟨left, hleft, h⟩ := exists_suffix_of_strict _ hs h
          rwa [List.suffix_nil.mp hleft] at h
  | case2 last p c t hhead ih =>
      rw [run.eq_def]
      simp only [if_pos hhead]
      obtain ⟨p, rfl⟩ := List.head?_eq_some_iff.mp hhead
      rcases last with _ | ⟨behind, since⟩
      · exact (ih (by rintro _ _ ⟨⟩)).trans (strict_cons_cons c).symm
      · obtain rfl := hlast behind since rfl
        refine (ih ?_).trans ?_
        · rintro _ _ ⟨⟩
          simp
        · simp [Finds, sinceStar]
  | case3 last p c t hhead hstar ih =>
      rw [run.eq_def]
      simp only [if_neg hhead, if_pos hstar]
      have hnot : (c :: t).head? ≠ some star := fun h => hhead (hstar.trans h.symm)
      obtain ⟨p, rfl⟩ := List.head?_eq_some_iff.mp hstar
      exact (ih (by rintro _ _ ⟨⟩; rfl)).trans (finds_star hnot hlast)
  | case4 p c t hhead hstar =>
      rw [run, if_neg hhead, if_neg hstar]
      exact iff_of_false Bool.false_ne_true (not_strict_of_ne hhead hstar)
  | case5 p c t hhead hstar behind since ih =>
      rw [run, if_neg hhead, if_neg hstar]
      obtain rfl := hlast behind since rfl
      refine (ih (by rintro _ _ ⟨⟩; rfl)).trans (finds_tail (not_strict_of_ne hhead hstar) ?_)
      simp [sinceStar]

/-- **Pass.**  The pass accepts the strict fits. -/
theorem fits_iff {star : α} {pattern text : List α} :
    fits star pattern text = true ↔ Strict star pattern text :=
  run_iff (by rintro _ _ ⟨⟩)

end Glob
