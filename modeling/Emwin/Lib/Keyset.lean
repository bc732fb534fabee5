/-
# Keyset pagination

A list endpoint answers a request with a page of items and, where there are more, a cursor
for the next request.  A client starts without a cursor and follows the cursors until there
is none (`Follows`).

Keyset pagination sorts the rows by a key, takes the cursor from the last row of the page and
continues with the rows that are strictly after it.  If the first request and the request
after each row answer with the page of exactly these rows, then the pages put end to end are
all the rows (`exists_follows`).
-/
import Mathlib.Order.Defs.LinearOrder
import Mathlib.Data.List.Basic
import Mathlib.Data.List.Sort
import Mathlib.Data.Prod.Lex
import Mathlib.Order.Compare

namespace Keyset

/-- A page of items, and the cursor of the next page. -/
structure Page (I C : Type*) where
  items : List I
  nextCursor : Option C
deriving Repr

variable {R I C E K : Type*}

/-- Following the cursors of a request function ends after these pages. -/
inductive Follows (request : Option C → Except E (Page I C)) : Option C → List (List I) → Prop where
  | last {cursor : Option C} {page : Page I C} (hpage : request cursor = .ok page)
      (hnone : page.nextCursor = none) : Follows request cursor [page.items]
  | more {cursor : Option C} {page : Page I C} {next : C} {pages : List (List I)}
      (hpage : request cursor = .ok page) (hsome : page.nextCursor = some next)
      (hrest : Follows request (some next) pages) :
      Follows request cursor (page.items :: pages)

/-- A walk that ends got an answer to every request. -/
theorem Follows.ok {request : Option C → Except E (Page I C)} {cursor : Option C}
    {pages : List (List I)} (h : Follows request cursor pages) :
    ∃ page, request cursor = .ok page := by
  obtain ⟨hpage, -⟩ | ⟨hpage, -, -⟩ := h
  · exact ⟨_, hpage⟩
  · exact ⟨_, hpage⟩

/-- The client's walk gives all matching rows, each once, in the order of their keys, on pages
of at most `limit` items. -/
def Enumerates [LT K] (request : Option C → Except E (Page I C)) (limit : ℕ) (key : R → K)
    (item : R → I) (matching : List R) : Prop :=
  ∃ (pages : List (List I)) (rows : List R), Follows request none pages ∧
    (∀ page ∈ pages, page.length ≤ limit) ∧ pages.flatten = rows.map item ∧ rows.Perm matching ∧
      rows.Pairwise fun a b => key a < key b

section Sorted

variable [LinearOrder K] (key : R → K)

/-- Rows in the order of their keys. -/
def sorted (rows : List R) : List R := rows.mergeSort fun a b => decide (key a ≤ key b)

theorem sorted_perm (rows : List R) : (sorted key rows).Perm rows := List.mergeSort_perm _ _

theorem sorted_pairwise_le (rows : List R) :
    (sorted key rows).Pairwise fun a b => key a ≤ key b := by
  refine (List.pairwise_mergeSort ?_ ?_ rows).imp fun h => of_decide_eq_true h
  · intro a b c hab hbc
    exact decide_eq_true ((of_decide_eq_true hab).trans (of_decide_eq_true hbc))
  · intro a b
    rw [Bool.or_eq_true, decide_eq_true_eq, decide_eq_true_eq]
    exact le_total _ _

variable {key} {rows : List R}

/-- Rows with different keys are strictly sorted. -/
theorem sorted_pairwise_lt (hnodup : (rows.map key).Nodup) :
    (sorted key rows).Pairwise fun a b => key a < key b := by
  have hne : (sorted key rows).Pairwise fun a b => key a ≠ key b := by
    rw [← List.pairwise_map]
    exact ((sorted_perm key rows).map key).nodup_iff.mpr hnodup
  exact (sorted_pairwise_le key rows).imp₂ (fun a b hle hne => lt_of_le_of_ne hle hne) hne

/-- Rows may be selected before or after they are sorted. -/
theorem sorted_filter (hnodup : (rows.map key).Nodup) (p : R → Bool) :
    sorted key (rows.filter p) = (sorted key rows).filter p := by
  refine List.Perm.eq_of_pairwise ?_ (sorted_pairwise_le key _)
    ((sorted_pairwise_le key rows).filter _) ?_
  · intro a b ha hb hab hba
    have hinj := List.inj_on_of_nodup_map hnodup
    have ha' : a ∈ rows :=
      List.mem_of_mem_filter ((sorted_perm key (rows.filter p)).mem_iff.mp ha)
    have hb' : b ∈ rows := (sorted_perm key rows).mem_iff.mp (List.mem_of_mem_filter hb)
    exact hinj ha' hb' (le_antisymm hab hba)
  · exact (sorted_perm key _).trans ((sorted_perm key rows).filter p).symm

end Sorted

section Pages

variable (limit : ℕ) (item : R → I) (cursor : R → C)

/-- The first page of a list of rows, with the cursor of its last row if there are more. -/
def pageOf (rows : List R) : Page I C where
  items := (rows.take limit).map item
  nextCursor := if limit < rows.length then (rows.take limit).getLast?.map cursor else none

variable {limit item cursor}

/-- The rows after the last row of a part are the other part. -/
theorem filter_lt_getLast [LinearOrder K] {key : R → K} {before after : List R} {tail : R}
    (hsorted : (before ++ after).Pairwise fun a b => key a < key b)
    (htail : before.getLast? = some tail) :
    (before ++ after).filter (fun r => key tail < key r) = after := by
  obtain ⟨init, rfl⟩ := List.getLast?_eq_some_iff.mp htail
  rw [List.pairwise_append] at hsorted
  obtain ⟨hbefore, -, hcross⟩ := hsorted
  rw [List.pairwise_append] at hbefore
  rw [List.filter_append]
  have hnone : (init ++ [tail]).filter (fun r => key tail < key r) = [] := by
    apply List.filter_eq_nil_iff.mpr
    intro r hr hlt
    rcases List.mem_append.mp hr with hr | hr
    · exact lt_asymm (of_decide_eq_true hlt) (hbefore.2.2 r hr tail (List.mem_singleton_self _))
    · obtain rfl := List.mem_singleton.mp hr
      exact lt_irrefl _ (of_decide_eq_true hlt)
  have hall : after.filter (fun r => key tail < key r) = after := by
    apply List.filter_eq_self.mpr
    intro r hr
    exact decide_eq_true (hcross tail (List.mem_append_right _ (List.mem_singleton_self _)) r hr)
  rw [hnone, hall, List.nil_append]

/-- **Completeness.**  If every request answers with the page of the rows after its cursor,
the pages put end to end are all the rows. -/
theorem exists_follows [LinearOrder K] {key : R → K} {rows : List R}
    {request : Option C → Except E (Page I C)} (hlimit : 0 < limit)
    (hsorted : rows.Pairwise fun a b => key a < key b)
    (hfirst : request none = .ok (pageOf limit item cursor rows))
    (hnext : ∀ r ∈ rows, request (some (cursor r)) =
      .ok (pageOf limit item cursor (rows.filter fun x => key r < key x))) :
    ∃ pages, Follows request none pages ∧ (∀ page ∈ pages, page.length ≤ limit) ∧
      pages.flatten = rows.map item := by
  -- from any cursor whose request answers with the first page of the rows that are left
  suffices h : ∀ n : ℕ, ∀ before after : List R, ∀ position : Option C, after.length = n →
      before ++ after = rows → request position = .ok (pageOf limit item cursor after) →
      ∃ pages, Follows request position pages ∧ (∀ page ∈ pages, page.length ≤ limit) ∧
        pages.flatten = after.map item from
    h rows.length [] rows none rfl rfl hfirst
  intro n
  induction n using Nat.strong_induction_on with
  | _ n ih =>
      intro before after position hn hrows hrequest
      have hshort : ((after.take limit).map item).length ≤ limit := by
        rw [List.length_map]
        exact List.length_take_le _ _
      by_cases hmore : limit < after.length
      · -- a full page, and the walk goes on after its last row
        have hne : after.take limit ≠ [] := by
          rw [Ne, List.take_eq_nil_iff]
          rintro (hzero | rfl)
          · exact hlimit.ne' hzero
          · exact Nat.not_lt_zero _ hmore
        obtain ⟨tail, htail⟩ : ∃ tail, (after.take limit).getLast? = some tail :=
          ⟨_, List.getLast?_eq_some_getLast hne⟩
        have hsplit : (before ++ after.take limit) ++ after.drop limit = rows := by
          rw [List.append_assoc, List.take_append_drop, hrows]
        have hmem : tail ∈ rows := by
          rw [← hsplit]
          exact List.mem_append_left _
            (List.mem_append_right _ (List.mem_of_getLast? htail))
        have hrest := hnext tail hmem
        rw [← hsplit, filter_lt_getLast (hsplit ▸ hsorted)
          (by rw [List.getLast?_append, htail, Option.some_or])] at hrest
        obtain ⟨pages, hpages, hbound, hflat⟩ := ih (after.drop limit).length
          (by rw [List.length_drop]; omega) (before ++ after.take limit) (after.drop limit)
          (some (cursor tail)) rfl hsplit hrest
        have hcursor : (pageOf limit item cursor after).nextCursor = some (cursor tail) := by
          show (if limit < after.length then _ else _) = _
          rw [if_pos hmore, htail, Option.map_some]
        refine ⟨_, Follows.more hrequest hcursor hpages, ?_, ?_⟩
        · intro page hpage
          rcases List.mem_cons.mp hpage with rfl | hpage
          · exact hshort
          · exact hbound page hpage
        · rw [List.flatten_cons, hflat]
          show (after.take limit).map item ++ _ = _
          rw [← List.map_append, List.take_append_drop]
      · have hcursor : (pageOf limit item cursor after).nextCursor = none := if_neg hmore
        refine ⟨_, Follows.last hrequest hcursor, ?_, ?_⟩
        · intro page hpage
          obtain rfl := List.mem_singleton.mp hpage
          exact hshort
        · rw [List.flatten_singleton]
          show (after.take limit).map item = _
          rw [List.take_of_length_le (not_lt.mp hmore)]

end Pages

/-! ## Lexicographic keys

A key of several columns, each of them ascending or descending.  The order of two rows is that
of the first column in which they differ, and the rows after a row are spelled out column by
column. -/

section Lexicographic

open OrderDual

variable {α β : Type*} [LinearOrder α] [LinearOrder β]

theorem isLE_cmp (a b : α) : ((cmp a b).then .eq).isLE = decide (a ≤ b) := by
  rcases lt_trichotomy a b with h | h | h
  · rw [(cmp_eq_lt_iff _ _).mpr h, decide_eq_true h.le]
    rfl
  · rw [(cmp_eq_eq_iff _ _).mpr h, decide_eq_true h.le]
    rfl
  · rw [(cmp_eq_gt_iff _ _).mpr h, decide_eq_false h.not_ge]
    rfl

theorem isLE_cmp_then {o : Ordering} {c d : β} (h : o.isLE = decide (c ≤ d)) (a b : α) :
    ((cmp a b).then o).isLE = decide (toLex (a, c) ≤ toLex (b, d)) := by
  rw [Bool.eq_iff_iff, decide_eq_true_eq, Prod.Lex.toLex_le_toLex]
  rcases lt_trichotomy a b with hab | hab | hab
  · rw [(cmp_eq_lt_iff _ _).mpr hab]
    exact ⟨fun _ => Or.inl hab, fun _ => rfl⟩
  · rw [(cmp_eq_eq_iff _ _).mpr hab]
    show o.isLE = true ↔ _
    rw [h, decide_eq_true_eq]
    exact ⟨fun hcd => Or.inr ⟨hab, hcd⟩, fun hor =>
      hor.elim (fun hlt => absurd hlt hab.not_lt) fun hand => hand.2⟩
  · rw [(cmp_eq_gt_iff _ _).mpr hab]
    refine ⟨fun hfalse => Bool.noConfusion hfalse, ?_⟩
    rintro (hlt | ⟨heq, -⟩)
    · exact absurd hlt (lt_asymm hab)
    · exact absurd heq hab.ne'

/-- A descending column. -/
theorem swap_cmp (a b : α) : (cmp a b).swap = cmp (toDual a) (toDual b) := by
  rw [cmp_swap, cmp_toDual]

theorem after_asc_last (a b : α) : (cmp b a == .gt) = decide (a < b) := by
  rw [Bool.eq_iff_iff, beq_iff_eq, cmp_eq_gt_iff, decide_eq_true_eq]

theorem after_desc_last (a b : α) : (cmp b a == .lt) = decide (toDual a < toDual b) := by
  rw [Bool.eq_iff_iff, beq_iff_eq, cmp_eq_lt_iff, decide_eq_true_eq, toDual_lt_toDual]

theorem after_asc {c d : β} {rest : Bool} (h : rest = decide (c < d)) (a b : α) :
    ((cmp b a == .gt) || ((cmp b a == .eq) && rest)) =
      decide (toLex (a, c) < toLex (b, d)) := by
  rw [Bool.eq_iff_iff, Bool.or_eq_true, Bool.and_eq_true, beq_iff_eq, beq_iff_eq, cmp_eq_gt_iff,
    cmp_eq_eq_iff, h, decide_eq_true_eq, decide_eq_true_eq, Prod.Lex.toLex_lt_toLex]
  exact or_congr_right (and_congr_left fun _ => eq_comm)

theorem after_desc {c d : β} {rest : Bool} (h : rest = decide (c < d)) (a b : α) :
    ((cmp b a == .lt) || ((cmp b a == .eq) && rest)) =
      decide (toLex (toDual a, c) < toLex (toDual b, d)) := by
  rw [Bool.eq_iff_iff, Bool.or_eq_true, Bool.and_eq_true, beq_iff_eq, beq_iff_eq, cmp_eq_lt_iff,
    cmp_eq_eq_iff, h, decide_eq_true_eq, decide_eq_true_eq, Prod.Lex.toLex_lt_toLex]
  exact or_congr_right (and_congr_left fun _ => ⟨fun hba => congrArg toDual hba.symm,
    fun hab => (toDual.injective hab).symm⟩)

end Lexicographic

end Keyset
