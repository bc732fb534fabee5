/-
# Pages of an archive list

Every list is paged in the same way: one row more than the page holds is fetched; if it is
there it is dropped, and the cursor is made from the last row that is kept.

The queries differ in their tables, their filters and their cursors.  What makes the pages
complete is that the condition of a later page is the condition of the first page and exactly
the rows after the cursor in the order of `ORDER BY` (`enumerates_assemble`).
-/
import Emwin.Query.Filters
import Emwin.Lib.SqlKeyset

open Sql Keyset

namespace Query

variable {R I C : Type}

/-- The page of the rows that were fetched. -/
def paginate (limit : ℕ) (items : List I) (cursorOf : I → Except QueryError Str) :
    Except QueryError (PaginatedResponse I) :=
  if limit < items.length then
    -- the overflow item is dropped
    match items.dropLast.getLast? with
    | none => .error (.panicked "page with next cursor should retain at least one item".toList)
    | some tail => (cursorOf tail).map fun next => ⟨items.dropLast, some next⟩
  else .ok ⟨items, none⟩

/-- Run a query and make the page of its rows. -/
def fetchPage (S : Schema SqlValue R) (rows : List R) (text : Text SqlValue) (limit : ℕ)
    (item : R → I) (cursorOf : I → Except QueryError Str) :
    Except QueryError (PaginatedResponse I) :=
  match S.execute rows text with
  | none => .error .database
  | some found => paginate limit (found.map item) cursorOf

/-- How texts are ordered: by sort keys, which tell different texts apart. -/
structure Collation (κ : Type) where
  sortKey : Str → κ
  injective : Function.Injective sortKey

/-- How values compare. -/
def SqlValue.compare {κ : Type} [LinearOrder κ] (collation : Collation κ) :
    SqlValue → SqlValue → Option Ordering
  | .int a, .int b => some (cmp a b)
  | .time a, .time b => some (cmp a b)
  | .text a, .text b => some (cmp (collation.sortKey a) (collation.sortKey b))
  | _, _ => none

/-- The number of rows of a limit. -/
def SqlValue.count : SqlValue → Option ℕ
  | .int n => some n.toNat
  | _ => none

/-- A query from its parts, in the order in which they are appended. -/
def assemble (select filters cursor : Text SqlValue) (orderBy : String) (limit : ℕ) :
    Text SqlValue :=
  select ++ filters ++ cursor ++ push orderBy ++ pushBind (.int (limit + 1 : ℕ))

/-! ## Pages -/

/-- The page of rows that were cut off after the overflow row. -/
theorem paginate_map_take {limit : ℕ} (hlimit : 0 < limit) {item : R → I} {cursor : R → Str}
    {cursorOf : I → Except QueryError Str} {rows : List R}
    (hcursor : ∀ r ∈ rows, cursorOf (item r) = .ok (cursor r)) :
    paginate limit ((rows.take (limit + 1)).map item) cursorOf =
      .ok (pageOf limit item cursor rows) := by
  unfold paginate pageOf
  rw [List.length_map, List.length_take]
  by_cases hmore : limit < rows.length
  · have htaken : (rows.take (limit + 1)).dropLast = rows.take limit := by
      rw [List.dropLast_eq_take, List.length_take, List.take_take]
      congr 1
      omega
    have hne : rows.take limit ≠ [] := by
      rw [Ne, List.take_eq_nil_iff]
      rintro (hzero | rfl)
      · exact hlimit.ne' hzero
      · exact Nat.not_lt_zero _ hmore
    obtain ⟨tail, htail⟩ : ∃ tail, (rows.take limit).getLast? = some tail :=
      ⟨_, List.getLast?_eq_some_getLast hne⟩
    have hmem : tail ∈ rows := List.mem_of_mem_take (List.mem_of_getLast? htail)
    rw [if_pos (by omega), if_pos hmore, ← List.map_dropLast, htaken, List.getLast?_map, htail]
    dsimp only [Option.map_some]
    rw [hcursor tail hmem]
    rfl
  · rw [if_neg (by omega), if_neg hmore, List.take_of_length_le (by omega),
      List.take_of_length_le (by omega)]

/-- The rows that a query finds, in the order of their keys. -/
theorem execute_of_parse {K : Type} [LinearOrder K] {S : Schema SqlValue R} {key : R → K}
    {text : Text SqlValue} {c : Cond SqlValue} {order : List (Str × Direction)} {limit : ℕ}
    (hparse : parse text = some ⟨c, order, .int (limit + 1 : ℕ)⟩) (horders : S.Orders order key)
    (hcount : S.count = SqlValue.count) (rows : List R) :
    S.execute rows text = some ((sorted key (rows.filter (S.holds c))).take (limit + 1)) := by
  obtain ⟨cmp, hcmp, hle⟩ := horders
  have hsort : (fun a b => (cmp a b).isLE) = fun a b => decide (key a ≤ key b) := by
    funext a b
    exact hle a b
  unfold Schema.execute
  rw [hparse]
  dsimp only
  rw [hcmp, hcount]
  show some (((rows.filter (S.holds c)).mergeSort fun a b => (cmp a b).isLE).take (limit + 1)) = _
  rw [hsort]
  rfl

/-- The page that a query gives. -/
theorem fetchPage_of_parse {K : Type} [LinearOrder K] {S : Schema SqlValue R} {key : R → K}
    {text : Text SqlValue} {c : Cond SqlValue} {order : List (Str × Direction)} {limit : ℕ}
    {item : R → I} {cursor : R → Str} {cursorOf : I → Except QueryError Str} {rows : List R}
    (hlimit : 0 < limit) (hparse : parse text = some ⟨c, order, .int (limit + 1 : ℕ)⟩)
    (horders : S.Orders order key) (hcount : S.count = SqlValue.count)
    (hcursor : ∀ r ∈ rows, cursorOf (item r) = .ok (cursor r)) :
    fetchPage S rows text limit item cursorOf =
      .ok (pageOf limit item cursor (sorted key (rows.filter (S.holds c)))) := by
  unfold fetchPage
  rw [execute_of_parse hparse horders hcount]
  apply paginate_map_take hlimit
  intro r hr
  exact hcursor r (List.mem_of_mem_filter ((sorted_perm key _).mem_iff.mp hr))

/-- The rows that satisfy the condition of a query. -/
theorem matching_of_parse {S : Schema SqlValue R} {text : Text SqlValue} {c : Cond SqlValue}
    {order : List (Str × Direction)} {limit : SqlValue}
    (hparse : parse text = some ⟨c, order, limit⟩) (rows : List R) :
    S.matching rows text = rows.filter (S.holds c) := by
  unfold Schema.matching
  rw [hparse]

/-- The first page has some condition, and a page with a cursor has that condition and the one of
the cursor. -/
theorem parse_assemble {select filters : Text SqlValue} {orderBy : String} {limit : ℕ}
    {order : List (Str × Direction)}
    (hselect : (scan Shape.step ([], .select 0) (holes select)).any isComplete = true)
    (hfilters : Conjuncts filters)
    (horder : ReadsOrder (push orderBy ++ pushBind (SqlValue.int (limit + 1 : ℕ))) order
      (.int (limit + 1 : ℕ))) :
    ∃ c, parse (assemble select filters [] orderBy limit) =
        some ⟨c, order, .int (limit + 1 : ℕ)⟩ ∧
      ∀ {t : Text SqlValue} {c' : Cond SqlValue}, ReadsConjunct t c' →
        parse (assemble select filters t orderBy limit) =
          some ⟨.and c c', order, .int (limit + 1 : ℕ)⟩ := by
  obtain ⟨c, hfirst, hnext⟩ := parse_assembled hselect hfilters horder
  refine ⟨c, ?_, ?_⟩
  · rw [← hfirst]
    unfold assemble
    rw [List.append_nil, List.append_assoc]
  · intro t c' ht
    rw [← hnext ht]
    unfold assemble
    rw [List.append_assoc]

/-! ### Parentheses -/

theorem parens_assemble (select filters cursor : Text SqlValue) (orderBy : String) (limit : ℕ) :
    parens (assemble select filters cursor orderBy limit) =
      parens (assemble select filters [] orderBy limit) + parens cursor := by
  unfold assemble
  simp only [parens_append, List.append_nil]
  omega

/-- A query with unbalanced parentheses is an error. -/
theorem fetchPage_of_not_balanced {S : Schema SqlValue R} {rows : List R} {text : Text SqlValue}
    {limit : ℕ} {item : R → I} {cursorOf : I → Except QueryError Str} (h : ¬Balanced text) :
    fetchPage S rows text limit item cursorOf = .error .database := by
  have hparse : parse text = none := by
    rw [Option.eq_none_iff_forall_ne_some]
    exact fun q hq => h (balanced_of_parse hq)
  unfold fetchPage Schema.execute
  rw [hparse]

/-! ## Walks -/

section Walk

variable {K : Type} [LinearOrder K] {S : Schema SqlValue R} {rows : List R} {key : R → K}
  {limit : ℕ} {item : R → I}
  {request : Option Str → Except QueryError (PaginatedResponse I)}
  {order : List (Str × Direction)}

/-- **Complete pages.**  A list is paged completely if the cursor of a row adds a conjunct that
holds for exactly the rows after that row. -/
theorem enumerates_assemble (cursor : R → Str) (cursorOf : I → Except QueryError Str)
    {select filters : Text SqlValue} {orderBy : String} {cursorText : R → Text SqlValue}
    {after : R → Cond SqlValue} (hlimit : 0 < limit)
    (hcount : S.count = SqlValue.count) (hnodup : (rows.map key).Nodup)
    (hselect : (scan Shape.step ([], .select 0) (holes select)).any isComplete = true)
    (hfilters : Conjuncts filters)
    (horder : ReadsOrder (push orderBy ++ pushBind (SqlValue.int (limit + 1 : ℕ))) order
      (.int (limit + 1 : ℕ)))
    (hconjunct : ∀ r, ReadsConjunct (cursorText r) (after r))
    (horders : S.Orders order key) (hafter : S.Continues after key)
    (hcursor : ∀ r ∈ rows, cursorOf (item r) = .ok (cursor r))
    (hnone : request none =
      fetchPage S rows (assemble select filters [] orderBy limit) limit item cursorOf)
    (hsome : ∀ r ∈ rows, request (some (cursor r)) =
      fetchPage S rows (assemble select filters (cursorText r) orderBy limit) limit item cursorOf) :
    Enumerates request limit key item
      (S.matching rows (assemble select filters [] orderBy limit)) := by
  obtain ⟨c, hfirst, hnext⟩ := parse_assemble hselect hfilters horder
  have hnodup' : ((rows.filter (S.holds c)).map key).Nodup :=
    hnodup.sublist (List.filter_sublist.map key)
  have hwalk : ∃ pages, Follows request none pages ∧ (∀ page ∈ pages, page.length ≤ limit) ∧
      pages.flatten = (sorted key (rows.filter (S.holds c))).map item := by
    apply exists_follows hlimit (sorted_pairwise_lt hnodup')
    · exact hnone.trans (fetchPage_of_parse hlimit hfirst horders hcount hcursor)
    · intro r hr
      -- the rows of the next page are those of the list that come after the row
      have hrest : sorted key (rows.filter (S.holds (.and c (after r)))) =
          (sorted key (rows.filter (S.holds c))).filter fun x => key r < key x := by
        rw [← sorted_filter hnodup', List.filter_filter]
        congr 1
        apply List.filter_congr
        intro x _
        rw [Schema.holds_and, hafter, Bool.and_comm]
      have hmem : r ∈ rows := List.mem_of_mem_filter ((sorted_perm key _).mem_iff.mp hr)
      rw [hsome r hmem, fetchPage_of_parse hlimit (hnext (hconjunct r)) horders hcount hcursor,
        hrest]
  obtain ⟨pages, hpages, hbound, hflat⟩ := hwalk
  rw [matching_of_parse hfirst]
  exact ⟨pages, _, hpages, hbound, hflat, sorted_perm key _, sorted_pairwise_lt hnodup'⟩

/-- **A single page.**  If no cursor is answered, the pages are complete exactly if all rows fit on
the first one. -/
theorem enumerates_iff_length_le {text : Text SqlValue} {c : Cond SqlValue}
    {cursorOf : I → Except QueryError Str} (hcount : S.count = SqlValue.count)
    (hnodup : (rows.map key).Nodup)
    (hparse : parse text = some ⟨c, order, .int (limit + 1 : ℕ)⟩) (horders : S.Orders order key)
    (hnone : request none = fetchPage S rows text limit item cursorOf)
    (hsome : ∀ raw page, request (some raw) ≠ .ok page) :
    Enumerates request limit key item (S.matching rows text) ↔
      (S.matching rows text).length ≤ limit := by
  constructor
  · rintro ⟨pages, found, hwalk, hbound, hflat, hperm, -⟩
    obtain ⟨hpage, -⟩ | ⟨-, -, hrest⟩ := hwalk
    · rw [List.flatten_singleton] at hflat
      calc (S.matching rows text).length = found.length := hperm.length_eq.symm
        _ = (found.map item).length := (List.length_map _).symm
        _ ≤ limit := hflat ▸ hbound _ (List.mem_singleton_self _)
    · -- the walk went on with a cursor
      obtain ⟨page, hpage⟩ := hrest.ok
      exact absurd hpage (hsome _ page)
  · intro hfits
    rw [matching_of_parse hparse] at hfits ⊢
    have hlength : (sorted key (rows.filter (S.holds c))).length ≤ limit := by
      rw [(sorted_perm key _).length_eq]
      exact hfits
    have hfirst : request none = .ok ⟨(sorted key (rows.filter (S.holds c))).map item, none⟩ := by
      rw [hnone]
      unfold fetchPage
      rw [execute_of_parse hparse horders hcount,
        List.take_of_length_le (Nat.le_succ_of_le hlength)]
      exact if_neg (by rw [List.length_map]; exact not_lt.mpr hlength)
    refine ⟨_, _, Follows.last hfirst rfl, ?_, List.flatten_singleton, sorted_perm key _,
      sorted_pairwise_lt (hnodup.sublist (List.filter_sublist.map key))⟩
    intro page hmem
    obtain rfl := List.mem_singleton.mp hmem
    rw [List.length_map]
    exact hlength

end Walk

end Query
