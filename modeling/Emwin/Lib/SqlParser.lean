/-
# Parsing queries

A query is read from left to right as

    SELECT .. FROM .. WHERE condition ORDER BY column direction, .. LIMIT parameter

A condition is made of atoms with `AND` and `OR`, where `AND` binds tighter, and of conditions
in parentheses.  An atom is a sequence of words, parameters and commas; once it has begun, a
parenthesis belongs to it up to the one that closes it, with all that stands between them.

Whether a text can be read depends on the shape of the parser's state alone (`Shape`), so that
a piece of text is checked once for all states of a shape and all bound values.  A text that is
read has balanced parentheses (`balanced_of_parse`).
-/
import Emwin.Lib.SqlText

namespace Sql

variable {V : Type}

/-! ## Conditions -/

/-- What the parser looks at. -/
inductive Kind where
  | plain
  | and
  | or
  | reserved
  | lpar
  | rpar
deriving DecidableEq

/-- The kind of a word. -/
def wordKind (w : Str) : Kind :=
  if w = ['A', 'N', 'D'] then .and
  else if w = ['O', 'R'] then .or
  else if w ∈ [['W', 'H', 'E', 'R', 'E'], ['O', 'R', 'D', 'E', 'R'], ['B', 'Y'],
    ['L', 'I', 'M', 'I', 'T']] then .reserved
  else .plain

/-- The kind of a lexeme. -/
def Lexeme.kind : Lexeme V → Kind
  | .word w => wordKind w
  | .param _ => .plain
  | .comma => .plain
  | .lpar => .lpar
  | .rpar => .rpar

/-- A condition. -/
inductive Cond (V : Type) where
  | atom (ls : List (Lexeme V))
  | and (a b : Cond V)
  | or (a b : Cond V)

/-- What has been read of an operand of `AND`. -/
inductive Operand (V : Type) where
  | empty
  | atom (ls : List (Lexeme V))
  | group (c : Cond V)

/-- The condition of an operand. -/
def Operand.cond : Operand V → Option (Cond V)
  | .empty => none
  | .atom ls => some (.atom ls)
  | .group c => some c

/-- What has been read of a condition: the disjuncts before the last `OR`, the conjuncts
before the last `AND` since, and the operand after it. -/
structure Frame (V : Type) where
  disjunct : Option (Cond V)
  conjunct : Option (Cond V)
  operand : Operand V

/-- The conjuncts up to here. -/
def Frame.conjunction (f : Frame V) : Option (Cond V) :=
  f.operand.cond.map fun c => f.conjunct.elim c fun k => .and k c

/-- The condition up to here. -/
def Frame.finish (f : Frame V) : Option (Cond V) :=
  f.conjunction.map fun c => f.disjunct.elim c fun d => .or d c

/-- Nothing has been read. -/
def Frame.new : Frame V := ⟨none, none, .empty⟩

/-- A lexeme more of an atom. -/
def Frame.extend (f : Frame V) (l : Lexeme V) : Option (Frame V) :=
  match f.operand with
  | .empty => some { f with operand := .atom [l] }
  | .atom ls => some { f with operand := .atom (ls ++ [l]) }
  | .group _ => none

/-- What has been read of a condition: the innermost condition in parentheses, those around
it, and the number of parentheses that are open in its atom. -/
structure Reading (V : Type) where
  frame : Frame V
  outer : List (Frame V)
  depth : ℕ

/-- The number of open parentheses of an atom after a lexeme. -/
def nest (depth : ℕ) : Kind → ℕ
  | .lpar => depth + 1
  | .rpar => depth - 1
  | _ => depth

/-- Read a lexeme of a condition. -/
def Reading.step (s : Reading V) (l : Lexeme V) : Option (Reading V) :=
  if s.depth = 0 then
    match l.kind with
    | .plain => (s.frame.extend l).map fun f => { s with frame := f }
    | .and => s.frame.conjunction.map fun c =>
        { s with frame := ⟨s.frame.disjunct, some c, .empty⟩ }
    | .or => s.frame.finish.map fun c => { s with frame := ⟨some c, none, .empty⟩ }
    | .reserved => none
    | .lpar =>
        match s.frame.operand with
        | .empty => some ⟨.new, s.frame :: s.outer, 0⟩
        | .atom ls => some ⟨{ s.frame with operand := .atom (ls ++ [l]) }, s.outer, 1⟩
        | .group _ => none
    | .rpar =>
        match s.outer with
        | [] => none
        | f :: outer => s.frame.finish.map fun c => ⟨{ f with operand := .group c }, outer, 0⟩
  else
    (s.frame.extend l).map fun f => { s with frame := f, depth := nest s.depth l.kind }

/-- No parenthesis is open. -/
def Reading.outermost (s : Reading V) : Bool := s.outer.isEmpty && s.depth == 0

/-! ## Queries -/

/-- The direction of a sort. -/
inductive Direction where
  | asc
  | desc
deriving DecidableEq

/-- A query; the columns of the result and the tables are left out. -/
structure Select (V : Type) where
  condition : Cond V
  order : List (Str × Direction)
  limit : V

/-- A certain word. -/
def Lexeme.isWord (w : Str) : Lexeme V → Bool
  | .word w' => w' == w
  | _ => false

/-- A comma. -/
def Lexeme.isComma : Lexeme V → Bool
  | .comma => true
  | _ => false

/-- The name of a column. -/
def Lexeme.name : Lexeme V → Option Str
  | .word w => if wordKind w = .plain then some w else none
  | _ => none

/-- A direction. -/
def Lexeme.direction (l : Lexeme V) : Option Direction :=
  if l.isWord ['A', 'S', 'C'] then some .asc
  else if l.isWord ['D', 'E', 'S', 'C'] then some .desc
  else none

/-- A parameter. -/
def Lexeme.value : Lexeme V → Option V
  | .param v => some v
  | _ => none

/-- Where the parser is. -/
inductive State (V : Type) where
  | select (depth : ℕ)
  | condition (s : Reading V)
  | orderBy (c : Cond V)
  | column (c : Cond V) (order : List (Str × Direction))
  | direction (c : Cond V) (order : List (Str × Direction)) (column : Str)
  | separator (c : Cond V) (order : List (Str × Direction))
  | limit (c : Cond V) (order : List (Str × Direction))
  | done (q : Select V)

/-- Read a lexeme of a query. -/
def State.step (s : State V) (l : Lexeme V) : Option (State V) :=
  match s with
  | .select depth =>
      if depth = 0 && l.isWord ['W', 'H', 'E', 'R', 'E'] then some (.condition ⟨.new, [], 0⟩)
      else if depth = 0 && l.kind = .rpar then none
      else some (.select (nest depth l.kind))
  | .condition s =>
      if s.outermost && l.isWord ['O', 'R', 'D', 'E', 'R'] then s.frame.finish.map .orderBy
      else (s.step l).map .condition
  | .orderBy c => if l.isWord ['B', 'Y'] then some (.column c []) else none
  | .column c order => l.name.map fun w => .direction c order w
  | .direction c order name => l.direction.map fun d => .separator c (order ++ [(name, d)])
  | .separator c order =>
      if l.isComma then some (.column c order)
      else if l.isWord ['L', 'I', 'M', 'I', 'T'] then some (.limit c order)
      else none
  | .limit c order => l.value.map fun v => .done ⟨c, order, v⟩
  | .done _ => none

/-- The query that a text is; `none` is a syntax error. -/
def parse (t : Text V) : Option (Select V) :=
  match (scan State.step ([], .select 0) t).bind (flush State.step) with
  | some (.done q) => some q
  | _ => none

/-! ## Shapes -/

/-- What is known of an operand. -/
inductive OperandShape where
  | empty
  | atom
  | group
deriving DecidableEq

/-- Whether there was an `OR`, and what is known of the operand. -/
structure FrameShape where
  disjunct : Bool
  operand : OperandShape
deriving DecidableEq

/-- A lexeme more of an atom. -/
def FrameShape.extend (f : FrameShape) : Option FrameShape :=
  if f.operand = .group then none else some { f with operand := .atom }

/-- The shape of what has been read of a condition. -/
structure ReadingShape where
  frame : FrameShape
  outer : List FrameShape
  depth : ℕ
deriving DecidableEq

/-- The shape after a lexeme. -/
def ReadingShape.step (s : ReadingShape) (k : Kind) : Option ReadingShape :=
  if s.depth = 0 then
    match k with
    | .plain => s.frame.extend.map fun f => { s with frame := f }
    | .and =>
        if s.frame.operand = .empty then none
        else some { s with frame := ⟨s.frame.disjunct, .empty⟩ }
    | .or => if s.frame.operand = .empty then none else some { s with frame := ⟨true, .empty⟩ }
    | .reserved => none
    | .lpar =>
        match s.frame.operand with
        | .empty => some ⟨⟨false, .empty⟩, s.frame :: s.outer, 0⟩
        | .atom => some ⟨s.frame, s.outer, 1⟩
        | .group => none
    | .rpar =>
        match s.outer with
        | [] => none
        | f :: outer =>
            if s.frame.operand = .empty then none
            else some ⟨{ f with operand := .group }, outer, 0⟩
  else
    s.frame.extend.map fun f => { s with frame := f, depth := nest s.depth k }

/-- The shape of a state. -/
inductive Shape where
  | select (depth : ℕ)
  | condition (s : ReadingShape)
  | orderBy
  | column
  | direction
  | separator
  | limit
  | done
deriving DecidableEq

/-- The shape after a lexeme. -/
def Shape.step (s : Shape) (l : Lexeme Unit) : Option Shape :=
  match s with
  | .select depth =>
      if depth = 0 && l.isWord ['W', 'H', 'E', 'R', 'E'] then
        some (.condition ⟨⟨false, .empty⟩, [], 0⟩)
      else if depth = 0 && l.kind = .rpar then none
      else some (.select (nest depth l.kind))
  | .condition s =>
      if (s.outer.isEmpty && s.depth == 0) && l.isWord ['O', 'R', 'D', 'E', 'R'] then
        if s.frame.operand = .empty then none else some .orderBy
      else (s.step l.kind).map .condition
  | .orderBy => if l.isWord ['B', 'Y'] then some .column else none
  | .column => l.name.map fun _ => .direction
  | .direction => l.direction.map fun _ => .separator
  | .separator =>
      if l.isComma then some .column
      else if l.isWord ['L', 'I', 'M', 'I', 'T'] then some .limit
      else none
  | .limit => l.value.map fun _ => .done
  | .done => none

/-- The shape of an operand. -/
def Operand.shape : Operand V → OperandShape
  | .empty => .empty
  | .atom _ => .atom
  | .group _ => .group

/-- The shape of a frame. -/
def Frame.shape (f : Frame V) : FrameShape := ⟨f.disjunct.isSome, f.operand.shape⟩

/-- The shape of what has been read of a condition. -/
def Reading.shape (s : Reading V) : ReadingShape :=
  ⟨s.frame.shape, s.outer.map Frame.shape, s.depth⟩

/-- The shape of a state. -/
def State.shape : State V → Shape
  | .select depth => .select depth
  | .condition s => .condition s.shape
  | .orderBy _ => .orderBy
  | .column _ _ => .column
  | .direction _ _ _ => .direction
  | .separator _ _ => .separator
  | .limit _ _ => .limit
  | .done _ => .done

theorem Frame.shape_extend (f : Frame V) (l : Lexeme V) :
    (f.extend l).map Frame.shape = f.shape.extend := by
  obtain ⟨d, k, o⟩ := f
  cases o <;> rfl

/-- An operand that is not empty gives a condition. -/
theorem Frame.conjunction_eq_none_iff (f : Frame V) :
    f.conjunction = none ↔ f.shape.operand = .empty := by
  obtain ⟨d, k, o⟩ := f
  cases o <;> simp [Frame.conjunction, Operand.cond, Frame.shape, Operand.shape]

theorem Frame.finish_eq_none_iff (f : Frame V) : f.finish = none ↔ f.shape.operand = .empty := by
  rw [← Frame.conjunction_eq_none_iff, Frame.finish, Option.map_eq_none_iff]

/-- A value that depends on a condition is there if the operand is not empty. -/
theorem map_of_shape {α : Type} {β : Type} {x : Option α} {o : OperandShape} {g : α → β} {b : β}
    (hx : x = none ↔ o = .empty) (hg : ∀ a, g a = b) :
    x.map g = if o = .empty then none else some b := by
  cases x with
  | none => rw [if_pos (hx.mp rfl), Option.map_none]
  | some a =>
      rw [if_neg fun ho => Option.some_ne_none a (hx.mpr ho), Option.map_some, hg]

theorem Reading.shape_step (s : Reading V) (l : Lexeme V) :
    (s.step l).map Reading.shape = s.shape.step l.kind := by
  obtain ⟨f, outer, depth⟩ := s
  have hextend : ∀ depth', ((f.extend l).map fun f => (⟨f, outer, depth'⟩ : Reading V)).map
      Reading.shape = f.shape.extend.map fun f => ⟨f, outer.map Frame.shape, depth'⟩ := by
    intro depth'
    rw [← Frame.shape_extend, Option.map_map, Option.map_map]
    rfl
  unfold Reading.step ReadingShape.step
  dsimp only [Reading.shape]
  split
  · next hdepth =>
      subst hdepth
      cases l.kind with
      | plain => exact hextend 0
      | and =>
          rw [Option.map_map]
          exact map_of_shape f.conjunction_eq_none_iff fun c => rfl
      | or =>
          rw [Option.map_map]
          exact map_of_shape f.finish_eq_none_iff fun c => rfl
      | reserved => rfl
      | lpar =>
          obtain ⟨d, k, o⟩ := f
          cases o <;> rfl
      | rpar =>
          cases outer with
          | nil => rfl
          | cons g outer =>
              dsimp only [List.map_cons]
              rw [Option.map_map]
              exact map_of_shape f.finish_eq_none_iff fun c => rfl
  · next hdepth =>
      exact (hextend _).trans (if_neg hdepth).symm

@[simp]
theorem Lexeme.kind_hole (l : Lexeme V) : l.hole.kind = l.kind := by cases l <;> rfl

@[simp]
theorem Lexeme.isWord_hole (l : Lexeme V) (w : Str) : l.hole.isWord w = l.isWord w := by
  cases l <;> rfl

@[simp]
theorem Lexeme.isComma_hole (l : Lexeme V) : l.hole.isComma = l.isComma := by cases l <;> rfl

@[simp]
theorem Lexeme.name_hole (l : Lexeme V) : l.hole.name = l.name := by cases l <;> rfl

@[simp]
theorem Lexeme.direction_hole (l : Lexeme V) : l.hole.direction = l.direction := by
  unfold Lexeme.direction
  rw [Lexeme.isWord_hole, Lexeme.isWord_hole]

@[simp]
theorem Lexeme.value_hole (l : Lexeme V) : l.hole.value = l.value.map fun _ => () := by
  cases l <;> rfl

/-- **Shapes.**  The shape of a state says which lexemes can be read. -/
theorem State.shape_step (s : State V) (l : Lexeme V) :
    (s.step l).map State.shape = s.shape.step l.hole := by
  unfold State.step Shape.step
  cases s with
  | select depth =>
      dsimp only [State.shape]
      rw [Lexeme.isWord_hole, Lexeme.kind_hole]
      split_ifs <;> rfl
  | condition s =>
      dsimp only [State.shape]
      have hempty : s.shape.outer.isEmpty = s.outer.isEmpty := by
        obtain ⟨f, outer, depth⟩ := s
        cases outer <;> rfl
      show Option.map _ (if (s.outer.isEmpty && s.depth == 0) && _ then _ else _) =
        if (s.shape.outer.isEmpty && s.depth == 0) && _ then _ else _
      rw [hempty, Lexeme.isWord_hole, Lexeme.kind_hole]
      split
      · rw [Option.map_map]
        exact map_of_shape s.frame.finish_eq_none_iff fun c => rfl
      · rw [← Reading.shape_step, Option.map_map, Option.map_map]
        rfl
  | orderBy c =>
      dsimp only [State.shape]
      rw [Lexeme.isWord_hole]
      split_ifs <;> rfl
  | column c order =>
      dsimp only [State.shape]
      rw [Lexeme.name_hole, Option.map_map]
      rfl
  | direction c order name =>
      dsimp only [State.shape]
      rw [Lexeme.direction_hole, Option.map_map]
      rfl
  | separator c order =>
      dsimp only [State.shape]
      rw [Lexeme.isComma_hole, Lexeme.isWord_hole]
      split_ifs <;> rfl
  | limit c order =>
      dsimp only [State.shape]
      rw [Lexeme.value_hole, Option.map_map, Option.map_map]
      rfl
  | done q => rfl

/-- A text is read from a state as from its shape. -/
theorem scan_shape (p : Str × State V) (t : Text V) :
    (scan State.step p t).map (Prod.map id State.shape) =
      scan Shape.step (Prod.map id State.shape p) (holes t) :=
  scan_map State.shape_step p t

/-! ## Parentheses -/

/-- The number of open parentheses. -/
def Shape.level : Shape → ℤ
  | .select depth => depth
  | .condition s => s.outer.length + s.depth
  | _ => 0

/-- The kind says what a lexeme does to the parentheses. -/
theorem Lexeme.paren_eq (l : Lexeme V) :
    l.paren = if l.kind = .lpar then 1 else if l.kind = .rpar then -1 else 0 := by
  cases l with
  | word w =>
      show 0 = if wordKind w = .lpar then _ else if wordKind w = .rpar then _ else _
      unfold wordKind
      split_ifs <;> first | rfl | contradiction
  | param v => rfl
  | lpar => rfl
  | rpar => rfl
  | comma => rfl

theorem Lexeme.paren_of_isWord {l : Lexeme V} {w : Str} (h : l.isWord w = true) : l.paren = 0 := by
  cases l with
  | word w' => rfl
  | _ => cases h

theorem ReadingShape.level_step {s s' : ReadingShape} {l : Lexeme Unit}
    (h : s.step l.kind = some s') :
    (s'.outer.length + s'.depth : ℤ) = s.outer.length + s.depth + l.paren := by
  obtain ⟨f, outer, depth⟩ := s
  rw [Lexeme.paren_eq]
  unfold ReadingShape.step at h
  dsimp only at h ⊢
  generalize l.kind = k at h ⊢
  split at h
  · next hdepth =>
      subst hdepth
      cases k with
      | plain =>
          obtain ⟨g, -, rfl⟩ := Option.map_eq_some_iff.mp h
          simp
      | and =>
          dsimp only at h
          split at h
          · cases h
          · obtain rfl := Option.some.inj h
            simp
      | or =>
          dsimp only at h
          split at h
          · cases h
          · obtain rfl := Option.some.inj h
            simp
      | reserved => cases h
      | lpar =>
          dsimp only at h
          split at h
          · obtain rfl := Option.some.inj h
            simp
          · obtain rfl := Option.some.inj h
            simp
          · cases h
      | rpar =>
          dsimp only at h
          split at h
          · cases h
          · split at h
            · cases h
            · obtain rfl := Option.some.inj h
              simp
  · next hdepth =>
      obtain ⟨g, -, rfl⟩ := Option.map_eq_some_iff.mp h
      cases k <;> simp [nest] <;> omega

/-- The level follows the parentheses. -/
theorem Shape.level_step (s : Shape) (l : Lexeme Unit) (s' : Shape) (h : s.step l = some s') :
    s'.level = s.level + l.paren := by
  unfold Shape.step at h
  cases s with
  | select depth =>
      dsimp only at h
      split at h
      · next hwhere =>
          rw [Bool.and_eq_true, decide_eq_true_eq] at hwhere
          obtain rfl := Option.some.inj h
          rw [Lexeme.paren_of_isWord hwhere.2, hwhere.1]
          rfl
      · split at h
        · cases h
        · next hclose =>
            obtain rfl := Option.some.inj h
            rw [Lexeme.paren_eq]
            rw [Bool.and_eq_true, decide_eq_true_eq, decide_eq_true_eq] at hclose
            show ((nest depth l.kind : ℕ) : ℤ) = depth + _
            generalize l.kind = k at hclose ⊢
            cases k <;> simp [nest] at hclose ⊢
            omega
  | condition s =>
      dsimp only at h
      split at h
      · next horder =>
          rw [Bool.and_eq_true, Bool.and_eq_true, List.isEmpty_iff, beq_iff_eq] at horder
          obtain ⟨⟨houter, hdepth⟩, hword⟩ := horder
          split at h
          · cases h
          · obtain rfl := Option.some.inj h
            rw [Lexeme.paren_of_isWord hword]
            show 0 = ((s.outer.length : ℤ) + s.depth) + 0
            rw [houter, hdepth]
            rfl
      · obtain ⟨r, hr, rfl⟩ := Option.map_eq_some_iff.mp h
        exact ReadingShape.level_step hr
  | orderBy =>
      dsimp only at h
      split at h
      · next hword =>
          obtain rfl := Option.some.inj h
          rw [Lexeme.paren_of_isWord hword]
          rfl
      · cases h
  | column =>
      obtain ⟨w, hw, rfl⟩ := Option.map_eq_some_iff.mp h
      cases l with
      | word w => rfl
      | _ => cases hw
  | direction =>
      obtain ⟨d, hd, rfl⟩ := Option.map_eq_some_iff.mp h
      cases l with
      | word w => rfl
      | _ => cases hd
  | separator =>
      cases l with
      | comma =>
          obtain rfl := Option.some.inj h
          rfl
      | word w =>
          replace h : (if w == ['L', 'I', 'M', 'I', 'T'] then some Shape.limit else none) =
              some s' := h
          split at h
          · obtain rfl := Option.some.inj h
            rfl
          · cases h
      | _ => cases h
  | limit =>
      obtain ⟨v, hv, rfl⟩ := Option.map_eq_some_iff.mp h
      cases l with
      | param v => rfl
      | _ => cases hv
  | done => cases h

/-- The number of open parentheses is never negative. -/
theorem Shape.level_nonneg (s : Shape) : 0 ≤ s.level := by
  cases s with
  | select depth => exact Int.natCast_nonneg depth
  | condition s => exact Int.natCast_nonneg (s.outer.length + s.depth)
  | _ => exact le_rfl

/-- What a text that is read leaves behind. -/
theorem scan_of_parse {t : Text V} {q : Select V} (h : parse t = some q) :
    ∃ p, scan State.step ([], .select 0) t = some p ∧ flush State.step p = some (.done q) := by
  unfold parse at h
  split at h
  · next q' hq =>
      obtain rfl := Option.some.inj h
      exact Option.bind_eq_some_iff.mp hq
  · cases h

/-- **Unbalanced text is rejected.** -/
theorem balanced_of_parse {t : Text V} {q : Select V} (h : parse t = some q) : Balanced t := by
  obtain ⟨p, hp, hflush⟩ := scan_of_parse h
  have hscan := scan_shape ([], .select 0) t
  rw [hp, Option.map_some] at hscan
  have hdone := flush_map State.shape_step p
  rw [hflush, Option.map_some] at hdone
  constructor
  · rintro u ⟨v, rfl⟩
    -- the parser is in some state after each part of the text
    rw [holes_append, scan_append] at hscan
    obtain ⟨p', hp', -⟩ := Option.bind_eq_some_iff.mp hscan.symm
    have hlevel := scan_level Shape.level_step hp'
    have hnonneg := p'.2.level_nonneg
    rw [hlevel, parens_holes] at hnonneg
    exact (zero_add (parens u)) ▸ hnonneg
  · have hlevel := scan_level Shape.level_step hscan.symm
    rw [← flush_level Shape.level_step hdone.symm, parens_holes] at hlevel
    exact ((zero_add (parens t)) ▸ hlevel).symm

end Sql
