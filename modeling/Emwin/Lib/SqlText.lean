/-
# SQL text

A query builder appends pieces of SQL text and bound values.  The text is cut into words,
parameters, parentheses and commas, and a parser reads these one by one (`scan`); it is a
function from a state and a lexeme to the next state, and a text is read as its pieces are
(`scan_append`).
-/
import Emwin.Lib.Text
import Mathlib.Algebra.BigOperators.Group.List.Basic
import Mathlib.Data.Option.Basic

namespace Sql

/-! ## Text -/

/-- A character or a bound value. -/
inductive Sym (V : Type) where
  | char (c : Char)
  | bind (v : V)

/-- The text of a query with its bound values in place. -/
abbrev Text (V : Type) := List (Sym V)

variable {V : Type}

/-- Append text. -/
def push (s : String) : Text V := s.toList.map Sym.char

/-- A literal as its characters, for texts that are to be computed with. -/
theorem push_ofList (l : List Char) : (push (String.ofList l) : Text V) = l.map Sym.char := by
  rw [push, String.toList_ofList]

theorem push_append (s t : String) : (push (s ++ t) : Text V) = push s ++ push t := by
  unfold push
  rw [String.toList_append, List.map_append]

/-- Two pieces in front of a text are one. -/
theorem push_append_append (s t : String) (text : Text V) :
    push s ++ (push t ++ text) = push (s ++ t) ++ text := by
  rw [← List.append_assoc, push_append]

/-- Append a bound value. -/
def pushBind (v : V) : Text V := [Sym.bind v]

/-- What a symbol adds to the number of open parentheses. -/
def Sym.paren : Sym V → ℤ
  | .char c => if c = '(' then 1 else if c = ')' then -1 else 0
  | .bind _ => 0

/-- Opening parentheses minus closing ones. -/
def parens (t : Text V) : ℤ := (t.map Sym.paren).sum

theorem parens_append (t u : Text V) : parens (t ++ u) = parens t + parens u := by
  unfold parens
  rw [List.map_append, List.sum_append]

/-- No parenthesis is closed before it is opened, and none is left open. -/
structure Balanced (t : Text V) : Prop where
  nonneg : ∀ p, p <+: t → 0 ≤ parens p
  closed : parens t = 0

/-! ## Words -/

/-- A word, a parenthesis or a comma. -/
inductive Token where
  | word (w : Str)
  | lpar
  | rpar
  | comma
deriving DecidableEq

/-- A token or a parameter. -/
inductive Lexeme (V : Type) where
  | word (w : Str)
  | param (v : V)
  | lpar
  | rpar
  | comma

/-- A token as a lexeme. -/
def Token.lexeme : Token → Lexeme V
  | .word w => .word w
  | .lpar => .lpar
  | .rpar => .rpar
  | .comma => .comma

/-- What a lexeme adds to the number of open parentheses. -/
def Lexeme.paren : Lexeme V → ℤ
  | .lpar => 1
  | .rpar => -1
  | _ => 0

/-- The characters that are tokens of their own. -/
def punctuation (c : Char) : Option Token :=
  if c = '(' then some .lpar
  else if c = ')' then some .rpar
  else if c = ',' then some .comma
  else none

theorem paren_char (c : Char) :
    (Sym.char c : Sym V).paren =
      (punctuation c).elim 0 fun t => (t.lexeme : Lexeme V).paren := by
  unfold Sym.paren punctuation
  dsimp only
  split_ifs <;> rfl

/-- A symbol without its value. -/
def Sym.hole : Sym V → Sym Unit
  | .char c => .char c
  | .bind _ => .bind ()

/-- A text without its values. -/
def holes (t : Text V) : Text Unit := t.map Sym.hole

@[simp]
theorem holes_append (t u : Text V) : holes (t ++ u) = holes t ++ holes u := List.map_append

@[simp]
theorem holes_push (s : String) : holes (push s : Text V) = push s := by
  unfold holes push
  rw [List.map_map]
  rfl

@[simp]
theorem holes_pushBind (v : V) : holes (pushBind v) = pushBind () := rfl

theorem parens_holes (t : Text V) : parens (holes t) = parens t := by
  unfold parens holes
  rw [List.map_map]
  congr 1
  apply List.map_congr_left
  rintro (c | v) -
  · rfl
  · rfl

/-- A lexeme without its value. -/
def Lexeme.hole : Lexeme V → Lexeme Unit
  | .word w => .word w
  | .param _ => .param ()
  | .lpar => .lpar
  | .rpar => .rpar
  | .comma => .comma

theorem Token.hole_lexeme (t : Token) : (t.lexeme : Lexeme V).hole = t.lexeme := by
  cases t <;> rfl

section Scan

variable {σ τ : Type} (step : σ → Lexeme V → Option σ)

/-- End the word that is being read. -/
def flush (p : Str × σ) : Option σ := if p.1 = [] then some p.2 else step p.2 (.word p.1)

/-- End the word and read a lexeme. -/
def emit (p : Str × σ) (l : Lexeme V) : Option (Str × σ) :=
  (flush step p).bind fun s => (step s l).map fun s => ([], s)

/-- Read a symbol. -/
def readSym (p : Str × σ) : Sym V → Option (Str × σ)
  | .bind v => emit step p (.param v)
  | .char c =>
      match punctuation c with
      | some t => emit step p t.lexeme
      | none =>
          if Str.isWhitespace c then (flush step p).map fun s => ([], s)
          else some (p.1 ++ [c], p.2)

/-- Read a text; the first component is the word that is being read. -/
def scan (p : Str × σ) : Text V → Option (Str × σ)
  | [] => some p
  | x :: t => (readSym step p x).bind fun p => scan p t

variable {step}

theorem scan_append (p : Str × σ) (t u : Text V) :
    scan step p (t ++ u) = (scan step p t).bind fun p => scan step p u := by
  induction t generalizing p with
  | nil => rfl
  | cons x t ih =>
      show (readSym step p x).bind _ = ((readSym step p x).bind _).bind _
      rw [Option.bind_assoc]
      exact Option.bind_congr fun p _ => ih p

/-- White space ends a word. -/
theorem scan_space {p : Str × σ} {s : σ} (h : flush step p = some s) (t : Text V) :
    scan step p (push " " ++ t) = scan step ([], s) t := by
  show ((flush step p).map fun s => ([], s)).bind _ = _
  rw [h, Option.map_some, Option.bind_some]
  rfl

/-! ### Literals -/

/-- The tokens of a literal, and the word that is being read at its end. -/
def lexChars : Str → List Char → List Token × Str
  | w, [] => ([], w)
  | w, c :: l =>
      let word := if w = [] then [] else [Token.word w]
      match punctuation c with
      | some t => (word ++ t :: (lexChars [] l).1, (lexChars [] l).2)
      | none =>
          if Str.isWhitespace c then (word ++ (lexChars [] l).1, (lexChars [] l).2)
          else lexChars (w ++ [c]) l

variable (step) in
/-- Read lexemes. -/
def run (s : σ) : List (Lexeme V) → Option σ
  | [] => some s
  | l :: ls => (step s l).bind fun s => run s ls

theorem run_append (s : σ) (ls ls' : List (Lexeme V)) :
    run step s (ls ++ ls') = (run step s ls).bind fun s => run step s ls' := by
  induction ls generalizing s with
  | nil => rfl
  | cons l ls ih =>
      show (step s l).bind _ = ((step s l).bind _).bind _
      rw [Option.bind_assoc]
      exact Option.bind_congr fun s _ => ih s

/-- The end of a word is a token. -/
theorem flush_eq_run (p : Str × σ) : flush step p =
    run step p.2 ((if p.1 = [] then [] else [Token.word p.1]).map Token.lexeme) := by
  unfold flush
  split
  · rfl
  · exact (Option.bind_fun_some _).symm

/-- A literal is read as its tokens are. -/
theorem scan_chars (w : Str) (s : σ) (l : List Char) :
    scan step (w, s) (l.map Sym.char) =
      (run step s ((lexChars w l).1.map Token.lexeme)).map fun s => ((lexChars w l).2, s) := by
  induction l generalizing w s with
  | nil => rfl
  | cons c l ih =>
      show (readSym step (w, s) (.char c)).bind _ = _
      unfold readSym lexChars
      dsimp only
      cases punctuation c with
      | some t =>
          dsimp only
          unfold emit
          rw [flush_eq_run, List.map_append, run_append, Option.bind_assoc, Option.map_bind]
          refine Option.bind_congr fun s _ => ?_
          show ((step s t.lexeme).map _).bind _ = ((step s t.lexeme).bind _).map _
          rw [Option.bind_map, Option.map_bind]
          exact Option.bind_congr fun s _ => ih [] s
      | none =>
          dsimp only
          split
          · rw [flush_eq_run, List.map_append, run_append, Option.bind_map, Option.map_bind]
            exact Option.bind_congr fun s _ => ih [] s
          · exact ih _ s

/-- A literal and a bound value. -/
theorem scan_piece {l : List Char} {u : List Token} (hlex : lexChars [] l = (u, [])) {s s' : σ}
    (hrun : run step s (u.map Token.lexeme) = some s') {v : V} {s'' : σ}
    (hbind : step s' (.param v) = some s'') (t : Text V) :
    scan step ([], s) (push (String.ofList l) ++ (pushBind v ++ t)) = scan step ([], s'') t := by
  rw [scan_append, push_ofList, scan_chars, hlex, hrun]
  show ((step s' (.param v)).map fun s => ([], s)).bind _ = _
  rw [hbind]
  rfl

/-- A literal at the end. -/
theorem scan_end {l : List Char} {u : List Token} (hlex : lexChars [] l = (u, [])) {s s' : σ}
    (hrun : run step s (u.map Token.lexeme) = some s') :
    scan step ([], s) (push (String.ofList l)) = some ([], s') := by
  rw [push_ofList, scan_chars, hlex, hrun]
  rfl

/-- Whether a character belongs to words. -/
def isWordChar (c : Char) : Bool := (punctuation c).isNone && !Str.isWhitespace c

theorem punctuation_of_isWordChar {c : Char} (h : isWordChar c = true) : punctuation c = none := by
  rw [← Option.isNone_iff_eq_none]
  exact (Bool.and_eq_true _ _ ▸ h).1

/-- A word is read on. -/
theorem scan_word {u : List Char} (hu : u.all isWordChar = true) (w : Str) (s : σ) :
    scan step (w, s) (u.map Sym.char) = some (w ++ u, s) := by
  have hlex : lexChars w u = ([], w ++ u) := by
    induction u generalizing w with
    | nil => rw [List.append_nil]; rfl
    | cons c u ih =>
        rw [List.all_cons, Bool.and_eq_true] at hu
        have hspace : Str.isWhitespace c = false := by
          have := (Bool.and_eq_true _ _ ▸ hu.1).2
          simpa using this
        unfold lexChars
        rw [punctuation_of_isWordChar hu.1, hspace]
        refine (ih hu.2 _).trans ?_
        rw [List.append_assoc]
        rfl
  rw [scan_chars, hlex]
  rfl

section Projection

variable {step' : τ → Lexeme Unit → Option τ} {f : σ → τ}

theorem flush_map (hstep : ∀ s l, (step s l).map f = step' (f s) l.hole) (p : Str × σ) :
    (flush step p).map f = flush step' (Prod.map id f p) := by
  show (if p.1 = [] then _ else _ : Option σ).map f = if p.1 = [] then _ else _
  split
  · rfl
  · exact hstep p.2 _

theorem emit_map (hstep : ∀ s l, (step s l).map f = step' (f s) l.hole) (p : Str × σ)
    (l : Lexeme V) :
    (emit step p l).map (Prod.map id f) = emit step' (Prod.map id f p) l.hole := by
  unfold emit
  rw [← flush_map hstep, Option.map_bind, Option.bind_map]
  refine Option.bind_congr fun s _ => ?_
  show ((step s l).map _).map _ = (step' (f s) l.hole).map _
  rw [← hstep, Option.map_map, Option.map_map]
  rfl

theorem readSym_map (hstep : ∀ s l, (step s l).map f = step' (f s) l.hole) (p : Str × σ)
    (x : Sym V) :
    (readSym step p x).map (Prod.map id f) = readSym step' (Prod.map id f p) x.hole := by
  cases x with
  | bind v => exact emit_map hstep p _
  | char c =>
      unfold readSym
      dsimp only [Sym.hole]
      cases punctuation c with
      | some t =>
          dsimp only
          rw [emit_map hstep, Token.hole_lexeme]
      | none =>
          dsimp only
          split
          · rw [← flush_map hstep, Option.map_map, Option.map_map]
            rfl
          · rfl

/-- A parser that is a projection of another, and does not look at bound values, reads the same
texts without them. -/
theorem scan_map (hstep : ∀ s l, (step s l).map f = step' (f s) l.hole) (p : Str × σ)
    (t : Text V) : (scan step p t).map (Prod.map id f) =
      scan step' (Prod.map id f p) (holes t) := by
  induction t generalizing p with
  | nil => rfl
  | cons x t ih =>
      show ((readSym step p x).bind _).map _ = (readSym step' _ x.hole).bind _
      rw [← readSym_map hstep, Option.map_bind, Option.bind_map]
      exact Option.bind_congr fun p _ => ih p

end Projection

section Level

variable {level : σ → ℤ} {p p' : Str × σ}

theorem flush_level (hstep : ∀ s l s', step s l = some s' → level s' = level s + l.paren) {s : σ}
    (h : flush step p = some s) : level s = level p.2 := by
  unfold flush at h
  split at h
  · rw [Option.some.inj h]
  · rw [hstep _ _ _ h]
    exact add_zero _

theorem emit_level (hstep : ∀ s l s', step s l = some s' → level s' = level s + l.paren)
    {l : Lexeme V} (h : emit step p l = some p') : level p'.2 = level p.2 + l.paren := by
  obtain ⟨s, hs, h⟩ := Option.bind_eq_some_iff.mp h
  obtain ⟨s', hs', rfl⟩ := Option.map_eq_some_iff.mp h
  rw [hstep _ _ _ hs', flush_level hstep hs]

theorem readSym_level (hstep : ∀ s l s', step s l = some s' → level s' = level s + l.paren)
    {x : Sym V} (h : readSym step p x = some p') : level p'.2 = level p.2 + x.paren := by
  cases x with
  | bind v => exact emit_level hstep h
  | char c =>
      rw [paren_char]
      unfold readSym at h
      dsimp only at h
      split at h
      · next t ht =>
          rw [ht]
          exact emit_level hstep h
      · next hl =>
          rw [hl, Option.elim_none, add_zero]
          split at h
          · obtain ⟨s, hs, rfl⟩ := Option.map_eq_some_iff.mp h
            exact flush_level hstep hs
          · rw [← Option.some.inj h]

/-- A measure that follows the parentheses of lexemes follows those of a text. -/
theorem scan_level (hstep : ∀ s l s', step s l = some s' → level s' = level s + l.paren)
    {t : Text V} (h : scan step p t = some p') : level p'.2 = level p.2 + parens t := by
  induction t generalizing p with
  | nil =>
      rw [← Option.some.inj h]
      exact (add_zero _).symm
  | cons x t ih =>
      obtain ⟨q, hq, hrest⟩ := Option.bind_eq_some_iff.mp h
      rw [ih hrest, readSym_level hstep hq, add_assoc]
      rfl

end Level

end Scan

end Sql
