/-
# Conjunctions of clauses

The condition of an assembled query is a conjunction: each filter adds ` AND ` and one operand.
That a text continues a conjunction (`Conjuncts`) is checked on the text without its bound
values.  Where the text depends on more, it stands inside the parentheses of an atom, and there
only the parentheses matter (`Conjuncts.of_opens`).

After the filters the condition is complete, and the query goes on with another conjunct or
with `ORDER BY` (`scan_and`, `scan_order`).
-/
import Emwin.Lib.SqlParser

namespace Sql

variable {V : Type}

/-! ## Inside an atom -/

/-- The number of open parentheses after one more; `none` if one is closed that is not open. -/
def nestBy (depth : ℕ) (paren : ℤ) : Option ℕ :=
  if paren = 1 then some (depth + 1)
  else if paren = -1 then if depth = 0 then none else some (depth - 1)
  else some depth

/-- The number of open parentheses after a text. -/
def nestLevel (depth : ℕ) : Text V → Option ℕ
  | [] => some depth
  | x :: t => (nestBy depth x.paren).bind fun depth => nestLevel depth t

/-- A text with balanced parentheses, as it may stand inside an atom. -/
def Nested (t : Text V) : Prop := nestLevel 0 t = some 0

instance (t : Text V) : Decidable (Nested t) := inferInstanceAs (Decidable (_ = _))

theorem nestLevel_append (depth : ℕ) (t u : Text V) :
    nestLevel depth (t ++ u) = (nestLevel depth t).bind fun depth => nestLevel depth u := by
  induction t generalizing depth with
  | nil => rfl
  | cons x t ih =>
      show (nestBy depth x.paren).bind _ = ((nestBy depth x.paren).bind _).bind _
      rw [Option.bind_assoc]
      exact Option.bind_congr fun depth _ => ih depth

/-- More parentheses around a text do no harm. -/
theorem nestLevel_add {depth level : ℕ} {t : Text V} (h : nestLevel depth t = some level)
    (n : ℕ) : nestLevel (depth + n) t = some (level + n) := by
  induction t generalizing depth with
  | nil =>
      obtain rfl := Option.some.inj h
      rfl
  | cons x t ih =>
      obtain ⟨depth', hx, hrest⟩ := Option.bind_eq_some_iff.mp h
      have hadd : nestBy (depth + n) x.paren = some (depth' + n) := by
        unfold nestBy at hx ⊢
        grind
      show (nestBy (depth + n) x.paren).bind _ = _
      rw [hadd, Option.bind_some]
      exact ih hrest

theorem nestLevel_holes (depth : ℕ) (t : Text V) :
    nestLevel depth (holes t) = nestLevel depth t := by
  induction t generalizing depth with
  | nil => rfl
  | cons x t ih =>
      have hparen : x.hole.paren = x.paren := by cases x <;> rfl
      show (nestBy depth x.hole.paren).bind _ = (nestBy depth x.paren).bind _
      rw [hparen]
      exact Option.bind_congr fun depth _ => ih depth

/-- Bound values have no parentheses. -/
theorem Nested.of_holes {t : Text V} (h : Nested (holes t)) : Nested t :=
  (nestLevel_holes 0 t).symm.trans h

theorem Nested.nil : Nested ([] : Text V) := rfl

theorem Nested.append {t u : Text V} (ht : Nested t) (hu : Nested u) : Nested (t ++ u) := by
  unfold Nested
  rw [nestLevel_append, ht]
  exact hu

theorem Nested.flatMap {α : Type} {l : List α} {f : α → Text V} (h : ∀ a ∈ l, Nested (f a)) :
    Nested (l.flatMap f) := by
  induction l with
  | nil => exact Nested.nil
  | cons a l ih =>
      rw [List.forall_mem_cons] at h
      rw [List.flatMap_cons]
      exact h.1.append (ih h.2)

theorem Nested.pushBind (v : V) : Nested (pushBind v) := rfl

/-- The parentheses of a literal. -/
theorem Nested.of_chars {l : List Char} (h : Nested (l.map Sym.char : Text Unit)) :
    Nested (push (String.ofList l) : Text V) := by
  apply Nested.of_holes
  rw [holes_push, push_ofList]
  exact h

/-- A word has no parentheses. -/
theorem Nested.of_word {w : List Char} (h : w.all isWordChar = true) :
    Nested (push (String.ofList w) : Text V) := by
  rw [push_ofList]
  induction w with
  | nil => rfl
  | cons c w ih =>
      rw [List.all_cons, Bool.and_eq_true] at h
      have hparen : (Sym.char c : Sym V).paren = 0 := by
        rw [paren_char, punctuation_of_isWordChar h.1]
        rfl
      show (nestBy 0 (Sym.char c : Sym V).paren).bind _ = some 0
      rw [hparen]
      exact ih h.2

/-- A text in parentheses. -/
theorem Nested.wrap {t inner : Text V} (ht : nestLevel 0 t = some 1) (hinner : Nested inner) :
    Nested (t ++ inner ++ push ")") := by
  unfold Nested
  rw [nestLevel_append, nestLevel_append, ht, Option.bind_some, nestLevel_add hinner 1]
  rfl

/-- An atom, inside as many parentheses. -/
def inAtom (depth : ℕ) : Shape := .condition ⟨⟨false, .atom⟩, [], depth⟩

theorem wordKind_ne_paren (w : Str) : wordKind w ≠ .lpar ∧ wordKind w ≠ .rpar := by
  unfold wordKind
  split_ifs <;> exact ⟨Kind.noConfusion, Kind.noConfusion⟩

/-- Inside parentheses every lexeme belongs to the atom. -/
theorem step_inAtom (depth : ℕ) (l : Lexeme Unit) :
    (inAtom (depth + 1)).step l = some (inAtom (nest (depth + 1) l.kind)) := rfl

theorem flush_inAtom (w : Str) (depth : ℕ) :
    flush Shape.step (w, inAtom (depth + 1)) = some (inAtom (depth + 1)) := by
  unfold flush
  split
  · rfl
  · show (inAtom (depth + 1)).step (.word w) = _
    rw [step_inAtom]
    show some (inAtom (nest (depth + 1) (wordKind w))) = _
    obtain ⟨hl, hr⟩ := wordKind_ne_paren w
    cases hkind : wordKind w with
    | lpar => exact absurd hkind hl
    | rpar => exact absurd hkind hr
    | _ => rfl

theorem nest_kind {depth depth' : ℕ} {l : Lexeme Unit} (h : nestBy depth l.paren = some depth') :
    nest (depth + 1) l.kind = depth' + 1 := by
  rw [Lexeme.paren_eq] at h
  unfold nestBy at h
  cases hkind : l.kind with
  | lpar =>
      rw [hkind] at h
      obtain rfl := Option.some.inj h
      rfl
  | rpar =>
      rw [hkind] at h
      replace h : (if depth = 0 then none else some (depth - 1)) = some depth' := h
      split at h
      · cases h
      · obtain rfl := Option.some.inj h
        show depth + 1 - 1 = depth - 1 + 1
        omega
  | _ =>
      rw [hkind] at h
      obtain rfl := Option.some.inj h
      rfl

/-- A symbol inside parentheses. -/
theorem readSym_inAtom (w : Str) {depth depth' : ℕ} {x : Sym Unit}
    (h : nestBy depth x.paren = some depth') :
    ∃ w', readSym Shape.step (w, inAtom (depth + 1)) x = some (w', inAtom (depth' + 1)) := by
  have hemit : ∀ l : Lexeme Unit, nestBy depth l.paren = some depth' →
      emit Shape.step (w, inAtom (depth + 1)) l = some ([], inAtom (depth' + 1)) := by
    intro l hl
    unfold emit
    rw [flush_inAtom, Option.bind_some, step_inAtom, nest_kind hl, Option.map_some]
  cases x with
  | bind v => exact ⟨[], hemit (.param v) h⟩
  | char c =>
      rw [paren_char] at h
      unfold readSym
      dsimp only
      cases hc : punctuation c with
      | some t =>
          rw [hc] at h
          exact ⟨[], hemit t.lexeme h⟩
      | none =>
          rw [hc] at h
          obtain rfl : depth = depth' := Option.some.inj h
          dsimp only
          split
          · exact ⟨[], by rw [flush_inAtom]; rfl⟩
          · exact ⟨w ++ [c], rfl⟩

/-- **Inside an atom.**  A text inside the parentheses of an atom is read if its own
parentheses are balanced. -/
theorem scan_inAtom (w : Str) {depth depth' : ℕ} {t : Text V}
    (h : nestLevel depth t = some depth') :
    ∃ w', scan Shape.step (w, inAtom (depth + 1)) (holes t) = some (w', inAtom (depth' + 1)) := by
  induction t generalizing w depth with
  | nil =>
      obtain rfl := Option.some.inj h
      exact ⟨w, rfl⟩
  | cons x t ih =>
      obtain ⟨depth₁, hx, hrest⟩ := Option.bind_eq_some_iff.mp h
      obtain ⟨w₁, hw₁⟩ := readSym_inAtom w (x := x.hole) (by cases x <;> exact hx)
      obtain ⟨w', hw'⟩ := ih w₁ hrest
      refine ⟨w', ?_⟩
      show (readSym Shape.step _ x.hole).bind _ = _
      rw [hw₁, Option.bind_some]
      exact hw'

/-! ## Conjuncts -/

/-- A condition without `OR` so far. -/
def conjunctive (o : OperandShape) : Shape := .condition ⟨⟨false, o⟩, [], 0⟩

/-- Whether a condition without `OR` is complete. -/
def isComplete (p : Str × Shape) : Bool :=
  match flush Shape.step p with
  | some s => s = conjunctive .atom || s = conjunctive .group
  | none => false

theorem flush_of_isComplete {p : Str × Shape} (h : isComplete p = true) :
    flush Shape.step p = some (conjunctive .atom) ∨
      flush Shape.step p = some (conjunctive .group) := by
  unfold isComplete at h
  split at h
  · next s hs =>
      rw [Bool.or_eq_true, decide_eq_true_eq, decide_eq_true_eq] at h
      obtain rfl | rfl := h
      · exact Or.inl hs
      · exact Or.inr hs
  · cases h

/-- Whether a text begins with white space, and from a complete condition leads to a certain
state. -/
def leadsTo (good : Str × Shape → Bool) (t : Text Unit) : Bool :=
  match t with
  | .char ' ' :: t =>
      (scan Shape.step ([], conjunctive .atom) t).any good &&
        (scan Shape.step ([], conjunctive .group) t).any good
  | _ => false

theorem exists_of_leadsTo {good : Str × Shape → Bool} {t : Text Unit} (h : leadsTo good t = true)
    {p : Str × Shape} (hp : isComplete p = true) :
    ∃ p', scan Shape.step p t = some p' ∧ good p' = true := by
  unfold leadsTo at h
  split at h
  · next t =>
      rw [Bool.and_eq_true, Option.any_eq_true, Option.any_eq_true] at h
      obtain ⟨⟨p₁, hp₁, hgood₁⟩, ⟨p₂, hp₂, hgood₂⟩⟩ := h
      obtain hflush | hflush := flush_of_isComplete hp
      · exact ⟨p₁, (scan_space hflush t).trans hp₁, hgood₁⟩
      · exact ⟨p₂, (scan_space hflush t).trans hp₂, hgood₂⟩
  · cases h

/-- A text that continues a conjunction by further conjuncts. -/
def Conjuncts (t : Text V) : Prop :=
  ∀ p, isComplete p = true → ∃ p', scan Shape.step p (holes t) = some p' ∧ isComplete p' = true

theorem Conjuncts.nil : Conjuncts ([] : Text V) := fun p hp => ⟨p, rfl, hp⟩

theorem Conjuncts.append {t u : Text V} (ht : Conjuncts t) (hu : Conjuncts u) :
    Conjuncts (t ++ u) := by
  intro p hp
  obtain ⟨p', hp', hc'⟩ := ht p hp
  obtain ⟨p'', hp'', hc''⟩ := hu p' hc'
  refine ⟨p'', ?_, hc''⟩
  rw [holes_append, scan_append, hp', Option.bind_some, hp'']

/-- A text whose pieces and bound values are fixed. -/
theorem Conjuncts.of_leadsTo {t : Text V} (h : leadsTo isComplete (holes t) = true) :
    Conjuncts t := fun _ hp => exists_of_leadsTo h hp

/-- Whether a text is the name of a column. -/
def isColumn (w : List Char) : Bool :=
  !w.isEmpty && w.all isWordChar && decide (wordKind w = .plain)

/-- **Columns.**  A conjunct that begins with a column goes on inside an atom. -/
theorem scan_column {column : List Char} (h : isColumn column = true) {p : Str × Shape}
    (hp : isComplete p = true) (t : Text Unit) :
    scan Shape.step p (push " AND " ++ push (String.ofList column) ++ push " " ++ t) =
      scan Shape.step ([], conjunctive .atom) t := by
  unfold isColumn at h
  rw [Bool.and_eq_true, Bool.and_eq_true, decide_eq_true_eq] at h
  obtain ⟨⟨hne, hall⟩, hkind⟩ := h
  have hand : scan Shape.step p (push " AND " : Text Unit) = some ([], conjunctive .empty) := by
    obtain hflush | hflush := flush_of_isComplete hp
    · exact (scan_space hflush (push "AND ")).trans rfl
    · exact (scan_space hflush (push "AND ")).trans rfl
  have hcolumn : flush Shape.step (column, conjunctive .empty) = some (conjunctive .atom) := by
    have hstep : (conjunctive .empty).step (.word column) = some (conjunctive .atom) := by
      have horder : (Lexeme.word column : Lexeme Unit).isWord ['O', 'R', 'D', 'E',
          'R'] = false := by
        show (column == _) = false
        rw [beq_eq_false_iff_ne]
        rintro rfl
        cases hkind
      show (if _ && (Lexeme.word column : Lexeme Unit).isWord _ then _ else
        (ReadingShape.step _ (wordKind column)).map _) = _
      rw [horder, hkind]
      rfl
    have hempty : column ≠ [] := by
      rintro rfl
      cases hne
    exact (if_neg hempty).trans hstep
  rw [List.append_assoc, List.append_assoc, scan_append, hand, Option.bind_some, push_ofList,
    scan_append, scan_word hall, Option.bind_some]
  exact scan_space hcolumn t

/-- Whether a text is a conjunct up to the inside of a parenthesis of its atom. -/
def opens (t : Text Unit) : Bool := leadsTo (fun p => p.2 = inAtom 1) t

/-- The parenthesis of an atom is closed. -/
theorem scan_close (w : Str) {inner : Text V} (h : Nested inner) :
    scan Shape.step (w, inAtom 1) (holes (inner ++ push ")")) = some ([], inAtom 0) := by
  obtain ⟨w', hinner⟩ := scan_inAtom w h
  rw [holes_append, holes_push, scan_append, hinner, Option.bind_some]
  show (emit Shape.step (w', inAtom 1) .rpar).bind some = _
  unfold emit
  rw [flush_inAtom]
  rfl

/-- **Conjuncts.**  What stands in the parentheses of an atom matters by its own parentheses
alone. -/
theorem Conjuncts.of_opens {t inner : Text V} (ht : opens (holes t) = true)
    (hinner : Nested inner) : Conjuncts (t ++ inner ++ push ")") := by
  intro p hp
  obtain ⟨⟨w, s⟩, hscan, hs⟩ := exists_of_leadsTo ht hp
  obtain rfl : s = inAtom 1 := of_decide_eq_true hs
  refine ⟨([], inAtom 0), ?_, rfl⟩
  rw [List.append_assoc, holes_append, scan_append, hscan, Option.bind_some, scan_close w hinner]

/-- A column and what it is compared with. -/
theorem Conjuncts.column {column : List Char} (h : isColumn column = true) {t : Text V}
    {q : Str × Shape} (ht : scan Shape.step ([], conjunctive .atom) (holes t) = some q)
    (hq : isComplete q = true) :
    Conjuncts (push " AND " ++ push (String.ofList column) ++ push " " ++ t) := by
  intro p hp
  refine ⟨q, ?_, hq⟩
  simp only [holes_append, holes_push]
  rw [scan_column h hp, ht]

/-- A column in a list. -/
theorem Conjuncts.inList {column : List Char} (h : isColumn column = true) {inner : Text V}
    (hinner : Nested inner) :
    Conjuncts (push " AND " ++ push (String.ofList column) ++ push " " ++
      (push "IN (" ++ (inner ++ push ")"))) := by
  apply Conjuncts.column h (q := ([], inAtom 0))
  · rw [holes_append, scan_append]
    exact scan_close [] hinner
  · rfl

/-- What a complete condition is. -/
theorem exists_of_isComplete {p : Str × State V}
    (h : isComplete (Prod.map id State.shape p) = true) :
    ∃ f c, flush State.step p = some (.condition ⟨f, [], 0⟩) ∧ f.disjunct = none ∧
      f.conjunction = some c := by
  have hshape : ∃ o, o ≠ .empty ∧ (flush State.step p).map State.shape = some (conjunctive o) := by
    rw [flush_map State.shape_step]
    obtain hs | hs := flush_of_isComplete h
    · exact ⟨.atom, OperandShape.noConfusion, hs⟩
    · exact ⟨.group, OperandShape.noConfusion, hs⟩
  obtain ⟨o, ho, hshape⟩ := hshape
  obtain ⟨s, hs, hsshape⟩ := Option.map_eq_some_iff.mp hshape
  cases s with
  | condition r =>
      obtain ⟨f, outer, depth⟩ := r
      obtain ⟨hf, houter, hdepth⟩ : f.shape = ⟨false, o⟩ ∧ outer.map Frame.shape = [] ∧
          depth = 0 := by
        simpa [State.shape, Reading.shape, conjunctive] using hsshape
      obtain rfl := List.map_eq_nil_iff.mp houter
      subst hdepth
      obtain ⟨hd, hoperand⟩ : f.disjunct.isSome = false ∧ f.operand.shape = o := by
        simpa [Frame.shape] using hf
      have hsome : f.conjunction ≠ none := by
        rw [Ne, Frame.conjunction_eq_none_iff]
        exact fun hempty => ho (hoperand.symm.trans hempty)
      obtain ⟨c, hc⟩ := Option.ne_none_iff_exists'.mp hsome
      exact ⟨f, c, hs, by simpa using hd, hc⟩
  | _ => cases hsshape

/-! ## Reading on from a complete condition -/

section Continue

variable {p : Str × State V} {f : Frame V} {c : Cond V}

/-- A further conjunct begins. -/
theorem scan_and (hflush : flush State.step p = some (.condition ⟨f, [], 0⟩))
    (hc : f.conjunction = some c) (t : Text V) :
    scan State.step p (push " AND " ++ t) =
      scan State.step ([], .condition ⟨⟨f.disjunct, some c, .empty⟩, [], 0⟩) t := by
  show scan State.step p (push " " ++ (push "AND " ++ t)) = _
  have hword : scan State.step ([], .condition ⟨f, [], 0⟩) (push "AND ") =
      some ([], .condition ⟨⟨f.disjunct, some c, .empty⟩, [], 0⟩) := by
    show (((f.conjunction.map _).map State.condition).map fun s => ([], s)).bind some = _
    rw [hc]
    rfl
  rw [scan_space hflush, scan_append, hword, Option.bind_some]

/-- The condition ends. -/
theorem scan_order (hflush : flush State.step p = some (.condition ⟨f, [], 0⟩))
    (hc : f.finish = some c) (t : Text V) :
    scan State.step p (push " ORDER " ++ t) = scan State.step ([], .orderBy c) t := by
  show scan State.step p (push " " ++ (push "ORDER " ++ t)) = _
  have hword : scan State.step ([], .condition ⟨f, [], 0⟩) (push "ORDER ") =
      some ([], .orderBy c) := by
    show ((f.finish.map State.orderBy).map fun s => ([], s)).bind some = _
    rw [hc]
    rfl
  rw [scan_space hflush, scan_append, hword, Option.bind_some]

theorem Frame.finish_of_disjunct_none (hd : f.disjunct = none) : f.finish = f.conjunction := by
  unfold Frame.finish
  rw [hd]
  exact congrFun Option.map_id _

/-- A query whose text is read to the end. -/
theorem parse_of_scan {t : Text V} {q : Select V}
    (h : scan State.step ([], .select 0) t = some ([], .done q)) : parse t = some q := by
  unfold parse
  rw [h]
  rfl

end Continue

/-! ## Assembled queries -/

theorem push_and (l : List Char) :
    (push (String.ofList (' ' :: 'A' :: 'N' :: 'D' :: ' ' :: l)) : Text V) =
      push " AND " ++ push (String.ofList l) := by
  rw [push_ofList, push_ofList, push_ofList]
  rfl

theorem push_order (l : List Char) :
    (push (String.ofList (' ' :: 'O' :: 'R' :: 'D' :: 'E' :: 'R' :: ' ' :: l)) : Text V) =
      push " ORDER " ++ push (String.ofList l) := by
  rw [push_ofList, push_ofList, push_ofList]
  rfl

/-- A text that is read as a further conjunct. -/
def ReadsConjunct (t : Text V) (c : Cond V) : Prop :=
  ∃ u, t = push " AND " ++ u ∧
    ∀ k, scan State.step ([], .condition ⟨⟨none, some k, .empty⟩, [], 0⟩) u =
      some ([], .condition ⟨⟨none, some k, .group c⟩, [], 0⟩)

/-- A text that is read as the end of a query. -/
def ReadsOrder (t : Text V) (order : List (Str × Direction)) (limit : V) : Prop :=
  ∃ u, t = push " ORDER " ++ u ∧
    ∀ c, scan State.step ([], .orderBy c) u = some ([], .done ⟨c, order, limit⟩)

theorem ReadsConjunct.of_scan {l : List Char} {t : Text V} {c : Cond V}
    (h : ∀ k, scan State.step ([], .condition ⟨⟨none, some k, .empty⟩, [], 0⟩)
      (push (String.ofList l) ++ t) = some ([], .condition ⟨⟨none, some k, .group c⟩, [], 0⟩)) :
    ReadsConjunct (push (String.ofList (' ' :: 'A' :: 'N' :: 'D' :: ' ' :: l)) ++ t) c := by
  refine ⟨_, ?_, h⟩
  rw [push_and, List.append_assoc]

theorem ReadsOrder.of_run {l : List Char} {u : List Token} (hlex : lexChars [] l = (u, []))
    {order : List (Str × Direction)} {limit : V}
    (h : ∀ c, run State.step (.orderBy c) (u.map Token.lexeme ++ [.param limit]) =
      some (.done ⟨c, order, limit⟩)) :
    ReadsOrder (push (String.ofList (' ' :: 'O' :: 'R' :: 'D' :: 'E' :: 'R' :: ' ' :: l)) ++
      pushBind limit) order limit := by
  refine ⟨push (String.ofList l) ++ pushBind limit, ?_, ?_⟩
  · rw [push_order, List.append_assoc]
  · intro c
    have hrun := h c
    rw [run_append] at hrun
    obtain ⟨s, hs, hlimit⟩ := Option.bind_eq_some_iff.mp hrun
    have hparam : State.step s (.param limit) = some (.done ⟨c, order, limit⟩) := by
      rw [← hlimit]
      exact (Option.bind_fun_some _).symm
    exact scan_piece hlex hs hparam []

/-- **Assembled queries.**  A query whose condition begins with fixed conjuncts and goes on with
filters is read with some condition, and one with a further conjunct is read with that one
more. -/
theorem parse_assembled {select filters orderBy : Text V} {order : List (Str × Direction)}
    {limit : V} (hselect : (scan Shape.step ([], .select 0) (holes select)).any isComplete = true)
    (hfilters : Conjuncts filters) (horder : ReadsOrder orderBy order limit) :
    ∃ c, parse (select ++ filters ++ orderBy) = some ⟨c, order, limit⟩ ∧
      ∀ {t : Text V} {c' : Cond V}, ReadsConjunct t c' →
        parse (select ++ filters ++ t ++ orderBy) = some ⟨.and c c', order, limit⟩ := by
  -- the state after the filters
  have hprefix : ∃ p, scan State.step ([], .select 0) (select ++ filters) = some p ∧
      isComplete (Prod.map id State.shape p) = true := by
    obtain ⟨p₀, hp₀, hc₀⟩ := (Option.any_eq_true _ _).mp hselect
    obtain ⟨p₁, hp₁, hc₁⟩ := hfilters p₀ hc₀
    have hshape : (scan State.step ([], .select 0) (select ++ filters)).map
        (Prod.map id State.shape) = some p₁ := by
      rw [scan_shape, holes_append, scan_append]
      show (scan Shape.step ([], .select 0) (holes select)).bind _ = _
      rw [hp₀, Option.bind_some, hp₁]
    obtain ⟨p, hp, hpshape⟩ := Option.map_eq_some_iff.mp hshape
    refine ⟨p, hp, ?_⟩
    rw [hpshape]
    exact hc₁
  obtain ⟨p, hp, hcomplete⟩ := hprefix
  obtain ⟨f, c, hflush, hdisjunct, hconj⟩ := exists_of_isComplete hcomplete
  obtain ⟨tail, rfl, htail⟩ := horder
  refine ⟨c, ?_, ?_⟩
  · apply parse_of_scan
    have hfinish : f.finish = some c := (Frame.finish_of_disjunct_none hdisjunct).trans hconj
    rw [scan_append, hp, Option.bind_some, scan_order hflush hfinish, htail]
  · rintro t c' ⟨group, rfl, hgroup⟩
    apply parse_of_scan
    rw [scan_append, scan_append, hp, Option.bind_some, scan_and hflush hconj, hdisjunct, hgroup,
      Option.bind_some, scan_order rfl rfl, htail]
    rfl

end Sql
