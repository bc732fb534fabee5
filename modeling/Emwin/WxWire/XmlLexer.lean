/-
# A reader of tokens

A small XML reader for the texts of `XmlTokens`, with what the framing depends on: a tag
ends at the first `>` outside quotes, an end tag must close the innermost element, and
an input that ends inside a tag or a reference is an error.  It finds the tokens of every
text (`readsTokens_tokenReader`), so what is assumed of `quick_xml` can be met.
-/
import Emwin.WxWire.XmlTokens

namespace WxWire

/-- Up to the `>` that closes a tag: what stands before it, and what follows. -/
def untilClose : Option Char → Str → Option (Str × Str)
  | _, [] => none
  | quote, c :: s =>
      if quote = none ∧ c = '>' then some ([], s)
      else (untilClose (nextQuote quote c) s).map fun found => (c :: found.1, found.2)

/-- Whether a character belongs to character data. -/
def isTextChar (c : Char) : Bool := c ≠ '<' ∧ c ≠ '&'

/-- Whether a character belongs to the name of a reference. -/
def isReferenceChar (c : Char) : Bool := c ∉ [';', '<', '&']

/-- The name at the front of the content of a tag. -/
def nameOf (content : Str) : Str := content.takeWhile fun c => !isBlank c

/-- What is at the front of a text. -/
inductive Lexed where
  | event (event : XmlEvent) (rest : Str) (stack : List Str)
  | ended (ending : Ending)
  deriving DecidableEq, Repr

/-- The event of an end tag. -/
def closeEvent (stack : List Str) (name rest : Str) : Lexed :=
  match stack with
  | [] => .ended (.error "ill-formed document: close tag does not match any open tag".toList)
  | open' :: outer =>
      if name = open' then .event .close rest outer
      else .ended (.error "ill-formed document: expected another close tag".toList)

/-- The event of a tag with some content. -/
def tagEvent (stack : List Str) (content rest : Str) : Lexed :=
  if content.head? = some '/' then closeEvent stack (nameOf content.tail) rest
  else if content.getLast? = some '/' then .event (.empty (nameOf content.dropLast)) rest stack
  else .event (.start (nameOf content)) rest (nameOf content :: stack)

/-- The next event of a text, inside some open elements. -/
def nextEvent (stack : List Str) (s : Str) : Lexed :=
  match s with
  | [] => .ended .eof
  | c :: s =>
      if c = '<' then
        match untilClose none s with
        | none => .ended (.error UNCLOSED_TAG)
        | some (content, rest) => tagEvent stack content rest
      else if c = '&' then
        match s.dropWhile isReferenceChar with
        | ';' :: rest => .event .other rest stack
        | _ => .ended (.error UNCLOSED_REFERENCE)
      else .event (.text (c :: s.takeWhile isTextChar)) (s.dropWhile isTextChar) stack

/-- The events of a text that is the end of one of `total` characters. -/
def lexFrom (total : ℕ) : ℕ → List Str → Str → List (XmlEvent × ℕ) × Ending
  | 0, _, _ => ([], .eof)
  | fuel + 1, stack, s =>
      match nextEvent stack s with
      | .ended ending => ([], ending)
      | .event event rest stack' =>
          ((event, total - rest.length) :: (lexFrom total fuel stack' rest).1,
            (lexFrom total fuel stack' rest).2)

/-! ## Positions -/

theorem length_of_untilClose {s content rest : Str} {quote : Option Char}
    (h : untilClose quote s = some (content, rest)) : rest.length < s.length := by
  induction s generalizing quote content with
  | nil => cases h
  | cons c s ih =>
      rw [untilClose] at h
      rw [List.length_cons]
      split_ifs at h
      · cases h
        omega
      · obtain ⟨found, hfound, heq⟩ := Option.map_eq_some_iff.mp h
        cases heq
        exact lt_trans (ih hfound) (Nat.lt_succ_self _)

theorem rest_of_tagEvent {stack stack' : List Str} {content rest rest' : Str} {event : XmlEvent}
    (h : tagEvent stack content rest = .event event rest' stack') : rest' = rest := by
  unfold tagEvent at h
  split_ifs at h
  · rcases stack with _ | ⟨name, outer⟩
    · cases h
    · rw [closeEvent] at h
      split_ifs at h
      cases h
      rfl
  · cases h
    rfl
  · cases h
    rfl

theorem length_of_nextEvent {stack stack' : List Str} {s rest : Str} {event : XmlEvent}
    (h : nextEvent stack s = .event event rest stack') : rest.length < s.length := by
  cases s with
  | nil => cases h
  | cons c s =>
      rw [List.length_cons]
      rw [nextEvent] at h
      split_ifs at h with hlt hamp
      · cases hclose : untilClose none s with
        | none =>
            rw [hclose] at h
            cases h
        | some found =>
            obtain ⟨content, rest'⟩ := found
            rw [hclose] at h
            have hlen := length_of_untilClose hclose
            have hrest := rest_of_tagEvent h
            rw [hrest]
            omega
      · have hlen := (List.dropWhile_suffix isReferenceChar : s.dropWhile _ <:+ s).length_le
        split at h
        · rename_i rest' hdrop
          cases h
          rw [hdrop, List.length_cons] at hlen
          omega
        · cases h
      · cases h
        have hlen := (List.dropWhile_suffix isTextChar : s.dropWhile _ <:+ s).length_le
        omega

/-- Every event ends after the text before it. -/
theorem lexFrom_positions {total : ℕ} (fuel : ℕ) {stack : List Str} {s : Str}
    (hs : s.length ≤ total) : ∀ e ∈ (lexFrom total fuel stack s).1, 0 < e.2 ∧ e.2 ≤ total := by
  induction fuel generalizing stack s with
  | zero =>
      intro e he
      cases he
  | succ fuel ih =>
      intro e he
      rw [lexFrom] at he
      cases hnext : nextEvent stack s with
      | ended ending =>
          rw [hnext] at he
          cases he
      | event event rest stack' =>
          rw [hnext] at he
          have hlen := length_of_nextEvent hnext
          rcases List.mem_cons.mp he with rfl | he
          · dsimp only
            omega
          · exact ih (by omega) e he

/-- The reader. -/
def tokenReader : XmlReader where
  lex s := lexFrom s.length (s.length + 1) [] s
  position_le _ := lexFrom_positions _ le_rfl

/-! ## Quotes -/

theorem quoteAfter_append {quote quote' : Option Char} {v : Str}
    (h : quoteAfter quote v = some quote')
    (w : Str) : quoteAfter quote (v ++ w) = quoteAfter quote' w := by
  induction v generalizing quote with
  | nil =>
      cases h
      rfl
  | cons c v ih =>
      rw [quoteAfter] at h
      split_ifs at h with hclose
      rw [List.cons_append, quoteAfter, if_neg hclose, ih h]

/-- A stretch in which the tag is not closed is passed over. -/
theorem untilClose_append {quote quote' : Option Char} {v : Str}
    (h : quoteAfter quote v = some quote') (w : Str) :
    untilClose quote (v ++ w) =
      (untilClose quote' w).map fun found => (v ++ found.1, found.2) := by
  induction v generalizing quote with
  | nil =>
      cases h
      simp
  | cons c v ih =>
      rw [quoteAfter] at h
      split_ifs at h with hclose
      rw [List.cons_append, untilClose, if_neg hclose, ih h, Option.map_map]
      rfl

theorem untilClose_close {v rest : Str} (h : quoteAfter none v = some none) :
    untilClose none (v ++ '>' :: rest) = some (v, rest) := by
  rw [untilClose_append h, untilClose, if_pos ⟨rfl, rfl⟩, Option.map_some, List.append_nil]

/-- A tag that is cut off is not closed. -/
theorem untilClose_eq_none {quote quote' : Option Char} {v w : Str}
    (h : quoteAfter quote (v ++ w) = some quote') : untilClose quote v = none := by
  induction v generalizing quote with
  | nil => rfl
  | cons c v ih =>
      rw [List.cons_append, quoteAfter] at h
      split_ifs at h with hclose
      rw [untilClose, if_neg hclose, ih h, Option.map_none]

/-- Characters that neither quote nor close. -/
theorem quoteAfter_plain {v : Str} (h : ∀ c ∈ v, c ∉ ['>', '\'', '"']) :
    quoteAfter none v = some none := by
  induction v with
  | nil => rfl
  | cons c v ih =>
      have hc := h c List.mem_cons_self
      simp only [List.mem_cons, List.not_mem_nil, or_false, not_or] at hc
      have hquote : nextQuote none c = none := if_neg (by simp [hc.2.1, hc.2.2])
      rw [quoteAfter, if_neg (fun hclose => hc.1 hclose.2), hquote]
      exact ih fun c' hc' => h c' (List.mem_cons_of_mem _ hc')

theorem quoteAfter_name {name : Str} (h : IsName name) : quoteAfter none name = some none := by
  apply quoteAfter_plain
  intro c hc hmem
  have hchar := h.2 c hc
  simp only [isNameChar, List.mem_cons, List.not_mem_nil, or_false, decide_eq_true_eq] at hchar hmem
  tauto

theorem quoteAfter_blanks {blanks : Str} (h : ∀ c ∈ blanks, isBlank c = true) :
    quoteAfter none blanks = some none := by
  apply quoteAfter_plain
  intro c hc hmem
  have hchar := h c hc
  simp only [isBlank, List.mem_cons, List.not_mem_nil, or_false, decide_eq_true_eq] at hchar hmem
  rcases hmem with rfl | rfl | rfl
  · exact absurd hchar (by decide)
  · exact absurd hchar (by decide)
  · exact absurd hchar (by decide)

/-! ## One token -/

/-- Blanks do not stand in names. -/
theorem isBlank_of_isNameChar {c : Char} (h : isNameChar c = true) : isBlank c = false := by
  simp only [isNameChar, isBlank, List.mem_cons, List.not_mem_nil, or_false,
    decide_eq_true_eq, decide_eq_false_iff_not] at h ⊢
  tauto

/-- The name of a tag ends where its attributes begin. -/
theorem nameOf_append {name rest : Str} (h : IsName name)
    (hrest : ∀ c ∈ rest.head?, isBlank c = true) :
    nameOf (name ++ rest) = name := by
  have hname : ∀ c ∈ name, (!isBlank c) = true := by
    intro c hc
    rw [isBlank_of_isNameChar (h.2 c hc)]
    rfl
  rw [nameOf, List.takeWhile_append_of_pos hname]
  cases rest with
  | nil => simp
  | cons c rest => simp [hrest c rfl]

/-- A name begins and ends with something else than a slash. -/
theorem slash_notMem_name {name : Str} (h : IsName name) : '/' ∉ name := by
  intro hmem
  exact absurd (h.2 _ hmem) (by decide)

/-- The content of a tag is found. -/
theorem nextEvent_tag {stack : List Str} {content rest : Str}
    (h : quoteAfter none content = some none) :
    nextEvent stack ('<' :: (content ++ '>' :: rest)) = tagEvent stack content rest := by
  rw [nextEvent, if_pos rfl, untilClose_close h]

theorem head_ne_slash {name : Str} (h : IsName name) (v : Str) : (name ++ v).head? ≠ some '/' := by
  obtain ⟨c, name', rfl⟩ := List.exists_cons_of_ne_nil h.1
  intro heq
  obtain rfl : c = '/' := Option.some.inj heq
  exact slash_notMem_name h List.mem_cons_self

/-- The content of a tag does not close it. -/
theorem quoteAfter_opening {name attributes : Str} (h : (Token.opening name attributes).HasParts) :
    quoteAfter none (name ++ attributes) = some none := by
  rw [quoteAfter_append (quoteAfter_name h.1), h.2.1.2]

theorem quoteAfter_empty {name attributes : Str} (h : (Token.empty name attributes).HasParts) :
    quoteAfter none (name ++ attributes ++ ['/']) = some none := by
  rw [List.append_assoc, quoteAfter_append (quoteAfter_name h.1), quoteAfter_append h.2.2]
  rfl

theorem quoteAfter_closing {name blanks : Str} (h : (Token.closing name blanks).HasParts) :
    quoteAfter none ('/' :: (name ++ blanks)) = some none := by
  change quoteAfter none (name ++ blanks) = some none
  rw [quoteAfter_append (quoteAfter_name h.1), quoteAfter_blanks h.2]

theorem nextEvent_opening {stack : List Str} {name attributes rest : Str}
    (h : (Token.opening name attributes).HasParts) :
    nextEvent stack ((Token.opening name attributes).render ++ rest) =
      .event (.start name) rest (name :: stack) := by
  have hcontent := quoteAfter_opening h
  obtain ⟨hname, ⟨hblank, -⟩, hlast⟩ := h
  have hslash : (name ++ attributes).getLast? ≠ some '/' := by
    rw [List.getLast?_append]
    cases hcase : attributes.getLast? with
    | none =>
        intro heq
        exact slash_notMem_name hname (List.mem_of_getLast? heq)
    | some c =>
        intro heq
        rw [hcase] at hlast
        exact hlast heq
  have hrender : (Token.opening name attributes).render ++ rest =
      '<' :: ((name ++ attributes) ++ '>' :: rest) := by
    simp [Token.render]
  rw [hrender, nextEvent_tag hcontent, tagEvent, if_neg (head_ne_slash hname _), if_neg hslash,
    nameOf_append hname hblank]

theorem nextEvent_empty {stack : List Str} {name attributes rest : Str}
    (h : (Token.empty name attributes).HasParts) :
    nextEvent stack ((Token.empty name attributes).render ++ rest) =
      .event (.empty name) rest stack := by
  have hcontent := quoteAfter_empty h
  obtain ⟨hname, hblank, -⟩ := h
  have hrender : (Token.empty name attributes).render ++ rest =
      '<' :: ((name ++ attributes ++ ['/']) ++ '>' :: rest) := by
    simp [Token.render]
  have hhead : (name ++ attributes ++ ['/']).head? ≠ some '/' := by
    rw [List.append_assoc]
    exact head_ne_slash hname _
  rw [hrender, nextEvent_tag hcontent, tagEvent, if_neg hhead, if_pos List.getLast?_concat,
    List.dropLast_concat, nameOf_append hname hblank]

theorem nextEvent_closing {outer : List Str} {name blanks rest : Str}
    (h : (Token.closing name blanks).HasParts) :
    nextEvent (name :: outer) ((Token.closing name blanks).render ++ rest) =
      .event .close rest outer := by
  have hcontent := quoteAfter_closing h
  obtain ⟨hname, hblanks⟩ := h
  have hrender : (Token.closing name blanks).render ++ rest =
      '<' :: (('/' :: (name ++ blanks)) ++ '>' :: rest) := by
    simp [Token.render]
  have hblank : ∀ c ∈ blanks.head?, isBlank c = true :=
    fun c hc => hblanks c (List.mem_of_mem_head? hc)
  rw [hrender, nextEvent_tag hcontent, tagEvent, List.head?_cons, if_pos rfl, List.tail_cons,
    nameOf_append hname hblank, closeEvent, if_pos rfl]

theorem nextEvent_text {stack : List Str} {content rest : Str} (h : (Token.text content).HasParts)
    (hrest : ∀ c ∈ rest.head?, isTextChar c = false) :
    nextEvent stack ((Token.text content).render ++ rest) = .event (.text content) rest stack := by
  obtain ⟨hne, hlt, hamp⟩ := h
  obtain ⟨c, content', rfl⟩ := List.exists_cons_of_ne_nil hne
  have hchars : ∀ c' ∈ content', isTextChar c' = true := by
    intro c' hc'
    have hmem := List.mem_cons_of_mem c hc'
    exact decide_eq_true ⟨fun heq => hlt (heq ▸ hmem), fun heq => hamp (heq ▸ hmem)⟩
  have hclt : c ≠ '<' := fun heq => hlt (heq ▸ List.mem_cons_self)
  have hcamp : c ≠ '&' := fun heq => hamp (heq ▸ List.mem_cons_self)
  have hstop : rest.takeWhile isTextChar = [] ∧ rest.dropWhile isTextChar = rest := by
    cases rest with
    | nil => exact ⟨rfl, rfl⟩
    | cons c' rest => simp [hrest c' rfl]
  rw [Token.render, List.cons_append, nextEvent, if_neg hclt, if_neg hcamp,
    List.takeWhile_append_of_pos hchars, List.dropWhile_append_of_pos hchars, hstop.1, hstop.2,
    List.append_nil]

theorem nextEvent_reference {stack : List Str} {name rest : Str}
    (h : (Token.reference name).HasParts) :
    nextEvent stack ((Token.reference name).render ++ rest) = .event .other rest stack := by
  have hchars : ∀ c ∈ name, isReferenceChar c = true := fun c hc => decide_eq_true (h c hc)
  have hdrop : (name ++ [';'] ++ rest).dropWhile isReferenceChar = ';' :: rest := by
    rw [List.append_assoc, List.dropWhile_append_of_pos hchars]
    rfl
  rw [Token.render, List.cons_append, nextEvent, if_neg (by decide), if_pos rfl, hdrop]
  rfl

/-- The first token of a text is found. -/
theorem nextEvent_render {t : Token} {stack stack' : List Str} {rest : Str} (h : t.WellFormed)
    (hafter : t.openAfter stack = some stack')
    (hrest : t.isText = true → ∀ c ∈ rest.head?, isTextChar c = false) :
    nextEvent stack (t.render ++ rest) = .event t.event rest stack' := by
  cases t with
  | opening name attributes =>
      cases hafter
      exact nextEvent_opening h.hasParts
  | empty name attributes =>
      cases hafter
      exact nextEvent_empty h.hasParts
  | closing name blanks =>
      rcases stack with _ | ⟨open', outer⟩
      · cases hafter
      · rw [Token.openAfter] at hafter
        split_ifs at hafter with hname
        cases hafter
        subst hname
        exact nextEvent_closing h.hasParts
  | text content =>
      cases hafter
      exact nextEvent_text h.hasParts (hrest rfl)
  | reference name =>
      cases hafter
      exact nextEvent_reference h.hasParts

/-! ## Texts of tokens -/

/-- What may follow character data begins with a tag or a reference. -/
theorem head_markup {t : Token} (h : t.isText = false) (rest : Str) :
    ∀ c ∈ (t.render ++ rest).head?, isTextChar c = false := by
  intro c hc
  cases t with
  | text content => cases h
  | _ =>
      cases hc
      rfl

/-- The tokens of a text are found, up to an end that has no event. -/
theorem lexFrom_render {total fuel : ℕ} {stack : List Str} {ts : List Token} {u : Str}
    {ending : Ending} (h : Lexical stack ts)
    (hend : ∀ stack, nextEvent stack u = .ended ending)
    (hhead : ∀ c ∈ u.head?, isTextChar c = false)
    (hfuel : (render ts ++ u).length < fuel) (htotal : (render ts ++ u).length ≤ total) :
    lexFrom total fuel stack (render ts ++ u) =
      (eventsFrom (total - (render ts ++ u).length) ts, ending) := by
  induction ts generalizing fuel stack with
  | nil =>
      obtain ⟨fuel, rfl⟩ : ∃ n, fuel = n + 1 := ⟨fuel - 1, by omega⟩
      rw [render_nil, List.nil_append, lexFrom, hend]
      rfl
  | cons t ts ih =>
      obtain ⟨fuel, rfl⟩ : ∃ n, fuel = n + 1 := ⟨fuel - 1, by omega⟩
      obtain ⟨stack', hafter, hnests⟩ := h.nests
      have hseparated := List.isChain_cons.mp h.separated
      have hts : Lexical stack' ts :=
        ⟨fun t ht => h.wellFormed t (List.mem_cons_of_mem _ ht), hseparated.2, hnests⟩
      -- character data ends where the next token begins, since that is markup
      have hnext : nextEvent stack (t.render ++ (render ts ++ u)) =
          .event t.event (render ts ++ u) stack' := by
        refine nextEvent_render (h.wellFormed t List.mem_cons_self) hafter fun htext => ?_
        cases ts with
        | nil => exact hhead
        | cons t' ts =>
            rw [render_cons, List.append_assoc]
            apply head_markup
            rw [← Bool.not_eq_true]
            exact fun ht' => hseparated.1 t' rfl ⟨htext, ht'⟩
      have hpos := List.length_pos_iff.mpr
        (Token.render_ne_nil (h.wellFormed t List.mem_cons_self))
      rw [render_cons, List.append_assoc, List.length_append] at hfuel htotal
      rw [render_cons, List.append_assoc, lexFrom, hnext, eventsFrom, List.length_append]
      dsimp only
      rw [ih hts (by omega) (by omega),
        show total - (t.render.length + (render ts ++ u).length) + t.render.length =
          total - (render ts ++ u).length from by omega]

/-- What is before the end of a text is before its last character. -/
theorem exists_of_append_eq_concat {u rest v : Str} {c : Char} (h : u ++ rest = v ++ [c])
    (hrest : rest ≠ []) : ∃ w, v = u ++ w := by
  refine ⟨rest.dropLast, ?_⟩
  have hlast := congrArg List.dropLast h
  rw [List.dropLast_concat, List.dropLast_append_of_ne_nil hrest] at hlast
  exact hlast.symm

theorem nextEvent_cut_tag {content u rest : Str} (hquote : quoteAfter none content = some none)
    (hu : u ≠ []) (hrest : rest ≠ []) (h : u ++ rest = '<' :: (content ++ ['>']))
    (stack : List Str) : nextEvent stack u = .ended (.error UNCLOSED_TAG) := by
  obtain ⟨c, u', rfl⟩ := List.exists_cons_of_ne_nil hu
  obtain ⟨rfl, htail⟩ := List.cons.inj h
  obtain ⟨w, rfl⟩ := exists_of_append_eq_concat htail hrest
  rw [nextEvent, if_pos rfl, untilClose_eq_none hquote]

theorem nextEvent_cut_reference {name u rest : Str} (hname : (Token.reference name).HasParts)
    (hu : u ≠ []) (hrest : rest ≠ []) (h : u ++ rest = '&' :: (name ++ [';']))
    (stack : List Str) : nextEvent stack u = .ended (.error UNCLOSED_REFERENCE) := by
  obtain ⟨c, u', rfl⟩ := List.exists_cons_of_ne_nil hu
  obtain ⟨rfl, htail⟩ := List.cons.inj h
  obtain ⟨w, rfl⟩ := exists_of_append_eq_concat htail hrest
  have hdrop : u'.dropWhile isReferenceChar = [] := by
    rw [List.dropWhile_eq_nil_iff]
    exact fun c hc => decide_eq_true (hname c (List.mem_append_left _ hc))
  rw [nextEvent, if_neg (by decide), if_pos rfl, hdrop]

/-- A tag or a reference that is cut off ends the reading. -/
theorem nextEvent_cut {t : Token} {u : Str} (h : t.WellFormed) (htext : t.isText = false)
    (hcut : IsCut u t) (stack : List Str) : nextEvent stack u = .ended (.error t.unclosed) := by
  obtain ⟨hu, rest, hrest, heq⟩ := hcut
  cases t with
  | opening name attributes =>
      exact nextEvent_cut_tag (quoteAfter_opening h.hasParts) hu hrest heq stack
  | empty name attributes =>
      have heq' : u ++ rest = '<' :: ((name ++ attributes ++ ['/']) ++ ['>']) := by
        rw [heq]
        simp [Token.render]
      exact nextEvent_cut_tag (quoteAfter_empty h.hasParts) hu hrest heq' stack
  | closing name blanks =>
      exact nextEvent_cut_tag (quoteAfter_closing h.hasParts) hu hrest heq stack
  | text content => cases htext
  | reference name => exact nextEvent_cut_reference h.hasParts hu hrest heq stack

/-- The tokens of a whole text are found. -/
theorem tokenReader_lex {ts : List Token} {u : Str} {ending : Ending} (h : Lexical [] ts)
    (hend : ∀ stack, nextEvent stack u = .ended ending)
    (hhead : ∀ c ∈ u.head?, isTextChar c = false) :
    tokenReader.lex (render ts ++ u) = (eventsFrom 0 ts, ending) := by
  have hlex := lexFrom_render h hend hhead (Nat.lt_succ_self _) le_rfl
  rw [Nat.sub_self] at hlex
  exact hlex

/-- **The reader finds the tokens of every text.** -/
theorem readsTokens_tokenReader : ReadsTokens tokenReader where
  whole ts h := by
    rw [← List.append_nil (render ts)]
    refine tokenReader_lex h (fun _ => rfl) ?_
    intro c hc
    cases hc
  cut ts t u h ht htext hcut := by
    refine tokenReader_lex h (nextEvent_cut ht htext hcut) ?_
    obtain ⟨hu, rest, -, heq⟩ := hcut
    intro c hc
    refine head_markup htext [] c ?_
    rw [← heq, List.append_nil, List.head?_append_of_ne_nil _ hu]
    exact hc

end WxWire
