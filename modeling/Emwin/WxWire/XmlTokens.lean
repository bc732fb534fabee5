/-
# The tokens of a stanza

The texts that are framed are sequences of tokens: tags, stretches of character data
and references.  `render` writes tokens out and `eventsFrom` gives the events an XML
reader finds in them; `ReadsTokens` states what is assumed of `quick_xml`, namely that
it finds exactly these events, and that it reports an error when the input ends inside
a tag or a reference.

The second half is about cutting: a text of tokens cut at some position is again a
text of tokens (`upTo`), unless the position is inside a tag or a reference
(`insideMarkup`).
-/
import Mathlib.Data.List.Chain
import Emwin.WxWire.Stanza

namespace WxWire

/-! ## Tokens -/

/-- One tag, one stretch of character data, or one reference. -/
inductive Token where
  | opening (name attributes : Str)
  | empty (name attributes : Str)
  | closing (name blanks : Str)
  | text (content : Str)
  | reference (name : Str)
  deriving DecidableEq, Repr

/-- The whitespace of XML. -/
def isBlank (c : Char) : Bool := c ∈ [' ', '\t', '\n', '\r']

/-- The characters that may stand in a name. -/
def isNameChar (c : Char) : Bool :=
  c ∉ [' ', '\t', '\n', '\r', '<', '>', '/', '!', '?', '\'', '"', '&', '=', ';']

/-- The quote that is open after a character of a tag. -/
def nextQuote (quote : Option Char) (c : Char) : Option Char :=
  match quote with
  | none => if c = '\'' ∨ c = '"' then some c else none
  | some q => if c = q then none else some q

/-- The quote that is open after a stretch of a tag; `none` if the tag is closed in it. -/
def quoteAfter : Option Char → Str → Option (Option Char)
  | quote, [] => some quote
  | quote, c :: s =>
      if quote = none ∧ c = '>' then none else quoteAfter (nextQuote quote c) s

/-- A name: not empty, and of name characters. -/
def IsName (name : Str) : Prop := name ≠ [] ∧ ∀ c ∈ name, isNameChar c = true

instance (name : Str) : Decidable (IsName name) :=
  @instDecidableAnd _ _ inferInstance (List.decidableBAll _ name)

/-- Attributes: set off from the name, with every quote closed, and without a `>`
outside the quotes. -/
def IsAttributes (attributes : Str) : Prop :=
  (∀ c ∈ attributes.head?, isBlank c = true) ∧ quoteAfter none attributes = some none

instance (attributes : Str) : Decidable (IsAttributes attributes) :=
  @instDecidableAnd _ _ (Option.decidableForallMem _) inferInstance

namespace Token

/-- The text of a token. -/
def render : Token → Str
  | opening name attributes => '<' :: (name ++ attributes ++ ['>'])
  | empty name attributes => '<' :: (name ++ attributes ++ ['/', '>'])
  | closing name blanks => '<' :: '/' :: (name ++ blanks ++ ['>'])
  | text content => content
  | reference name => '&' :: (name ++ [';'])

/-- The event of a token. -/
def event : Token → XmlEvent
  | opening name _ => .start name
  | empty name _ => .empty name
  | closing _ _ => .close
  | text content => .text content
  | reference _ => .other

/-- Whether a token is character data. -/
def isText : Token → Bool
  | text _ => true
  | _ => false

/-- The parts of a token are what they should be. -/
def HasParts : Token → Prop
  | opening name attributes =>
      IsName name ∧ IsAttributes attributes ∧ attributes.getLast? ≠ some '/'
  | empty name attributes => IsName name ∧ IsAttributes attributes
  | closing name blanks => IsName name ∧ ∀ c ∈ blanks, isBlank c = true
  | text content => content ≠ [] ∧ '<' ∉ content ∧ '&' ∉ content
  | reference name => ∀ c ∈ name, c ∉ [';', '<', '&']

instance : DecidablePred HasParts
  | opening _ _ => inferInstanceAs (Decidable (_ ∧ _ ∧ _))
  | empty _ _ => inferInstanceAs (Decidable (_ ∧ _))
  | closing _ blanks => @instDecidableAnd _ _ inferInstance (List.decidableBAll _ blanks)
  | text _ => inferInstanceAs (Decidable (_ ∧ _ ∧ _))
  | reference name => List.decidableBAll _ name

/-- A token of ASCII characters with parts as they should be. -/
structure WellFormed (t : Token) : Prop where
  hasParts : t.HasParts
  ascii : ∀ c ∈ t.render, c.toNat < 128

instance (t : Token) : Decidable t.WellFormed :=
  @decidable_of_iff _ (t.HasParts ∧ ∀ c ∈ t.render, c.toNat < 128)
    ⟨fun h => ⟨h.1, h.2⟩, fun h => ⟨h.hasParts, h.ascii⟩⟩
    (@instDecidableAnd _ _ inferInstance (List.decidableBAll _ t.render))

/-- The elements that are open after a token, the innermost first; `none` for an end
tag that does not fit. -/
def openAfter (stack : List Str) : Token → Option (List Str)
  | opening name _ => some (name :: stack)
  | closing name _ =>
      match stack with
      | [] => none
      | open' :: outer => if name = open' then some outer else none
  | _ => some stack

end Token

/-- `SyntaxError::UnclosedTag`, as it is displayed. -/
def UNCLOSED_TAG : Str :=
  "syntax error: tag not closed: `>` not found before end of input".toList

/-- `IllFormedError::UnclosedReference`, as it is displayed. -/
def UNCLOSED_REFERENCE : Str :=
  ("ill-formed document: entity or character reference not closed: " ++
    "`;` not found before end of input").toList

/-- The message of the reader for an input that ends inside the token. -/
def Token.unclosed : Token → Str
  | reference _ => UNCLOSED_REFERENCE
  | _ => UNCLOSED_TAG

/-- The text of a sequence of tokens. -/
def render (ts : List Token) : Str := (ts.map Token.render).flatten

/-- The events of a sequence of tokens that begins at a position. -/
def eventsFrom : ℕ → List Token → List (XmlEvent × ℕ)
  | _, [] => []
  | p, t :: ts => (t.event, p + t.render.length) :: eventsFrom (p + t.render.length) ts

/-- Every end tag closes the innermost open element. -/
def Nests : List Str → List Token → Prop
  | _, [] => True
  | stack, t :: ts => ∃ stack', t.openAfter stack = some stack' ∧ Nests stack' ts

/-- Every end tag closes the innermost open element, and the last token closes the
outermost. -/
def Balanced : List Str → List Token → Prop
  | stack, [] => stack = []
  | stack, t :: ts => stack ≠ [] ∧ ∃ stack', t.openAfter stack = some stack' ∧ Balanced stack' ts

/-- A sequence of tokens as a reader finds them, inside some open elements. -/
structure Lexical (stack : List Str) (ts : List Token) : Prop where
  /-- Every token is well formed. -/
  wellFormed : ∀ t ∈ ts, t.WellFormed
  /-- Character data is not split. -/
  separated : ts.IsChain fun t u => ¬ (t.isText = true ∧ u.isText = true)
  /-- The tags nest. -/
  nests : Nests stack ts

/-- `u` is a token that is cut off before its end. -/
def IsCut (u : Str) (t : Token) : Prop := u ≠ [] ∧ ∃ rest, rest ≠ [] ∧ u ++ rest = t.render

/-- What is assumed of the XML reader. -/
structure ReadsTokens (reader : XmlReader) : Prop where
  /-- It finds the tokens of a text. -/
  whole : ∀ ts, Lexical [] ts → reader.lex (render ts) = (eventsFrom 0 ts, .eof)
  /-- It finds the tokens before an unfinished tag or reference, and reports that. -/
  cut : ∀ ts t u, Lexical [] ts → t.WellFormed → t.isText = false → IsCut u t →
    reader.lex (render ts ++ u) = (eventsFrom 0 ts, .error t.unclosed)

/-! ## Sequences of tokens -/

@[simp]
theorem render_nil : render [] = [] := rfl

@[simp]
theorem render_cons (t : Token) (ts : List Token) : render (t :: ts) = t.render ++ render ts := rfl

@[simp]
theorem render_append (ts us : List Token) : render (ts ++ us) = render ts ++ render us := by
  simp [render]

/-- The text of a sequence of sequences. -/
theorem flatten_map_render (tss : List (List Token)) :
    (tss.map render).flatten = render tss.flatten := by
  induction tss with
  | nil => rfl
  | cons ts tss ih =>
      rw [List.map_cons, List.flatten_cons, ih, List.flatten_cons, render_append]

/-- The text of a token is not empty. -/
theorem Token.render_ne_nil {t : Token} (h : t.WellFormed) : t.render ≠ [] := by
  cases t with
  | text content => exact h.hasParts.1
  | _ => exact List.cons_ne_nil _ _

theorem eventsFrom_append (p : ℕ) (ts us : List Token) :
    eventsFrom p (ts ++ us) = eventsFrom p ts ++ eventsFrom (p + (render ts).length) us := by
  induction ts generalizing p with
  | nil => rfl
  | cons t ts ih =>
      rw [List.cons_append, eventsFrom, ih, eventsFrom, render_cons, List.length_append,
        List.cons_append, Nat.add_assoc]

/-- Only an end tag closes an element, and an element is closed by nothing else. -/
theorem Nests.of_balanced {stack : List Str} {ts us : List Token} (h : Balanced stack ts)
    (hus : Nests [] us) : Nests stack (ts ++ us) := by
  induction ts generalizing stack with
  | nil =>
      obtain rfl : stack = [] := h
      exact hus
  | cons t ts ih =>
      obtain ⟨-, stack', hafter, hts⟩ := h
      exact ⟨stack', hafter, ih hts⟩

/-! ## Cutting -/

/-- Whether a position is inside a tag or a reference of a sequence of tokens. -/
def insideMarkup : ℕ → List Token → Bool
  | _, [] => false
  | n, t :: ts =>
      if n < t.render.length then n ≠ 0 ∧ t.isText = false
      else insideMarkup (n - t.render.length) ts

/-- What a position inside a token leaves of it: of character data the part before
the position, of markup nothing. -/
def Token.cutAt (n : ℕ) : Token → List Token
  | .text content => if n = 0 then [] else [.text (content.take n)]
  | _ => []

/-- The tokens before a position, with the character data at it cut off. -/
def upTo : ℕ → List Token → List Token
  | _, [] => []
  | n, t :: ts =>
      if n < t.render.length then t.cutAt n else t :: upTo (n - t.render.length) ts

@[simp]
theorem Token.cutAt_zero (t : Token) : t.cutAt 0 = [] := by
  cases t <;> rfl

/-- Character data can be cut anywhere. -/
theorem Token.render_cutAt {t : Token} (h : t.isText = true) (n : ℕ) :
    WxWire.render (t.cutAt n) = t.render.take n := by
  cases t with
  | text content =>
      rcases n with _ | n
      · rfl
      · exact List.append_nil _
  | _ => cases h

/-- Markup is left out whole. -/
theorem Token.cutAt_markup {t : Token} (h : t.isText = false) (n : ℕ) : t.cutAt n = [] := by
  cases t with
  | text content => cases h
  | _ => rfl

/-- A position that is not inside a tag or a reference cuts the text of the tokens
into texts of tokens. -/
theorem render_upTo {ts : List Token} {n : ℕ} (h : insideMarkup n ts = false) :
    render (upTo n ts) = (render ts).take n := by
  induction ts generalizing n with
  | nil => simp [upTo]
  | cons t ts ih =>
      rw [insideMarkup] at h
      rw [upTo, render_cons, List.take_append]
      split_ifs at h ⊢ with hn
      · have hrest : n - t.render.length = 0 := by omega
        rw [hrest, List.take_zero, List.append_nil]
        by_cases hzero : n = 0
        · rw [hzero, Token.cutAt_zero, render_nil, List.take_zero]
        · have htext : t.isText = true := by simpa [hzero] using h
          exact Token.render_cutAt htext n
      · rw [render_cons, ih h, List.take_of_length_le (not_lt.mp hn)]

/-- A proper part of a token, cut at a position inside it. -/
theorem Token.isCut_take {t : Token} {n : ℕ} (hpos : n ≠ 0) (hlt : n < t.render.length) :
    IsCut (t.render.take n) t := by
  refine ⟨?_, t.render.drop n, ?_, List.take_append_drop n _⟩
  · intro hnil
    have hlen := congrArg List.length hnil
    rw [List.length_take, List.length_nil] at hlen
    omega
  · intro hnil
    have hlen := congrArg List.length hnil
    rw [List.length_drop, List.length_nil] at hlen
    omega

/-- A position inside a tag or a reference cuts that. -/
theorem exists_cut {ts : List Token} {n : ℕ} (h : insideMarkup n ts = true) :
    ∃ t ∈ ts, ∃ u, t.isText = false ∧ IsCut u t ∧ (render ts).take n = render (upTo n ts) ++ u := by
  induction ts generalizing n with
  | nil => cases h
  | cons t ts ih =>
      rw [insideMarkup] at h
      rw [upTo, render_cons, List.take_append]
      split_ifs at h ⊢ with hn
      · obtain ⟨hpos, htext⟩ := of_decide_eq_true h
        have hrest : n - t.render.length = 0 := by omega
        refine ⟨t, List.mem_cons_self, t.render.take n, htext, Token.isCut_take hpos hn, ?_⟩
        rw [hrest, List.take_zero, List.append_nil, Token.cutAt_markup htext, render_nil,
          List.nil_append]
      · obtain ⟨t', hmem, u, htext, hcut, htake⟩ := ih h
        refine ⟨t', List.mem_cons_of_mem _ hmem, u, htext, hcut, ?_⟩
        rw [List.take_of_length_le (not_lt.mp hn), htake, render_cons, List.append_assoc]

/-- No token contains the position at its beginning. -/
theorem insideMarkup_zero (ts : List Token) : insideMarkup 0 ts = false := by
  induction ts with
  | nil => rfl
  | cons t ts ih =>
      rw [insideMarkup]
      split_ifs
      · simp
      · rw [Nat.zero_sub, ih]

/-- A position inside a tag or a reference is a position in the text. -/
theorem lt_length_of_insideMarkup {ts : List Token} {n : ℕ} (h : insideMarkup n ts = true) :
    n < (render ts).length := by
  induction ts generalizing n with
  | nil => cases h
  | cons t ts ih =>
      rw [insideMarkup] at h
      rw [render_cons, List.length_append]
      split_ifs at h
      · omega
      · have hlt := ih h
        omega

/-- Positions past the first tokens are positions in the others. -/
theorem insideMarkup_append {ts us : List Token} {n : ℕ} (h : (render ts).length ≤ n) :
    insideMarkup n (ts ++ us) = insideMarkup (n - (render ts).length) us := by
  induction ts generalizing n with
  | nil => rfl
  | cons t ts ih =>
      rw [render_cons, List.length_append] at h
      rw [List.cons_append, insideMarkup, if_neg (by omega), ih (by omega), render_cons,
        List.length_append, Nat.sub_sub]

theorem insideMarkup_append_of_lt {ts us : List Token} {n : ℕ} (h : n < (render ts).length) :
    insideMarkup n (ts ++ us) = insideMarkup n ts := by
  induction ts generalizing n with
  | nil => simp at h
  | cons t ts ih =>
      rw [render_cons, List.length_append] at h
      rw [List.cons_append, insideMarkup, insideMarkup]
      split_ifs
      · rfl
      · exact ih (by omega)

theorem upTo_append {ts us : List Token} {n : ℕ} (h : (render ts).length ≤ n) :
    upTo n (ts ++ us) = ts ++ upTo (n - (render ts).length) us := by
  induction ts generalizing n with
  | nil => rfl
  | cons t ts ih =>
      rw [render_cons, List.length_append] at h
      rw [List.cons_append, upTo, if_neg (by omega), ih (by omega), render_cons,
        List.length_append, Nat.sub_sub, List.cons_append]

theorem upTo_append_of_lt {ts us : List Token} {n : ℕ} (h : n < (render ts).length) :
    upTo n (ts ++ us) = upTo n ts := by
  induction ts generalizing n with
  | nil => simp at h
  | cons t ts ih =>
      rw [render_cons, List.length_append] at h
      rw [List.cons_append, upTo, upTo]
      split_ifs
      · rfl
      · rw [ih (by omega)]

/-- What is left of a token is character data. -/
theorem Token.of_mem_cutAt {t u : Token} {n : ℕ} (h : u ∈ t.cutAt n) :
    n ≠ 0 ∧ ∃ content, t = .text content ∧ u = .text (content.take n) := by
  cases t with
  | text content =>
      rw [Token.cutAt] at h
      split_ifs at h with hzero
      · cases h
      · exact ⟨hzero, content, rfl, List.mem_singleton.mp h⟩
  | _ => cases h

/-- A part of character data is well formed. -/
theorem Token.wellFormed_of_mem_cutAt {t u : Token} {n : ℕ} (h : t.WellFormed)
    (hu : u ∈ t.cutAt n) : u.WellFormed := by
  obtain ⟨hpos, content, rfl, rfl⟩ := Token.of_mem_cutAt hu
  obtain ⟨hne, hlt, hamp⟩ := h.hasParts
  refine ⟨⟨?_, ?_, ?_⟩, ?_⟩
  · intro hnil
    exact hne ((List.take_eq_nil_iff.mp hnil).resolve_left hpos)
  · exact fun hmem => hlt (List.mem_of_mem_take hmem)
  · exact fun hmem => hamp (List.mem_of_mem_take hmem)
  · exact fun c hmem => h.ascii c (List.mem_of_mem_take hmem)

theorem mem_upTo_wellFormed {ts : List Token} (h : ∀ t ∈ ts, t.WellFormed) {n : ℕ} {u : Token}
    (hu : u ∈ upTo n ts) : u.WellFormed := by
  induction ts generalizing n with
  | nil => cases hu
  | cons t ts ih =>
      rw [upTo] at hu
      split_ifs at hu with hn
      · exact Token.wellFormed_of_mem_cutAt (h t List.mem_cons_self) hu
      · rcases List.mem_cons.mp hu with rfl | hu
        · exact h _ List.mem_cons_self
        · exact ih (fun t ht => h t (List.mem_cons_of_mem _ ht)) hu

/-- Cutting leaves character data at the front only where it was. -/
theorem isText_of_mem_head_upTo {ts : List Token} {n : ℕ} {u : Token} (h : u ∈ (upTo n ts).head?)
    (htext : u.isText = true) : ∃ t ∈ ts.head?, t.isText = true := by
  cases ts with
  | nil => cases h
  | cons t ts =>
      refine ⟨t, rfl, ?_⟩
      rw [upTo] at h
      split_ifs at h with hn
      · obtain ⟨-, content, rfl, -⟩ := Token.of_mem_cutAt (List.mem_of_mem_head? h)
        rfl
      · obtain rfl : t = u := Option.some.inj h
        exact htext

theorem separated_cutAt (t : Token) (n : ℕ) :
    (t.cutAt n).IsChain fun t u => ¬ (t.isText = true ∧ u.isText = true) := by
  cases t with
  | text content =>
      rw [Token.cutAt]
      split_ifs
      · exact List.isChain_nil
      · exact List.isChain_singleton _
  | _ => exact List.isChain_nil

theorem separated_upTo {ts : List Token}
    (h : ts.IsChain fun t u => ¬ (t.isText = true ∧ u.isText = true)) (n : ℕ) :
    (upTo n ts).IsChain fun t u => ¬ (t.isText = true ∧ u.isText = true) := by
  induction ts generalizing n with
  | nil => exact h
  | cons t ts ih =>
      rw [List.isChain_cons] at h
      rw [upTo]
      split_ifs with hn
      · exact separated_cutAt t n
      · rw [List.isChain_cons]
        refine ⟨?_, ih h.2 _⟩
        rintro u hu ⟨ht, htext⟩
        obtain ⟨t', hhead, ht'⟩ := isText_of_mem_head_upTo hu htext
        exact h.1 t' hhead ⟨ht, ht'⟩

theorem nests_cutAt (stack : List Str) (t : Token) (n : ℕ) : Nests stack (t.cutAt n) := by
  cases t with
  | text content =>
      rw [Token.cutAt]
      split_ifs
      · trivial
      · exact ⟨stack, rfl, trivial⟩
  | _ => trivial

theorem Nests.upTo {stack : List Str} {ts : List Token} (h : Nests stack ts) (n : ℕ) :
    Nests stack (upTo n ts) := by
  induction ts generalizing stack n with
  | nil => trivial
  | cons t ts ih =>
      obtain ⟨stack', hafter, hts⟩ := h
      rw [WxWire.upTo]
      split_ifs with hn
      · exact nests_cutAt stack t n
      · exact ⟨stack', hafter, ih hts _⟩

/-- The tokens before a position are as a reader finds them. -/
theorem Lexical.upTo {stack : List Str} {ts : List Token} (h : Lexical stack ts) (n : ℕ) :
    Lexical stack (upTo n ts) where
  wellFormed _ hu := mem_upTo_wellFormed h.wellFormed hu
  separated := separated_upTo h.separated n
  nests := h.nests.upTo n

/-- What the reader finds in a text of tokens that is cut off at a position. -/
theorem ReadsTokens.lex_take {reader : XmlReader} (hreader : ReadsTokens reader) {ts : List Token}
    (h : Lexical [] ts) (n : ℕ) :
    ∃ ending, reader.lex ((render ts).take n) = (eventsFrom 0 (WxWire.upTo n ts), ending) ∧
      (insideMarkup n ts = false → ending = .eof) ∧
      (insideMarkup n ts = true → ∃ t : Token, ending = .error t.unclosed) := by
  by_cases hin : insideMarkup n ts = true
  · obtain ⟨t, hmem, u, htext, hcut, htake⟩ := exists_cut hin
    refine ⟨.error t.unclosed, ?_, ?_, fun _ => ⟨t, rfl⟩⟩
    · rw [htake]
      exact hreader.cut _ t u (h.upTo n) (h.wellFormed t hmem) htext hcut
    · rw [hin]
      intro hfalse
      cases hfalse
  · rw [Bool.not_eq_true] at hin
    refine ⟨.eof, ?_, fun _ => rfl, ?_⟩
    · rw [← render_upTo hin]
      exact hreader.whole _ (h.upTo n)
    · rw [hin]
      intro hfalse
      cases hfalse

end WxWire
