/-
# Framing of stanzas

The loop of `next_stanza` alternates between taking top-level elements out of the read
buffer, until there is none, and reading more (`receive`).  The elements should be the
stanzas of the stream, wherever the reads cut it.

They are if and only if no read ends inside a tag or a reference
(`receive_eq_stanzas_iff`).  The extractor means to wait for the rest of an unfinished
tag, but looks for an error text that says `Unexpected EOF`; the reader words it
differently, so the beginning of the stanza is thrown away as malformed.
-/
import Emwin.WxWire.XmlLexer

namespace WxWire

open StepLoop

/-! ## Taking elements out of the buffer -/

section Loop

variable {reader : XmlReader} {buf : Str}

/-- What one call hands out and keeps is no longer than what it was given. -/
theorem popPass_length_le (reader : XmlReader) (buf : Str) :
    ((popPass reader buf).out.map List.length).sum + (popPass reader buf).state.length ≤
      buf.length := by
  rcases popPass_cases reader buf with ⟨k, hpass⟩ | ⟨k, -, -, hpass⟩ | ⟨root, stop, -, hle, hpass⟩
  · simp [hpass]
  · simp [hpass]
  · simp only [hpass, List.map_cons, List.map_nil, List.sum_cons, List.sum_nil, List.length_take,
      List.length_drop]
    omega

/-- A call that hands out something or starts over keeps less than it was given. -/
theorem popPass_length_lt (h : (popPass reader buf).again = true ∨ (popPass reader buf).out ≠ []) :
    (popPass reader buf).state.length < buf.length := by
  rcases popPass_cases reader buf with ⟨k, hpass⟩ | ⟨k, hk, hle, hpass⟩ |
    ⟨root, stop, hstop, hle, hpass⟩
  · simp [hpass] at h
  · rw [hpass, List.length_drop]
    omega
  · rw [hpass, List.length_drop]
    omega

theorem popCalls_length_lt {out : List Str} {buf' : Str}
    (h : Runs (popPass reader) buf out buf') (hout : out ≠ []) : buf'.length < buf.length := by
  induction h with
  | stop _ => exact popPass_length_lt (.inr hout)
  | @again buf buf' out ha hrest ih =>
      have hfirst := popPass_length_lt (.inl ha)
      have hle := hrest.weight_le (popPass_length_le reader)
      omega

/-- The next element and what is kept are no longer than the buffer. -/
theorem popNextTopLevelElement_length_le (reader : XmlReader) (buf : Str) :
    ((popNextTopLevelElement reader buf).1.getD []).length +
      (popNextTopLevelElement reader buf).2.length ≤ buf.length := by
  have hle := ((popCalls reader).runs_drain buf).weight_le (popPass_length_le reader)
  unfold popNextTopLevelElement
  revert hle
  rcases ((popCalls reader).drain buf).1 with _ | ⟨stanza, out⟩
  · simp
  · intro hle
    simp only [List.map_cons, List.sum_cons] at hle
    simp only [List.head?_cons, Option.getD_some]
    omega

/-- The next element is taken out of the buffer. -/
theorem popNextTopLevelElement_length_lt
    (h : (popNextTopLevelElement reader buf).1.isSome = true) :
    (popNextTopLevelElement reader buf).2.length < buf.length := by
  refine popCalls_length_lt ((popCalls reader).runs_drain buf) ?_
  intro hnil
  rw [popNextTopLevelElement, hnil] at h
  cases h

variable (reader)

/-- The calls until one returns nothing. -/
def popAll : Ranked Str Str where
  body buf :=
    match popNextTopLevelElement reader buf with
    | (some stanza, buf') => ⟨[stanza], buf', true⟩
    | (none, buf') => ⟨[], buf', false⟩
  rank := List.length
  rank_lt buf h := by
    have hlen : (popNextTopLevelElement reader buf).1.isSome = true →
        (popNextTopLevelElement reader buf).2.length < buf.length :=
      popNextTopLevelElement_length_lt
    revert h hlen
    rcases popNextTopLevelElement reader buf with ⟨_ | stanza, buf'⟩
    · intro h
      cases h
    · intro _ hlen
      exact hlen rfl

/-- Append one read after another, each time taking out all elements; an overflow ends
the reading. -/
def receive (readBuf : Str) : List Str → Except TransportError (List Str × Str)
  | [] => .ok ([], readBuf)
  | read :: reads =>
      match appendWithReadLimit readBuf read Reader.transport.overflowMessage with
      | (.error e, _) => .error e
      | (.ok (), readBuf') =>
          (receive ((popAll reader).drain readBuf').2 reads).map fun result =>
            (((popAll reader).drain readBuf').1 ++ result.1, result.2)

variable {reader}

theorem popAll_of_some {stanza buf' : Str}
    (h : popNextTopLevelElement reader buf = (some stanza, buf')) :
    (popAll reader).drain buf =
      (stanza :: ((popAll reader).drain buf').1, ((popAll reader).drain buf').2) := by
  have hbody : (popAll reader).body buf = ⟨[stanza], buf', true⟩ := by
    simp only [popAll, h]
  rw [(popAll reader).drain_of_again (by rw [hbody]), hbody, List.singleton_append]

theorem popAll_of_none {buf' : Str} (h : popNextTopLevelElement reader buf = (none, buf')) :
    (popAll reader).drain buf = ([], buf') := by
  have hbody : (popAll reader).body buf = ⟨[], buf', false⟩ := by
    simp only [popAll, h]
  rw [(popAll reader).drain_of_stop (by rw [hbody]), hbody]

/-- Taking elements out adds nothing. -/
theorem popAll_length_le (reader : XmlReader) (buf : Str) :
    ((popAll reader).drain buf).1.flatten.length + ((popAll reader).drain buf).2.length ≤
      buf.length := by
  rw [List.length_flatten]
  refine ((popAll reader).runs_drain buf).weight_le (fun buf => ?_)
  have hle := popNextTopLevelElement_length_le reader buf
  revert hle
  simp only [popAll]
  rcases popNextTopLevelElement reader buf with ⟨_ | stanza, buf'⟩
  · simp
  · simp

/-- A read that fits is appended, and the elements are taken out. -/
theorem receive_cons_of_le {read : Str} {reads : List Str}
    (hfit : Str.byteLen buf + Str.byteLen read ≤ MAX_READ_BUFFER_BYTES) :
    receive reader buf (read :: reads) =
      (receive reader ((popAll reader).drain (buf ++ read)).2 reads).map fun result =>
        (((popAll reader).drain (buf ++ read)).1 ++ result.1, result.2) := by
  rw [receive, appendWithReadLimit, if_neg (not_lt.mpr hfit)]

/-- Reading goes on only if the read fits. -/
theorem exists_of_receive_cons {read : Str} {reads out : List Str} {buf' : Str}
    (h : receive reader buf (read :: reads) = .ok (out, buf')) :
    ∃ out', receive reader ((popAll reader).drain (buf ++ read)).2 reads = .ok (out', buf') ∧
      out = ((popAll reader).drain (buf ++ read)).1 ++ out' := by
  by_cases hfit : Str.byteLen buf + Str.byteLen read ≤ MAX_READ_BUFFER_BYTES
  · rw [receive_cons_of_le hfit] at h
    revert h
    rcases receive reader ((popAll reader).drain (buf ++ read)).2 reads with e | ⟨out', buf''⟩
    · intro h
      cases h
    · intro h
      cases h
      exact ⟨out', rfl, rfl⟩
  · rw [receive, appendWithReadLimit, if_pos (not_le.mp hfit)] at h
    cases h

/-- Receiving adds nothing. -/
theorem receive_length_le {reads out : List Str} {buf' : Str}
    (h : receive reader buf reads = .ok (out, buf')) :
    out.flatten.length + buf'.length ≤ buf.length + reads.flatten.length := by
  induction reads generalizing buf out with
  | nil =>
      cases h
      simp
  | cons read reads ih =>
      obtain ⟨out', hrest, rfl⟩ := exists_of_receive_cons h
      have hpop := popAll_length_le reader (buf ++ read)
      have hle := ih hrest
      simp only [List.flatten_append, List.flatten_cons, List.length_append] at hpop ⊢
      omega

end Loop

/-! ## Stanzas -/

/-- Whether a token begins a top-level element; the tag that opens the stream does not. -/
def Token.isRoot : Token → Bool
  | .opening name _ => name ≠ "stream:stream".toList
  | .empty name _ => name ≠ "stream:stream".toList
  | _ => false

/-- The tokens of one element. -/
def IsElement : List Token → Prop
  | [] => False
  | root :: rest =>
      root.isRoot = true ∧ ∃ stack, root.openAfter [] = some stack ∧ Balanced stack rest

/-- A complete top-level element. -/
structure IsStanza (ts : List Token) : Prop where
  wellFormed : ∀ t ∈ ts, t.WellFormed
  separated : ts.IsChain fun t u => ¬ (t.isText = true ∧ u.isText = true)
  isElement : IsElement ts

/-- A stanza begins with a tag. -/
theorem IsStanza.isText_head {ts : List Token} (h : IsStanza ts) :
    ∀ t ∈ ts.head?, t.isText = false := by
  intro t ht
  cases ts with
  | nil => cases ht
  | cons root rest =>
      obtain rfl : root = t := Option.some.inj ht
      have hroot := h.isElement.1
      cases root with
      | text content => cases hroot
      | _ => rfl

theorem IsStanza.ne_nil {ts : List Token} (h : IsStanza ts) : ts ≠ [] := by
  intro hnil
  subst hnil
  exact h.isElement

/-- The text of a stanza is not empty. -/
theorem IsStanza.render_ne_nil {ts : List Token} (h : IsStanza ts) : render ts ≠ [] := by
  cases ts with
  | nil => exact absurd rfl h.ne_nil
  | cons root rest =>
      rw [render_cons]
      exact List.append_ne_nil_of_left_ne_nil
        (Token.render_ne_nil (h.wellFormed root List.mem_cons_self)) _

theorem isText_head_flatten {stanzas : List (List Token)} (h : ∀ s ∈ stanzas, IsStanza s) :
    ∀ t ∈ stanzas.flatten.head?, t.isText = false := by
  cases stanzas with
  | nil =>
      intro t ht
      cases ht
  | cons s stanzas =>
      intro t ht
      have hs := h s List.mem_cons_self
      rw [List.flatten_cons, List.head?_append_of_ne_nil _ hs.ne_nil] at ht
      exact hs.isText_head t ht

/-- Stanzas one after another are as a reader finds them. -/
theorem lexical_flatten {stanzas : List (List Token)} (h : ∀ s ∈ stanzas, IsStanza s) :
    Lexical [] stanzas.flatten := by
  induction stanzas with
  | nil => exact ⟨by simp, List.isChain_nil, trivial⟩
  | cons s stanzas ih =>
      have hs := h s List.mem_cons_self
      have hrest : ∀ s ∈ stanzas, IsStanza s := fun s hs => h s (List.mem_cons_of_mem _ hs)
      have hlex := ih hrest
      rw [List.flatten_cons]
      refine ⟨?_, ?_, ?_⟩
      · intro t ht
        rcases List.mem_append.mp ht with ht | ht
        · exact hs.wellFormed t ht
        · exact hlex.wellFormed t ht
      · -- a stanza begins with a tag, so no character data meets at the seam
        rw [List.isChain_append]
        refine ⟨hs.separated, hlex.separated, ?_⟩
        rintro x - y hy ⟨-, htext⟩
        rw [isText_head_flatten hrest y hy] at htext
        cases htext
      · cases s with
        | nil => exact absurd rfl hs.ne_nil
        | cons root rest =>
            obtain ⟨-, stack, hafter, hbalanced⟩ := hs.isElement
            exact ⟨stack, hafter, Nests.of_balanced hbalanced hlex.nests⟩

/-! ## The events of a stanza -/

section Events

variable {buf : Str} {ending : Ending} {r p : ℕ}

/-- Inside an element, a token that leaves an element open is passed over. -/
theorem popLoop_token {stack stack' : List Str} {t : Token} {events : List (XmlEvent × ℕ)} {q : ℕ}
    (hstack : stack ≠ []) (hafter : t.openAfter stack = some stack') (hopen : stack' ≠ []) :
    popLoop buf ending stack.length (some r) p ((t.event, q) :: events) =
      popLoop buf ending stack'.length (some r) q events := by
  obtain ⟨name, outer, rfl⟩ := List.exists_cons_of_ne_nil hstack
  cases t with
  | closing name' blanks =>
      rw [Token.openAfter] at hafter
      split_ifs at hafter
      cases hafter
      obtain ⟨name'', outer', rfl⟩ := List.exists_cons_of_ne_nil hopen
      rfl
  | _ =>
      cases hafter
      simp [popLoop, Token.event]

/-- Inside an element, the token that closes it completes the stanza. -/
theorem popLoop_last {stack : List Str} {t : Token} {events : List (XmlEvent × ℕ)} {q : ℕ}
    (hstack : stack ≠ []) (hafter : t.openAfter stack = some []) :
    popLoop buf ending stack.length (some r) p ((t.event, q) :: events) = .stanza r q := by
  obtain ⟨name, outer, rfl⟩ := List.exists_cons_of_ne_nil hstack
  cases t with
  | closing name' blanks =>
      rw [Token.openAfter] at hafter
      split_ifs at hafter
      cases hafter
      rfl
  | _ => cases hafter

/-- Nothing follows the token that closes the outermost element. -/
theorem eq_nil_of_balanced {ts : List Token} (h : Balanced [] ts) : ts = [] := by
  cases ts with
  | nil => rfl
  | cons t ts => exact absurd rfl h.1

/-- Inside an element, the tokens up to its end complete the stanza. -/
theorem popLoop_balanced {stack : List Str} {ts : List Token} {events : List (XmlEvent × ℕ)}
    (hstack : stack ≠ []) (h : Balanced stack ts) :
    popLoop buf ending stack.length (some r) p (eventsFrom p ts ++ events) =
      .stanza r (p + (render ts).length) := by
  induction ts generalizing stack p with
  | nil => exact absurd h hstack
  | cons t ts ih =>
      obtain ⟨-, stack', hafter, hts⟩ := h
      rw [eventsFrom, List.cons_append, render_cons, List.length_append]
      -- the outermost element is closed by the last token, and only by that
      by_cases hopen : stack' = []
      · subst hopen
        obtain rfl := eq_nil_of_balanced hts
        exact popLoop_last hstack hafter
      · rw [popLoop_token hstack hafter hopen, ih hopen hts, Nat.add_assoc]

/-- Inside an element, the tokens before a position in it are passed over. -/
theorem popLoop_upTo {stack : List Str} {ts : List Token} {n : ℕ} (hstack : stack ≠ [])
    (h : Balanced stack ts) (hn : n < (render ts).length) :
    popLoop buf ending stack.length (some r) p (eventsFrom p (upTo n ts)) =
      popLoop buf ending 0 none (p + (render (upTo n ts)).length) [] := by
  induction ts generalizing stack p n with
  | nil => simp at hn
  | cons t ts ih =>
      obtain ⟨-, stack', hafter, hts⟩ := h
      rw [render_cons, List.length_append] at hn
      rw [upTo]
      split_ifs with hlt
      · cases t with
        | text content =>
            rw [Token.cutAt]
            split_ifs
            · rfl
            · rw [eventsFrom, popLoop_token hstack rfl hstack, render_cons, render_nil,
                List.append_nil]
              rfl
        | _ => rfl
      · by_cases hopen : stack' = []
        · subst hopen
          obtain rfl := eq_nil_of_balanced hts
          rw [render_nil, List.length_nil] at hn
          omega
        · rw [eventsFrom, popLoop_token hstack hafter hopen, ih hopen hts (by omega), render_cons,
            List.length_append, Nat.add_assoc]

/-- The first token of an element that has more than one. -/
theorem popLoop_opening {name attributes : Str} {events : List (XmlEvent × ℕ)} {q : ℕ}
    (hroot : (Token.opening name attributes).isRoot = true) :
    popLoop buf ending 0 none 0 ((.start name, q) :: events) =
      popLoop buf ending 1 (some 0) q events := by
  have hname : name ≠ "stream:stream".toList := of_decide_eq_true hroot
  rw [popLoop, if_neg (fun h => hname h.2), if_pos rfl]

/-- The events of an element complete the stanza, whatever follows. -/
theorem popLoop_element {ts : List Token} {events : List (XmlEvent × ℕ)} (h : IsElement ts) :
    popLoop buf ending 0 none 0 (eventsFrom 0 ts ++ events) = .stanza 0 (render ts).length := by
  cases ts with
  | nil => exact h.elim
  | cons root rest =>
      obtain ⟨hroot, stack, hafter, hrest⟩ := h
      rw [eventsFrom, List.cons_append, render_cons, List.length_append, Nat.zero_add]
      cases root with
      | opening name attributes =>
          cases hafter
          rw [Token.event, popLoop_opening hroot]
          exact popLoop_balanced (List.cons_ne_nil _ _) hrest
      | empty name attributes =>
          cases hafter
          obtain rfl := eq_nil_of_balanced hrest
          have hname : name ≠ "stream:stream".toList := of_decide_eq_true hroot
          rw [Token.event, popLoop, if_neg (fun h => hname h.2), if_pos rfl, render_nil,
            List.length_nil, Nat.add_zero]
      | _ => cases hroot

/-- The events of a part of an element are passed over. -/
theorem popLoop_unfinished {ts : List Token} {n : ℕ} (h : IsElement ts)
    (hn : n < (render ts).length) :
    popLoop buf ending 0 none 0 (eventsFrom 0 (upTo n ts)) =
      popLoop buf ending 0 none (render (upTo n ts)).length [] := by
  cases ts with
  | nil => exact h.elim
  | cons root rest =>
      obtain ⟨hroot, stack, hafter, hrest⟩ := h
      rw [render_cons, List.length_append] at hn
      rw [upTo]
      split_ifs with hlt
      · cases root with
        | text content => cases hroot
        | _ => rfl
      · cases root with
        | opening name attributes =>
            cases hafter
            rw [eventsFrom, Token.event, popLoop_opening hroot, render_cons, List.length_append,
              Nat.zero_add]
            exact popLoop_upTo (List.cons_ne_nil _ _) hrest (by omega)
        | empty name attributes =>
            cases hafter
            obtain rfl := eq_nil_of_balanced hrest
            rw [render_nil, List.length_nil] at hn
            omega
        | _ => cases hroot

end Events

/-! ## The buffer between two reads -/

section Buffer

variable {reader : XmlReader} (hreader : ReadsTokens reader)

/-- A call that does not start over. -/
theorem popNextTopLevelElement_of_stop {buf : Str} (h : (popPass reader buf).again = false) :
    popNextTopLevelElement reader buf =
      ((popPass reader buf).out.head?, (popPass reader buf).state) := by
  have hdrain : (popCalls reader).drain buf =
      ((popPass reader buf).out, (popPass reader buf).state) :=
    (popCalls reader).drain_of_stop h
  rw [popNextTopLevelElement, hdrain]

theorem popNextTopLevelElement_of_outcome {buf : Str} {root stop : ℕ} (hbuf : buf ≠ [])
    (h : outcome reader buf = .stanza root stop) :
    popNextTopLevelElement reader buf =
      (some ((buf.drop root).take (stop - root)), buf.drop stop) := by
  have hpass : popPass reader buf =
      ⟨[(buf.drop root).take (stop - root)], buf.drop stop, false⟩ := by
    rw [popPass, if_neg hbuf, h]
  rw [popNextTopLevelElement_of_stop (by rw [hpass]), hpass, List.head?_cons]

include hreader in
/-- A stanza that is in the buffer is taken out, wherever the rest is cut off. -/
theorem pop_complete {s : List Token} {stanzas : List (List Token)}
    (h : ∀ s' ∈ s :: stanzas, IsStanza s') {n : ℕ} (hn : (render s).length ≤ n) :
    popNextTopLevelElement reader ((render (s :: stanzas).flatten).take n) =
      (some (render s), (render stanzas.flatten).take (n - (render s).length)) := by
  obtain ⟨ending, hlex, -, -⟩ := hreader.lex_take (lexical_flatten h) n
  have hs := h s List.mem_cons_self
  have hbuf : (render (s :: stanzas).flatten).take n =
      render s ++ (render stanzas.flatten).take (n - (render s).length) := by
    rw [List.flatten_cons, render_append, List.take_append, List.take_of_length_le hn]
  have hout : outcome reader ((render (s :: stanzas).flatten).take n) =
      .stanza 0 (render s).length := by
    rw [outcome, hlex, List.flatten_cons, upTo_append hn, eventsFrom_append]
    exact popLoop_element hs.isElement
  have hne : (render (s :: stanzas).flatten).take n ≠ [] := by
    rw [hbuf]
    exact List.append_ne_nil_of_left_ne_nil hs.render_ne_nil _
  rw [popNextTopLevelElement_of_outcome hne hout, hbuf, List.drop_zero, Nat.sub_zero,
    List.take_left, List.drop_left]

/-- The outcome for a buffer that ends before the first stanza does. -/
theorem outcome_unfinished {s us : List Token} {n : ℕ} {buf : Str} {ending : Ending}
    (hs : IsStanza s) (hn : n < (render s).length)
    (hlex : reader.lex buf = (eventsFrom 0 (upTo n (s ++ us)), ending)) :
    outcome reader buf = popLoop buf ending 0 none (render (upTo n s)).length [] := by
  rw [outcome, hlex, upTo_append_of_lt hn]
  exact popLoop_unfinished hs.isElement hn

include hreader in
/-- A stanza that is cut off between tags or in character data is kept. -/
theorem pop_unfinished {s : List Token} {stanzas : List (List Token)}
    (h : ∀ s' ∈ s :: stanzas, IsStanza s') {n : ℕ} (hn : n < (render s).length)
    (hin : insideMarkup n (s :: stanzas).flatten = false) :
    popNextTopLevelElement reader ((render (s :: stanzas).flatten).take n) =
      (none, (render (s :: stanzas).flatten).take n) := by
  obtain ⟨ending, hlex, heof, -⟩ := hreader.lex_take (lexical_flatten h) n
  obtain rfl := heof hin
  have hout := outcome_unfinished (h s List.mem_cons_self) hn hlex
  generalize (render (s :: stanzas).flatten).take n = buf at hout ⊢
  have hpass : popPass reader buf = ⟨[], buf, false⟩ := by
    rw [popPass, hout]
    split_ifs
    · rfl
    · rfl
  rw [popNextTopLevelElement_of_stop (by rw [hpass]), hpass, List.head?_nil]

/-- The text of the error is not the one that is waited for. -/
theorem find_unclosed (t : Token) : Str.find "Unexpected EOF".toList t.unclosed = none := by
  have htag : Str.find "Unexpected EOF".toList UNCLOSED_TAG = none := by decide +kernel
  have hreference : Str.find "Unexpected EOF".toList UNCLOSED_REFERENCE = none := by
    decide +kernel
  cases t with
  | reference name => exact hreference
  | _ => exact htag

/-- After an unfinished tag or reference something is dropped. -/
theorem recoverFrom_unclosed (buf : Str) (start : ℕ) (t : Token) :
    ∃ k, recoverFrom buf start t.unclosed = .discard k ∧ (buf ≠ [] → 0 < k) := by
  rw [recoverFrom, find_unclosed, if_neg (by simp)]
  rcases Str.find ['<'] (buf.drop (start + 1)) with _ | offset
  · exact ⟨buf.length, rfl, List.length_pos_iff.mpr⟩
  · exact ⟨start + 1 + offset, rfl, fun _ => by omega⟩

include hreader in
/-- A stanza that is cut off inside a tag or a reference loses its beginning. -/
theorem pop_cut {s : List Token} {stanzas : List (List Token)}
    (h : ∀ s' ∈ s :: stanzas, IsStanza s') {n : ℕ} (hn : n < (render s).length)
    (hin : insideMarkup n (s :: stanzas).flatten = true) :
    ∃ buf', popNextTopLevelElement reader ((render (s :: stanzas).flatten).take n) = (none, buf') ∧
      buf'.length < n := by
  obtain ⟨ending, hlex, -, herror⟩ := hreader.lex_take (lexical_flatten h) n
  obtain ⟨t, rfl⟩ := herror hin
  have hout := outcome_unfinished (h s List.mem_cons_self) hn hlex
  have hlen : ((render (s :: stanzas).flatten).take n).length = n := by
    rw [List.length_take, List.flatten_cons, render_append, List.length_append]
    omega
  have hpos : n ≠ 0 := by
    rintro rfl
    rw [List.flatten_cons, insideMarkup_append_of_lt hn] at hin
    exact absurd hin (by simp [insideMarkup_zero])
  generalize (render (s :: stanzas).flatten).take n = buf at hout hlen ⊢
  have hne : buf ≠ [] := by
    rintro rfl
    exact hpos hlen.symm
  obtain ⟨k, hk, hkpos⟩ := recoverFrom_unclosed buf (render (upTo n s)).length t
  have hpass : popPass reader buf = ⟨[], buf.drop k, false⟩ := by
    rw [popPass, if_neg hne, hout, popLoop, hk]
  refine ⟨buf.drop k, ?_, ?_⟩
  · rw [popNextTopLevelElement_of_stop (by rw [hpass]), hpass, List.head?_nil]
  · have hk0 := hkpos hne
    rw [List.length_drop]
    omega

include hreader in
/-- From a buffer that is cut off between tags or in character data, the stanzas that
are complete are taken out, and the rest is kept. -/
theorem popAll_take {stanzas : List (List Token)} (h : ∀ s ∈ stanzas, IsStanza s) {n : ℕ}
    (hin : insideMarkup n stanzas.flatten = false) :
    ∃ complete rest, stanzas = complete ++ rest ∧ (render complete.flatten).length ≤ n ∧
      (∀ s ∈ rest.head?, n - (render complete.flatten).length < (render s).length) ∧
      (popAll reader).drain ((render stanzas.flatten).take n) =
        (complete.map render,
          (render rest.flatten).take (n - (render complete.flatten).length)) := by
  induction stanzas generalizing n with
  | nil =>
      refine ⟨[], [], rfl, Nat.zero_le n, ?_, ?_⟩
      · intro s hs
        cases hs
      · rw [List.flatten_nil, render_nil, List.take_nil, List.take_nil]
        exact popAll_of_none (popNextTopLevelElement_of_stop rfl)
  | cons s stanzas ih =>
      -- the first stanza is complete, or it is where the buffer ends
      by_cases hn : (render s).length ≤ n
      · have hin' : insideMarkup (n - (render s).length) stanzas.flatten = false := by
          rw [← insideMarkup_append hn, ← List.flatten_cons]
          exact hin
        obtain ⟨complete, rest, rfl, hle, hrest, hdrain⟩ :=
          ih (fun s' hs' => h s' (List.mem_cons_of_mem _ hs')) hin'
        refine ⟨s :: complete, rest, rfl, ?_, ?_, ?_⟩
        · rw [List.flatten_cons, render_append, List.length_append]
          omega
        · rw [List.flatten_cons, render_append, List.length_append, ← Nat.sub_sub]
          exact hrest
        · rw [popAll_of_some (pop_complete hreader h hn), hdrain, List.map_cons, List.flatten_cons,
            render_append, List.length_append, ← Nat.sub_sub]
      · refine ⟨[], s :: stanzas, rfl, Nat.zero_le n, ?_, ?_⟩
        · intro s' hs'
          obtain rfl : s = s' := Option.some.inj hs'
          simpa using hn
        · exact popAll_of_none (pop_unfinished hreader h (not_le.mp hn) hin)

include hreader in
/-- From a buffer that is cut off inside a tag or a reference something is lost. -/
theorem popAll_cut {stanzas : List (List Token)} (h : ∀ s ∈ stanzas, IsStanza s) {n : ℕ}
    (hin : insideMarkup n stanzas.flatten = true) :
    ((popAll reader).drain ((render stanzas.flatten).take n)).1.flatten.length +
      ((popAll reader).drain ((render stanzas.flatten).take n)).2.length < n := by
  induction stanzas generalizing n with
  | nil => cases hin
  | cons s stanzas ih =>
      by_cases hn : (render s).length ≤ n
      · have hin' : insideMarkup (n - (render s).length) stanzas.flatten = true := by
          rw [← insideMarkup_append hn, ← List.flatten_cons]
          exact hin
        have hlt := ih (fun s' hs' => h s' (List.mem_cons_of_mem _ hs')) hin'
        rw [popAll_of_some (pop_complete hreader h hn)]
        dsimp only
        rw [List.flatten_cons, List.length_append]
        omega
      · obtain ⟨buf', hpop, hlt⟩ := pop_cut hreader h (not_le.mp hn) hin
        rw [popAll_of_none hpop]
        simpa using hlt

/-- A read extends the part of the text that is in the buffer. -/
theorem take_append_read {text read : Str} {reads : List Str} {m : ℕ}
    (h : (read :: reads).flatten = text.drop m) :
    text.take m ++ read = text.take (m + read.length) ∧
      reads.flatten = text.drop (m + read.length) := by
  rw [List.flatten_cons] at h
  rw [List.take_add, ← List.drop_drop, ← h, List.take_left, List.drop_left]
  exact ⟨rfl, rfl⟩

/-- The buffer and a read fit if the whole text does. -/
theorem byteLen_take_add_le {text read : Str} {m : ℕ}
    (h : text.take m ++ read = text.take (m + read.length)) :
    Str.byteLen (text.take m) + Str.byteLen read ≤ Str.byteLen text := by
  calc Str.byteLen (text.take m) + Str.byteLen read
      = Str.byteLen (text.take (m + read.length)) := by rw [← Str.byteLen_append, h]
    _ ≤ Str.byteLen (text.take (m + read.length)) + Str.byteLen (text.drop (m + read.length)) :=
        Nat.le_add_right _ _
    _ = Str.byteLen text := by rw [← Str.byteLen_append, List.take_append_drop]

include hreader in
/-- Reads that end between tags or in character data give the stanzas. -/
theorem receive_eq_stanzas {reads : List Str} {stanzas : List (List Token)} {m : ℕ}
    (h : ∀ s ∈ stanzas, IsStanza s) (hreads : reads.flatten = (render stanzas.flatten).drop m)
    (hfit : Str.byteLen (render stanzas.flatten) ≤ MAX_READ_BUFFER_BYTES)
    (hunfinished : ∀ s ∈ stanzas.head?, m < (render s).length)
    (hcuts : ∀ before after, reads = before ++ after →
      insideMarkup (m + before.flatten.length) stanzas.flatten = false) :
    receive reader ((render stanzas.flatten).take m) reads = .ok (stanzas.map render, []) := by
  induction reads generalizing stanzas m with
  | nil =>
      cases stanzas with
      | nil => simp [receive]
      | cons s stanzas =>
          have hlt := hunfinished s rfl
          have hle := List.drop_eq_nil_iff.mp hreads.symm
          rw [List.flatten_cons, render_append, List.length_append] at hle
          omega
  | cons read reads ih =>
      obtain ⟨htake, hdrop⟩ := take_append_read hreads
      have hreadfit := (byteLen_take_add_le htake).trans hfit
      have hread : insideMarkup (m + read.length) stanzas.flatten = false := by
        have := hcuts [read] reads rfl
        rwa [List.flatten_singleton] at this
      obtain ⟨complete, rest, rfl, hle, hrest, hdrain⟩ := popAll_take hreader h hread
      -- the induction goes on with the stanzas that are not complete, cut at the same place
      rw [List.flatten_append, render_append] at hfit hdrop
      have hrestfit : Str.byteLen (render rest.flatten) ≤ MAX_READ_BUFFER_BYTES := by
        rw [Str.byteLen_append] at hfit
        omega
      have hnext : receive reader ((render rest.flatten).take
          (m + read.length - (render complete.flatten).length)) reads =
            .ok (rest.map render, []) := by
        refine ih (fun s hs => h s (List.mem_append_right _ hs)) ?_ hrestfit hrest ?_
        · rw [hdrop, List.drop_append, List.drop_eq_nil_of_le hle, List.nil_append]
        · intro before after hsplit
          have hcut := hcuts (read :: before) after (by rw [hsplit, List.cons_append])
          rw [List.flatten_cons, List.length_append, ← Nat.add_assoc, List.flatten_append,
            insideMarkup_append (by omega)] at hcut
          rw [← hcut]
          congr 1
          omega
      rw [receive_cons_of_le hreadfit, htake, hdrain, hnext, List.map_append]
      rfl

include hreader in
/-- A read that ends inside a tag or a reference costs a part of the text. -/
theorem receive_loses {reads out : List Str} {stanzas : List (List Token)} {m : ℕ} {buf' : Str}
    (h : ∀ s ∈ stanzas, IsStanza s) (hreads : reads.flatten = (render stanzas.flatten).drop m)
    (hm : insideMarkup m stanzas.flatten = false) {before after : List Str}
    (hsplit : reads = before ++ after)
    (hcut : insideMarkup (m + before.flatten.length) stanzas.flatten = true)
    (hreceive : receive reader ((render stanzas.flatten).take m) reads = .ok (out, buf')) :
    out.flatten.length + buf'.length < (render stanzas.flatten).length := by
  induction before generalizing reads out stanzas m with
  | nil =>
      rw [List.flatten_nil, List.length_nil, Nat.add_zero, hm] at hcut
      cases hcut
  | cons read before ih =>
      obtain ⟨reads', hsplit', rfl⟩ : ∃ reads', reads' = before ++ after ∧ reads = read :: reads' :=
        ⟨_, rfl, hsplit⟩
      obtain ⟨htake, hdrop⟩ := take_append_read hreads
      obtain ⟨out', hrest, rfl⟩ := exists_of_receive_cons hreceive
      rw [htake] at hrest ⊢
      rw [List.flatten_append, List.length_append]
      by_cases hread : insideMarkup (m + read.length) stanzas.flatten = true
      · -- The loss occurs at this read; nothing is added afterwards.
        have hlost := popAll_cut hreader h hread
        have hle := receive_length_le hrest
        have htotal := congrArg List.length hdrop
        rw [List.length_drop] at htotal
        have hinside := lt_length_of_insideMarkup hread
        omega
      · -- The read is harmless; the loss occurs among the stanzas that are left.
        rw [Bool.not_eq_true] at hread
        obtain ⟨complete, rest, rfl, hle, hunfinished, hdrain⟩ := popAll_take hreader h hread
        rw [hdrain] at hrest ⊢
        rw [List.flatten_append] at hread hcut hdrop
        rw [render_append] at hdrop
        rw [insideMarkup_append hle] at hread
        rw [List.flatten_cons, List.length_append, ← Nat.add_assoc,
          insideMarkup_append (by omega)] at hcut
        have hlt := ih (fun s hs => h s (List.mem_append_right _ hs))
          (by rw [hdrop, List.drop_append, List.drop_eq_nil_of_le hle, List.nil_append])
          hread hsplit' (by rw [← hcut]; congr 1; omega) hrest
        rw [flatten_map_render, List.flatten_append, render_append, List.length_append]
        omega

end Buffer

/-! ## Framing -/

/-- **Framing and read boundaries.**  The stanzas of the stream are received, each once
and in order, and nothing is left in the buffer, if and only if no read ends inside a
tag or a reference. -/
theorem receive_eq_stanzas_iff {reader : XmlReader} (hreader : ReadsTokens reader)
    {stanzas : List (List Token)} (h : ∀ s ∈ stanzas, IsStanza s)
    (hfit : Str.byteLen (render stanzas.flatten) < MAX_READ_BUFFER_BYTES) {reads : List Str}
    (hreads : reads.flatten = render stanzas.flatten) :
    receive reader [] reads = .ok (stanzas.map render, []) ↔
      ∀ before after, reads = before ++ after →
        insideMarkup before.flatten.length stanzas.flatten = false := by
  have hstart : (render stanzas.flatten).take 0 = [] := rfl
  constructor
  · intro hreceive before after hsplit
    by_contra hcut
    rw [Bool.not_eq_false] at hcut
    have hlt := receive_loses hreader h hreads (insideMarkup_zero _) hsplit
      (by rw [Nat.zero_add]; exact hcut) (by rw [hstart]; exact hreceive)
    rw [flatten_map_render, List.length_nil, Nat.add_zero] at hlt
    exact lt_irrefl _ hlt
  · intro hcuts
    rw [← hstart]
    refine receive_eq_stanzas hreader h hreads hfit.le ?_ ?_
    · intro s hs
      have hmem := List.mem_of_mem_head? hs
      exact List.length_pos_iff.mpr (h s hmem).render_ne_nil
    · intro before after hsplit
      rw [Nat.zero_add]
      exact hcuts before after hsplit

/-- A message, `<m id='1'>KTLH</m>`. -/
def exampleMessage : List Token :=
  [.opening "m".toList " id='1'".toList, .text "KTLH".toList, .closing "m".toList []]

theorem exampleMessage_isStanza : IsStanza exampleMessage where
  wellFormed := by decide +kernel
  separated := by decide +kernel
  isElement := ⟨rfl, _, rfl, List.cons_ne_nil _ _, _, rfl, List.cons_ne_nil _ _, _, rfl, rfl⟩

/-- The message is received if the reads cut it in its text. -/
theorem receive_eq_stanzas_message :
    receive tokenReader [] ["<m id='1'>KT".toList, "LH</m>".toList] =
        .ok (["<m id='1'>KTLH</m>".toList], []) ∧
      insideMarkup 12 exampleMessage = false := by
  have hiff : receive tokenReader [] ["<m id='1'>KT".toList, "LH</m>".toList] =
        .ok ([exampleMessage].map render, []) ↔
      ∀ before after, ["<m id='1'>KT".toList, "LH</m>".toList] = before ++ after →
        insideMarkup before.flatten.length [exampleMessage].flatten = false :=
    receive_eq_stanzas_iff readsTokens_tokenReader (by simpa using exampleMessage_isStanza)
      (by decide +kernel) (by decide +kernel)
  have hreceive : receive tokenReader [] ["<m id='1'>KT".toList, "LH</m>".toList] =
      .ok (["<m id='1'>KTLH</m>".toList], []) := by rfl
  exact ⟨hreceive, hiff.mp hreceive [_] [_] rfl⟩

/-- The message is lost if the reads cut it in its end tag. -/
theorem receive_loses_message :
    ReadsTokens tokenReader ∧ IsStanza exampleMessage ∧
      Str.byteLen (render exampleMessage) < MAX_READ_BUFFER_BYTES ∧
      ["<m id='1'>KTLH</".toList, "m>".toList].flatten = render exampleMessage ∧
      receive tokenReader [] ["<m id='1'>KTLH</".toList, "m>".toList] = .ok ([], []) ∧
      receive tokenReader [] ["<m id='1'>KTLH</".toList, "m>".toList] ≠
        .ok ([render exampleMessage], []) := by
  have hreceive : receive tokenReader [] ["<m id='1'>KTLH</".toList, "m>".toList] =
      .ok ([], []) := by rfl
  refine ⟨readsTokens_tokenReader, exampleMessage_isStanza, by decide +kernel, by decide +kernel,
    hreceive, ?_⟩
  rw [hreceive]
  intro heq
  cases heq

end WxWire
