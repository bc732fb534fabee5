/-
# Popping top-level elements

`pop_next_top_level_element` of `transport/stanza.rs` lexes the read buffer from its
start with the XML reader of `quick_xml` and follows the nesting depth: a complete
top-level element is cut out of the buffer and returned, an opening `stream:stream`
tag and stray text are dropped, and an incomplete buffer is kept.

The reader is a parameter: `XmlReader.lex` gives the events of a text with the
position after each, and how the reading ends.  Positions count characters, which
are the byte offsets of the code for the ASCII text that is framed here.
-/
import Emwin.Lib.StepLoop
import Emwin.WxWire.ReadBuffer

namespace WxWire

open StepLoop

/-- The events of the XML reader, with what the code looks at.  Names are texts: they
come from a buffer that is valid UTF-8. -/
inductive XmlEvent where
  | start (name : Str)
  | empty (name : Str)
  | close
  | text (content : Str)
  /-- Declarations, processing instructions, comments, document types, references, CDATA. -/
  | other
  deriving DecidableEq, Repr

/-- How the reading of a text ends: with the end of the input, or with an error. -/
inductive Ending where
  | eof
  | error (message : Str)
  deriving DecidableEq, Repr

/-- An XML reader: every event consumes some of the text. -/
structure XmlReader where
  /-- The events of a text with the positions after them, and the ending. -/
  lex : Str → List (XmlEvent × ℕ) × Ending
  /-- An event ends after the beginning and not after the end of the text. -/
  position_le : ∀ s, ∀ e ∈ (lex s).1, 0 < e.2 ∧ e.2 ≤ s.length

/-- What the events of a buffer amount to. -/
inductive Popped where
  /-- Nothing to return yet; the buffer is kept. -/
  | wait
  /-- Nothing to return; the first `k` characters are dropped. -/
  | discard (k : ℕ)
  /-- The first `k` characters are dropped and the search starts over. -/
  | again (k : ℕ)
  /-- The element from `root` to `stop`; everything up to `stop` is dropped. -/
  | stanza (root stop : ℕ)
  deriving DecidableEq, Repr

/-- `u8::is_ascii_whitespace`. -/
def isAsciiWhitespace (c : Char) : Bool := c ∈ [' ', '\t', '\n', '\x0c', '\r']

/-- An error: wait if its text says so, else resume at the next `<` after the position
at which it occurred. -/
def recoverFrom (buf : Str) (start : ℕ) (message : Str) : Popped :=
  if (Str.find "Unexpected EOF".toList message).isSome then .wait
  else
    -- the character at which the error occurred is given up in any case
    match Str.find ['<'] (buf.drop (start + 1)) with
    | some offset => .discard (start + 1 + offset)
    | none => .discard buf.length

/-- The loop over the events of the buffer. -/
def popLoop (buf : Str) (ending : Ending) :
    ℕ → Option ℕ → ℕ → List (XmlEvent × ℕ) → Popped
  | _, _, lastPos, [] =>
      match ending with
      | .eof => .wait
      | .error message => recoverFrom buf lastPos message
  | depth, rootStart, lastPos, (event, stop) :: events =>
      match event with
      | .start name =>
          -- the header of the stream has no end tag before the stream ends
          if depth = 0 ∧ name = "stream:stream".toList then .again stop
          else
            popLoop buf ending (depth + 1)
              (if depth = 0 then some lastPos else rootStart) stop events
      | .empty name =>
          if depth = 0 ∧ name = "stream:stream".toList then .again stop
          else if depth = 0 then .stanza lastPos stop
          else popLoop buf ending depth rootStart stop events
      | .close =>
          -- an end tag at the top level is the one of the stream, or a stray one
          match depth with
          | 0 => .discard stop
          | 1 =>
              match rootStart with
              | some root => .stanza root stop
              | none => popLoop buf ending 0 none stop events
          | depth + 2 => popLoop buf ending (depth + 1) rootStart stop events
      | .text content =>
          if depth = 0 ∧ ¬ content.all isAsciiWhitespace then .again stop
          else popLoop buf ending depth rootStart stop events
      | .other => popLoop buf ending depth rootStart stop events

/-- The positions in the outcome of the loop are positions after events. -/
theorem popLoop_positions {buf : Str} {ending : Ending} {limit : ℕ} :
    ∀ (events : List (XmlEvent × ℕ)) (depth : ℕ) (rootStart : Option ℕ) (lastPos : ℕ),
      (∀ e ∈ events, 0 < e.2 ∧ e.2 ≤ limit) →
      match popLoop buf ending depth rootStart lastPos events with
      | .again k => 0 < k ∧ k ≤ limit
      | .stanza _ stop => 0 < stop ∧ stop ≤ limit
      | _ => True := by
  intro events
  induction events with
  | nil =>
      intro depth rootStart lastPos _
      rcases ending with _ | message
      · trivial
      · simp only [popLoop, recoverFrom]
        split_ifs
        · trivial
        · rcases Str.find ['<'] (buf.drop (lastPos + 1)) with _ | offset <;> trivial
  | cons e events ih =>
      intro depth rootStart lastPos hpos
      obtain ⟨event, stop⟩ := e
      have hstop : 0 < stop ∧ stop ≤ limit := hpos _ List.mem_cons_self
      have hrest := fun d r => ih d r stop fun x hx => hpos x (List.mem_cons_of_mem _ hx)
      cases event with
      | start name =>
          rw [popLoop]
          split_ifs
          · exact hstop
          · exact hrest _ _
          · exact hrest _ _
      | empty name =>
          rw [popLoop]
          split_ifs
          · exact hstop
          · exact hstop
          · exact hrest _ _
      | close =>
          match depth with
          | 0 => trivial
          | 1 =>
              rcases rootStart with _ | root
              · exact hrest _ _
              · exact hstop
          | depth + 2 => exact hrest _ _
      | text content =>
          rw [popLoop]
          split_ifs
          · exact hstop
          · exact hrest _ _
      | other =>
          rw [popLoop]
          exact hrest _ _

section Pop

variable (reader : XmlReader)

/-- The outcome for a non-empty buffer. -/
def outcome (buf : Str) : Popped :=
  popLoop buf (reader.lex buf).2 0 none 0 (reader.lex buf).1

/-- What is cut off a buffer is not empty, and no longer than the buffer. -/
theorem outcome_positions (buf : Str) :
    match outcome reader buf with
    | .again k => 0 < k ∧ k ≤ buf.length
    | .stanza _ stop => 0 < stop ∧ stop ≤ buf.length
    | _ => True :=
  popLoop_positions _ 0 none 0 (reader.position_le buf)

/-- One call, up to the recursive one: the element found, and the buffer left. -/
def popPass (buf : Str) : Pass Str Str :=
  if buf = [] then ⟨[], buf, false⟩
  else
    match outcome reader buf with
    | .wait => ⟨[], buf, false⟩
    | .discard k => ⟨[], buf.drop k, false⟩
    | .again k => ⟨[], buf.drop k, true⟩
    | .stanza root stop => ⟨[(buf.drop root).take (stop - root)], buf.drop stop, false⟩

/-- What one call can do: keep or drop and stop, drop something and start over, or hand
out an element that ends in the buffer. -/
theorem popPass_cases (buf : Str) :
    (∃ k, popPass reader buf = ⟨[], buf.drop k, false⟩) ∨
    (∃ k, 0 < k ∧ k ≤ buf.length ∧ popPass reader buf = ⟨[], buf.drop k, true⟩) ∨
    ∃ root stop, 0 < stop ∧ stop ≤ buf.length ∧
      popPass reader buf = ⟨[(buf.drop root).take (stop - root)], buf.drop stop, false⟩ := by
  have hpos := outcome_positions reader buf
  revert hpos
  unfold popPass
  split_ifs with hb
  · intro _
    exact .inl ⟨0, by rw [List.drop_zero]⟩
  · rcases outcome reader buf with _ | k | k | ⟨root, stop⟩
    · intro _
      exact .inl ⟨0, by rw [List.drop_zero]⟩
    · intro _
      exact .inl ⟨k, rfl⟩
    · rintro ⟨hk, hle⟩
      exact .inr (.inl ⟨k, hk, hle, rfl⟩)
    · rintro ⟨hstop, hle⟩
      exact .inr (.inr ⟨root, stop, hstop, hle, rfl⟩)

/-- The recursive calls; each of them drops something. -/
def popCalls : Ranked Str Str where
  body := popPass reader
  rank := List.length
  rank_lt buf h := by
    rcases popPass_cases reader buf with
      ⟨k, hpass⟩ | ⟨k, hk, hle, hpass⟩ | ⟨root, stop, -, -, hpass⟩
    · rw [hpass] at h
      cases h
    · rw [hpass, List.length_drop]
      omega
    · rw [hpass] at h
      cases h

/-- The next complete top-level element of the buffer, and the buffer without it. -/
def popNextTopLevelElement (buf : Str) : Option Str × Str :=
  (((popCalls reader).drain buf).1.head?, ((popCalls reader).drain buf).2)

end Pop

end WxWire
