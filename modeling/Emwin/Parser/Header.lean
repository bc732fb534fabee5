/-
# Headers

`header/parser.rs` removes what the transport has put around a bulletin, so that its lines are where
they are expected, and reads the heading in the second line and the product identifier in the
third.

The source slices at offsets behind ASCII characters only, where it never panics.
-/
import Emwin.Lib.Ascii
import Emwin.Lib.Words

namespace Parser.Header

/-! ## Headers -/

/-- What is wrong with a bulletin. -/
inductive ParserError where
  | emptyInput
  | missingWmoLine
  | invalidWmoHeader (line : Str)
  | missingAfosLine
  | missingAfos (line : Str)
  deriving DecidableEq, Repr

/-- A heading. -/
structure WmoHeader where
  ttaaii : Str
  cccc : Str
  ddhhmm : Str
  bbb : Option Str
  deriving DecidableEq, Repr

/-- A heading with a product identifier. -/
structure TextProductHeader where
  ttaaii : Str
  cccc : Str
  ddhhmm : Str
  bbb : Option Str
  afos : Str
  deriving DecidableEq, Repr

/-- A bulletin with its heading. -/
structure ParsedWmoBulletin where
  header : WmoHeader
  conditionedText : Str
  bodyText : Str
  deriving DecidableEq, Repr

/-- A product with its header. -/
structure ParsedTextProduct where
  header : TextProductHeader
  conditionedText : Str
  bodyText : Str
  deriving DecidableEq, Repr

/-- `normalize_ttaaii`. -/
def normalizeTtaaii (ttaaii : Str) : Str :=
  if Str.byteLen ttaaii = 4 then ttaaii ++ "00".toList else ttaaii

/-- `to_owned` of a borrowed header. -/
def TextProductHeader.toOwned (header : TextProductHeader) : TextProductHeader :=
  { header with ttaaii := normalizeTtaaii header.ttaaii }

/-! ## Lines -/

/-- `nth_line`. -/
def nthLine (text : Str) (index : ℕ) : Option Str := (Str.lines text)[index]?

/-- `body_after_lines`: what stands behind so many line feeds. -/
def bodyAfterLines : ℕ → Str → Str
  | 0, text => text
  | _ + 1, [] => []
  | n + 1, c :: text => if c = '\n' then bodyAfterLines n text else bodyAfterLines (n + 1) text

/-- A capital letter or a digit. -/
def isCapitalOrDigit (c : Char) : Bool := c.isUpper || c.isDigit

/-- `is_valid_ddhhmm`.  Six digits are cut between them. -/
def isValidDdhhmm (value : Str) : Bool :=
  if Str.byteLen value ≠ 6 ∨ value.all Char.isDigit = false then false
  else
    let field := fun i => (Str.slice i (i + 2) value).bind (Str.parseUnsigned (2 ^ 32 - 1))
    (field 0).any (fun day => decide (1 ≤ day ∧ day ≤ 31)) &&
      (field 2).any (fun hour => hour ≤ 23) &&
      (field 4).any fun minute => minute ≤ 59

/-- `is_valid_bbb`. -/
def isValidBbb (value : Str) : Bool :=
  match value with
  | [a, b, c] => (a ∈ ['A', 'C', 'R']) && (b ∈ ['A', 'C', 'M', 'O', 'R', 'T']) && c.isUpper
  | _ => false

/-- `parse_wmo_line`. -/
def parseWmoLine (line : Str) : Option WmoHeader :=
  let check := fun ttaaii cccc ddhhmm (bbb : Option Str) =>
    if (4 ≤ Str.byteLen ttaaii ∧ Str.byteLen ttaaii ≤ 6) ∧ ttaaii.all isCapitalOrDigit ∧
        Str.byteLen cccc = 4 ∧ cccc.all Char.isUpper ∧ isValidDdhhmm ddhhmm ∧
          bbb.all isValidBbb then
      some (⟨ttaaii, cccc, ddhhmm, bbb⟩ : WmoHeader)
    else none
  match Str.splitWhitespace (Str.trim line) with
  | [ttaaii, cccc, ddhhmm] => check ttaaii cccc ddhhmm none
  | [ttaaii, cccc, ddhhmm, bbb] => check ttaaii cccc ddhhmm (some bbb)
  | _ => none

/-- `parse_afos_line`. -/
def parseAfosLine (line : Str) : Option Str :=
  let trimmed := Str.trimEndMatches [' ', '\t'] line
  if (4 ≤ Str.byteLen trimmed ∧ Str.byteLen trimmed ≤ 6) ∧ trimmed.all isCapitalOrDigit then
    some trimmed
  else none

/-! ## Conditioning -/

/-- `has_ldm_sequence`: three bytes that are digits, and the byte behind them. -/
def hasLdmSequence (text : Str) : Bool :=
  match text with
  | a :: b :: c :: d :: _ => a.isDigit && b.isDigit && c.isDigit && (d ∈ [' ', '\n'])
  | _ => false

/-- Without the line that begins with the start of a heading. -/
def removeSoh (text : Str) : Str :=
  if text.head? = some '\x01' then ((Str.splitOnce '\n' text).map Prod.snd).getD [] else text

/-- Without an end of text at the end. -/
def removeEtx (text : Str) : Str := if text.getLast? = some '\x03' then text.dropLast else text

/-- Whether a character is kept. -/
def isKept (c : Char) : Bool := c ≠ '\r' && c ≠ '\x00'

/-- `condition_text`. -/
def conditionText (input : Str) : Except ParserError Str :=
  let text := Str.trim (input.filter isKept)
  if text = [] then .error .emptyInput
  else
    let text := removeEtx (removeSoh text)
    let conditioned := if hasLdmSequence text then text else "000 \n".toList ++ text
    match nthLine conditioned 1 with
    | none => .error .missingWmoLine
    | some line2 =>
        if (parseWmoLine line2).isNone then .error (.invalidWmoHeader line2)
        else .ok (if conditioned.getLast? = some '\n' then conditioned else conditioned ++ ['\n'])

/-- `condition_text_bytes`. -/
def conditionTextBytes (bytes : List UInt8) : Except ParserError Str :=
  conditionText (Utf8.decodeLossy bytes)

/-! ## Parsing -/

/-- `parse_wmo`. -/
def parseWmo (text : Str) : Except ParserError WmoHeader :=
  match nthLine text 1 with
  | none => .error .missingWmoLine
  | some line =>
      match parseWmoLine line with
      | none => .error (.invalidWmoHeader line)
      | some header => .ok header

/-- `parse_afos`. -/
def parseAfos (text : Str) : Except ParserError Str :=
  match nthLine text 2 with
  | none => .error .missingAfosLine
  | some line =>
      match parseAfosLine line with
      | none => .error (.missingAfos line)
      | some afos => .ok afos

/-- `parse_wmo_bulletin_conditioned_ref`. -/
def parseWmoBulletinConditionedRef (text : Str) : Except ParserError ParsedWmoBulletin := do
  let header ← parseWmo text
  .ok ⟨header, text, bodyAfterLines 2 text⟩

/-- `parse_text_product_conditioned_ref`. -/
def parseTextProductConditionedRef (text : Str) : Except ParserError ParsedTextProduct := do
  let parsed ← parseWmoBulletinConditionedRef text
  let afos ← parseAfos text
  .ok ⟨⟨parsed.header.ttaaii, parsed.header.cccc, parsed.header.ddhhmm, parsed.header.bbb, afos⟩,
    text, bodyAfterLines 3 text⟩

/-- `parse_text_product`. -/
def parseTextProduct (bytes : List UInt8) : Except ParserError TextProductHeader := do
  let conditioned ← conditionTextBytes bytes
  let parsed ← parseTextProductConditionedRef conditioned
  .ok parsed.header.toOwned

end Parser.Header
