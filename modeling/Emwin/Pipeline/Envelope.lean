/-
# Catalogs

`data/mod.rs` looks up what is known of a product: its policy under the first three characters of
its identifier, its office, and for a file that is no text what its name says.  The generated
tables are parameters; each is searched for a key that has been normalized first.

A name that ends like a text never says that the file is compressed, whatever stands in front.
-/
import Emwin.Lib.Ascii
import Emwin.Lib.Suffixes
import Emwin.Parser.BodyPlan
import Emwin.Parser.Header

namespace Pipeline

open Parser Parser.Header Parser.Cap Parser.BodyPlan

/-! ## Tables -/

/-- `TextProductRouting`. -/
inductive TextProductRouting where
  | generic
  | cli
  | fd
  | pirep
  | sigmet
  | lsr
  | cwa
  | wwp
  | cf6
  | dsm
  | hml
  | mos
  | saw
  | sel
  | mcd
  | ero
  | spcOutlook
  deriving DecidableEq, Repr

/-- `TextProductBodyBehavior`. -/
inductive TextProductBodyBehavior where
  | never
  | catalog
  deriving DecidableEq, Repr

/-- `TextProductCatalogEntry`, and `ResolvedTextProductPolicy`, which has the same fields. -/
structure TextProductCatalogEntry where
  pil : Str
  wmoPrefix : Str
  title : Str
  routing : TextProductRouting
  bodyBehavior : TextProductBodyBehavior
  extractors : List BodyExtractorId
  deriving DecidableEq, Repr

/-- `AfosRoutingOverride`. -/
structure AfosRoutingOverride where
  title : Option Str
  routing : Option TextProductRouting
  bodyBehavior : Option TextProductBodyBehavior
  extractors : Option (List BodyExtractorId)
  deriving DecidableEq, Repr

/-- `WmoOfficeEntry`. -/
structure WmoOfficeEntry where
  code : Str
  officeName : Str
  city : Str
  state : Str
  deriving DecidableEq, Repr

/-- `NonTextProductMeta`. -/
structure NonTextProductMeta where
  family : Str
  title : Str
  container : Str
  pil : Option Str
  wmoPrefix : Option Str
  deriving DecidableEq, Repr

/-- The generated tables, by key, and the digits of the regular expressions. -/
structure Catalogs where
  textProducts : Str → Option TextProductCatalogEntry
  afosRoutingOverrides : Str → Option AfosRoutingOverride
  wmoOffices : Str → Option WmoOfficeEntry
  isDecimal : Char → Bool

variable (catalogs : Catalogs)

/-! ## Products and offices -/

/-- `normalize_pil`. -/
def normalizePil (nnn : Str) : Option Str :=
  let key := Str.toAsciiUppercase (Str.trim nnn)
  if Str.byteLen key = 3 then some key else none

/-- `normalize_exact_afos`. -/
def normalizeExactAfos (afos : Str) : Option Str :=
  let key := Str.toAsciiUppercase (Str.trim afos)
  if (3 ≤ Str.byteLen key ∧ Str.byteLen key ≤ 6) ∧ key.all Char.isAlphanum then some key else none

/-- `normalize_wmo_office`. -/
def normalizeWmoOffice (code : Str) : Option Str :=
  let key := Str.toAsciiUppercase (Str.trim code)
  if Str.byteLen key = 3 ∧ key.all Char.isAlphanum then some key
  else if Str.byteLen key = 4 ∧ key.all Char.isAlphanum then some (key.drop 1)
  else none

/-- `text_product_catalog_entry`. -/
def textProductCatalogEntry (nnn : Str) : Option TextProductCatalogEntry :=
  (normalizePil nnn).bind catalogs.textProducts

/-- `wmo_prefix_for_pil`. -/
def wmoPrefixForPil (nnn : Str) : Option Str :=
  (textProductCatalogEntry catalogs nnn).map (·.wmoPrefix)

/-- `wmo_office_entry`. -/
def wmoOfficeEntry (code : Str) : Option WmoOfficeEntry :=
  (normalizeWmoOffice code).bind catalogs.wmoOffices

/-- `resolved_text_product_policy`. -/
def resolvedTextProductPolicy (afos : Str) : Option TextProductCatalogEntry := do
  let pil ← (Str.sliceTo 3 afos).bind normalizePil
  let base ← textProductCatalogEntry catalogs pil
  let exactAfos ← normalizeExactAfos afos
  let overrideEntry := catalogs.afosRoutingOverrides exactAfos
  let bodyBehavior := (overrideEntry.bind (·.bodyBehavior)).getD base.bodyBehavior
  some
    { pil := base.pil
      wmoPrefix := base.wmoPrefix
      title := (overrideEntry.bind (·.title)).getD base.title
      routing := (overrideEntry.bind (·.routing)).getD base.routing
      bodyBehavior
      extractors := if bodyBehavior = .never then []
        else (overrideEntry.bind (·.extractors)).getD base.extractors }

/-! ## File names -/

/-- `canonical_name`: the last part of a path, or what stands behind its last hyphen. -/
def canonicalName (filename : Str) : Str :=
  let base := Str.trim (((filename.splitOnP fun c => c = '/' || c = '\\').getLast?).getD filename)
  match Str.rsplitOnce '-' base with
  | some (_, tail) =>
      let candidate := Str.trim tail
      if '.' ∈ candidate ∧ candidate ≠ [] ∧
          candidate.all fun c => c.isAlphanum || c ∈ ['.', '_', '-'] then
        candidate
      else base
  | none => base

/-- `container_from_ext`. -/
def containerFromExt (ext : Str) : Str := if ext = "ZIP".toList then "zip".toList else "raw".toList

/-- `container_from_filename`. -/
def containerFromFilename (filename : Str) : Str :=
  containerFromExt (((Str.rsplitOnce '.' (canonicalName filename)).map
    fun (_, ext) => Str.toAsciiUppercase ext).getD [])

/-- A name of `count` capital letters or digits between a front and one of some extensions, with
the extension. -/
def extensionBehind (count : ℕ) (extensions : List Str) (s : Str) : Option Str :=
  if (s.take count).length = count ∧ (s.take count).all isCapitalOrDigit then
    extensions.find? fun ext => s.drop count = '.' :: ext
  else none

/-- `detect_graphics`. -/
def detectGraphics (filenameUpper : Str) : Option NonTextProductMeta :=
  let radar := match filenameUpper with
    | 'R' :: 'A' :: 'D' :: rest => extensionBehind 5 ["GIF".toList] rest
    | _ => none
  let goes := match filenameUpper with
    | 'G' :: d :: d' :: rest =>
        if catalogs.isDecimal d && catalogs.isDecimal d' then
          extensionBehind 6 ["ZIP".toList, "JPG".toList] rest
        else none
    | _ => none
  let imgmod :=
    if filenameUpper.take 3 = "IMG".toList ∨ filenameUpper.take 3 = "MOD".toList then
      extensionBehind 5 ["ZIP".toList, "GIF".toList, "PNG".toList, "JPG".toList]
        (filenameUpper.drop 3)
    else none
  match radar, goes, imgmod with
  | some _, _, _ =>
      some ⟨"radar_graphic".toList, "Radar graphic".toList, "raw".toList, none, none⟩
  | none, some ext, _ =>
      some ⟨"goes_graphic".toList, "GOES satellite graphic".toList, containerFromExt ext, none,
        none⟩
  | none, none, some ext =>
      some ⟨"nws_graphic".toList, "NWS graphic product".toList, containerFromExt ext, none, none⟩
  | none, none, none => none

/-- `classify_non_text_product`. -/
def classifyNonTextProduct (filename : Str) : Option NonTextProductMeta :=
  detectGraphics catalogs (Str.toAsciiUppercase (canonicalName filename))

/-- `is_text_product`. -/
def isTextProduct (filename : Str) : Bool :=
  let upper := Str.toAsciiUppercase filename
  ".TXT".toList.isSuffixOf upper || ".WMO".toList.isSuffixOf upper

/-! ## The names of texts -/

/-- An extension of letters, with its dot. -/
structure IsExtension (e : Str) (ext : Str) : Prop where
  dot : e = '.' :: ext
  letters : ∀ c ∈ ext, c.isAlpha = true
  ne_nil : ext ≠ []

/-- Other characters do not stand in an extension. -/
theorem IsExtension.notMem {e ext : Str} (h : IsExtension e ext) {c : Char} (hdot : c ≠ '.')
    (hc : c.isAlpha = false) : c ∉ e := by
  rw [h.dot]
  intro hmem
  rcases List.mem_cons.mp hmem with rfl | hmem
  · exact hdot rfl
  · rw [h.letters c hmem] at hc
    cases hc

/-- A name keeps its extension in all that is cut off it. -/
theorem IsExtension.suffix_canonicalName {e ext filename : Str} (h : IsExtension e ext)
    (hsuffix : e <:+ filename) : e <:+ canonicalName filename := by
  have hhead : ∀ c ∈ e.head?, Str.isWhitespace c = false := by
    rw [h.dot]
    rintro _ ⟨⟩
    decide
  have hlast : ∀ c ∈ e.getLast?, Str.isWhitespace c = false := by
    intro c hc
    rw [h.dot, List.getLast?_cons_of_ne_nil h.ne_nil] at hc
    exact Str.isWhitespace_of_isAlpha (h.letters c (List.mem_of_getLast? hc))
  have hseparator : ∀ c ∈ e, (c = '/' || c = '\\') = false := by
    intro c hc
    rw [Bool.or_eq_false_iff, decide_eq_false_iff_not, decide_eq_false_iff_not]
    constructor
    · rintro rfl
      exact h.notMem (by decide) (by decide) hc
    · rintro rfl
      exact h.notMem (by decide) (by decide) hc
  obtain ⟨front, rfl⟩ := hsuffix
  obtain ⟨piece, hpiece, hpart⟩ := Str.exists_getLast_splitOnP hseparator front
  unfold canonicalName
  rw [hpiece, Option.getD_some]
  have hbase : e <:+ Str.trim piece := Str.suffix_trim hpart hhead hlast
  dsimp only
  cases hcut : Str.rsplitOnce '-' (Str.trim piece) with
  | none => exact hbase
  | some parts =>
      have htail := Str.suffix_of_rsplitOnce hcut hbase (h.notMem (by decide) (by decide))
      dsimp only
      split_ifs
      · exact Str.suffix_trim htail hhead hlast
      · exact hbase

/-- The extension of a name is what it ends with. -/
theorem IsExtension.containerFromFilename {e ext filename : Str} (h : IsExtension e ext)
    (hsuffix : e <:+ filename) :
    containerFromFilename filename = containerFromExt (Str.toAsciiUppercase ext) := by
  obtain ⟨front, hfront⟩ := h.suffix_canonicalName hsuffix
  have hdot : '.' ∉ ext := by
    intro hmem
    have halpha := h.letters '.' hmem
    exact absurd halpha (by decide)
  rw [Pipeline.containerFromFilename, ← hfront, h.dot, Str.rsplitOnce_append hdot]
  rfl

/-- Only small letters change in upper case, and they move down by 32. -/
theorem toUpper_cases (c : Char) : c.toUpper = c ∨
    (c.isAlpha = true ∧ c.toUpper.toNat + 32 = c.toNat ∧ 97 ≤ c.toNat) := by
  unfold Char.toUpper
  split_ifs with h
  · have hlow : 97 ≤ c.toNat := h.1
    have hhigh : c.toNat ≤ 122 := h.2
    refine Or.inr ⟨Str.isAlpha_iff.mpr (Or.inr ⟨hlow, hhigh⟩), ?_, hlow⟩
    change (c.val + ('A'.val - 'a'.val)).toNat + 32 = c.toNat
    rw [UInt32.toNat_add]
    change (c.toNat + 4294967264) % 2 ^ 32 + 32 = c.toNat
    omega
  · exact Or.inl rfl

/-- A character that is a capital in upper case is a letter. -/
theorem isAlpha_of_toUpper {c : Char} (h : c.toUpper.isUpper = true) : c.isAlpha = true := by
  rcases toUpper_cases c with hc | ⟨hc, -⟩
  · rw [hc] at h
    show (c.isUpper || c.isLower) = true
    rw [h, Bool.true_or]
  · exact hc

/-- Only a dot is a dot in upper case. -/
theorem eq_dot_of_toUpper {c : Char} (h : c.toUpper = '.') : c = '.' := by
  rcases toUpper_cases c with hc | ⟨-, hc, hlow⟩
  · rw [← hc, h]
  · have hdot : c.toUpper.toNat = 46 := congrArg Char.toNat h
    omega

/-- A text ends with a dot and three letters, which are not those of a compressed file. -/
theorem exists_extension {filename : Str} (h : isTextProduct filename = true) :
    ∃ e ext, IsExtension e ext ∧ e <:+ filename ∧ Str.toAsciiUppercase ext ≠ "ZIP".toList := by
  obtain ⟨upper, hupper, hends⟩ : ∃ upper ∈ ["TXT".toList, "WMO".toList],
      '.' :: upper <:+ Str.toAsciiUppercase filename := by
    unfold isTextProduct at h
    rcases Bool.or_eq_true_iff.mp h with h | h
    · exact ⟨_, List.mem_cons_self, List.isSuffixOf_iff_suffix.mp h⟩
    · exact ⟨_, List.mem_cons_of_mem _ List.mem_cons_self, List.isSuffixOf_iff_suffix.mp h⟩
  have hcapitals : ∀ upper ∈ ["TXT".toList, "WMO".toList],
      upper ≠ [] ∧ upper ≠ "ZIP".toList ∧ ∀ c ∈ upper, c.isUpper = true := by decide
  obtain ⟨hne, hzip, hletters⟩ := hcapitals upper hupper
  obtain ⟨front, e, rfl, -, he⟩ := List.map_eq_append_iff.mp hends.choose_spec.symm
  cases e with
  | nil => cases he
  | cons c ext =>
      obtain ⟨hc, hext⟩ := List.cons.inj he
      refine ⟨c :: ext, ext, ⟨?_, ?_, ?_⟩, List.suffix_append front _, ?_⟩
      · rw [eq_dot_of_toUpper hc]
      · intro d hd
        apply isAlpha_of_toUpper
        exact hletters _ (hext ▸ List.mem_map_of_mem hd)
      · rintro rfl
        exact hne hext.symm
      · exact fun heq => hzip (hext.symm.trans heq)

/-- **Names.**  A file whose name is that of a text is not taken for a compressed one. -/
theorem containerFromFilename_text {filename : Str} (h : isTextProduct filename = true) :
    containerFromFilename filename = "raw".toList := by
  obtain ⟨e, ext, hext, hsuffix, hzip⟩ := exists_extension h
  rw [hext.containerFromFilename hsuffix, containerFromExt, if_neg hzip]

end Pipeline

/-!
# Envelopes

`pipeline/normalize.rs` notes what a file is from its name and its first bytes, and removes carriage
returns and zero bytes from a text.  `pipeline/envelope.rs` conditions a text, reads its header and
keeps the range of its body; for another file it looks at the name.

A range is a pair of offsets in bytes.  The source takes the range of the body from pointers into
the conditioned text; the body is what stands at its end.
-/

namespace Parser.Header

/-- `to_owned` of a borrowed heading. -/
def WmoHeader.toOwned (header : WmoHeader) : WmoHeader :=
  { header with ttaaii := normalizeTtaaii header.ttaaii }

end Parser.Header

namespace Pipeline

open Parser Parser.Header

variable (catalogs : Catalogs)

/-! ## Normalization -/

/-- `NormalizedInput`. -/
structure NormalizedInput where
  filename : Str
  container : Str
  bytes : List UInt8
  textRange : Option (ℕ × ℕ)
  isTextProduct : Bool
  deriving DecidableEq, Repr

/-- `is_zip_payload`. -/
def isZipPayload (bytes : List UInt8) : Bool :=
  [[0x50, 0x4B, 0x03, 0x04], [0x50, 0x4B, 0x05, 0x06], [0x50, 0x4B, 0x07, 0x08]].any
    (·.isPrefixOf bytes)

/-- `detected_container`. -/
def detectedContainer (filename : Str) (bytes : List UInt8) : Str :=
  if isZipPayload bytes then "zip".toList else containerFromFilename filename

/-- `normalize_text_bytes`. -/
def normalizeTextBytes (bytes : List UInt8) : List UInt8 :=
  bytes.filter fun byte => byte ≠ 0x0D && byte ≠ 0

/-- `NormalizedInput::from_input`. -/
def NormalizedInput.fromInput (filename : Str) (bytes : List UInt8) : NormalizedInput :=
  let isText := Pipeline.isTextProduct filename
  let container := detectedContainer filename bytes
  let (bytes, textRange) :=
    if isText && container ≠ "zip".toList then
      let normalized := normalizeTextBytes bytes
      (normalized, some (0, normalized.length))
    else (bytes, none)
  ⟨filename, container, bytes, textRange, isText⟩

/-- `bytes.get(range)`. -/
def getRange (bytes : List UInt8) (range : ℕ × ℕ) : Option (List UInt8) :=
  if range.1 ≤ range.2 ∧ range.2 ≤ bytes.length then some ((bytes.take range.2).drop range.1)
  else none

/-- `NormalizedInput::text_bytes`. -/
def NormalizedInput.textBytes (input : NormalizedInput) : Option (List UInt8) :=
  input.textRange.bind (getRange input.bytes)

/-- `NormalizedInput::text_str`. -/
def NormalizedInput.textStr (input : NormalizedInput) : Option Str :=
  input.textBytes.bind fun bytes => (Utf8.decode bytes).toOption

/-! ## Envelopes -/

/-- `EnvelopeKind`. -/
inductive EnvelopeKind where
  | textAfos
  | textWmoOnly
  | nonText
  | unknown
  deriving DecidableEq, Repr

/-- `ParsedEnvelope`. -/
structure ParsedEnvelope where
  normalized : NormalizedInput
  kind : EnvelopeKind
  header : Option TextProductHeader
  wmoHeader : Option WmoHeader
  bodyRange : Option (ℕ × ℕ)
  parseError : Option ParserError
  nonTextMeta : Option NonTextProductMeta
  deriving DecidableEq, Repr

/-- `ParsedEnvelope::unknown`. -/
def ParsedEnvelope.unknown (normalized : NormalizedInput) (parseError : Option ParserError) :
    ParsedEnvelope where
  normalized := normalized
  kind := .unknown
  header := none
  wmoHeader := none
  bodyRange := none
  parseError := parseError
  nonTextMeta := none

/-- `body_range`: the body is what stands at the end of the conditioned text. -/
def bodyRangeOf (conditioned body : Str) : Option (ℕ × ℕ) :=
  let start := Str.byteLen conditioned - Str.byteLen body
  let stop := start + Str.byteLen body
  if stop ≤ Str.byteLen conditioned then some (start, stop) else none

/-- The input with the conditioned text in place of its bytes. -/
def NormalizedInput.condition (input : NormalizedInput) (conditioned : Str) : NormalizedInput :=
  { input with
    bytes := Utf8.encode conditioned
    textRange := some (0, (Utf8.encode conditioned).length) }

/-- Whether a text has a heading but no identifier. -/
def afosMissing : ParserError → Bool
  | .missingAfosLine | .missingAfos _ => true
  | _ => false

/-- The envelope of a text with an identifier. -/
def ParsedEnvelope.textAfos (normalized : NormalizedInput) (conditioned : Str)
    (parsed : ParsedTextProduct) : ParsedEnvelope where
  normalized := normalized.condition conditioned
  kind := .textAfos
  header := some parsed.header.toOwned
  wmoHeader := none
  bodyRange := bodyRangeOf conditioned parsed.bodyText
  parseError := none
  nonTextMeta := none

/-- The envelope of a text with a heading only. -/
def ParsedEnvelope.textWmoOnly (normalized : NormalizedInput) (conditioned : Str)
    (parsedWmo : ParsedWmoBulletin) (error : ParserError) : ParsedEnvelope where
  normalized := normalized.condition conditioned
  kind := .textWmoOnly
  header := none
  wmoHeader := some parsedWmo.header.toOwned
  bodyRange := bodyRangeOf conditioned parsedWmo.bodyText
  parseError := some error
  nonTextMeta := none

/-- The envelope of a file whose name says what it is. -/
def ParsedEnvelope.nonText (normalized : NormalizedInput) (nonTextMeta : NonTextProductMeta) :
    ParsedEnvelope where
  normalized := normalized
  kind := .nonText
  header := none
  wmoHeader := none
  bodyRange := none
  parseError := none
  nonTextMeta := some nonTextMeta

/-- `ParsedEnvelope::build`. -/
def ParsedEnvelope.build (normalized : NormalizedInput) : ParsedEnvelope :=
  if normalized.container = "zip".toList ∧ normalized.isTextProduct then .unknown normalized none
  else if normalized.isTextProduct then
    match normalized.textBytes with
    | none => .unknown normalized none
    | some textBytes =>
        let preferredBytes := (normalized.textStr.map Utf8.encode).getD textBytes
        match conditionTextBytes preferredBytes with
        | .error error => .unknown normalized (some error)
        | .ok conditioned =>
            match parseTextProductConditionedRef conditioned with
            | .ok parsed => .textAfos normalized conditioned parsed
            | .error error =>
                match if afosMissing error then
                    (parseWmoBulletinConditionedRef conditioned).toOption else none with
                | some parsedWmo => .textWmoOnly normalized conditioned parsedWmo error
                | none => .unknown normalized (some error)
  else
    match classifyNonTextProduct catalogs normalized.filename with
    | some nonTextMeta => .nonText normalized nonTextMeta
    | none => .unknown normalized none

/-- `ParsedEnvelope::body_text`. -/
def ParsedEnvelope.bodyText (envelope : ParsedEnvelope) : Option Str := do
  let range ← envelope.bodyRange
  let bytes ← getRange envelope.normalized.bytes range
  (Utf8.decode bytes).toOption

/-! ## Ranges -/

/-- The whole range of a text. -/
theorem getRange_full (bytes : List UInt8) : getRange bytes (0, bytes.length) = some bytes := by
  rw [getRange, if_pos ⟨Nat.zero_le _, Nat.le_refl _⟩, List.take_length, List.drop_zero]

/-- **Bodies.**  The range of a body cuts it out of the text again. -/
theorem getRange_bodyRangeOf (front body : Str) : ∃ range,
    bodyRangeOf (front ++ body) body = some range ∧
      getRange (Utf8.encode (front ++ body)) range = some (Utf8.encode body) := by
  have hstart : Str.byteLen (front ++ body) - Str.byteLen body = Str.byteLen front := by
    rw [Str.byteLen_append, Nat.add_sub_cancel]
  have hstop : Str.byteLen front + Str.byteLen body = Str.byteLen (front ++ body) :=
    (Str.byteLen_append front body).symm
  refine ⟨(Str.byteLen front, Str.byteLen (front ++ body)), ?_, ?_⟩
  · rw [bodyRangeOf, hstart, hstop, if_pos (Nat.le_refl _)]
  · have hlength : Str.byteLen (front ++ body) = (Utf8.encode (front ++ body)).length :=
      (Str.length_encode _).symm
    rw [getRange, if_pos ⟨by omega, by omega⟩, hlength, List.take_length, Utf8.encode_append,
      ← Str.length_encode front, List.drop_left]

/-- A body stands at the end of its text. -/
theorem exists_append_bodyAfterLines (n : ℕ) (s : Str) :
    ∃ front, s = front ++ bodyAfterLines n s := by
  induction s generalizing n with
  | nil =>
      refine ⟨[], ?_⟩
      cases n with
      | zero => rfl
      | succ n => rfl
  | cons c s ih =>
      cases n with
      | zero => exact ⟨[], rfl⟩
      | succ n =>
          rw [bodyAfterLines]
          split_ifs
          · obtain ⟨front, hfront⟩ := ih n
            exact ⟨c :: front, by rw [List.cons_append, ← hfront]⟩
          · obtain ⟨front, hfront⟩ := ih (n + 1)
            exact ⟨c :: front, by rw [List.cons_append, ← hfront]⟩

/-- The body of an envelope is the body that was read. -/
theorem bodyText_of_range {envelope : ParsedEnvelope} {conditioned : Str} (n : ℕ)
    (hbytes : envelope.normalized.bytes = Utf8.encode conditioned)
    (hrange : envelope.bodyRange = bodyRangeOf conditioned (bodyAfterLines n conditioned)) :
    envelope.bodyText = some (bodyAfterLines n conditioned) := by
  obtain ⟨front, hfront⟩ := exists_append_bodyAfterLines n conditioned
  obtain ⟨range, hsome, hget⟩ := getRange_bodyRangeOf front (bodyAfterLines n conditioned)
  rw [← hfront] at hsome hget
  rw [ParsedEnvelope.bodyText, hrange, hsome, hbytes, Option.bind_eq_bind, Option.bind_some, hget,
    Option.bind_eq_bind, Option.bind_some, (Utf8.decode_eq_ok_iff _ _).mpr rfl]
  rfl

/-! ## What becomes of a file -/

variable {catalogs}

/-- The body of a product that was read. -/
theorem bodyText_of_parse {text : Str} {parsed : ParsedTextProduct}
    (h : parseTextProductConditionedRef text = .ok parsed) :
    parsed.bodyText = bodyAfterLines 3 text := by
  unfold parseTextProductConditionedRef at h
  cases hwmo : parseWmoBulletinConditionedRef text with
  | error error =>
      rw [hwmo] at h
      cases h
  | ok wmo =>
      cases hafos : parseAfos text with
      | error error =>
          rw [hwmo, hafos] at h
          cases h
      | ok afos =>
          rw [hwmo, hafos] at h
          cases h
          rfl

theorem bodyText_of_parseWmo {text : Str} {parsed : ParsedWmoBulletin}
    (h : parseWmoBulletinConditionedRef text = .ok parsed) :
    parsed.bodyText = bodyAfterLines 2 text := by
  unfold parseWmoBulletinConditionedRef at h
  cases hwmo : parseWmo text with
  | error error =>
      rw [hwmo] at h
      cases h
  | ok header =>
      rw [hwmo] at h
      cases h
      rfl

/-- The body of a text with an identifier. -/
theorem bodyText_textAfos {normalized : NormalizedInput} {text : Str} {parsed : ParsedTextProduct}
    (h : parseTextProductConditionedRef text = .ok parsed) :
    (ParsedEnvelope.textAfos normalized text parsed).bodyText = some parsed.bodyText := by
  have hbody := bodyText_of_parse h
  rw [hbody]
  apply bodyText_of_range 3
  · rfl
  · rw [ParsedEnvelope.textAfos, hbody]

/-- The body of a text with a heading only. -/
theorem bodyText_textWmoOnly {normalized : NormalizedInput} {text : Str}
    {parsed : ParsedWmoBulletin} {error : ParserError}
    (h : parseWmoBulletinConditionedRef text = .ok parsed) :
    (ParsedEnvelope.textWmoOnly normalized text parsed error).bodyText =
      some parsed.bodyText := by
  have hbody := bodyText_of_parseWmo h
  rw [hbody]
  apply bodyText_of_range 2
  · rfl
  · rw [ParsedEnvelope.textWmoOnly, hbody]

/-- A conditioned input is a text. -/
theorem textBytes_condition (normalized : NormalizedInput) (text : Str) :
    (normalized.condition text).textBytes = some (Utf8.encode text) := getRange_full _

/-- The text of an input. -/
theorem fromInput_text {filename : Str} {bytes : List UInt8}
    (htext : isTextProduct filename = true) (hzip : isZipPayload bytes = false) :
    NormalizedInput.fromInput filename bytes =
      ⟨filename, "raw".toList, normalizeTextBytes bytes,
        some (0, (normalizeTextBytes bytes).length), true⟩ := by
  have hraw : detectedContainer filename bytes = "raw".toList := by
    rw [detectedContainer, hzip, containerFromFilename_text htext]
    rfl
  unfold NormalizedInput.fromInput
  rw [htext, hraw]
  rfl

/-- The bytes that are conditioned, whether they are a text or not. -/
theorem preferredBytes_eq {normalized : NormalizedInput} {bytes : List UInt8}
    (h : normalized.textBytes = some bytes) :
    (normalized.textStr.map Utf8.encode).getD bytes = bytes := by
  rw [NormalizedInput.textStr, h, Option.bind_some]
  cases hdecode : Utf8.decode bytes with
  | error error => rfl
  | ok text => exact ((Utf8.decode_eq_ok_iff bytes text).mp hdecode).symm

/-! ## Headings -/

/-- A line feed behind the last line starts no other. -/
theorem linesFrom_concat {line s : Str} (hreturn : '\r' ∉ line ++ s)
    (hlast : s.getLast? ≠ some '\n') (hne : line ++ s ≠ []) :
    Str.linesFrom line (s ++ ['\n']) = Str.linesFrom line s := by
  induction s generalizing line with
  | nil =>
      rw [List.append_nil] at hreturn hne
      have hfeed : Str.linesFrom line ['\n'] = Str.stripReturn line :: [] := rfl
      rw [List.nil_append, hfeed, Str.stripReturn_eq_self hreturn, Str.linesFrom, if_neg hne]
  | cons c s ih =>
      rw [List.cons_append, Str.linesFrom, Str.linesFrom]
      split_ifs with hc
      · have hs : s ≠ [] := by
          rintro rfl
          exact hlast (by rw [hc]; rfl)
        rw [List.getLast?_cons_of_ne_nil hs] at hlast
        rw [@ih [] (fun h => hreturn (by simp_all)) hlast (by simpa using hs)]
      · apply ih
        · simpa using hreturn
        · cases s with
          | nil => exact fun h => by cases h
          | cons d s => rwa [List.getLast?_cons_cons] at hlast
        · simp

/-- No carriage return is left behind what is removed of a text. -/
theorem notMem_return {input : Str} :
    '\r' ∉ removeEtx (removeSoh (Str.trim (input.filter isKept))) := by
  have htrim : '\r' ∉ Str.trim (input.filter isKept) := by
    intro h
    have hmem : '\r' ∈ input.filter isKept :=
      (List.dropWhile_sublist _).subset ((List.rdropWhile_prefix _ _).subset h)
    exact absurd (List.of_mem_filter hmem) (by decide)
  have hsoh : '\r' ∉ removeSoh (Str.trim (input.filter isKept)) := by
    unfold removeSoh
    split_ifs
    · cases hcut : Str.splitOnce '\n' (Str.trim (input.filter isKept)) with
      | none => exact List.not_mem_nil
      | some parts =>
          intro h
          apply htrim
          rw [Str.append_of_splitOnce hcut]
          exact List.mem_append_right _ (List.mem_cons_of_mem _ h)
    · exact htrim
  unfold removeEtx
  split_ifs
  · exact fun h => hsoh (List.mem_of_mem_dropLast h)
  · exact hsoh

/-- A line feed behind the last line changes none. -/
theorem nthLine_concat {s : Str} (hreturn : '\r' ∉ s) (hlast : s.getLast? ≠ some '\n')
    (hne : s ≠ []) (n : ℕ) : nthLine (s ++ ['\n']) n = nthLine s n := by
  rw [nthLine, nthLine, Str.lines, Str.lines, @linesFrom_concat [] s hreturn hlast hne]

/-- **Headings.**  A text that can be conditioned has a heading. -/
theorem exists_parsedWmo {input text : Str} (h : conditionText input = .ok text) :
    ∃ parsed, parseWmoBulletinConditionedRef text = .ok parsed := by
  have hread : ∀ {line : Str}, nthLine text 1 = some line → (parseWmoLine line).isNone = false →
      ∃ parsed, parseWmoBulletinConditionedRef text = .ok parsed := by
    intro line hline hheading
    obtain ⟨header, hheader⟩ := Option.isSome_iff_exists.mp (Option.isNone_eq_false_iff.mp hheading)
    refine ⟨⟨header, text, bodyAfterLines 2 text⟩, ?_⟩
    rw [parseWmoBulletinConditionedRef, parseWmo, hline]
    dsimp only
    rw [hheader]
    rfl
  unfold conditionText at h
  dsimp only at h
  by_cases hempty : Str.trim (input.filter isKept) = []
  · rw [if_pos hempty] at h
    cases h
  rw [if_neg hempty] at h
  set conditioned := if hasLdmSequence
      (removeEtx (removeSoh (Str.trim (input.filter isKept)))) = true then
        removeEtx (removeSoh (Str.trim (input.filter isKept)))
      else "000 \n".toList ++ removeEtx (removeSoh (Str.trim (input.filter isKept))) with hset
  have hreturn : '\r' ∉ conditioned := by
    rw [hset]
    split_ifs
    · exact notMem_return
    · intro hmem
      rcases List.mem_append.mp hmem with hmem | hmem
      · exact absurd hmem (by decide)
      · exact notMem_return hmem
  clear_value conditioned
  cases hline : nthLine conditioned 1 with
  | none =>
      rw [hline] at h
      cases h
  | some line =>
      rw [hline] at h
      dsimp only at h
      split_ifs at h with hheading hfeed
      · cases h
        exact hread hline (Bool.not_eq_true _ ▸ hheading)
      · cases h
        have hne : conditioned ≠ [] := by
          intro hnil
          rw [hnil] at hline
          cases hline
        apply hread _ (Bool.not_eq_true _ ▸ hheading)
        rw [nthLine_concat hreturn hfeed hne, hline]

/-- With a heading, only the identifier can be missing. -/
theorem afosMissing_of_parse {text : Str} {parsed : ParsedWmoBulletin} {error : ParserError}
    (hwmo : parseWmoBulletinConditionedRef text = .ok parsed)
    (h : parseTextProductConditionedRef text = .error error) : afosMissing error = true := by
  unfold parseTextProductConditionedRef at h
  rw [hwmo] at h
  unfold parseAfos at h
  cases hline : nthLine text 2 with
  | none =>
      rw [hline] at h
      cases h
      rfl
  | some line =>
      cases hafos : parseAfosLine line with
      | none =>
          rw [hline] at h
          dsimp only at h
          rw [hafos] at h
          cases h
          rfl
      | some afos =>
          rw [hline] at h
          dsimp only at h
          rw [hafos] at h
          cases h

/-! ## What is built of a file -/

/-- What becomes of a file: a text with an identifier or with a heading only, a text that cannot be
conditioned, a file whose name says what it is, or none of these. -/
inductive Built (catalogs : Catalogs) (filename : Str) (bytes : List UInt8) : ParsedEnvelope → Prop
  | textAfos {text : Str} {parsed : ParsedTextProduct} (normalized : NormalizedInput)
      (hname : normalized.filename = filename) (hfile : isTextProduct filename = true)
      (htext : conditionTextBytes (normalizeTextBytes bytes) = .ok text)
      (hparsed : parseTextProductConditionedRef text = .ok parsed) :
      Built catalogs filename bytes (.textAfos normalized text parsed)
  | textWmoOnly {text : Str} {parsed : ParsedWmoBulletin} {error : ParserError}
      (normalized : NormalizedInput) (hname : normalized.filename = filename)
      (hfile : isTextProduct filename = true)
      (htext : conditionTextBytes (normalizeTextBytes bytes) = .ok text)
      (hmissing : parseTextProductConditionedRef text = .error error)
      (hparsed : parseWmoBulletinConditionedRef text = .ok parsed) :
      Built catalogs filename bytes (.textWmoOnly normalized text parsed error)
  | failed {error : ParserError} (normalized : NormalizedInput)
      (hname : normalized.filename = filename) (hfile : isTextProduct filename = true)
      (herror : conditionTextBytes (normalizeTextBytes bytes) = .error error) :
      Built catalogs filename bytes (.unknown normalized (some error))
  | nonText {nonTextMeta : NonTextProductMeta} (normalized : NormalizedInput)
      (hfile : isTextProduct filename = false)
      (hmeta : classifyNonTextProduct catalogs filename = some nonTextMeta) :
      Built catalogs filename bytes (.nonText normalized nonTextMeta)
  | compressed (normalized : NormalizedInput) (hno : normalized.textBytes = none)
      (hzip : isZipPayload bytes = true) :
      Built catalogs filename bytes (.unknown normalized none)
  | unnamed (normalized : NormalizedInput) (hno : normalized.textBytes = none)
      (hfile : isTextProduct filename = false)
      (hmeta : classifyNonTextProduct catalogs filename = none) :
      Built catalogs filename bytes (.unknown normalized none)

/-- A file that is no text. -/
theorem fromInput_nonText {filename : Str} {bytes : List UInt8}
    (hfile : isTextProduct filename = false) :
    NormalizedInput.fromInput filename bytes =
      ⟨filename, detectedContainer filename bytes, bytes, none, false⟩ := by
  unfold NormalizedInput.fromInput
  rw [hfile]
  rfl

/-- A text that is compressed after all. -/
theorem fromInput_zip {filename : Str} {bytes : List UInt8}
    (hfile : isTextProduct filename = true) (hzip : isZipPayload bytes = true) :
    NormalizedInput.fromInput filename bytes =
      ⟨filename, "zip".toList, bytes, none, true⟩ := by
  have hcontainer : detectedContainer filename bytes = "zip".toList := by
    rw [detectedContainer, hzip]
    rfl
  unfold NormalizedInput.fromInput
  rw [hfile, hcontainer]
  rfl

/-- The envelope of a text, by what is read of it. -/
theorem built_text {filename : Str} {bytes : List UInt8} {normalized : NormalizedInput}
    (hname : normalized.filename = filename) (hfile : isTextProduct filename = true)
    (hraw : normalized.container = "raw".toList) (htext : normalized.isTextProduct = true)
    (hbytes : normalized.textBytes = some (normalizeTextBytes bytes)) :
    Built catalogs filename bytes (.build catalogs normalized) := by
  unfold ParsedEnvelope.build
  rw [hraw, htext, if_neg (by decide), if_pos rfl, hbytes]
  dsimp only
  rw [preferredBytes_eq hbytes]
  cases hcondition : conditionTextBytes (normalizeTextBytes bytes) with
  | error error => exact .failed normalized hname hfile hcondition
  | ok text =>
      dsimp only
      cases hparsed : parseTextProductConditionedRef text with
      | ok parsed => exact .textAfos normalized hname hfile hcondition hparsed
      | error error =>
          obtain ⟨parsed, hwmo⟩ := exists_parsedWmo hcondition
          dsimp only
          rw [if_pos (afosMissing_of_parse hwmo hparsed), hwmo]
          exact .textWmoOnly normalized hname hfile hcondition hparsed hwmo

/-- **Envelopes.**  What is built of a file is one of these. -/
theorem built (catalogs : Catalogs) (filename : Str) (bytes : List UInt8) :
    Built catalogs filename bytes (.build catalogs (.fromInput filename bytes)) := by
  cases hfile : isTextProduct filename with
  | false =>
      rw [fromInput_nonText hfile]
      unfold ParsedEnvelope.build
      rw [if_neg fun h => Bool.false_ne_true h.2, if_neg Bool.false_ne_true]
      dsimp only
      cases hmeta : classifyNonTextProduct catalogs filename with
      | none => exact .unnamed _ rfl hfile hmeta
      | some nonTextMeta => exact .nonText _ hfile hmeta
  | true =>
      cases hzip : isZipPayload bytes with
      | true =>
          rw [fromInput_zip hfile hzip]
          exact .compressed _ rfl hzip
      | false =>
          rw [fromInput_text hfile hzip]
          exact built_text rfl hfile rfl rfl (getRange_full _)

end Pipeline
