/-
# The read buffer of the XMPP transport

`read_more` of `transport/mod.rs` and its twin in `transport/session.rs` decode one
socket read as UTF-8, with the replacement character for what is malformed, and
append the text to `read_buf`; `append_with_read_limit` bounds the buffer.

Every read is decoded on its own.  A character cut by a read boundary is therefore
lost: the text that accumulates is the text of the stream exactly when no read
begins inside a character (`readAll_eq_text_iff`).
-/
import Emwin.Lib.Text
import Emwin.Lib.Utf8

namespace WxWire

/-- The errors of `WxWireTransportError` that reading can return. -/
inductive TransportError where
  | clientNotConnected
  | socketNotAvailable
  | readTimeout
  | readFailed (reason : Str)
  | streamEnded
  | bufferOverflow (message : Str)
  deriving DecidableEq, Repr

/-- What one read from the socket comes to. -/
inductive SocketRead where
  | timeout
  | failed (reason : Str)
  | bytes (chunk : List UInt8)
  deriving DecidableEq, Repr

/-- The limit of the read buffer, in bytes. -/
def MAX_READ_BUFFER_BYTES : ℕ := 1024 * 1024

/-- Append a chunk to the buffer; a buffer that would outgrow the limit is cleared. -/
def appendWithReadLimit (readBuf chunk overflowMessage : Str) : Except TransportError Unit × Str :=
  if MAX_READ_BUFFER_BYTES < Str.byteLen readBuf + Str.byteLen chunk then
    (.error (.bufferOverflow overflowMessage), [])
  else (.ok (), readBuf ++ chunk)

/-- The two ways in which the readers of the repository differ. -/
structure Reader where
  /-- The error when there is no socket. -/
  disconnected : TransportError
  /-- The message of an overflow. -/
  overflowMessage : Str
  deriving DecidableEq, Repr

/-- `XmppWxWireTransport`. -/
def Reader.transport : Reader where
  disconnected := .clientNotConnected
  overflowMessage := "xmpp read buffer exceeded limit".toList

/-- `XmppSession`. -/
def Reader.session : Reader where
  disconnected := .socketNotAvailable
  overflowMessage := "xmpp handshake read buffer exceeded limit".toList

/-- Read once more from the socket, if there is one, into the buffer. -/
def readMore (reader : Reader) (socket : Option SocketRead) (readBuf : Str) :
    Except TransportError Unit × Str :=
  match socket with
  | none => (.error reader.disconnected, readBuf)
  | some .timeout => (.error .readTimeout, readBuf)
  | some (.failed reason) => (.error (.readFailed reason), readBuf)
  | some (.bytes chunk) =>
      if chunk = [] then (.error .streamEnded, readBuf)
      else appendWithReadLimit readBuf (Utf8.decodeLossy chunk) reader.overflowMessage

/-- Read until the given socket reads are used up; an error ends the reading. -/
def readAll (reader : Reader) (readBuf : Str) : List (List UInt8) → Except TransportError Str
  | [] => .ok readBuf
  | chunk :: chunks =>
      match readMore reader (some (.bytes chunk)) readBuf with
      | (.error e, _) => .error e
      | (.ok (), readBuf') => readAll reader readBuf' chunks

/-! ## One read -/

section Reads

variable {reader : Reader} {readBuf : Str}

/-- The length of a text in bytes is the length of its encoding. -/
theorem length_encode (t : Str) : (Utf8.encode t).length = Str.byteLen t := by
  induction t with
  | nil => rfl
  | cons c t ih =>
      rw [Utf8.encode_cons, List.length_append, String.length_utf8EncodeChar, Str.byteLen_cons, ih]

/-- A read that fits appends its decoding. -/
theorem readMore_of_le {chunk : List UInt8} (hne : chunk ≠ [])
    (hfit : Str.byteLen readBuf + Str.byteLen (Utf8.decodeLossy chunk) ≤ MAX_READ_BUFFER_BYTES) :
    readMore reader (some (.bytes chunk)) readBuf =
      (.ok (), readBuf ++ Utf8.decodeLossy chunk) := by
  unfold readMore
  dsimp only
  rw [if_neg hne, appendWithReadLimit, if_neg (not_lt.mpr hfit)]

/-- A successful read appended the decoding of its chunk. -/
theorem eq_append_of_readMore {chunk : List UInt8} {readBuf' : Str}
    (h : readMore reader (some (.bytes chunk)) readBuf = (.ok (), readBuf')) :
    readBuf' = readBuf ++ Utf8.decodeLossy chunk := by
  unfold readMore appendWithReadLimit at h
  dsimp only at h
  split_ifs at h
  · cases h
  · cases h
  · exact (Prod.ext_iff.mp h).2.symm

/-! ## Runs of reads -/

/-- What accumulates is the concatenation of the decoded chunks. -/
theorem eq_append_of_readAll {chunks : List (List UInt8)} {text : Str}
    (h : readAll reader readBuf chunks = .ok text) :
    text = readBuf ++ (chunks.map Utf8.decodeLossy).flatten := by
  induction chunks generalizing readBuf with
  | nil =>
      cases h
      simp
  | cons chunk chunks ih =>
      rw [readAll] at h
      cases hread : readMore reader (some (.bytes chunk)) readBuf with
      | mk result readBuf' =>
          rw [hread] at h
          cases result with
          | error e => cases h
          | ok u =>
              rw [ih h, eq_append_of_readMore hread, List.map_cons, List.flatten_cons,
                List.append_assoc]

/-- A run of reads has a leading byte for each character of the stream, and decodes to
at least as many characters, more if a read begins inside a character. -/
theorem length_lt_of_begins_inside {chunks : List (List UInt8)} {chunk : List UInt8} {b : UInt8}
    (hmem : chunk ∈ chunks) (hb : b ∈ chunk.head?) (hcont : Utf8.isContinuation b = true) :
    Utf8.countLeads chunks.flatten < (chunks.map Utf8.decodeLossy).flatten.length := by
  have hle : ∀ l : List (List UInt8),
      Utf8.countLeads l.flatten ≤ (l.map Utf8.decodeLossy).flatten.length := by
    intro l
    induction l with
    | nil => simp
    | cons c l ih =>
        have hc := Utf8.countLeads_le_length_decodeLossy c
        simp only [List.flatten_cons, List.map_cons, Utf8.countLeads_append, List.length_append]
        omega
  obtain ⟨before, after, rfl⟩ := List.append_of_mem hmem
  obtain ⟨rest, rfl⟩ : ∃ rest, chunk = b :: rest := List.head?_eq_some_iff.mp hb
  have hbefore := hle before
  have hafter := hle after
  have hlt := Utf8.countLeads_add_one_le_length_decodeLossy hcont rest
  simp only [List.flatten_append, List.flatten_cons, List.map_append, List.map_cons,
    Utf8.countLeads_append, List.length_append]
  omega

/-- The first byte of a run of reads is the first byte of its first read. -/
theorem head_flatten {chunks : List (List UInt8)} (hne : ∀ chunk ∈ chunks, chunk ≠ [])
    (hlead : ∀ chunk ∈ chunks, ∀ b ∈ chunk.head?, Utf8.isContinuation b = false) :
    ∀ b ∈ chunks.flatten.head?, Utf8.isContinuation b = false := by
  cases chunks with
  | nil => simp
  | cons chunk chunks =>
      intro b hb
      rw [List.flatten_cons, List.head?_append_of_ne_nil _ (hne chunk List.mem_cons_self)] at hb
      exact hlead chunk List.mem_cons_self b hb

/-- Reads that begin at characters accumulate the text. -/
theorem readAll_of_leads {chunks : List (List UInt8)} {text : Str}
    (hcut : chunks.flatten = Utf8.encode text) (hne : ∀ chunk ∈ chunks, chunk ≠ [])
    (hlead : ∀ chunk ∈ chunks, ∀ b ∈ chunk.head?, Utf8.isContinuation b = false)
    (hlimit : Str.byteLen readBuf + Str.byteLen text ≤ MAX_READ_BUFFER_BYTES) :
    readAll reader readBuf chunks = .ok (readBuf ++ text) := by
  induction chunks generalizing readBuf text with
  | nil =>
      have htext : text = [] := by
        have hlen := congrArg Utf8.countLeads hcut
        rw [Utf8.countLeads_encode] at hlen
        exact List.length_eq_zero_iff.mp hlen.symm
      rw [htext, List.append_nil]
      rfl
  | cons chunk chunks ih =>
      have hne' : ∀ c ∈ chunks, c ≠ [] := fun c hc => hne c (List.mem_cons_of_mem _ hc)
      have hlead' : ∀ c ∈ chunks, ∀ b ∈ c.head?, Utf8.isContinuation b = false :=
        fun c hc => hlead c (List.mem_cons_of_mem _ hc)
      obtain ⟨t₁, t₂, rfl, rfl, hrest⟩ :=
        Utf8.exists_encode_append hcut.symm (head_flatten hne' hlead')
      rw [Str.byteLen_append] at hlimit
      have hfit : Str.byteLen readBuf + Str.byteLen (Utf8.decodeLossy (Utf8.encode t₁)) ≤
          MAX_READ_BUFFER_BYTES := by
        rw [Utf8.decodeLossy_encode]
        omega
      rw [readAll, readMore_of_le (hne _ List.mem_cons_self) hfit]
      dsimp only
      rw [Utf8.decodeLossy_encode, ih hrest hne' hlead', List.append_assoc]
      rw [Str.byteLen_append]
      omega

end Reads

/-- **Decoding and read boundaries.**  For a valid stream within the limit, cut into
non-empty reads, the buffer ends with the text of the stream exactly when no read
begins inside a character. -/
theorem readAll_eq_text_iff (reader : Reader) (chunks : List (List UInt8)) (text : Str)
    (hvalid : Utf8.decode chunks.flatten = .ok text) (hne : ∀ chunk ∈ chunks, chunk ≠ [])
    (hlimit : chunks.flatten.length ≤ MAX_READ_BUFFER_BYTES) :
    readAll reader [] chunks = .ok text ↔
      ∀ chunk ∈ chunks, ∀ b ∈ chunk.head?, Utf8.isContinuation b = false := by
  have hcut := (Utf8.decode_eq_ok_iff _ _).mp hvalid
  constructor
  · intro hread chunk hmem b hb
    by_contra hcont
    have hlt := length_lt_of_begins_inside hmem hb (by simpa using hcont)
    have htext := congrArg List.length (eq_append_of_readAll hread)
    rw [hcut, Utf8.countLeads_encode] at hlt
    rw [List.nil_append] at htext
    omega
  · intro hlead
    refine readAll_of_leads hcut hne hlead ?_
    rw [hcut, length_encode] at hlimit
    simpa using hlimit

/-- The word "café" cut before its last character. -/
theorem readAll_eq_text_iff_cafe :
    Utf8.decode [[0x63, 0x61, 0x66], [0xC3, 0xA9]].flatten = .ok "café".toList ∧
      readAll .transport [] [[0x63, 0x61, 0x66], [0xC3, 0xA9]] = .ok "café".toList := by
  refine ⟨by decide +kernel, ?_⟩
  refine (readAll_eq_text_iff .transport [[0x63, 0x61, 0x66], [0xC3, 0xA9]] "café".toList
    (by decide +kernel) (by decide) (by decide)).mpr ?_
  decide +kernel

/-- The word "café" cut inside its last character is not accumulated. -/
theorem readAll_splits_character :
    ¬ ∀ (reader : Reader) (chunks : List (List UInt8)) (text : Str),
      Utf8.decode chunks.flatten = .ok text → (∀ chunk ∈ chunks, chunk ≠ []) →
      (∀ chunk ∈ chunks, chunk.length ≤ 8192) → chunks.flatten.length ≤ MAX_READ_BUFFER_BYTES →
      readAll reader [] chunks = .ok text := by
  intro h
  have hread := h .transport [[0x63, 0x61, 0x66, 0xC3], [0xA9]] "café".toList (by decide +kernel)
    (by decide) (by decide) (by decide)
  have hactual : readAll .transport [] [[0x63, 0x61, 0x66, 0xC3], [0xA9]] =
      .ok ("caf".toList ++ [Utf8.replacement, Utf8.replacement]) := by decide +kernel
  rw [hactual] at hread
  exact absurd hread (by decide +kernel)

end WxWire
