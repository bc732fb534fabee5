/-
# Reading a relay client before its logon

`AuthParser` of `relay/auth.rs`, and of `run_client_session` in `relay/runtime.rs` the
branch that feeds it with what the client sends and the code behind the loop that gives
the client's place back.

The parser keeps the last 8 KiB of the text it decoded, and `String::split_off` panics if
its offset is inside a character.  Bytes that are not UTF-8 decode to a character of three
bytes, so the offset depends on everything received before.  A panic ends the task of the
session behind its loop's back: the client keeps its place for good.
-/
import Emwin.Lib.Slices
import Emwin.Lib.Transition
import Emwin.Qbt.Model
import Mathlib.Data.List.AList

namespace Relay

open Qbt Transition

/-! ## The parser -/

/-- Incremental parser for relay logon messages. -/
structure AuthParser where
  decodedText : Str
  deriving DecidableEq, Repr

/-- `AuthParser::default`. -/
def AuthParser.default : AuthParser := ⟨[]⟩

/-- How many bytes of text the parser keeps. -/
def DECODED_TEXT_BYTES : ℕ := 8192

/-- The end of a text that has grown too long; `none` is the panic of `split_off`. -/
def keepTrailing (text : Str) : Option Str :=
  if DECODED_TEXT_BYTES < Str.byteLen text then
    Str.sliceFrom (Str.byteLen text - DECODED_TEXT_BYTES) text
  else some text

/-- The first logon message is taken out of the text, with everything in front of it. -/
def takeLogon (text : Str) : Option Str × AuthParser :=
  match Str.find LOGON_PREFIX text with
  | none => (none, ⟨text⟩)
  | some start =>
      let afterPrefix := start + LOGON_PREFIX.length
      match Str.find LOGON_SUFFIX (text.drop afterPrefix) with
      | none => (none, ⟨text⟩)
      | some suffixRel =>
          let stop := afterPrefix + suffixRel + LOGON_SUFFIX.length
          let message := (text.take stop).drop start
          ((parseLogonMessage message).map QbtAuthMessage.email, ⟨text.drop stop⟩)

/-- Consumes a wire chunk and extracts an authenticated email when a full logon arrives;
`none` is a panic. -/
def AuthParser.consume (p : AuthParser) (wire : List UInt8) : Option (Option Str × AuthParser) :=
  (keepTrailing (p.decodedText ++ Utf8.decodeLossy (xorFf wire))).map takeLogon

/-- The parser after a chunk. -/
def AuthParser.afterChunk (p : AuthParser) (wire : List UInt8) : Option AuthParser :=
  (p.consume wire).map Prod.snd

/-! ## The session -/

/-- What the relay knows of a client that has logged on. -/
structure QbtRelayClientMeta where
  email : Str
  peer : Str
  connectedAtUnixSecs : ℕ
  lastAuthUnixSecs : ℕ
  deriving DecidableEq, Repr

/-- The clients of a relay: those that have logged on, and the number of places taken. -/
structure ClientRegistry where
  clients : AList fun _ : ℕ => QbtRelayClientMeta
  downstreamActiveClients : ℕ

/-- A read of some bytes from a client. -/
structure Read where
  wire : List UInt8
  unixTimeSecs : ℕ
  deriving DecidableEq, Repr

/-- A place is taken when a client is accepted. -/
def ClientRegistry.accept (reg : ClientRegistry) : ClientRegistry :=
  { reg with downstreamActiveClients := reg.downstreamActiveClients + 1 }

/-- A client has logged on. -/
def ClientRegistry.authenticate (reg : ClientRegistry) (clientId : ℕ) (peer email : Str)
    (nowSecs : ℕ) : ClientRegistry :=
  { reg with clients := reg.clients.insert clientId ⟨email, peer, nowSecs, nowSecs⟩ }

/-- The code behind the loop of a session: the place was taken when the client was
accepted, so the count does not wrap. -/
def ClientRegistry.cleanup (reg : ClientRegistry) (clientId : ℕ) : ClientRegistry where
  clients := reg.clients.erase clientId
  downstreamActiveClients := reg.downstreamActiveClients - 1

/-- The reads of a session up to the point where its loop is left; an error is the registry
that a panic leaves behind. -/
def readLoop (clientId : ℕ) (peer : Str) :
    AuthParser → ClientRegistry → List Read → Except ClientRegistry ClientRegistry
  | _, reg, [] => .ok reg
  | p, reg, read :: reads =>
      match p.consume read.wire with
      | none => .error reg
      | some (none, p) => readLoop clientId peer p reg reads
      | some (some email, p) =>
          readLoop clientId peer p (reg.authenticate clientId peer email read.unixTimeSecs) reads

/-- `run_client_session`, from the accepted client on. -/
def runClientSession (clientId : ℕ) (peer : Str) (reads : List Read) (reg : ClientRegistry) :
    ClientRegistry :=
  match readLoop clientId peer .default reg reads with
  | .ok reg => reg.cleanup clientId
  | .error reg => reg

/-! ## Texts that can be cut -/

/-- The text with the next chunk is short enough, or its cut lies between characters. -/
def CutsBetweenCharacters (p : AuthParser) (wire : List UInt8) : Prop :=
  let text := p.decodedText ++ Utf8.decodeLossy (xorFf wire)
  Str.byteLen text ≤ DECODED_TEXT_BYTES ∨
    Str.isCharBoundary (Str.byteLen text - DECODED_TEXT_BYTES) text = true

theorem isSome_keepTrailing (text : Str) :
    (keepTrailing text).isSome ↔ Str.byteLen text ≤ DECODED_TEXT_BYTES ∨
      Str.isCharBoundary (Str.byteLen text - DECODED_TEXT_BYTES) text = true := by
  unfold keepTrailing
  split
  · next h => simp [Str.sliceFrom, Str.isCharBoundary, Nat.not_le.mpr h]
  · next h => simp [Nat.not_lt.mp h]

/-- A call completes exactly if it can cut its text. -/
theorem isSome_afterChunk (p : AuthParser) (wire : List UInt8) :
    (p.afterChunk wire).isSome ↔ CutsBetweenCharacters p wire := by
  rw [AuthParser.afterChunk, AuthParser.consume, Option.isSome_map, Option.isSome_map]
  exact isSome_keepTrailing _

/-- A kept text is not longer than the limit. -/
theorem byteLen_of_keepTrailing {text kept : Str} (h : keepTrailing text = some kept) :
    Str.byteLen kept ≤ DECODED_TEXT_BYTES := by
  unfold keepTrailing at h
  split at h
  · next hlong =>
      obtain ⟨⟨front, back⟩, hcut, rfl⟩ := Option.map_eq_some_iff.mp h
      obtain ⟨rfl, hfront⟩ := Str.append_of_splitAtByte hcut
      rw [Str.byteLen_append] at hlong hfront
      show Str.byteLen back ≤ DECODED_TEXT_BYTES
      omega
  · next hshort =>
      obtain rfl := Option.some.inj h
      omega

/-- The end of a text is not longer than the text. -/
theorem byteLen_drop_le (text : Str) (n : ℕ) : Str.byteLen (text.drop n) ≤ Str.byteLen text := by
  have h := Str.byteLen_append (text.take n) (text.drop n)
  rw [List.take_append_drop] at h
  omega

/-- Taking a logon out makes the text no longer. -/
theorem byteLen_takeLogon_le (text : Str) :
    Str.byteLen (takeLogon text).2.decodedText ≤ Str.byteLen text := by
  unfold takeLogon
  split
  · exact le_rfl
  · next start hstart =>
      dsimp only
      split
      · exact le_rfl
      · exact byteLen_drop_le text _

/-- **Step.**  A call that completes leaves at most 8 KiB of text. -/
theorem byteLen_of_afterChunk {p q : AuthParser} {wire : List UInt8}
    (h : p.afterChunk wire = some q) : Str.byteLen q.decodedText ≤ DECODED_TEXT_BYTES := by
  obtain ⟨⟨found, q⟩, hconsume, rfl⟩ := Option.map_eq_some_iff.mp h
  obtain ⟨kept, hkept, htake⟩ := Option.map_eq_some_iff.mp hconsume
  have hle := byteLen_takeLogon_le kept
  rw [htake] at hle
  exact hle.trans (byteLen_of_keepTrailing hkept)

/-- **Run.**  So do all calls together. -/
theorem byteLen_of_exec {p : AuthParser} {wires : List (List UInt8)}
    (h : exec AuthParser.afterChunk .default wires = some p) :
    Str.byteLen p.decodedText ≤ DECODED_TEXT_BYTES := by
  refine exec_invariant (P := fun p => Str.byteLen p.decodedText ≤ DECODED_TEXT_BYTES) ?_ h ?_
  · intro p wire q _ hstep
    exact byteLen_of_afterChunk hstep
  · exact Nat.zero_le _

/-! ## Sessions that come to their end -/

/-- The loop is left, or broken off by a panic, as the parser's calls go; either way the
places taken are as before. -/
theorem readLoop_cases (clientId : ℕ) (peer : Str) (p : AuthParser) (reg : ClientRegistry)
    (reads : List Read) :
    (∃ reg', readLoop clientId peer p reg reads = .ok reg' ∧
      reg'.downstreamActiveClients = reg.downstreamActiveClients ∧
      (exec AuthParser.afterChunk p (reads.map Read.wire)).isSome) ∨
    (∃ reg', readLoop clientId peer p reg reads = .error reg' ∧
      reg'.downstreamActiveClients = reg.downstreamActiveClients ∧
      exec AuthParser.afterChunk p (reads.map Read.wire) = none) := by
  induction reads generalizing p reg with
  | nil => exact Or.inl ⟨reg, rfl, rfl, rfl⟩
  | cons read reads ih =>
      rw [readLoop, List.map_cons, exec, AuthParser.afterChunk]
      cases hconsume : p.consume read.wire with
      | none => exact Or.inr ⟨reg, rfl, rfl, rfl⟩
      | some r =>
          obtain ⟨found, q⟩ := r
          cases found with
          | none => exact ih q reg
          | some email =>
              -- a logon changes who is known, not how many places are taken
              exact ih q (reg.authenticate clientId peer email read.unixTimeSecs)

/-- A client that has just been accepted gives its place back, and is forgotten, exactly if
every call of the parser completes. -/
theorem runClientSession_iff (clientId : ℕ) (peer : Str) (reads : List Read)
    (reg : ClientRegistry) :
    ((runClientSession clientId peer reads reg.accept).clients.lookup clientId = none ∧
      (runClientSession clientId peer reads reg.accept).downstreamActiveClients =
        reg.downstreamActiveClients) ↔
      (exec AuthParser.afterChunk .default (reads.map Read.wire)).isSome := by
  unfold runClientSession
  rcases readLoop_cases clientId peer .default reg.accept reads with
    ⟨reg', hloop, hactive, hsome⟩ | ⟨reg', hloop, hactive, hnone⟩
  · rw [hloop]
    refine iff_of_true ⟨AList.lookup_erase _ _, ?_⟩ hsome
    show reg'.downstreamActiveClients - 1 = _
    rw [hactive]
    exact Nat.add_sub_cancel _ 1
  · rw [hloop, hnone]
    refine iff_of_false ?_ (by simp)
    rintro ⟨-, hcount⟩
    -- the place that was taken is still taken
    have htaken : reg'.downstreamActiveClients = reg.downstreamActiveClients + 1 := hactive
    have hback : reg'.downstreamActiveClients = reg.downstreamActiveClients := hcount
    omega

/-- **Sessions before login.**  The parser completes every call of a session, with at most
8 KiB of text left after each, and the session comes to the code that removes the client
and gives its place back, if and only if every cut of an overlong text lies between two
characters. -/
theorem session_survives_iff (clientId : ℕ) (peer : Str) (reads : List Read)
    (reg : ClientRegistry) :
    ((∀ front, front <+: reads →
        ∃ p, exec AuthParser.afterChunk .default (front.map Read.wire) = some p ∧
          Str.byteLen p.decodedText ≤ DECODED_TEXT_BYTES) ∧
      (runClientSession clientId peer reads reg.accept).clients.lookup clientId = none ∧
      (runClientSession clientId peer reads reg.accept).downstreamActiveClients =
        reg.downstreamActiveClients) ↔
      Always AuthParser.afterChunk CutsBetweenCharacters .default (reads.map Read.wire) := by
  rw [runClientSession_iff, ← exec_isSome_iff_always isSome_afterChunk]
  constructor
  · rintro ⟨-, hsome⟩
    exact hsome
  · intro hsome
    refine ⟨?_, hsome⟩
    rintro front ⟨back, rfl⟩
    obtain ⟨q, hq⟩ := Option.isSome_iff_exists.mp hsome
    rw [List.map_append, exec_append] at hq
    obtain ⟨p, hp, -⟩ := hq
    exact ⟨p, hp, byteLen_of_exec hp⟩

/-! ## A session that does not -/

/-- Bytes that never begin a character decode to one replacement character each. -/
theorem decodeLossy_replicate {b : UInt8} (hb : Utf8.first b = .bad) (n : ℕ) :
    Utf8.decodeLossy (List.replicate n b) = List.replicate n Utf8.replacement := by
  induction n with
  | zero => rfl
  | succ n ih =>
      rw [List.replicate_succ, Utf8.decodeLossy, Utf8.lossyFrom, hb, List.replicate_succ, ← ih]
      rfl

/-- A text of one character is cut between two of them at the multiples of its size. -/
theorem dvd_of_isCharBoundary {c : Char} {n m : ℕ}
    (h : Str.isCharBoundary m (List.replicate n c) = true) : c.utf8Size ∣ m := by
  obtain ⟨u, v, huv, rfl⟩ := Str.isCharBoundary_iff.mp h
  obtain ⟨-, hu, -⟩ := List.append_eq_replicate_iff.mp huv.symm
  rw [hu, Str.byteLen, List.map_replicate, List.sum_replicate_nat]
  exact Dvd.intro_left _ rfl

/-- Two reads of 2048 bytes that decode to replacement characters: together they are 12288
bytes of text, and the cut at 4096 is inside a character. -/
def replacementReads : List Read :=
  [⟨List.replicate 2048 0, 0⟩, ⟨List.replicate 2048 0, 0⟩]

theorem decodeLossy_zeros : Utf8.decodeLossy (xorFf (List.replicate 2048 0)) =
    List.replicate 2048 Utf8.replacement := by
  rw [xorFf, List.map_replicate]
  exact decodeLossy_replicate (by decide) 2048

/-- After the first of them all of its text is kept. -/
theorem afterChunk_zeros : AuthParser.default.afterChunk (List.replicate 2048 0) =
    some ⟨List.replicate 2048 Utf8.replacement⟩ := by
  have hkeep : keepTrailing (List.replicate 2048 Utf8.replacement) =
      some (List.replicate 2048 Utf8.replacement) := by
    rw [keepTrailing, if_neg]
    rw [Str.byteLen, List.map_replicate, List.sum_replicate]
    decide
  have hfind : Str.find LOGON_PREFIX (List.replicate 2048 Utf8.replacement) = none := by
    cases hfind : Str.find LOGON_PREFIX (List.replicate 2048 Utf8.replacement) with
    | none => rfl
    | some start =>
        exfalso
        have hoccurs := ListSearch.prefix_drop_of_findSub hfind
        have hB : 'B' ∈ List.replicate 2048 Utf8.replacement :=
          List.mem_of_mem_drop (hoccurs.subset (by decide))
        exact absurd (List.eq_of_mem_replicate hB) (by decide)
  rw [AuthParser.afterChunk, AuthParser.consume, decodeLossy_zeros]
  show ((keepTrailing (List.replicate 2048 Utf8.replacement)).map takeLogon).map Prod.snd = _
  rw [hkeep, Option.map_some, takeLogon, hfind]
  rfl

/-- With both of them the text is 12288 bytes long. -/
theorem not_cutsBetweenCharacters_zeros :
    ¬ CutsBetweenCharacters ⟨List.replicate 2048 Utf8.replacement⟩ (List.replicate 2048 0) := by
  have hsize : Utf8.replacement.utf8Size = 3 := by decide
  have hlen : ∀ n, Str.byteLen (List.replicate n Utf8.replacement) = n * 3 := by
    intro n
    rw [Str.byteLen, List.map_replicate, List.sum_replicate_nat, hsize]
  rw [CutsBetweenCharacters, decodeLossy_zeros]
  generalize hn : 2048 = n
  dsimp only
  rw [List.replicate_append_replicate, hlen, ← hn]
  rintro (hshort | hcut)
  · exact absurd hshort (by decide)
  · have hdvd := dvd_of_isCharBoundary hcut
    rw [hsize] at hdvd
    exact absurd hdvd (by decide)

/-- The second panics, and the client keeps its place. -/
theorem session_can_panic :
    ¬ ∀ (clientId : ℕ) (peer : Str) (reads : List Read) (reg : ClientRegistry),
      (∀ read ∈ reads, read.wire.length ≤ 2048) →
        (∀ front, front <+: reads →
          ∃ p, exec AuthParser.afterChunk .default (front.map Read.wire) = some p ∧
            Str.byteLen p.decodedText ≤ DECODED_TEXT_BYTES) ∧
        (runClientSession clientId peer reads reg.accept).clients.lookup clientId = none ∧
        (runClientSession clientId peer reads reg.accept).downstreamActiveClients =
          reg.downstreamActiveClients := by
  intro h
  have hshort : ∀ read ∈ replacementReads, read.wire.length ≤ 2048 := by
    intro read hread
    rcases List.mem_pair.mp hread with rfl | rfl <;> exact List.length_replicate.le
  obtain ⟨hcalls, -⟩ := h 0 [] replacementReads ⟨∅, 0⟩ hshort
  obtain ⟨p, hp, -⟩ := hcalls replacementReads List.prefix_rfl
  have hsome : (exec AuthParser.afterChunk .default
      [List.replicate 2048 0, List.replicate 2048 0]).isSome := by
    rw [Option.isSome_iff_exists]
    exact ⟨p, hp⟩
  rw [exec_isSome_iff_always isSome_afterChunk] at hsome
  exact not_cutsBetweenCharacters_zeros (hsome.2 _ afterChunk_zeros).1

end Relay
