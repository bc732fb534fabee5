/-
# The upstream loop of the relay

`run_upstream_loop` of `relay/runtime.rs` reads one upstream connection after
another and passes every chunk to one server-list scanner; a frame the scanner
returns is stored as the latest server list.  The scanner is created once, before
the first connection, so its buffer survives a reconnect.

A run is the list of its connections, each the list of the chunks read from it; a
connection attempt that fails reads none.  `held` counts the bytes at the front of
the scanner's buffer that earlier connections left there.  A stored frame comes
from one connection unless a read completes a mark among these bytes and brings no
complete frame of its own after that (`ReadSpans`).
-/
import Emwin.Qbt.Scanner

namespace Relay

open Qbt QbtServerListWireScanner

/-- The server lists stored while one connection is read, and the scanner after it. -/
def readConnection (scanner : QbtServerListWireScanner) :
    List (List UInt8) → List (List UInt8) × QbtServerListWireScanner
  | [] => ([], scanner)
  | chunk :: chunks =>
      ((scanner.observeWireChunk chunk).1.toList ++
          (readConnection (scanner.observeWireChunk chunk).2 chunks).1,
        (readConnection (scanner.observeWireChunk chunk).2 chunks).2)

/-- The server lists stored in a run of the upstream loop, and the scanner after it. -/
def runUpstream (scanner : QbtServerListWireScanner) :
    List (List (List UInt8)) → List (List UInt8) × QbtServerListWireScanner
  | [] => ([], scanner)
  | connection :: connections =>
      ((readConnection scanner connection).1 ++
          (runUpstream (readConnection scanner connection).2 connections).1,
        (runUpstream (readConnection scanner connection).2 connections).2)

/-! ## Bytes left by earlier connections -/

/-- How many of the bytes left by earlier connections are still in the buffer when the
scanner has appended a chunk and is left with `buffer`. -/
def heldIn (scanner : QbtServerListWireScanner) (held : ℕ) (chunk buffer : List UInt8) : ℕ :=
  held - (scanner.decodedBuffer.length + chunk.length - buffer.length)

/-- A frame that begins among the held bytes is completed by the fresh ones, and no
complete frame follows it. -/
def Spans (held fresh : List UInt8) : Prop :=
  (∃ j < held.length, LIST_MARK <+: (held ++ fresh).drop j) ∧
    ∃ before after, fresh = before ++ 0 :: after ∧ (0 : UInt8) ∉ before ∧ ¬ HasFrame after

/-- The latest frame a read completes began on an earlier connection. -/
def ReadSpans (scanner : QbtServerListWireScanner) (held : ℕ) (chunk : List UInt8) : Prop :=
  Spans ((scanner.extended chunk).take (heldIn scanner held chunk (scanner.extended chunk)))
    ((scanner.extended chunk).drop (heldIn scanner held chunk (scanner.extended chunk)))

/-- No read of a connection spans. -/
def ReadsWithin (scanner : QbtServerListWireScanner) (held : ℕ) : List (List UInt8) → Prop
  | [] => True
  | chunk :: chunks =>
      ¬ ReadSpans scanner held chunk ∧
        ReadsWithin (scanner.observeWireChunk chunk).2
          (heldIn scanner held chunk (scanner.observeWireChunk chunk).2.decodedBuffer) chunks

/-- No read of a run spans; all that is buffered at a reconnect is held. -/
def RunWithin (scanner : QbtServerListWireScanner) : List (List (List UInt8)) → Prop
  | [] => True
  | connection :: connections =>
      ReadsWithin scanner scanner.decodedBuffer.length connection ∧
        RunWithin (readConnection scanner connection).2 connections

/-! ## One read -/

/-- A frame that begins in the held bytes ends at the first NUL of the fresh ones. -/
theorem fresh_of_spanning_frame {held fresh skipped begun middle rest : List UInt8}
    (hheld : ¬ HasFrame held) (hmid : (0 : UInt8) ∉ middle) (hsplit : held = skipped ++ begun)
    (hb : LIST_MARK ++ middle ++ [0] ++ rest = begun ++ fresh) :
    ∃ before, fresh = before ++ 0 :: rest ∧ (0 : UInt8) ∉ before := by
  have hmark : (0 : UInt8) ∉ LIST_MARK ++ middle := by
    simp only [List.mem_append, not_or]
    exact ⟨zero_notMem_listMark, hmid⟩
  rw [List.append_assoc (LIST_MARK ++ middle), List.singleton_append] at hb
  rcases List.append_eq_append_iff.mp hb with ⟨ended, hbegun, hrest⟩ | ⟨before, hbefore, hfresh⟩
  · cases ended with
    | nil =>
        rw [List.nil_append] at hrest
        exact ⟨[], hrest.symm, List.not_mem_nil⟩
    | cons b ended =>
        -- the NUL would be held too, and the held bytes would contain the whole frame
        obtain ⟨rfl, -⟩ := List.cons.inj hrest
        refine absurd ?_ hheld
        rw [hsplit, hbegun, show skipped ++ (LIST_MARK ++ middle ++ 0 :: ended) =
          skipped ++ (LIST_MARK ++ middle ++ [0]) ++ ended by simp]
        exact hasFrame_frame skipped
  · refine ⟨before, hfresh, fun hzero => hmark ?_⟩
    rw [hbefore]
    exact List.mem_append_right _ hzero

/-- The latest frame of a scan lies in the fresh bytes unless it spans. -/
theorem latest_infix_fresh {held fresh v : List UInt8} (hheld : ¬ HasFrame held)
    (hspans : ¬ Spans held fresh)
    (hv : (scanLoop.drain (held ++ fresh)).1.getLast? = some v) : xorFf v <:+: fresh := by
  rcases scanPass_cases (held ++ fresh) with
    ⟨-, hpass⟩ | ⟨skipped, middle, rest, hmid, hb, -, hpass⟩
  · rw [drain_of_no_frame hpass] at hv
    cases hv
  · rw [drain_of_frame hpass] at hv
    have hlater : ∀ u ∈ (scanLoop.drain rest).1, xorFf u <:+: rest := fun u hu =>
      ((drain_spec rest).1 u hu).2
    rw [List.append_assoc] at hb
    rcases List.append_eq_append_iff.mp hb with ⟨gap, -, hfresh⟩ | ⟨begun, hheld', hframe⟩
    · rcases List.mem_cons.mp (List.mem_of_getLast? hv) with rfl | hmem
      · rw [xorFf_xorFf, hfresh, ← List.append_assoc]
        exact List.infix_append _ _ _
      · rw [hfresh, ← List.append_assoc]
        exact (hlater v hmem).trans (List.suffix_append _ _).isInfix
    · obtain ⟨before, hfresh, hbefore⟩ := fresh_of_spanning_frame hheld hmid hheld' hframe
      have hrest : rest <:+: fresh := ⟨before ++ [0], [], by simp [hfresh]⟩
      cases begun with
      | nil =>
          rcases List.mem_cons.mp (List.mem_of_getLast? hv) with rfl | hmem
          · rw [xorFf_xorFf]
            rw [List.nil_append] at hframe
            exact ⟨[], rest, by simpa using hframe⟩
          · exact (hlater v hmem).trans hrest
      | cons b begun =>
          -- it spans, so a complete frame follows and is returned instead
          have hframe' : HasFrame rest := by
            by_contra hno
            refine hspans ⟨⟨skipped.length, ?_, ?_⟩, before, rest, hfresh, hbefore, hno⟩
            · rw [hheld', List.length_append, List.length_cons]
              omega
            · rw [hb, List.drop_left, List.append_assoc, List.append_assoc]
              exact List.prefix_append _ _
          have hne := drain_ne_nil hframe'
          rw [List.getLast?_cons_of_ne_nil hne] at hv
          exact (hlater v (List.mem_of_getLast? hv)).trans hrest

/-- A read that spans stores a frame that begins in the held bytes. -/
theorem latest_of_spans {held fresh : List UInt8} (hheld : ¬ HasFrame held)
    (hspans : Spans held fresh) :
    ∃ begun before, begun ≠ [] ∧ begun <:+ held ∧
      (scanLoop.drain (held ++ fresh)).1.getLast? = some (xorFf (begun ++ before ++ [0])) := by
  obtain ⟨⟨j, hj, hmark⟩, before, after, hfresh, hbefore, hafter⟩ := hspans
  rcases scanPass_cases (held ++ fresh) with
    ⟨hno, -⟩ | ⟨skipped, middle, rest, hmid, hb, hfirst, hpass⟩
  · refine absurd ⟨j, hmark, ?_⟩ hno
    rw [List.drop_append_of_le_length hj.le, hfresh]
    simp
  · have hskipped : skipped.length ≤ j := by
      by_contra hlt
      exact hfirst j (not_le.mp hlt) hmark
    rw [List.append_assoc] at hb
    rcases List.append_eq_append_iff.mp hb with ⟨gap, hgap, -⟩ | ⟨begun, hheld', hframe⟩
    · rw [hgap, List.length_append] at hskipped
      omega
    · obtain ⟨before', hfresh', hbefore'⟩ := fresh_of_spanning_frame hheld hmid hheld' hframe
      obtain ⟨rfl, rfl⟩ := append_zero_inj hbefore hbefore' (hfresh.symm.trans hfresh')
      refine ⟨begun, before, ?_, ⟨skipped, hheld'.symm⟩, ?_⟩
      · rintro rfl
        rw [hheld', List.append_nil] at hj
        omega
      · have hwhole : LIST_MARK ++ middle ++ [0] ++ after = begun ++ before ++ [0] ++ after := by
          rw [hframe, hfresh]
          simp
        rw [drain_of_frame hpass, drain_of_not_hasFrame hafter, List.append_cancel_right hwhole]
        rfl

/-- Inside a connection: the scanner holds no complete frame, and all but the first
`held` bytes of its buffer are the latest bytes of the connection. -/
structure Tracks (scanner : QbtServerListWireScanner) (held : ℕ) (stream : List UInt8) :
    Prop where
  no_frame : ¬ HasFrame scanner.decodedBuffer
  held_le : held ≤ scanner.decodedBuffer.length
  fresh : scanner.decodedBuffer.drop held <:+ stream

/-- What is left of the buffer after a chunk splits at the held bytes that remain. -/
theorem Tracks.split {scanner : QbtServerListWireScanner} {held : ℕ} {stream : List UInt8}
    (h : Tracks scanner held stream) {chunk buffer : List UInt8}
    (hb : buffer <:+ scanner.decodedBuffer ++ xorFf chunk) :
    ¬ HasFrame (buffer.take (heldIn scanner held chunk buffer)) ∧
    heldIn scanner held chunk buffer ≤ buffer.length ∧
    buffer.drop (heldIn scanner held chunk buffer) <:+ stream ++ xorFf chunk := by
  have hheld := h.held_le
  have hlen : (scanner.decodedBuffer ++ xorFf chunk).length =
      scanner.decodedBuffer.length + chunk.length := by
    rw [List.length_append, xorFf, List.length_map]
  have hle := hb.length_le
  rw [hlen] at hle
  obtain ⟨dropped, hdropped⟩ : ∃ n, scanner.decodedBuffer.length + chunk.length
      - buffer.length = n := ⟨_, rfl⟩
  have hbuffer : buffer = (scanner.decodedBuffer ++ xorFf chunk).drop dropped := by
    have hdrop := List.suffix_iff_eq_drop.mp hb
    rwa [hlen, hdropped] at hdrop
  unfold heldIn
  rw [hdropped]
  refine ⟨?_, by omega, ?_⟩
  · rw [hbuffer, ← List.drop_take, List.take_append_of_le_length hheld]
    intro hframe
    refine h.no_frame ?_
    have hprefix := hframe.of_drop.of_append (r := scanner.decodedBuffer.drop held)
    rwa [List.take_append_drop] at hprefix
  · rw [hbuffer, List.drop_drop]
    obtain ⟨m, hm⟩ : ∃ m, dropped + (held - dropped) = held + m := ⟨dropped - held, by omega⟩
    obtain ⟨t, ht⟩ := h.fresh
    rw [hm, ← List.drop_drop, List.drop_append_of_le_length hheld]
    refine (List.drop_suffix _ _).trans ⟨t, ?_⟩
    rw [← List.append_assoc, ht]

/-- **Step.**  A read that does not span stores a frame of its connection only. -/
theorem observe_tracks {scanner : QbtServerListWireScanner} {held : ℕ} {stream : List UInt8}
    (h : Tracks scanner held stream) {chunk : List UInt8}
    (hspans : ¬ ReadSpans scanner held chunk) :
    (∀ v, (scanner.observeWireChunk chunk).1 = some v →
      IsServerListFrame (xorFf v) ∧ xorFf v <:+: stream ++ xorFf chunk) ∧
    Tracks (scanner.observeWireChunk chunk).2
      (heldIn scanner held chunk (scanner.observeWireChunk chunk).2.decodedBuffer)
      (stream ++ xorFf chunk) := by
  obtain ⟨hout, hsuffix, hno⟩ := drain_spec (scanner.extended chunk)
  have hext : scanner.extended chunk <:+ scanner.decodedBuffer ++ xorFf chunk :=
    List.drop_suffix _ _
  obtain ⟨hheld, -, hfresh⟩ := h.split hext
  refine ⟨?_, hno, (h.split (hsuffix.trans hext)).2.1, (h.split (hsuffix.trans hext)).2.2⟩
  intro v hv
  have hv' : (scanLoop.drain (scanner.extended chunk)).1.getLast? = some v := hv
  refine ⟨(hout v (List.mem_of_getLast? hv')).1, ?_⟩
  rw [← List.take_append_drop (heldIn scanner held chunk (scanner.extended chunk))
    (scanner.extended chunk)] at hv'
  exact (latest_infix_fresh hheld hspans hv').trans hfresh.isInfix

/-! ## Runs -/

/-- **Run.**  A connection whose reads do not span stores frames of its own only. -/
theorem readConnection_within (chunks : List (List UInt8)) {scanner : QbtServerListWireScanner}
    {held : ℕ} {stream : List UInt8} (h : Tracks scanner held stream)
    (hwithin : ReadsWithin scanner held chunks) :
    (∀ v ∈ (readConnection scanner chunks).1,
      IsServerListFrame (xorFf v) ∧ xorFf v <:+: stream ++ xorFf chunks.flatten) ∧
    ¬ HasFrame (readConnection scanner chunks).2.decodedBuffer := by
  induction chunks generalizing scanner held stream with
  | nil => exact ⟨by simp [readConnection], h.no_frame⟩
  | cons chunk chunks ih =>
      obtain ⟨hspans, hrest⟩ := hwithin
      obtain ⟨hnow, hnext⟩ := observe_tracks h hspans
      obtain ⟨hlater, hno⟩ := ih hnext hrest
      rw [List.flatten_cons, xorFf_append, ← List.append_assoc]
      refine ⟨?_, hno⟩
      intro v hv
      rcases List.mem_append.mp hv with hv | hv
      · obtain ⟨hframe, hinfix⟩ := hnow v (Option.mem_toList.mp hv)
        exact ⟨hframe, hinfix.trans (List.prefix_append _ _).isInfix⟩
      · exact hlater v hv

/-- Between connections: every stored frame comes from one of the connections. -/
theorem runUpstream_within (connections : List (List (List UInt8)))
    {scanner : QbtServerListWireScanner} (hno : ¬ HasFrame scanner.decodedBuffer)
    (hwithin : RunWithin scanner connections) :
    ∀ v ∈ (runUpstream scanner connections).1,
      IsServerListFrame (xorFf v) ∧ ∃ connection ∈ connections, v <:+: connection.flatten := by
  induction connections generalizing scanner with
  | nil => simp [runUpstream]
  | cons connection connections ih =>
      obtain ⟨hreads, hrest⟩ := hwithin
      have htracks : Tracks scanner scanner.decodedBuffer.length [] :=
        ⟨hno, le_rfl, by simp⟩
      obtain ⟨hnow, hno'⟩ := readConnection_within connection htracks hreads
      intro v hv
      rcases List.mem_append.mp hv with hv | hv
      · obtain ⟨hframe, hinfix⟩ := hnow v hv
        refine ⟨hframe, connection, List.mem_cons_self, ?_⟩
        have hwire := hinfix.map (· ^^^ 0xFF)
        rw [List.nil_append] at hwire
        have hxor : ∀ l : List UInt8, (xorFf l).map (· ^^^ 0xFF) = l := xorFf_xorFf
        rwa [hxor, hxor] at hwire
      · obtain ⟨hframe, c, hc, hinfix⟩ := ih hno' hrest v hv
        exact ⟨hframe, c, List.mem_cons_of_mem _ hc, hinfix⟩

/-- A value that is a server-list frame on the wire of one of the connections. -/
def FromOneConnection (connections : List (List (List UInt8))) (v : List UInt8) : Prop :=
  IsServerListFrame (xorFf v) ∧ ∃ connection ∈ connections, v <:+: connection.flatten

/-- **The cached server list is an upstream frame.**  In a run none of whose reads
spans, every stored server list occurs on the wire of a single connection. -/
theorem stored_lists_from_one_connection (connections : List (List (List UInt8)))
    (hwithin : RunWithin .default connections) :
    ∀ v ∈ (runUpstream .default connections).1, FromOneConnection connections v := by
  refine runUpstream_within connections ?_ hwithin
  rintro ⟨j, -, hnul⟩
  simp [QbtServerListWireScanner.default, QbtServerListWireScanner.new] at hnul

/-- A frame that arrives whole on the first connection is stored. -/
theorem stored_lists_from_one_connection_whole :
    RunWithin .default [[xorFf (LIST_MARK ++ [0x61, 0])]] ∧
      (runUpstream .default [[xorFf (LIST_MARK ++ [0x61, 0])]]).1 =
        [xorFf (LIST_MARK ++ [0x61, 0])] ∧
      ∀ v ∈ (runUpstream .default [[xorFf (LIST_MARK ++ [0x61, 0])]]).1,
        FromOneConnection [[xorFf (LIST_MARK ++ [0x61, 0])]] v := by
  have hwithin : RunWithin .default [[xorFf (LIST_MARK ++ [0x61, 0])]] := by
    refine ⟨⟨?_, trivial⟩, trivial⟩
    rintro ⟨⟨j, hj, -⟩, -⟩
    simp [heldIn, QbtServerListWireScanner.default, QbtServerListWireScanner.new] at hj
  exact ⟨hwithin, by decide +kernel, stored_lists_from_one_connection _ hwithin⟩

/-- A frame begun on one connection and ended on the next is stored. -/
theorem stored_list_spans_connections :
    ¬ ∀ connections : List (List (List UInt8)),
      ∀ v ∈ (runUpstream .default connections).1, FromOneConnection connections v := by
  intro h
  have hstored : (runUpstream .default [[xorFf (LIST_MARK ++ [0x61])], [xorFf [0x62, 0]]]).1 =
      [xorFf (LIST_MARK ++ [0x61, 0x62, 0])] := by decide +kernel
  obtain ⟨-, connection, hmem, hinfix⟩ :=
    h [[xorFf (LIST_MARK ++ [0x61])], [xorFf [0x62, 0]]] (xorFf (LIST_MARK ++ [0x61, 0x62, 0]))
      (by rw [hstored]; exact List.mem_cons_self)
  have hlen := hinfix.length_le
  rcases List.mem_cons.mp hmem with rfl | hmem
  · exact absurd hlen (by decide +kernel)
  · obtain rfl := List.mem_singleton.mp hmem
    exact absurd hlen (by decide +kernel)

end Relay
