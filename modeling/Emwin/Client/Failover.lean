/-
# Pacing of the failover

A pass of the connection loop ends with a delay, or with a session that received data.
`Paced` says what pacing means for the trace of a run: within a pass no endpoint is attempted
twice, and no attempt is made once every endpoint was attempted.

The loop counts the attempts of a pass but starts to count anew with every connection, also
with one on which nothing is received.  `PassesFail` is the condition on the outcomes alone
under which the count is right: a pass of as many attempts as there are endpoints, none of
which received data, has only failed connections.
-/
import Emwin.Client.ConnectionLoop

namespace Client

open Qbt

/-! ## Pacing of a trace -/

/-- The endpoints attempted in the current pass, the last one first, after one more event. -/
def noteEvent (seen : List Endpoint) : LoopEvent → List Endpoint
  | .delay => []
  | .attempt endpoint outcome => if outcome.received then [] else endpoint :: seen

/-- The endpoints attempted since the last delay or the last session that received data. -/
def attemptedSince (events : List LoopEvent) : List Endpoint := events.foldl noteEvent []

/-- Every attempt is one of an endpoint that was not attempted yet in the pass, and comes
before all endpoints were attempted. -/
structure Paced (endpoints : List Endpoint) (events : List LoopEvent) : Prop where
  no_repeat : ∀ before endpoint outcome after,
    events = before ++ .attempt endpoint outcome :: after → endpoint ∉ attemptedSince before
  delay_due : ∀ before endpoint outcome after,
    events = before ++ .attempt endpoint outcome :: after →
      ∃ e ∈ endpoints, e ∉ attemptedSince before

/-- Pacing of the rest of a trace, given what was attempted in the current pass. -/
def PacedFrom (endpoints : List Endpoint) : List Endpoint → List LoopEvent → Prop
  | _, [] => True
  | seen, event :: events =>
      (∀ endpoint outcome, event = .attempt endpoint outcome →
        endpoint ∉ seen ∧ ∃ e ∈ endpoints, e ∉ seen) ∧
      PacedFrom endpoints (noteEvent seen event) events

section Trace

variable {endpoints seen : List Endpoint} {events : List LoopEvent}

theorem pacedFrom_append {rest : List LoopEvent} :
    PacedFrom endpoints seen (events ++ rest) ↔
      PacedFrom endpoints seen events ∧
        PacedFrom endpoints (events.foldl noteEvent seen) rest := by
  induction events generalizing seen with
  | nil => simp [PacedFrom]
  | cons event events ih =>
      rw [List.cons_append, PacedFrom, PacedFrom, ih, List.foldl_cons, and_assoc]

/-- Both forms of pacing agree. -/
theorem paced_iff : Paced endpoints events ↔ PacedFrom endpoints [] events := by
  constructor
  · rintro ⟨hrepeat, hdue⟩
    induction events using List.reverseRecOn with
    | nil => trivial
    | append_singleton events event ih =>
        rw [pacedFrom_append]
        refine ⟨ih ?_ ?_, ?_, trivial⟩
        · intro before endpoint outcome after hsplit
          exact hrepeat before endpoint outcome (after ++ [event]) (by simp [hsplit])
        · intro before endpoint outcome after hsplit
          exact hdue before endpoint outcome (after ++ [event]) (by simp [hsplit])
        · rintro endpoint outcome rfl
          exact ⟨hrepeat events endpoint outcome [] rfl, hdue events endpoint outcome [] rfl⟩
  · intro h
    have hattempt : ∀ before endpoint outcome after,
        events = before ++ .attempt endpoint outcome :: after →
          endpoint ∉ attemptedSince before ∧ ∃ e ∈ endpoints, e ∉ attemptedSince before := by
      rintro before endpoint outcome after rfl
      exact (pacedFrom_append.mp h).2.1 endpoint outcome rfl
    exact ⟨fun before endpoint outcome after hsplit =>
        (hattempt before endpoint outcome after hsplit).1,
      fun before endpoint outcome after hsplit =>
        (hattempt before endpoint outcome after hsplit).2⟩

end Trace

/-! ## The condition on the outcomes -/

/-- Cut the outcomes of the attempts into passes of at most `n` attempts, each ending at the
latest with a session that received data: no full pass without data has a session.  `pass`
is what the current pass has so far. -/
def PassesFail (n : ℕ) : List Outcome → List Turn → Prop
  | _, [] => True
  | pass, t :: ts =>
      if t.outcome.received then PassesFail n [] ts
      else if pass.length + 1 = n then
        (∀ outcome ∈ t.outcome :: pass, outcome = .connectFailed) ∧ PassesFail n [] ts
      else PassesFail n (t.outcome :: pass) ts

/-- Nothing that the loop follows is announced on the connection of a turn. -/
def KeepsServerList (env : CodecEnv) (config : QbtReceiverConfig) (t : Turn) : Prop :=
  ∀ session ∈ t.connect, config.followServerListUpdates = true →
    ∀ event ∈ (feedAll env (QbtProtocolDecoder.new config.decode) session.reads).1,
      ∀ list, event ≠ .serverListUpdate list

/-! ## Turns -/

section Turns

variable {env : CodecEnv} {config : QbtReceiverConfig} {s : LoopState} {t : Turn}

/-- A session without an update leaves the server list alone. -/
theorem runConnectedSession_eq {session : Session} {m : ServerListManager}
    (h : config.followServerListUpdates = true →
      ∀ event ∈ (feedAll env (QbtProtocolDecoder.new config.decode) session.reads).1,
        ∀ list, event ≠ .serverListUpdate list) :
    runConnectedSession env config session m = m := by
  have hevent : ∀ event ∈ (feedAll env (QbtProtocolDecoder.new config.decode) session.reads).1,
      applyEvent config session.save m event = m := by
    intro event hmem
    cases event with
    | dataBlock _ | warning _ => rfl
    | serverListUpdate list =>
        by_cases hfollow : config.followServerListUpdates = true
        · exact absurd rfl (h hfollow _ hmem list)
        · simp [applyEvent, hfollow]
  unfold runConnectedSession
  generalize (feedAll env (QbtProtocolDecoder.new config.decode) session.reads).1 = events
    at hevent
  induction events with
  | nil => rfl
  | cons event events ih =>
      rw [List.foldl_cons, hevent event List.mem_cons_self]
      exact ih fun e he => hevent e (List.mem_cons_of_mem _ he)

/-- How many attempts of a pass are counted: those since the last connection. -/
def counted (pass : List Outcome) : ℕ := (pass.takeWhile (· = .connectFailed)).length

/-- The count of a full pass is full exactly if all of its attempts failed to connect. -/
theorem counted_eq_length_iff {pass : List Outcome} :
    counted pass = pass.length ↔ ∀ outcome ∈ pass, outcome = .connectFailed := by
  unfold counted
  constructor
  · intro h
    have hall := (List.takeWhile_prefix (· = Outcome.connectFailed) (l := pass)).eq_of_length h
    rw [List.takeWhile_eq_self_iff] at hall
    simpa using hall
  · intro h
    rw [List.takeWhile_eq_self_iff.mpr (by simpa using h)]

theorem counted_le (pass : List Outcome) : counted pass ≤ pass.length :=
  (List.takeWhile_prefix _).length_le

/-- A turn that keeps the server list attempts the first endpoint and moves it to the end;
the delay follows if the count is full. -/
theorem turn_eq {endpoint : Endpoint} {rest : List Endpoint} {pass : List Outcome}
    (havailable : s.serverList.available = endpoint :: rest)
    (hcount : s.attemptsInPass = counted pass) (hkeeps : KeepsServerList env config t) :
    turn env config s t =
      if !t.shutdown && completedFailedPass (counted (t.outcome :: pass)) (rest.length + 1) then
        ([.attempt endpoint t.outcome, .delay],
          ⟨{ s.serverList with available := rest ++ [endpoint] }, 0⟩)
      else ([.attempt endpoint t.outcome],
        ⟨{ s.serverList with available := rest ++ [endpoint] }, counted (t.outcome :: pass)⟩) := by
  unfold turn ServerListManager.nextEndpoint ServerListManager.endpointCount
  rw [havailable]
  cases hconnect : t.connect with
  | none =>
      have houtcome : t.outcome = .connectFailed := by unfold Turn.outcome; rw [hconnect]
      have hnext : s.attemptsInPass + 1 = counted (.connectFailed :: pass) := by
        rw [hcount]
        rfl
      simp only [houtcome, hnext, List.length_cons]
  | some session =>
      have houtcome : t.outcome = .session session.bytesIn := by
        unfold Turn.outcome
        rw [hconnect]
      have hnext : counted (.session session.bytesIn :: pass) = 0 := rfl
      simp only [houtcome, hnext, List.length_cons,
        runConnectedSession_eq (hkeeps session (by rw [hconnect]; rfl))]

/-- A turn with an endpoint is an attempt of it, after which there may be a delay. -/
theorem turn_events (env : CodecEnv) (config : QbtReceiverConfig) (t : Turn)
    {endpoint : Endpoint} {rest : List Endpoint}
    (havailable : s.serverList.available = endpoint :: rest) :
    (turn env config s t).1 = [.attempt endpoint t.outcome] ∨
      (turn env config s t).1 = [.attempt endpoint t.outcome, .delay] := by
  have hnext : s.serverList.nextEndpoint =
      (some endpoint, { s.serverList with available := rest ++ [endpoint] }) := by
    unfold ServerListManager.nextEndpoint
    rw [havailable]
  cases hconnect : t.connect with
  | none =>
      simp only [turn, hnext, hconnect]
      split_ifs
      · exact Or.inr rfl
      · exact Or.inl rfl
  | some session =>
      simp only [turn, hnext, hconnect]
      split_ifs
      · exact Or.inr rfl
      · exact Or.inl rfl

end Turns

/-! ## Runs -/

/-- The endpoints attempted in the current pass are the last ones of the rotation, one is
left in front of them, and the attempts since the last connection are counted. -/
structure Rotates (endpoints : List Endpoint) (pass : List Outcome) (seen : List Endpoint)
    (s : LoopState) : Prop where
  available : ∃ endpoint rest, s.serverList.available = endpoint :: rest ++ seen.reverse
  perm : s.serverList.available.Perm endpoints
  length : pass.length = seen.length
  count : s.attemptsInPass = counted pass

section Runs

variable {env : CodecEnv} {config : QbtReceiverConfig} {endpoints seen : List Endpoint}
  {pass : List Outcome} {s : LoopState} {endpoint : Endpoint} {rest : List Endpoint}

/-- The endpoint in front was not attempted in the pass. -/
theorem Rotates.head_notMem (h : Rotates endpoints pass seen s) (hnodup : endpoints.Nodup)
    (havailable : s.serverList.available = endpoint :: rest) :
    endpoint ∉ seen ∧ endpoint ∈ endpoints := by
  obtain ⟨endpoint', rest', hsplit⟩ := h.available
  have hmem : endpoint ∈ endpoints := h.perm.subset (by rw [havailable]; exact List.mem_cons_self)
  have hdistinct : s.serverList.available.Nodup := h.perm.symm.nodup hnodup
  rw [hsplit, List.cons_append, List.nodup_cons, List.mem_append, List.mem_reverse] at hdistinct
  obtain ⟨rfl, -⟩ : endpoint = endpoint' ∧ _ := by
    rw [havailable, List.cons_append, List.cons.injEq] at hsplit
    exact hsplit
  exact ⟨fun hseen => hdistinct.1 (Or.inr hseen), hmem⟩

/-- How many attempts a pass can still have. -/
theorem Rotates.length_lt (h : Rotates endpoints pass seen s) :
    pass.length < endpoints.length := by
  obtain ⟨endpoint, rest, hsplit⟩ := h.available
  have hlength := h.perm.length_eq
  rw [hsplit, List.length_append, List.length_cons, List.length_reverse] at hlength
  have hpass := h.length
  omega

/-- The last attempt of a full pass completes the endpoints. -/
theorem Rotates.covers (h : Rotates endpoints pass seen s)
    (havailable : s.serverList.available = endpoint :: rest)
    (hfull : pass.length + 1 = endpoints.length) : ∀ e ∈ endpoints, e ∈ endpoint :: seen := by
  obtain ⟨endpoint', rest', hsplit⟩ := h.available
  have hlength := h.perm.length_eq
  rw [hsplit, List.length_append, List.length_cons, List.length_reverse, ← h.length] at hlength
  obtain rfl : rest' = [] := List.length_eq_zero_iff.mp (by omega)
  rw [havailable, List.cons_append, List.nil_append, List.cons.injEq] at hsplit
  obtain ⟨rfl, rfl⟩ := hsplit
  intro e hmem
  have hrotated : e ∈ s.serverList.available := h.perm.symm.subset hmem
  rw [havailable] at hrotated
  simpa using hrotated

/-- A new pass begins. -/
theorem Rotates.fresh (h : Rotates endpoints pass seen s)
    (havailable : s.serverList.available = endpoint :: rest) :
    Rotates endpoints [] [] ⟨{ s.serverList with available := rest ++ [endpoint] }, 0⟩ where
  available := by
    cases rest with
    | nil => exact ⟨endpoint, [], rfl⟩
    | cons e rest => exact ⟨e, rest ++ [endpoint], by simp⟩
  perm := by
    have hrotated : (rest ++ [endpoint]).Perm (endpoint :: rest) :=
      List.perm_append_singleton endpoint rest
    exact hrotated.trans (havailable ▸ h.perm)
  length := rfl
  count := rfl

/-- The pass goes on, as long as it is not full. -/
theorem Rotates.next (h : Rotates endpoints pass seen s)
    (havailable : s.serverList.available = endpoint :: rest) (outcome : Outcome)
    (hroom : pass.length + 1 ≠ endpoints.length) :
    Rotates endpoints (outcome :: pass) (endpoint :: seen)
      ⟨{ s.serverList with available := rest ++ [endpoint] }, counted (outcome :: pass)⟩ where
  available := by
    obtain ⟨endpoint', rest', hsplit⟩ := h.available
    have hlength := h.perm.length_eq
    rw [havailable, List.cons_append, List.cons.injEq] at hsplit
    obtain ⟨rfl, hrest⟩ := hsplit
    cases rest' with
    | nil =>
        -- nothing would be left in front, so the pass is full
        rw [havailable, List.length_cons, hrest, List.nil_append, List.length_reverse,
          ← h.length] at hlength
        exact absurd hlength hroom
    | cons e rest' =>
        refine ⟨e, rest', ?_⟩
        rw [hrest, List.reverse_cons, List.append_assoc]
  perm := (h.fresh havailable).perm
  length := by rw [List.length_cons, List.length_cons, h.length]
  count := rfl

/-- The first turn of a run from a rotation that has an endpoint. -/
theorem Rotates.exists_available (h : Rotates endpoints pass seen s) :
    ∃ endpoint rest, s.serverList.available = endpoint :: rest := by
  obtain ⟨endpoint, rest, hsplit⟩ := h.available
  exact ⟨endpoint, rest ++ seen.reverse, hsplit⟩

/-- An attempt of the endpoint in front is always in order. -/
theorem Rotates.pacedFrom_attempt (h : Rotates endpoints pass seen s) (hnodup : endpoints.Nodup)
    (havailable : s.serverList.available = endpoint :: rest) (outcome : Outcome)
    (events : List LoopEvent) :
    PacedFrom endpoints seen (.attempt endpoint outcome :: events) ↔
      PacedFrom endpoints (noteEvent seen (.attempt endpoint outcome)) events := by
  obtain ⟨hseen, hmem⟩ := h.head_notMem hnodup havailable
  rw [PacedFrom]
  refine and_iff_right ?_
  rintro e outcome' ⟨rfl, rfl⟩
  exact ⟨hseen, endpoint, hmem, hseen⟩

/-- No attempt is in order once all endpoints were attempted. -/
theorem not_pacedFrom_of_subset {ts : List Turn} {last : Turn}
    (hsubset : ∀ e ∈ endpoints, e ∈ seen)
    (havailable : s.serverList.available = endpoint :: rest) :
    ¬ PacedFrom endpoints seen (runConnectionLoop env config s (ts ++ [last])) := by
  obtain ⟨t, ts', hts⟩ : ∃ t ts', ts ++ [last] = t :: ts' := by
    cases ts with
    | nil => exact ⟨last, [], rfl⟩
    | cons t ts => exact ⟨t, ts ++ [last], rfl⟩
  obtain ⟨events, hevents⟩ : ∃ events, (turn env config s t).1 =
      .attempt endpoint t.outcome :: events := by
    rcases turn_events env config t havailable with hone | htwo
    · exact ⟨[], hone⟩
    · exact ⟨[.delay], htwo⟩
  rw [hts, runConnectionLoop, hevents, List.cons_append, PacedFrom]
  rintro ⟨hattempt, -⟩
  obtain ⟨-, e, hmem, hseen⟩ := hattempt endpoint t.outcome rfl
  exact hseen (hsubset e hmem)

/-- The count is full after the last attempt of a pass exactly if all of them failed. -/
theorem completedFailedPass_iff {outcome : Outcome}
    (hfull : pass.length + 1 = endpoints.length) :
    completedFailedPass (counted (outcome :: pass)) endpoints.length = true ↔
      ∀ o ∈ outcome :: pass, o = .connectFailed := by
  have hle := counted_le (outcome :: pass)
  rw [← counted_eq_length_iff]
  simp only [completedFailedPass, Bool.and_eq_true, decide_eq_true_eq, List.length_cons] at hle ⊢
  omega

/-- The last turn of a run is always in order. -/
theorem Rotates.pacedFrom_last (h : Rotates endpoints pass seen s) (hnodup : endpoints.Nodup)
    (last : Turn) : PacedFrom endpoints seen (runConnectionLoop env config s [last]) := by
  obtain ⟨endpoint, rest, havailable⟩ := h.exists_available
  rw [runConnectionLoop, runConnectionLoop, ite_self, List.append_nil]
  rcases turn_events env config last havailable with hone | htwo
  · rw [hone, h.pacedFrom_attempt hnodup havailable]
    trivial
  · rw [htwo, h.pacedFrom_attempt hnodup havailable]
    exact ⟨by rintro _ _ ⟨⟩, trivial⟩

/-- A run is not in order that goes on without a delay behind the last attempt of a pass. -/
theorem Rotates.not_pacedFrom_full (h : Rotates endpoints pass seen s) (hnodup : endpoints.Nodup)
    (havailable : s.serverList.available = endpoint :: rest)
    (hfull : pass.length + 1 = endpoints.length) {outcome : Outcome}
    (hreceived : ¬ outcome.received = true) (attempts : ℕ) (ts : List Turn) (last : Turn) :
    ¬ PacedFrom endpoints seen (.attempt endpoint outcome :: runConnectionLoop env config
      ⟨{ s.serverList with available := rest ++ [endpoint] }, attempts⟩ (ts ++ [last])) := by
  rw [h.pacedFrom_attempt hnodup havailable]
  have hnote : noteEvent seen (.attempt endpoint outcome) = endpoint :: seen := if_neg hreceived
  obtain ⟨endpoint', rest', hrotated⟩ := (h.fresh havailable).exists_available
  rw [hnote]
  exact not_pacedFrom_of_subset (h.covers havailable hfull) hrotated

/-- **Pacing from a rotation.**  The rest of a run is paced if and only if the passes fail
before the last turn. -/
theorem pacedFrom_iff {ts : List Turn} {last : Turn} (hnodup : endpoints.Nodup)
    (h : Rotates endpoints pass seen s) (hshutdown : ∀ t ∈ ts, t.shutdown = false)
    (hkeeps : ∀ t ∈ ts, KeepsServerList env config t) :
    PacedFrom endpoints seen (runConnectionLoop env config s (ts ++ [last])) ↔
      PassesFail endpoints.length pass ts := by
  induction ts generalizing pass seen s with
  | nil => exact iff_of_true (h.pacedFrom_last hnodup last) trivial
  | cons t ts ih =>
      obtain ⟨endpoint, rest, havailable⟩ := h.exists_available
      have hlength : rest.length + 1 = endpoints.length := by
        rw [← h.perm.length_eq, havailable, List.length_cons]
      have hturn := turn_eq havailable h.count (hkeeps t List.mem_cons_self)
      have hrun := hshutdown t List.mem_cons_self
      have hnext : ∀ {pass seen s}, Rotates endpoints pass seen s →
          (PacedFrom endpoints seen (runConnectionLoop env config s (ts ++ [last])) ↔
            PassesFail endpoints.length pass ts) := fun h' =>
        ih h' (fun t ht => hshutdown t (List.mem_cons_of_mem _ ht))
          (fun t ht => hkeeps t (List.mem_cons_of_mem _ ht))
      rw [hlength, hrun] at hturn
      rw [List.cons_append, runConnectionLoop, hrun, PassesFail]
      by_cases hreceived : t.outcome.received = true
      · -- a session with data ends the pass
        have hcount : counted (t.outcome :: pass) = 0 := by
          cases houtcome : t.outcome with
          | connectFailed => rw [houtcome] at hreceived; cases hreceived
          | session bytesIn => rfl
        have hidle : completedFailedPass 0 endpoints.length = false := by
          rw [← hlength]
          rfl
        rw [hcount, hidle] at hturn
        rw [hturn, if_pos hreceived, ← hnext (h.fresh havailable)]
        have hnote : noteEvent seen (.attempt endpoint t.outcome) = [] := if_pos hreceived
        rw [← hnote]
        exact h.pacedFrom_attempt hnodup havailable t.outcome _
      · have hnote : noteEvent seen (.attempt endpoint t.outcome) = endpoint :: seen :=
          if_neg hreceived
        rw [if_neg hreceived]
        by_cases hfull : pass.length + 1 = endpoints.length
        · rw [if_pos hfull]
          by_cases hall : ∀ o ∈ t.outcome :: pass, o = .connectFailed
          · -- the pass failed, and the delay ends it
            rw [(completedFailedPass_iff hfull).mpr hall] at hturn
            rw [hturn, and_iff_right hall, ← hnext (h.fresh havailable)]
            refine (h.pacedFrom_attempt hnodup havailable t.outcome _).trans ?_
            exact and_iff_right (by rintro _ _ ⟨⟩)
          · -- a connection was counted out of the pass: no delay is taken
            have hidle : completedFailedPass
                (counted (t.outcome :: pass)) endpoints.length = false := by
              rw [← Bool.not_eq_true, completedFailedPass_iff hfull]
              exact hall
            rw [hidle] at hturn
            rw [hturn]
            exact iff_of_false (h.not_pacedFrom_full hnodup havailable hfull hreceived _ ts last)
              fun hpasses => hall hpasses.1
        · rw [if_neg hfull]
          have hidle : completedFailedPass
              (counted (t.outcome :: pass)) endpoints.length = false := by
            have hle := counted_le (t.outcome :: pass)
            have hlt := h.length_lt
            simp only [completedFailedPass, Bool.and_eq_false_iff, decide_eq_false_iff_not,
              List.length_cons] at hle ⊢
            omega
          rw [hidle] at hturn
          rw [hturn, ← hnext (h.next havailable t.outcome hfull), ← hnote]
          exact h.pacedFrom_attempt hnodup havailable t.outcome _

end Runs

/-! ## Failover -/

/-- The state before the first turn has distinct endpoints. -/
theorem nodup_start (config : QbtReceiverConfig)
    (persisted : Option (Except QbtReceiverError (List Endpoint))) :
    (LoopState.start config persisted).serverList.available.Nodup := by
  unfold LoopState.start
  simp only
  split_ifs
  · exact nodup_available_load _ _ _
  · exact nodup_sortDedupEndpoints _

/-- Without endpoints there are no attempts. -/
theorem pacedFrom_nil {env : CodecEnv} {config : QbtReceiverConfig} {s : LoopState}
    {seen : List Endpoint} (havailable : s.serverList.available = []) (ts : List Turn) :
    PacedFrom [] seen (runConnectionLoop env config s ts) := by
  have hturn : ∀ t, turn env config s t = ([.delay], s) := by
    intro t
    simp [turn, ServerListManager.nextEndpoint, havailable]
  induction ts generalizing seen with
  | nil => trivial
  | cons t ts ih =>
      rw [runConnectionLoop, hturn]
      refine ⟨by rintro _ _ ⟨⟩, ?_⟩
      split_ifs
      · trivial
      · exact ih

/-- A pass of no attempts is never full. -/
theorem passesFail_zero (pass : List Outcome) (ts : List Turn) : PassesFail 0 pass ts := by
  induction ts generalizing pass with
  | nil => trivial
  | cons t ts ih =>
      rw [PassesFail, if_neg (Nat.succ_ne_zero _)]
      split_ifs
      · exact ih _
      · exact ih _

/-- **Failover pacing.**  A run without a server-list update, of some turns and a last one,
is paced if and only if no full pass without data of these turns has a session. -/
theorem failover_paced_iff (env : CodecEnv) (config : QbtReceiverConfig)
    (persisted : Option (Except QbtReceiverError (List Endpoint))) (ts : List Turn) (last : Turn)
    (hshutdown : ∀ t ∈ ts, t.shutdown = false)
    (hkeeps : ∀ t ∈ ts, KeepsServerList env config t) :
    Paced (LoopState.start config persisted).serverList.available
        (runConnectionLoop env config (LoopState.start config persisted) (ts ++ [last])) ↔
      PassesFail (LoopState.start config persisted).serverList.endpointCount [] ts := by
  rw [paced_iff]
  cases havailable : (LoopState.start config persisted).serverList.available with
  | nil =>
      refine iff_of_true (pacedFrom_nil havailable _) ?_
      unfold ServerListManager.endpointCount
      rw [havailable]
      exact passesFail_zero _ _
  | cons endpoint rest =>
      rw [← havailable]
      refine pacedFrom_iff (nodup_start config persisted) ?_ hshutdown hkeeps
      exact ⟨⟨endpoint, rest, by rw [havailable, List.reverse_nil, List.append_nil]⟩,
        List.Perm.refl _, rfl, rfl⟩

/-- A configuration with two pinned servers. -/
def twoServers : QbtReceiverConfig where
  servers := [("b.example".toList, 2211), ("a.example".toList, 2211)]
  serverListPath := none
  followServerListUpdates := false
  decode := .default

/-- A turn whose connection fails. -/
def refusedTurn : Turn := ⟨none, false⟩

/-- A turn whose connection is accepted and closed at once. -/
def silentTurn : Turn := ⟨some ⟨[], fun _ => .ok ()⟩, false⟩

/-- Two servers that refuse their connections are tried once each before the delay. -/
theorem failover_paced_refused :
    (∀ t ∈ [refusedTurn, refusedTurn], t.shutdown = false) ∧
      (∀ t ∈ [refusedTurn, refusedTurn], KeepsServerList .bare twoServers t) ∧
      Paced (LoopState.start twoServers none).serverList.available
        (runConnectionLoop .bare twoServers (LoopState.start twoServers none)
          ([refusedTurn, refusedTurn] ++ [silentTurn])) ∧
      runConnectionLoop .bare twoServers (LoopState.start twoServers none)
          ([refusedTurn, refusedTurn] ++ [silentTurn]) =
        [.attempt ("a.example".toList, 2211) .connectFailed,
          .attempt ("b.example".toList, 2211) .connectFailed, .delay,
          .attempt ("a.example".toList, 2211) (.session 0)] := by
  have hshutdown : ∀ t ∈ [refusedTurn, refusedTurn], t.shutdown = false := by
    simp [refusedTurn]
  have hkeeps : ∀ t ∈ [refusedTurn, refusedTurn], KeepsServerList .bare twoServers t := by
    simp [refusedTurn, KeepsServerList]
  refine ⟨hshutdown, hkeeps, ?_, by rfl⟩
  rw [failover_paced_iff .bare twoServers none _ silentTurn hshutdown hkeeps]
  have hcount : (LoopState.start twoServers none).serverList.endpointCount = 2 := by rfl
  rw [hcount]
  simp [PassesFail, refusedTurn, Turn.outcome, Outcome.received]

/-- A server that accepts connections and closes them is tried again without a delay. -/
theorem silent_server_unpaced :
    ¬ ∀ (env : CodecEnv) (config : QbtReceiverConfig)
      (persisted : Option (Except QbtReceiverError (List Endpoint))) (ts : List Turn),
      (∀ t ∈ ts, KeepsServerList env config t) →
        Paced (LoopState.start config persisted).serverList.available
          (runConnectionLoop env config (LoopState.start config persisted) ts) := by
  intro h
  have hpaced := h .bare { twoServers with servers := [("a.example".toList, 2211)] } none
    [silentTurn, silentTurn] (by simp [KeepsServerList, twoServers])
  obtain ⟨e, hmem, hseen⟩ := hpaced.delay_due [.attempt ("a.example".toList, 2211) (.session 0)]
    ("a.example".toList, 2211) (.session 0) [] (by rfl)
  -- the only server was attempted since the start
  have honly : e = ("a.example".toList, 2211) := List.mem_singleton.mp hmem
  exact hseen (by rw [honly]; decide)

end Client
