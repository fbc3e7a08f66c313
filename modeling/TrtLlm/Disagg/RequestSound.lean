import TrtLlm.Disagg.PyExecutor

set_option autoImplicit false

namespace TrtLlm.Disagg
open Request Phase Bool

def Request.log (r : Request) : List Response := r.responses ++ r.pendingResponses

def Unanswered (log : List Response) : Prop := ∀ response ∈ log, response.final = false

def Answered (log : List Response) : Prop :=
  ∃ earlier last, log = earlier ++ [last] ∧ last.final = true ∧ Unanswered earlier

theorem Unanswered.push {log : List Response} (unanswered : Unanswered log) {resp : Response}
    (unfinished : resp.final = false) : Unanswered (log ++ [resp]) := by
  intro other mem
  rcases List.mem_append.mp mem with old | new
  · exact unanswered other old
  · rw [List.mem_singleton.mp new]
    exact unfinished

theorem Unanswered.close {log : List Response} (unanswered : Unanswered log) {resp : Response}
    (last : resp.final = true) : Answered (log ++ [resp]) := ⟨log, resp, rfl, last, unanswered⟩

-- While active it has no final response and its resources; later one final response, the last of all, and its
-- resources are freed once, before its transfers end only if its blocks are pinned.
structure EndsOnce (r : Request) : Prop where
  waits : r.active = true → Unanswered r.log ∧ r.freed = 0
  answered : r.active = false → Answered r.log
  freedOnce : r.active = false → r.transfers = none → r.freed = 1
  atMostOnce : r.freed ≤ 1
  unused : 0 < r.freed → r.pinned = false → r.sending = false ∧ r.saving = false ∧ r.receiving = false
  released : r.sending = false → r.saving = false → r.transfers = none ∧ r.pinned = false

def Request.watched (r : Request) : Bool := r.kvTransferStarted || r.kvTransferTimedOut

-- Between _send_kv_async and _handle_responses an active request may be in transfer.
def Phase.sent : Phase → Bool
  | .flush | .cancel | .respond => true
  | _ => false

def Phase.quiet : Phase → Bool
  | .send | .flush | .cancel | .respond => false
  | _ => true

section
variable {phase : Phase} (quiet : phase.quiet = true)

include quiet

theorem Phase.quiet_unsent : phase.sent = false := by cases phase <;> first | rfl | cases quiet

theorem Phase.quiet_unbatched : phase ≠ .send := by
  rintro rfl
  cases quiet

theorem Phase.quiet_flushed : phase ≠ .flush := by
  rintro rfl
  cases quiet

theorem Phase.quiet_responded : phase ≠ .respond := by
  rintro rfl
  cases quiet

end

structure Sound (config : Config) (phase : Phase) (r : Request) : Prop where
  held : ∀ count, r.transfers = some count → count = 1 ∧ r.sending = !r.saving ∧ r.pinned = config.shouldStoreBlocks ∧
    (r.watched = true → r.sending = true)
  loose : r.transfers = none → r.sending = false ∧ r.saving = false ∧ r.pinned = false
  buffered : phase ≠ .flush → r.pendingResponses = []
  receives : r.receiving = true → r.active = true ∧ r.state = .disaggGenerationTransInProgress
  batched : phase = .send → r.scheduled = true → r.active = true ∧ r.watched = false ∧ r.receiving = false
  early : r.active = true → r.transfers.isSome = true →
    phase.sent = true ∧ r.state = .disaggContextTransInProgress ∧ r.kvTransferTimedOut = false
  plain : r.active = true → r.transfers = none → r.isDisaggContextTransmissionState = false ∧ r.state ≠ .disaggContextComplete ∧
      (r.watched = true → r.state = .disaggGenerationTransInProgress ∨ r.state = .disaggGenerationTransComplete ∨
        phase = .respond ∧ r.state = .generationComplete)
  waits : r.active = true → Unanswered r.log ∧ r.freed = 0
  gone : r.active = false → Answered r.log ∧ r.freed = if r.transfers.isSome && !config.shouldStoreBlocks then 0 else 1

variable {config : Config} {phase next : Phase} {r : Request}

theorem Sound.ends_once (sound : Sound config phase r) : EndsOnce r := by
  refine ⟨sound.waits, fun out => (sound.gone out).1, ?_, ?_, ?_, ?_⟩
  · intro out none
    rw [(sound.gone out).2, none]
    rfl
  · cases active : r.active with
    | true => rw [(sound.waits active).2]; exact Nat.zero_le 1
    | false =>
      rw [(sound.gone active).2]
      split <;> decide
  · intro used unpinned
    have out : r.active = false := by
      by_contra active
      rw [(sound.waits (by simpa using active)).2] at used
      exact lt_irrefl 0 used
    have still : r.receiving = false := by
      by_contra receiving
      rw [(sound.receives (by simpa using receiving)).1] at out
      cases out
    cases transfers : r.transfers with
    | none =>
      obtain ⟨sending, saving, _⟩ := sound.loose transfers
      exact ⟨sending, saving, still⟩
    | some count =>
      have stores := (sound.held count transfers).2.2.1
      rw [(sound.gone out).2, transfers, ← stores, unpinned] at used
      simp at used
  · intro sending saving
    cases transfers : r.transfers with
    | none => exact ⟨rfl, (sound.loose transfers).2.2⟩
    | some count =>
      have one := (sound.held count transfers).2.1
      simp [sending, saving] at one

theorem Sound.of_gone (away : phase ≠ .send)
    (held : ∀ count, r.transfers = some count → count = 1 ∧ r.sending = !r.saving ∧ r.pinned = config.shouldStoreBlocks ∧
      (r.watched = true → r.sending = true))
    (loose : r.transfers = none → r.sending = false ∧ r.saving = false ∧ r.pinned = false)
    (buffered : phase ≠ .flush → r.pendingResponses = []) (still : r.receiving = false) (out : r.active = false)
    (answered : Answered r.log) (freed : r.freed = if r.transfers.isSome && !config.shouldStoreBlocks then 0 else 1) :
    Sound config phase r where
  held := held
  loose := loose
  buffered := buffered
  receives := by simp [still]
  batched := fun here => absurd here away
  early := by simp [out]
  plain := by simp [out]
  waits := by simp [out]
  gone := fun _ => ⟨answered, freed⟩

section
variable (sound : Sound config phase r)

include sound

theorem Sound.watched_plain (calm : phase ≠ .respond) (active : r.active = true)
    (none : r.transfers = none) (seen : r.watched = true) :
    r.state = .disaggGenerationTransInProgress ∨ r.state = .disaggGenerationTransComplete := by
  rcases (sound.plain active none).2.2 seen with gen | done | ⟨same, _⟩
  · exact .inl gen
  · exact .inr done
  · exact absurd same calm

theorem Sound.plain_next (calm : phase ≠ .respond) (active : r.active = true) (none : r.transfers = none) :
    r.isDisaggContextTransmissionState = false ∧ r.state ≠ .disaggContextComplete ∧
      (r.watched = true → r.state = .disaggGenerationTransInProgress ∨ r.state = .disaggGenerationTransComplete ∨
        next = .respond ∧ r.state = .generationComplete) := by
  obtain ⟨apart, incomplete, _⟩ := sound.plain active none
  exact ⟨apart, incomplete, fun seen => (sound.watched_plain calm active none seen).imp_right .inl⟩

theorem Sound.quiet_change (here : phase.quiet = true) (there : next.quiet = true) : Sound config next r := by
  have unsent := quiet_unsent here
  refine ⟨sound.held, sound.loose, ?_, sound.receives, ?_, ?_, sound.plain_next (quiet_responded here), sound.waits, sound.gone⟩
  · intro _
    apply sound.buffered
    rintro rfl
    cases here
  · rintro rfl
    cases there
  · intro active transfers
    have sent := (sound.early active transfers).1
    rw [unsent] at sent
    cases sent

theorem Sound.quiet_loose (unsent : phase.sent = false) (active : r.active = true) : r.transfers = none := by
  cases transfers : r.transfers with
  | none => rfl
  | some count =>
    have sent := (sound.early active (by rw [transfers]; rfl)).1
    rw [unsent] at sent
    cases sent

theorem Sound.not_receiving (apart : r.state ≠ .disaggGenerationTransInProgress) : r.receiving = false := by
  by_contra receiving
  exact apart (sound.receives (by simpa using receiving)).2

theorem Sound.still (out : r.active = false) : r.receiving = false := by
  by_contra receiving
  rw [(sound.receives (by simpa using receiving)).1] at out
  cases out

end

theorem fail_sound (away : phase ≠ .send) (buffered : r.pendingResponses = []) (none : r.transfers = none)
    (loose : r.sending = false ∧ r.saving = false ∧ r.pinned = false) (still : r.receiving = false)
    (unanswered : Unanswered r.log) (unfreed : r.freed = 0) : Sound config phase r.handleError := by
  refine Sound.of_gone away ?_ (fun _ => loose) (fun _ => buffered) still rfl ?_ ?_
  · intro count some
    rw [handleError, terminateRequest, none] at some
    cases some
  · have answered := unanswered.close (show Response.error.final = true from rfl)
    simpa [log, handleError, terminateRequest, buffered] using answered
  · simp [handleError, terminateRequest, none, unfreed]

section
variable (one : r.transfers = some 1) (landed : r.sending = false ∧ r.saving = false)
  (pinned : r.pinned = config.shouldStoreBlocks) (still : r.receiving = false)

include one landed pinned still

theorem end_gone_sound (away : phase ≠ .send) (buffered : phase ≠ .flush → r.pendingResponses = []) (out : r.active = false)
    (answered : Answered r.log) (freed : r.freed = if config.shouldStoreBlocks then 1 else 0) :
    Sound config phase (r.endTransferAndMaybeTerminate config) := by
  cases stores : config.shouldStoreBlocks with
  | true =>
    simp only [endTransferAndMaybeTerminate, out, false_eq_true, if_false, endTransfer, one, Nat.sub_self, if_true, stores]
    refine Sound.of_gone away nofun (fun _ => ⟨landed.1, landed.2, by simp⟩) buffered still rfl answered ?_
    simp [freed, stores]
  | false =>
    simp only [endTransferAndMaybeTerminate, out, false_eq_true, if_false, endTransfer, one, Nat.sub_self, if_true, stores]
    refine Sound.of_gone away nofun (fun _ => ⟨landed.1, landed.2, by simp [terminateRequest, pinned, stores]⟩) buffered still rfl
      answered ?_
    simp [terminateRequest, freed, stores]

theorem end_early_sound (buffered : r.pendingResponses = []) (active : r.active = true) (st : r.state = .disaggContextTransInProgress)
    (unanswered : Unanswered r.log) (unfreed : r.freed = 0) : Sound config .flush (r.endTransferAndMaybeTerminate config) := by
  have resp : r.createResponse = some (.result true) := by simp [createResponse, isFinished, st]
  simp only [endTransferAndMaybeTerminate, active, if_true, endTransfer, one, Nat.sub_self, resp, Option.toList]
  refine Sound.of_gone nofun nofun (fun _ => ⟨landed.1, landed.2, ?_⟩) (fun apart => absurd rfl apart) still rfl ?_ ?_
  · simp [terminateRequest, pinned]
  · have answered := unanswered.close (show (Response.result true).final = true from rfl)
    simpa [log, terminateRequest, buffered] using answered
  · simp [terminateRequest, unfreed]

end

theorem end_active (out : r.active = false) : (r.endTransferAndMaybeTerminate config).active = false := by
  simp only [endTransferAndMaybeTerminate, out, false_eq_true, if_false, endTransfer]
  cases r.transfers with
  | none => exact out
  | some count =>
    dsimp only
    split_ifs <;> rfl

theorem end_early_active (active : r.active = true) (one : r.transfers = some 1) :
    (r.endTransferAndMaybeTerminate config).active = false := by
  simp [endTransferAndMaybeTerminate, active, endTransfer, one, terminateRequest]

theorem end_transfers (one : r.transfers = some 1) : (r.endTransferAndMaybeTerminate config).transfers = none := by
  simp only [endTransferAndMaybeTerminate, endTransfer, one, Nat.sub_self, if_true]
  split_ifs <;> rfl

theorem check_errors_gone (out : r.active = false) : r.checkCacheTransferErrors = r := by simp [checkCacheTransferErrors, out]

theorem check_ended (report : Report) (cancels : Bool) (one : (r.reported (some report)).transfers = some 1)
    (out : ((r.reported (some report)).endTransferAndMaybeTerminate config).active = false) :
    r.checkContextTransferStatus config (some report) cancels =
      (r.reported (some report)).endTransferAndMaybeTerminate config := by
  simp only [checkContextTransferStatus, Option.isSome_some, one, Bool.true_and, if_true, cancelTimedOutTransfer,
    end_transfers one, Option.isSome_none, Bool.false_and, false_eq_true, if_false]
  exact check_errors_gone out

theorem check_silent {cancels : Bool} (unexpired : (r.transfers.isSome && r.kvTransferTimedOut && cancels) = false) :
    r.checkContextTransferStatus config none cancels = r.checkCacheTransferErrors := by
  simp only [checkContextTransferStatus, reported, Option.isSome_none, Bool.false_and, false_eq_true, if_false,
    cancelTimedOutTransfer, Bool.not_false, Bool.and_true, unexpired]

section
variable (sound : Sound config phase r)

include sound

theorem check_gone_sound (away : phase ≠ .send) (out : r.active = false)
    (report : Option Report) (cancels : Bool) (flying : report.isSome = true → r.sending = true) :
    Sound config phase (r.checkContextTransferStatus config report cancels) := by
  have still := sound.still out
  obtain ⟨answered, freed⟩ := sound.gone out
  cases transfers : r.transfers with
  | none =>
    cases report with
    | none =>
      rw [check_silent (by rw [transfers]; rfl), check_errors_gone out]
      exact sound
    | some report =>
      have sending := flying rfl
      rw [(sound.loose transfers).1] at sending
      cases sending
  | some count =>
    obtain ⟨rfl, alone, pinned, watched⟩ := sound.held count transfers
    have books : r.freed = if config.shouldStoreBlocks then 1 else 0 := by
      rw [freed, transfers]
      cases config.shouldStoreBlocks <;> rfl
    cases report with
    | none =>
      cases expired : r.transfers.isSome && r.kvTransferTimedOut && cancels with
      | false =>
        rw [check_silent expired, check_errors_gone out]
        exact sound
      | true =>
        simp only [and_eq_true] at expired
        have sending := watched (by simp [Request.watched, expired.1.2])
        have saving : r.saving = false := by simpa [sending] using alone
        have ended : Sound config phase (endTransferAndMaybeTerminate config
            { r.withdrawn with kvTransferStarted := false, state := .disaggContextComplete }) :=
          end_gone_sound transfers ⟨rfl, saving⟩ pinned rfl away sound.buffered out answered books
        simp only [checkContextTransferStatus, reported, Option.isSome_none, Bool.false_and, false_eq_true,
          if_false, cancelTimedOutTransfer, expired, Bool.not_false, Bool.and_self, if_true]
        rw [check_errors_gone]
        · exact ended
        · exact end_active out
    | some report =>
      have sending := flying rfl
      have saving : r.saving = false := by simpa [sending] using alone
      cases report with
      | finished =>
        rw [check_ended .finished cancels transfers (end_active out)]
        exact end_gone_sound transfers ⟨rfl, saving⟩ pinned still away sound.buffered out answered books
      | failed =>
        rw [check_ended .failed cancels transfers (end_active out)]
        exact end_gone_sound transfers ⟨rfl, saving⟩ pinned still away sound.buffered out answered books

theorem check_errors_sound (away : phase ≠ .send)
    (buffered : r.active = true → r.pendingResponses = []) : Sound config phase r.checkCacheTransferErrors := by
  unfold checkCacheTransferErrors
  split
  · next wrong =>
      simp only [and_eq_true, decide_eq_true_eq] at wrong
      obtain ⟨active, st⟩ := wrong
      have none : r.transfers = none := by
        cases transfers : r.transfers with
        | none => rfl
        | some count =>
          have other := (sound.early active (by rw [transfers]; rfl)).2.1
          rw [st] at other
          cases other
      have still := sound.not_receiving (by rw [st]; nofun)
      obtain ⟨unanswered, unfreed⟩ := sound.waits active
      exact fail_sound away (buffered active) none (sound.loose none) still unanswered unfreed
  · exact sound

variable (quiet : phase.quiet = true)

include quiet

theorem check_quiet_sound (report : Option Report) (cancels : Bool) (flying : report.isSome = true → r.sending = true) :
    Sound config phase (r.checkContextTransferStatus config report cancels) := by
  have away := quiet_unbatched quiet
  have unsent := quiet_unsent quiet
  have early := quiet_flushed quiet
  cases active : r.active with
  | false => exact check_gone_sound sound away active report cancels flying
  | true =>
    have none := sound.quiet_loose unsent active
    cases report with
    | none =>
      rw [check_silent (by rw [none]; rfl)]
      exact check_errors_sound sound away fun _ => sound.buffered early
    | some report =>
      have sending := flying rfl
      rw [(sound.loose none).1] at sending
      cases sending

theorem gen_status_sound (report : Option GenReport)
    (flying : report.isSome = true → r.receiving = true) : Sound config phase (r.checkGenTransferStatus report) := by
  have away := quiet_unbatched quiet
  have early := quiet_flushed quiet
  have unsent := quiet_unsent quiet
  have buffered := sound.buffered early
  cases report with
  | none => exact check_errors_sound sound away fun _ => buffered
  | some report =>
    obtain ⟨active, state⟩ := sound.receives (flying rfl)
    have none := sound.quiet_loose unsent active
    obtain ⟨unanswered, unfreed⟩ := sound.waits active
    -- A received request is in no other transfer, whatever its state.
    have moved : ∀ state : Batch.LlmRequestState,
        (state = .disaggGenerationTransInProgress ∨ state = .disaggGenerationTransComplete) →
          Sound config phase { r with receiving := false, state } := by
      intro state kept
      refine ⟨sound.held, sound.loose, sound.buffered, nofun, fun here => absurd here away, ?_, ?_, sound.waits, sound.gone⟩
      · intro _ some
        rw [none] at some
        cases some
      · intro _ _
        rcases kept with rfl | rfl
        · exact ⟨rfl, nofun, fun _ => .inl rfl⟩
        · exact ⟨rfl, nofun, fun _ => .inr (.inl rfl)⟩
    have failed : Sound config phase
        (checkCacheTransferErrors { r with receiving := false, state := .disaggTransError }) := by
      rw [checkCacheTransferErrors, if_pos (by simp [active])]
      exact fail_sound away buffered none (sound.loose none) rfl unanswered unfreed
    cases report with
    | finished => exact check_errors_sound (moved _ (.inr rfl)) away fun _ => buffered
    | failed => exact failed
    | cancelled =>
      cases canceled : r.canceled with
      | true =>
        have same : r.genReported (some .cancelled) = { r with receiving := false, state := r.state } := by
          simp [genReported, canceled]
        rw [checkGenTransferStatus, same]
        exact check_errors_sound (moved _ (.inl state)) away fun _ => buffered
      | false =>
        have same : r.genReported (some .cancelled) = { r with receiving := false, state := .disaggTransError } := by
          simp [genReported, canceled]
        rw [checkGenTransferStatus, same]
        exact failed

theorem timeout_sound (due : Bool) : Sound config phase (r.checkKvTransferTimeout due) := by
  have away := quiet_unbatched quiet
  have unsent := quiet_unsent quiet
  unfold checkKvTransferTimeout
  split
  · next flagged =>
      simp only [and_eq_true] at flagged
      have seen : r.watched = true := by simp [Request.watched, flagged.1.2]
      refine ⟨?_, sound.loose, sound.buffered, sound.receives, fun here => absurd here away, ?_, ?_, sound.waits, sound.gone⟩
      · intro count transfers
        obtain ⟨one, alone, pinned, watched⟩ := sound.held count transfers
        exact ⟨one, alone, pinned, fun _ => watched seen⟩
      · intro active some
        have none := sound.quiet_loose unsent active
        rw [none] at some
        cases some
      · intro active none
        obtain ⟨apart, incomplete, watched⟩ := sound.plain active none
        exact ⟨apart, incomplete, fun _ => watched seen⟩
  · exact sound

theorem gen_init_sound (fits : Bool) : Sound config phase (r.recvDisaggGenCache config fits) := by
  have away := quiet_unbatched quiet
  have unsent := quiet_unsent quiet
  unfold recvDisaggGenCache
  split
  · next starts =>
      simp only [and_eq_true, decide_eq_true_eq] at starts
      have active := starts.1.2
      have none := sound.quiet_loose unsent active
      refine ⟨?_, sound.loose, sound.buffered, fun _ => ⟨active, rfl⟩, fun here => absurd here away, ?_, ?_, sound.waits, sound.gone⟩
      · intro count some
        rw [none] at some
        cases some
      · intro _ some
        rw [none] at some
        cases some
      · intro _ _
        exact ⟨rfl, nofun, fun _ => .inl rfl⟩
  · exact sound

theorem connector_sound (done : Bool)
    (flying : done = true → r.saving = true) : Sound config phase (r.connectorDone config done) := by
  have away := quiet_unbatched quiet
  have unsent := quiet_unsent quiet
  unfold connectorDone
  split
  · next reported =>
      have saving := flying reported
      cases transfers : r.transfers with
      | none =>
        rw [(sound.loose transfers).2.1] at saving
        cases saving
      | some count =>
        have out : r.active = false := by
          by_contra active
          rw [sound.quiet_loose unsent (by simpa using active)] at transfers
          cases transfers
        obtain ⟨rfl, alone, pinned, _⟩ := sound.held count transfers
        obtain ⟨answered, freed⟩ := sound.gone out
        have books : r.freed = if config.shouldStoreBlocks then 1 else 0 := by
          rw [freed, transfers]
          cases config.shouldStoreBlocks <;> rfl
        have unsent_data : r.sending = false := by simpa [saving] using alone
        exact end_gone_sound rfl ⟨unsent_data, rfl⟩ pinned (sound.still out) away sound.buffered out answered books
  · exact sound

end
end TrtLlm.Disagg
