import TrtLlm.Disagg.RequestSound

set_option autoImplicit false

namespace TrtLlm.Disagg
open Request Bool
variable {config : Config} {phase : Phase} {r : Request}

theorem first_token_unanswered (st : r.isFinished = false) (unanswered : Unanswered r.log)
    (buffered : r.pendingResponses = []) : Unanswered r.handleFirstTokenResponse.log := by
  unfold handleFirstTokenResponse
  split
  · cases resp : r.createResponse with
    | none => simpa [log] using unanswered
    | some response' =>
      have unfinished : response'.final = false := by
        simp only [createResponse, st, Bool.false_or] at resp
        split at resp
        · cases resp
          rfl
        · cases resp
      have grown := unanswered.push unfinished
      simpa [log, buffered] using grown
  · exact unanswered

theorem first_token_frame (r : Request) :
    r.handleFirstTokenResponse = { r with responses := r.handleFirstTokenResponse.responses } := by
  unfold handleFirstTokenResponse
  split <;> rfl

structure Batched (r : Request) : Prop where
  active : r.active = true
  unwatched : r.watched = false
  unfinished : r.isFinished = false

theorem prepare_batched (sound : Sound config phase r) (quiet : phase.quiet = true) (schedulable : r.schedulable = true) :
    Batched r.prepareDisaggGenTransmissionComplete ∧
      ∃ state decodingIter started timedOut, r.prepareDisaggGenTransmissionComplete =
        { r with state, decodingIter, kvTransferStarted := started, kvTransferTimedOut := timedOut } := by
  have calm := Phase.quiet_responded quiet
  have unsent := Phase.quiet_unsent quiet
  have active : r.active = true := by
    unfold Request.schedulable at schedulable
    split at schedulable <;> first | exact schedulable | cases schedulable
  have none := sound.quiet_loose unsent active
  unfold prepareDisaggGenTransmissionComplete
  split
  · exact ⟨⟨active, rfl, rfl⟩, _, _, _, _, rfl⟩
  next other =>
    refine ⟨⟨active, ?_, ?_⟩, _, _, _, _, rfl⟩
    · by_contra seen
      rcases sound.watched_plain calm active none (by simpa using seen) with gen | done
      · simp [Request.schedulable, gen] at schedulable
      · exact other done
    · unfold Request.schedulable at schedulable
      unfold isFinished
      split at schedulable <;> simp_all

theorem forward_sound (sound : Sound config phase r) (quiet : phase.quiet = true) (batched : Bool) (update : Update)
    (schedulable : batched = true → r.schedulable = true) (possible : update.Possible) :
    Sound config .send (r.forwardStep batched update) := by
  have early := Phase.quiet_flushed quiet
  have unsent := Phase.quiet_unsent quiet
  have calm := Phase.quiet_responded quiet
  cases batched with
  | false =>
    refine ⟨sound.held, sound.loose, fun _ => sound.buffered early, sound.receives, nofun, ?_,
      sound.plain_next calm, sound.waits, sound.gone⟩
    · intro active some
      rw [forwardStep] at some
      rw [show r.transfers = none from sound.quiet_loose unsent active] at some
      cases some
  | true =>
    obtain ⟨prepared, state, iter, started, timedOut, same⟩ := prepare_batched sound quiet (schedulable rfl)
    have active : r.active = true := by simpa [same] using prepared.active
    have none := sound.quiet_loose unsent active
    have buffered := sound.buffered early
    obtain ⟨unanswered, unfreed⟩ := sound.waits active
    have still : r.receiving = false := by
      apply sound.not_receiving
      intro receives
      have fits := schedulable rfl
      simp [Request.schedulable, receives] at fits
    have log : Unanswered r.prepareDisaggGenTransmissionComplete.handleFirstTokenResponse.log :=
      first_token_unanswered prepared.unfinished (by rw [same]; exact unanswered) (by rw [same]; exact buffered)
    have unwatched := prepared.unwatched
    rw [same] at log unwatched
    rw [first_token_frame] at log
    rw [forwardStep, if_pos rfl, same, first_token_frame]
    refine ⟨?_, fun _ => sound.loose none, fun _ => buffered, ?_, fun _ _ => ⟨active, unwatched, still⟩, ?_, ?_,
      fun _ => ⟨log, unfreed⟩, ?_⟩
    · intro count some
      rw [none] at some
      cases some
    · intro receiving
      rw [still] at receiving
      cases receiving
    · intro _ some
      rw [none] at some
      cases some
    · intro _ _
      refine ⟨?_, ?_, fun seen => absurd (unwatched.symm.trans seen) nofun⟩
      · rcases possible with state | state | state <;> simp [isDisaggContextTransmissionState, state]
      · rcases possible with state | state | state <;> simp [state]
    · intro out
      rw [active] at out
      cases out

theorem Sound.unsent (sound : Sound config .send r) : Sound config .flush r := by
  refine ⟨sound.held, sound.loose, fun _ => sound.buffered nofun, sound.receives, nofun, ?_, sound.plain_next nofun,
    sound.waits, sound.gone⟩
  intro active some
  exact absurd (sound.early active some).1 nofun

theorem start_sound (sound : Sound config .send r) (batched : r.scheduled = true) {started sending saving : Bool}
    (alone : sending = !saving) (watched : started = true → sending = true) :
    Sound config .flush { r.startTransfer config with kvTransferStarted := started, sending, saving } := by
  obtain ⟨active, unwatched, still⟩ := sound.batched rfl batched
  have timed : r.kvTransferTimedOut = false := by
    simp only [Request.watched, or_eq_false_iff] at unwatched
    exact unwatched.2
  have none := sound.quiet_loose rfl active
  have start : r.startTransfer config =
      { r with state := .disaggContextTransInProgress, pinned := config.shouldStoreBlocks, transfers := some 1 } := by
    unfold startTransfer
    rw [none]
  rw [start]
  refine ⟨?_, by simp, fun _ => sound.buffered (by simp), ?_, by simp, fun _ _ => ⟨rfl, rfl, timed⟩, by simp, sound.waits, ?_⟩
  · intro count some
    cases some
    refine ⟨rfl, alone, rfl, fun seen => ?_⟩
    simp only [Request.watched, timed, Bool.or_false] at seen
    exact watched seen
  · intro receiving
    rw [still] at receiving
    cases receiving
  · intro out
    rw [active] at out
    cases out

theorem begin_sound (sound : Sound config .send r) (takes : Bool)
    (single : takes = true → (r.respondAndSendAsync config).transfers = none) :
    Sound config .flush (r.beginTransfers config takes) := by
  by_cases sends : (r.scheduled && decide (r.type = .contextOnly) && (r.isContextFinished || r.isFinishedDueToLength) &&
      !r.isFinishedDueToCancellation) = true
  · have batched : r.scheduled = true := by
      simp only [and_eq_true] at sends
      exact sends.1.1.1
    have none := sound.quiet_loose rfl (sound.batched rfl batched).1
    have begun : r.respondAndSendAsync config =
        { r.startTransfer config with
          sending := true
          kvTransferStarted := r.kvTransferStarted || config.kvTransferTimeout
          saving := false } := by
      rw [respondAndSendAsync, if_pos sends, startTransfer, none]
      simp [(sound.loose none).2.1]
    have untaken : takes = false := by
      by_contra taken
      have alone := single (by simpa using taken)
      rw [begun, startTransfer, none] at alone
      cases alone
    have same : r.beginTransfers config takes = r.respondAndSendAsync config := by
      simp [beginTransfers, connectorRequestFinished, untaken]
    rw [same, begun]
    exact start_sound sound batched rfl fun _ => rfl
  · have kept : r.respondAndSendAsync config = r := if_neg sends
    rw [beginTransfers, kept, connectorRequestFinished]
    split
    · next taken =>
        simp only [and_eq_true] at taken
        obtain ⟨⟨batched, _⟩, _⟩ := taken
        obtain ⟨active, unwatched, _⟩ := sound.batched rfl batched
        have none := sound.quiet_loose rfl active
        simp only [watched, or_eq_false_iff] at unwatched
        have begun : { r.startTransfer config with saving := true } =
            { r.startTransfer config with kvTransferStarted := false, sending := false, saving := true } := by
          rw [startTransfer, none]
          simp [unwatched.1, (sound.loose none).1]
        rw [begun]
        exact start_sound sound batched rfl (by simp)
    · exact sound.unsent

theorem begin_frame (config : Config) (r : Request) (takes : Bool) : (r.beginTransfers config takes).active = r.active ∧
      (r.beginTransfers config takes).pendingResponses = r.pendingResponses := by
  have start : ∀ other : Request, (other.startTransfer config).active = other.active ∧
      (other.startTransfer config).pendingResponses = other.pendingResponses := by
    intro other
    unfold startTransfer
    split <;> exact ⟨rfl, rfl⟩
  have first : (r.respondAndSendAsync config).active = r.active ∧
      (r.respondAndSendAsync config).pendingResponses = r.pendingResponses := by
    unfold respondAndSendAsync
    split
    · exact start r
    · exact ⟨rfl, rfl⟩
  unfold beginTransfers connectorRequestFinished
  split
  · exact ⟨(start _).1.trans first.1, (start _).2.trans first.2⟩
  · exact first

theorem check_early_sound (sound : Sound config .flush r) (buffered : r.pendingResponses = []) (report : Option Report)
    (cancels : Bool) (timely : report = some .failed → r.active = false) (flying : report.isSome = true → r.sending = true) :
    Sound config .flush (r.checkContextTransferStatus config report cancels) := by
  cases active : r.active with
  | false => exact check_gone_sound sound nofun active report cancels flying
  | true =>
    cases transfers : r.transfers with
    | none =>
      cases report with
      | none =>
        rw [check_silent (by rw [transfers]; rfl)]
        exact check_errors_sound sound nofun fun _ => buffered
      | some report =>
        have sending := flying rfl
        rw [(sound.loose transfers).1] at sending
        cases sending
    | some count =>
      obtain ⟨rfl, alone, pinned, _⟩ := sound.held count transfers
      obtain ⟨_, st, timed⟩ := sound.early active (by rw [transfers]; rfl)
      obtain ⟨unanswered, unfreed⟩ := sound.waits active
      have still := sound.not_receiving (by rw [st]; nofun)
      cases report with
      | none =>
        rw [check_silent (by simp [timed])]
        exact check_errors_sound sound nofun fun _ => buffered
      | some report =>
        cases report with
        | finished =>
          have sending := flying rfl
          have saving : r.saving = false := by simpa [sending] using alone
          rw [check_ended .finished cancels transfers (end_early_active active transfers)]
          exact end_early_sound transfers ⟨rfl, saving⟩ pinned still buffered active st unanswered unfreed
        | failed =>
          rw [active] at timely
          cases timely rfl

theorem flush_sound (sound : Sound config .flush r) : Sound config .cancel r.flushPendingTransferResponses := by
  have log : r.flushPendingTransferResponses.log = r.log := by simp [flushPendingTransferResponses, log]
  refine ⟨sound.held, sound.loose, fun _ => rfl, sound.receives, by simp, ?_, sound.plain_next (by simp), ?_, ?_⟩
  · intro active some
    obtain ⟨_, st, timed⟩ := sound.early active some
    exact ⟨rfl, st, timed⟩
  · rw [log]
    exact sound.waits
  · rw [log]
    exact sound.gone

theorem finish_cancelled_sound (sound : Sound config .cancel r) (active : r.active = true) (none : r.transfers = none) :
    Sound config .respond r.withdrawn.finishByCancellation ∧
      (r.receiving = false → Sound config .respond r.finishByCancellation) := by
  have loose := sound.loose none
  have absent : ∀ count, r.transfers ≠ some count := by simp [none]
  have apart : ∀ {P : Prop}, r.transfers.isSome = true → P := by simp [none]
  have inside : ∀ {P : Prop}, r.active = false → P := by simp [active]
  constructor
  · exact ⟨fun count some => absurd some (absent count), fun _ => ⟨rfl, loose.2⟩, fun _ => sound.buffered nofun, nofun, nofun,
      fun _ some => apart some, fun _ _ => ⟨rfl, nofun, fun _ => .inr (.inr ⟨rfl, rfl⟩)⟩, sound.waits, fun out => inside out⟩
  intro still
  exact ⟨fun count some => absurd some (absent count), fun _ => loose, fun _ => sound.buffered nofun,
    fun receiving => absurd (still.symm.trans receiving) nofun, nofun, fun _ some => apart some,
    fun _ _ => ⟨rfl, nofun, fun _ => .inr (.inr ⟨rfl, rfl⟩)⟩, sound.waits, fun out => inside out⟩

theorem Sound.canceling (sound : Sound config .cancel r) (canceled : Bool) : Sound config .respond { r with canceled } := by
  refine ⟨sound.held, sound.loose, fun _ => sound.buffered nofun, sound.receives, nofun, ?_, sound.plain_next nofun,
    sound.waits, sound.gone⟩
  intro active some
  obtain ⟨_, st, timed⟩ := sound.early active some
  exact ⟨rfl, st, timed⟩

theorem cancel_sound (sound : Sound config .cancel r) (cancels : Bool)
    (refused : r.canceled = true → r.active = true → r.state = .disaggContextTransInProgress → cancels = false) :
    Sound config .respond (r.handleCanceled cancels) := by
  unfold handleCanceled
  split
  · exact sound.canceling false
  next wanted =>
    simp only [not_eq_true, not_eq_false', and_eq_true] at wanted
    obtain ⟨canceled, active⟩ := wanted
    have loose : r.state ≠ .disaggContextTransInProgress → r.transfers = none := by
      intro apart
      cases transfers : r.transfers with
      | none => rfl
      | some count => exact absurd (sound.early active (by rw [transfers]; rfl)).2.1 apart
    split
    · next idle =>
        have none : r.transfers = none := loose fun here => by simp [inTransmission, here] at idle
        refine (finish_cancelled_sound sound active none).2 (sound.not_receiving ?_)
        intro here
        simp [inTransmission, here] at idle
    split
    · next accepted =>
        have none : r.transfers = none := by
          apply loose
          intro here
          rw [refused canceled active here] at accepted
          cases accepted
        exact (finish_cancelled_sound sound active none).1
    · exact sound.canceling r.canceled

section
variable (sound : Sound config .respond r)

include sound

theorem Sound.kept (unfinished : r.isFinished = false) (responses : List Response)
    (log : r.active = true → Unanswered responses) (unchanged : r.active = false → responses = r.responses) :
    Sound config .lateStatus { r with responses } := by
  have buffered := sound.buffered nofun
  refine ⟨sound.held, sound.loose, fun _ => buffered, sound.receives, nofun, ?_, ?_, ?_, ?_⟩
  · intro active some
    have st := (sound.early active some).2.1
    simp [isFinished, st] at unfinished
  · intro active none
    obtain ⟨apart, incomplete, watched⟩ := sound.plain active none
    refine ⟨apart, incomplete, fun seen => ?_⟩
    rcases watched seen with gen | done | ⟨_, complete⟩
    · exact .inl gen
    · exact .inr (.inl done)
    · simp [isFinished, complete] at unfinished
  · intro active
    refine ⟨?_, (sound.waits active).2⟩
    simpa [Request.log, buffered] using log active
  · intro out
    rw [unchanged out]
    exact sound.gone out

theorem finish_sound (active : r.active = true) (finished : r.isFinished = true) :
    Sound config .lateStatus (finishResponse config { r with responses := r.responses ++ [.result true] }) := by
  have buffered := sound.buffered (by simp)
  obtain ⟨unanswered, unfreed⟩ := sound.waits active
  have answered : Answered (r.responses ++ [Response.result true] ++ r.pendingResponses) := by
    have closed := unanswered.close (show (Response.result true).final = true from rfl)
    simpa [log, buffered] using closed
  have still : r.receiving = false := by
    apply sound.not_receiving
    intro here
    simp [isFinished, here] at finished
  rcases Option.eq_none_or_eq_some r.transfers with transfers | ⟨count, transfers⟩
  · obtain ⟨apart, incomplete, _⟩ := sound.plain active transfers
    have freed : finishResponse config { r with responses := r.responses ++ [.result true] } =
        terminateRequest { r with responses := r.responses ++ [.result true], active := false } := by
      simp only [isDisaggContextTransmissionState] at apart
      simp [finishResponse, incomplete, isDisaggContextTransmissionState, apart]
    rw [freed]
    refine Sound.of_gone (by simp) ?_ (fun _ => sound.loose transfers) (fun _ => buffered) still rfl answered ?_
    · intro count some
      cases transfers.symm.trans some
    · simp [terminateRequest, unfreed, transfers]
  · have st := (sound.early active (by rw [transfers]; rfl)).2.1
    cases stores : config.shouldStoreBlocks with
    | true =>
      have freed : finishResponse config { r with responses := r.responses ++ [.result true] } =
          terminateRequest { r with responses := r.responses ++ [.result true], active := false } := by
        simp [finishResponse, st, stores]
      rw [freed]
      refine Sound.of_gone (by simp) sound.held sound.loose (fun _ => buffered) still rfl answered ?_
      simp [terminateRequest, unfreed, stores]
    | false =>
      have kept : finishResponse config { r with responses := r.responses ++ [.result true] } =
          { r with responses := r.responses ++ [.result true], active := false } := by
        simp [finishResponse, st, stores, isDisaggContextTransmissionState]
      rw [kept]
      refine Sound.of_gone (by simp) sound.held sound.loose (fun _ => buffered) still rfl answered ?_
      simp [unfreed, stores, transfers]

theorem Sound.left (out : r.active = false) : Sound config .lateStatus r :=
  Sound.of_gone nofun sound.held sound.loose (fun _ => sound.buffered nofun) (sound.still out) out (sound.gone out).1
    (sound.gone out).2

theorem respond_sound (cancels : Bool) (accepted : r.active = true → r.kvTransferTimedOut = true → cancels = true) :
    Sound config .lateStatus (r.handleResponse config cancels) := by
  cases active : r.active with
  | false =>
    simp only [handleResponse, active, Bool.not_false, if_true]
    exact sound.left active
  | true =>
    have buffered := sound.buffered (by simp)
    obtain ⟨unanswered, unfreed⟩ := sound.waits active
    have bare : Unanswered r.responses := by simpa [log, buffered] using unanswered
    rw [handleResponse, if_neg (by simp [active])]
    split
    · next timed =>
        have none : r.transfers = none := by
          rcases Option.eq_none_or_eq_some r.transfers with none | ⟨count, transfers⟩
          · exact none
          · rw [(sound.early active (by rw [transfers]; rfl)).2.2] at timed
            cases timed
        rw [accepted active timed, if_pos rfl]
        exact fail_sound (by simp) buffered none ⟨rfl, (sound.loose none).2⟩ rfl unanswered unfreed
    split
    · next waiting => exact sound.kept waiting.2.1 r.responses (fun _ => bare) fun _ => rfl
    cases finished : r.isFinished with
    | true =>
      have emits : (if r.shouldEmit config = true then r.createResponse else none) = some (.result true) := by
        simp [shouldEmit, createResponse, finished]
      simp only [emits, if_true]
      exact finish_sound sound active finished
    | false =>
      cases emitted : (if r.shouldEmit config = true then r.createResponse else none) with
      | none => exact sound.kept finished r.responses (fun _ => bare) fun _ => rfl
      | some response =>
        have unfinished : response.final = false := by
          simp only [createResponse, finished, Bool.false_or] at emitted
          split_ifs at emitted
          cases emitted
          rfl
        exact sound.kept finished _ (fun _ => bare.push unfinished) fun out => by cases active.symm.trans out

end
end TrtLlm.Disagg
