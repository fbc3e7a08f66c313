import TrtLlm.Transceiver.SenderEnds

set_option autoImplicit false

namespace TrtLlm.Transceiver
open List Sender Lib.Table
open Lib (Table Trace AllSteps Reachable trace_invariant)
variable {counterparts : RequestId → Nat} {isAgent : Bool} {s next : Sender}

structure SenderInvariant (counterparts : RequestId → Nat) (s : Sender) : Prop where
  flags : FlagSound s
  booked : Booked counterparts s
  marked : Marked counterparts s
  delivered : s.readySignals = s.signals.flatMap (toCounterparts counterparts)

variable {action : Action}

theorem Step.delivers (step : Step counterparts isAgent s action next)
    (delivered : s.readySignals = s.signals.flatMap (toCounterparts counterparts)) :
    next.readySignals = next.signals.flatMap (toCounterparts counterparts) := by
  cases step with
  | response next step =>
    cases step with
    | signal id isReady here connected => simp [delivered]
    | job id stage later after here step =>
      obtain ⟨_, _, _, _, rfl⟩ := step.written
      exact delivered
    | _ => exact delivered
  | work id stage later before after done running step =>
    obtain ⟨_, _, _, _, rfl⟩ := step.written
    exact delivered
  | _ => exact delivered

theorem SenderInvariant.step (inv : SenderInvariant counterparts s) (guard : FlagGuard s action)
    (step : Step counterparts isAgent s action next) : SenderInvariant counterparts next :=
  ⟨inv.flags.step guard step, inv.booked.step inv.flags step, inv.marked.step inv.booked inv.flags step,
    step.delivers inv.delivered⟩

theorem sender_start : SenderInvariant counterparts {} := ⟨flag_sound_start, booked_start, marked_start, rfl⟩

-- One signal to each counterpart, one future, and the data sent once unless cancelled. Only release clears the
-- session.
structure Settled (counterparts : RequestId → Nat) (s : Sender) (id : RequestId) (success : Bool) : Prop where
  signal : s.readySignals.filter (fun entry => entry.1 = id) =
    (range (counterparts id)).map fun peer => (id, peer, decide (id ∉ s.cancelReturned))
  future : s.resolved.filter (fun entry => entry.1 = id) = [(id, success)]
  data : s.sent.filter (fun entry => entry.1 = id) = if id ∈ s.cancelReturned then [] else [(id, success)]
  refused : id ∈ s.cancelReturned → success = false
  response : id ∉ s.readyResponses
  count : Table.find id s.remainSendCount = none
  mark : id ∉ s.cancelledRequests
  session : Table.find id s.requestToSession = none ↔ success = true

variable {id : RequestId}

theorem filter_once {entries : List (RequestId × Bool)} (once : (entries.map Prod.fst).Nodup) {val : Bool}
    (mem : (id, val) ∈ entries) : entries.filter (fun entry => entry.1 = id) = [(id, val)] := by
  induction entries with
  | nil => cases mem
  | cons entry rest ih =>
    obtain ⟨absent, later⟩ := nodup_cons.mp once
    rcases mem_cons.mp mem with rfl | mem
    · rw [filter_cons_of_pos (by simp), filter_eq_nil_iff.mpr]
      intro other inside
      simp only [decide_eq_true_eq]
      exact fun same => absent (mem_map.mpr ⟨other, inside, same⟩)
    · have apart : entry.1 ≠ id := fun same => absent (same ▸ mem_map.mpr ⟨_, mem, rfl⟩)
      rw [filter_cons_of_neg (by simpa using apart)]
      exact ih later mem

theorem filter_never {entries : List (RequestId × Bool)} (absent : id ∉ entries.map Prod.fst) :
    entries.filter (fun entry => entry.1 = id) = [] := by
  rw [filter_eq_nil_iff]
  intro entry mem
  simp only [decide_eq_true_eq]
  exact fun same => absent (mem_map.mpr ⟨entry, mem, same⟩)

theorem SenderInvariant.signalled_once (inv : SenderInvariant counterparts s) {isReady : Bool}
    (signal : (id, isReady) ∈ s.signals) : s.readySignals.filter (fun entry => entry.1 = id) =
      (range (counterparts id)).map fun peer => (id, peer, decide (id ∉ s.cancelReturned)) := by
  have each : ∀ entry : RequestId × Bool, (toCounterparts counterparts entry).filter (fun entry => entry.1 = id) =
      if entry.1 = id then toCounterparts counterparts entry else [] := by
    intro entry
    split <;> simp [toCounterparts, *]
  have only : s.signals.flatMap (fun entry => if entry.1 = id then toCounterparts counterparts entry else []) =
      (s.signals.filter fun entry => entry.1 = id).flatMap (toCounterparts counterparts) := by
    induction s.signals with
    | nil => rfl
    | cons entry rest ih =>
      by_cases own : entry.1 = id
      · simp [own, ih]
      · simp [own, ih]
  rw [inv.delivered, filter_flatMap]
  simp only [each]
  rw [only, filter_once inv.marked.ledger.signalOnce signal, ← inv.marked.truth id isReady signal]
  simp [toCounterparts]

theorem Booked.signalled_uncounting (booked : Booked counterparts s) (signalled : id ∈ s.signals.map Prod.fst) :
    find id s.remainSendCount = none := by
  have full := booked.signalled id signalled
  cases found : find id s.remainSendCount with
  | none => rfl
  | some count =>
    have remaining := booked.remaining id count found
    omega

-- The future of a request is set before removeResponse erases it from the map.
theorem SenderInvariant.erased (inv : SenderInvariant counterparts s) (ended : id ∈ s.resolved.map Prod.fst)
    (elsewhere : s.pc ≠ .removeResponse id) : ¬s.pc.Holds id := by
  have ledger := inv.marked.ledger
  have unstaged : ∀ stage, (id, stage) ∉ s.pc.stages := fun stage staged =>
    (ledger.staged id stage (mem_append_right _ staged)).2.1 ended
  rintro (here | ⟨stage, here⟩ | here | here)
  · exact unstaged .sending (by simp [here, Pc.stages])
  · exact unstaged stage (by simp [here, Pc.stages])
  · exact elsewhere here
  · exact (ledger.drops id (by simp [here, Pc.dropping])).2 ended

theorem SenderInvariant.settled (inv : SenderInvariant counterparts s) {success : Bool}
    (resolved : (id, success) ∈ s.resolved) (elsewhere : s.pc ≠ .removeResponse id) : Settled counterparts s id success := by
  have marked := inv.marked
  have ledger := marked.ledger
  have ended : id ∈ s.resolved.map Prod.fst := mem_map.mpr ⟨_, resolved, rfl⟩
  have away := inv.erased ended elsewhere
  have signalled := ledger.known id (.inr (.inl ended))
  obtain ⟨isReady, signal⟩ : ∃ isReady, (id, isReady) ∈ s.signals := by simpa using signalled
  have truth := marked.truth _ _ signal
  have ready : id ∉ s.readyResponses := fun held => away (marked.held id signalled held)
  have mark : id ∉ s.cancelledRequests := by
    intro mem
    have here := marked.cleaned id signalled mem
    exact away (.inr (.inr (.inr here)))
  have count := inv.booked.signalled_uncounting signalled
  have future := filter_once ledger.resolvedOnce resolved
  cases isReady with
  | false =>
    have cancelled : id ∈ s.cancelReturned := by simpa using truth
    obtain ⟨unsent, unreleased, fate⟩ := ledger.dropped _ signal
    have failed : success = false := by
      rcases fate with ⟨_, unresolved⟩ | failed
      · exact absurd ended unresolved
      · exact unique_value ledger.resolvedOnce resolved failed
    refine ⟨inv.signalled_once signal, future, ?_, fun _ => failed, ready, count, mark, ?_⟩
    · rw [if_pos cancelled]
      exact filter_never unsent
    · have held := inv.booked.session_open signalled (marked.positive _ signalled) unreleased
      simp [held, failed]
  | true =>
    have uncancelled : id ∉ s.cancelReturned := by simpa using truth
    have unstaged : id ∉ s.stages.map Prod.fst := by
      intro mem
      obtain ⟨stage, staged⟩ : ∃ stage, (id, stage) ∈ s.stages := by simpa using mem
      exact (ledger.staged id stage staged).2.1 ended
    obtain ⟨out, known, sent, released⟩ := ledger.finished _ signal unstaged
    have same := unique_value ledger.resolvedOnce known resolved
    subst same
    refine ⟨inv.signalled_once signal, future, ?_, fun cancelled => absurd cancelled uncancelled, ready,
      count, mark, ?_⟩
    · rw [if_neg uncancelled]
      exact filter_once ledger.sentOnce sent
    rw [← released]
    constructor
    · intro closed
      by_contra unreleased
      exact inv.booked.session_open signalled (marked.positive _ signalled) unreleased closed
    · exact marked.cleared _

def JobStage.rank : JobStage → Nat
  | .sending => 3
  | .releasing => 2
  | .resolving => 1

def Pc.rank : Pc → Nat
  | .receivedTest _ => 27
  | .setCurrent _ => 26
  | .countInit _ => 25
  | .lookup => 24
  | .innerWait => 23
  | .innerTerminateTest => 22
  | .lookupAgain => 21
  | .foundTest => 20
  | .respond => 19
  | .cancelCheck _ => 18
  | .signal _ _ => 17
  | .handOver _ => 16
  | .job _ stage => 11 + stage.rank
  | .removeCancelled _ => 13
  | .resolveCancelled _ => 12
  | .removeResponse _ => 11
  | .mapTest => 10
  | .clearReady => 9
  | .reset => 8
  | .loopTest => 7
  | .loopTestReady => 6
  | .readyTest => 5
  | .topWait => 4
  | .terminateTest => 3
  | .emptyTest => 2
  | .receive => 1
  | .left => 0
  | .died => 0

def Sender.work (s : Sender) : Nat :=
  27 * s.inbox.length + 4 * s.sendQueue.length + (s.jobs.map fun job => job.2.rank).sum + s.pc.rank

def Sender.Announced (s : Sender) : Prop := ∀ info ∈ s.inbox ++ s.received, info.1 ∈ s.begun

def Action.Internal (action : Action) : Prop := action = .response ∨ action = .worker

theorem SenderInvariant.uncounted_ready (inv : SenderInvariant counterparts s) (announced : s.Announced)
    (held : s.uncounted = some id) : id ∈ s.readyResponses := by
  have tally := inv.booked.tally id
  rw [if_pos held] at tally
  have listed : id ∈ s.received.map Prod.fst := count_pos_iff.mp (by omega)
  obtain ⟨info, arrived, rfl⟩ := mem_map.mp listed
  rcases inv.marked.kept _ (announced info (mem_append_right _ arrived)) with ready | signalled
  · exact ready
  · exact absurd signalled (inv.booked.uncounted_fresh held).2.1

theorem job_step_exists (s : Sender) (id : RequestId) (stage : JobStage) : ∃ later after, JobStep s id stage later after := by
  by_cases session : find id s.requestToSession = none
  · cases stage with
    | sending => exact ⟨_, _, .sendUnknown session⟩
    | releasing => exact ⟨_, _, .releaseUnknown session⟩
    | resolving => exact ⟨_, _, .resolve⟩
  · cases stage with
    | sending => exact ⟨_, _, .send session⟩
    | releasing => exact ⟨_, _, .release session⟩
    | resolving => exact ⟨_, _, .resolve⟩

theorem JobStep.rank_lt {stage : JobStage} {later : Option JobStage} {after : Sender}
    (step : JobStep s id stage later after) : ((later.map JobStage.rank).getD 0) < stage.rank := by
  cases step <;> simp [JobStage.rank]

variable (inv : SenderInvariant counterparts s)

include inv

-- Without the test of an empty map, and with every looked up response in it, the thread receives an info before
-- it goes back.
theorem SenderInvariant.control_descends (announced : s.Announced) (pc : Pc)
    (moved : s.control = some pc) : pc.rank < s.pc.rank := by
  have serving := inv.flags.serving
  have waiting : ∀ id, s.uncounted = some id → id ∈ s.readyResponses := fun id => inv.uncounted_ready announced
  cases here : s.pc <;> simp only [Sender.control, here, uncounted, forall_const] at moved serving waiting
  case lookup | lookupAgain =>
    cases cur : s.currentRequest with
    | none =>
      simp only [cur, Option.some.injEq] at moved
      subst moved
      decide
    | some id =>
      simp only [cur, if_pos (waiting id cur), Option.some.injEq] at moved
      subst moved
      decide
  case emptyTest =>
    simp only [if_neg serving, Option.some.injEq] at moved
    subst moved
    decide
  all_goals grind [Pc.rank]

theorem SenderInvariant.response_descends (announced : s.Announced)
    (step : ResponseStep counterparts isAgent s next) : next.work < s.work := by
  cases step with
  | control pc moved =>
    have lower := inv.control_descends announced pc moved
    simp only [work]
    omega
  | receive id peer rest here arrived =>
    simp only [work, here, arrived, length_cons, Pc.rank]
    omega
  | handOver id here other =>
    simp only [work, here, length_append, length_cons, length_nil, Pc.rank]
    omega
  | signal id isReady here connected => cases isReady <;> simp [work, here, Pc.rank]
  | job id stage later after here step =>
    have lower := step.rank_lt
    obtain ⟨_, _, _, _, rfl⟩ := step.written
    simp only [work, here]
    cases later <;> simp [Pc.rank] at lower ⊢ <;> omega
  | _ => simp [work, Pc.rank, JobStage.rank, *]

theorem SenderInvariant.descends (announced : s.Announced)
    (internal : action.Internal) (step : Step counterparts isAgent s action next) : next.work < s.work := by
  cases step with
  | response next step => exact inv.response_descends announced step
  | take id rest queued =>
    simp only [work, queued, map_append, map_cons, map_nil, sum_append, sum_cons, sum_nil, length_cons, JobStage.rank]
    omega
  | work id stage later before after done running step =>
    have lower := step.rank_lt
    obtain ⟨_, _, _, _, rfl⟩ := step.written
    simp only [work, running, map_append, map_cons, sum_append, sum_cons]
    cases later <;> simp at lower ⊢ <;> omega
  | _ => simp [Action.Internal] at internal

omit inv

theorem Step.announced (internal : action.Internal) (step : Step counterparts isAgent s action next)
    (announced : s.Announced) : next.Announced := by
  cases step with
  | response next step =>
    cases step with
    | receive id peer rest here arrived =>
      intro info mem
      apply announced info
      simp only [arrived, mem_append, mem_cons, not_mem_nil, or_false] at mem ⊢
      tauto
    | job id stage later after here step =>
      obtain ⟨_, _, _, _, rfl⟩ := step.written
      exact announced
    | _ => exact announced
  | take id rest queued => exact announced
  | work id stage later before after done running step =>
    obtain ⟨_, _, _, _, rfl⟩ := step.written
    exact announced
  | _ => simp [Action.Internal] at internal

theorem SenderInvariant.internal_bound (inv : SenderInvariant counterparts s) (announced : s.Announced)
    (more : List (Action × Sender)) (trace : Trace (Step counterparts isAgent) s more)
    (internal : ∀ entry ∈ more, entry.1.Internal) : more.length ≤ s.work := by
  induction trace with
  | nil _ => simp
  | @cons before after action rest step _ ih =>
    have own := internal _ mem_cons_self
    have guard : FlagGuard before action := by rcases own with rfl | rfl <;> trivial
    have later := ih (inv.step guard step) (step.announced own announced) (forall_mem_cons.mp internal).2
    have lower := inv.descends announced own step
    simp only [length_cons]
    omega

def Sender.Quiet (counterparts : RequestId → Nat) (isAgent : Bool) (s : Sender) : Prop :=
  ∀ action next, Step counterparts isAgent s action next → ¬action.Internal

theorem Sender.Quiet.stuck {goal : Prop} (quiet : s.Quiet counterparts isAgent) (step : ResponseStep counterparts isAgent s next) :
    goal :=
  absurd (.inl rfl) (quiet _ _ (.response _ step))

theorem Sender.Quiet.idle (quiet : s.Quiet counterparts isAgent) : s.sendQueue = [] ∧ s.jobs = [] := by
  constructor
  · cases queued : s.sendQueue with
    | nil => rfl
    | cons id rest => exact absurd (.inr rfl) (quiet _ _ (.take id rest queued))
  · cases running : s.jobs with
    | nil => rfl
    | cons job rest =>
      obtain ⟨later, after, step⟩ := job_step_exists s job.1 job.2
      exact absurd (.inr rfl) (quiet _ _ (.work job.1 job.2 later [] rest after running step))

section
variable (inv : SenderInvariant counterparts s) (quiet : s.Quiet counterparts isAgent) (announced : s.Announced)
    (running : s.terminate = false) (returned : s.inserting = [])

include inv quiet announced running returned

theorem SenderInvariant.quiet_place : s.Blocked ∨ s.pc = .receive ∧ s.inbox = [] := by
  have waiting : ∀ id, s.uncounted = some id → id ∈ s.readyResponses := fun id => inv.uncounted_ready announced
  have flagged : ∀ id ∈ s.readyResponses, s.anyReady = true := by
    intro id held
    rcases inv.flags.unflagged (ne_nil_of_mem held) with ⟨set, _⟩ | calls
    · exact set
    · exact absurd returned calls
  have still : s.control = none := by
    cases moved : s.control with
    | none => rfl
    | some pc => exact quiet.stuck (.control pc moved)
  have place := inv.booked.place
  cases here : s.pc with
  | topWait =>
    simp only [Sender.control, here, running] at still
    exact .inl ⟨here, by simpa using still, running⟩
  | receive =>
    cases arrived : s.inbox with
    | nil => exact .inr ⟨rfl, rfl⟩
    | cons info rest => exact quiet.stuck (.receive info.1 info.2 rest here arrived)
  | innerWait =>
    simp only [PlaceSound, here] at place
    obtain ⟨id, cur, _⟩ := place
    have set := flagged id (waiting id (by simp only [uncounted, here, cur]))
    simp [Sender.control, here, set] at still
  | respond =>
    simp only [PlaceSound, here] at place
    obtain ⟨id, cur, known, _⟩ := place
    obtain ⟨count, found⟩ := Option.ne_none_iff_exists'.mp known
    obtain _ | _ | count := count
    · exact absurd (inv.booked.remaining id 0 found).1 (by omega)
    · exact quiet.stuck (.respondLast id here cur found)
    · exact quiet.stuck (.respondMore id count here cur found)
  | setCurrent id => exact quiet.stuck (.setCurrent id here)
  | countInit id =>
    by_cases first : find id s.remainSendCount = none
    · by_cases session : find id s.requestToSession = none
      · exact quiet.stuck (.countUnknown id here first session)
      · exact quiet.stuck (.countInit id here first session)
    · exact quiet.stuck (.countKnown id here first)
  | signal id isReady =>
    by_cases connected : s.connected counterparts id
    · exact quiet.stuck (.signal id isReady here connected)
    · exact quiet.stuck (.signalUnknown id isReady here connected)
  | handOver id =>
    cases agent : isAgent with
    | false => exact quiet.stuck (.handOver id here agent)
    | true => exact quiet.stuck (.startJob id here agent)
  | job id stage =>
    obtain ⟨later, after, step⟩ := job_step_exists s id stage
    exact quiet.stuck (.job id stage later after here step)
  | removeResponse id => exact quiet.stuck (.removeResponse id here)
  | removeCancelled id =>
    by_cases held : id ∈ s.readyResponses
    · exact quiet.stuck (.removeCancelled id here held)
    · exact quiet.stuck (.removeUnknown id here held)
  | resolveCancelled id => exact quiet.stuck (.resolveCancelled id here)
  | clearReady => exact quiet.stuck (.clearReady here)
  | reset => exact quiet.stuck (.reset here)
  | left => simp [inv.flags.leaving here] at running
  | died => simp [PlaceSound, here] at place
  | lookup | lookupAgain =>
    simp only [Sender.control, here] at still
    split at still <;> cases still
  | _ => simp [Sender.control, here] at still

theorem SenderInvariant.quiet_settled (id : RequestId) (begun : id ∈ s.begun)
    (some_counterpart : 0 < counterparts id) (arrived : ∀ peer < counterparts id, (id, peer) ∈ s.inbox ++ s.received) :
    ∃ success, Settled counterparts s id success := by
  obtain ⟨unqueued, jobless⟩ := quiet.idle
  have place := inv.quiet_place quiet announced running returned
  have signalled : id ∈ s.signals.map Prod.fst := by
    rcases place with blocked | ⟨here, empty⟩
    · have unready := inv.flags.awake blocked returned
      rcases inv.marked.kept id begun with ready | signalled
      · simp [unready] at ready
      · exact signalled
    simp only [empty, nil_append] at arrived
    have all := received_ge arrived
    have exact_tally := inv.marked.exact_tally (by simp [here]) id
    have tally := inv.booked.tally id
    have bound := inv.booked.received_le id
    simp only [uncounted, here, reduceCtorEq, if_false] at exact_tally tally
    rcases inv.marked.complete id some_counterpart (by omega) with signalled | deciding
    · exact signalled
    · simp [Pc.Deciding, here] at deciding
  have resting : s.pc.stages = [] ∧ s.pc.dropping = none ∧ s.pc ≠ .removeResponse id := by
    rcases place with ⟨here, _⟩ | ⟨here, _⟩ <;> simp [here, Pc.stages, Pc.dropping]
  have unstaged : id ∉ s.stages.map Prod.fst := by simp [stages, unqueued, jobless, resting.1]
  have ledger := inv.marked.ledger
  obtain ⟨isReady, signal⟩ : ∃ isReady, (id, isReady) ∈ s.signals := by simpa using signalled
  cases isReady with
  | true =>
    obtain ⟨success, resolved, _⟩ := ledger.finished id signal unstaged
    exact ⟨success, inv.settled resolved resting.2.2⟩
  | false =>
    rcases (ledger.dropped id signal).2.2 with ⟨dropping, _⟩ | resolved
    · simp [resting.2.1] at dropping
    · exact ⟨false, inv.settled resolved resting.2.2⟩

end

theorem transfers_end_once (counterparts : RequestId → Nat) (isAgent : Bool) (run : List (Action × Sender))
    (trace : Trace (Step counterparts isAgent) {} run) (guarded : AllSteps FlagGuard {} run) : ∀ entry ∈ run,
      (∀ id success, (id, success) ∈ entry.2.resolved → entry.2.pc ≠ .removeResponse id →
        Settled counterparts entry.2 id success) ∧
      (entry.2.Announced → (∀ more, Trace (Step counterparts isAgent) entry.2 more → (∀ later ∈ more, later.1.Internal) →
          more.length ≤ entry.2.work) ∧ (entry.2.Quiet counterparts isAgent → entry.2.terminate = false → entry.2.inserting = [] →
          ∀ id ∈ entry.2.begun, 0 < counterparts id → (∀ peer < counterparts id, (id, peer) ∈ entry.2.inbox ++ entry.2.received) →
            ∃ success, Settled counterparts entry.2 id success)) := by
  intro entry mem
  have inv : SenderInvariant counterparts entry.2 :=
    trace_invariant FlagGuard (SenderInvariant counterparts) (fun _ _ _ inv guard step => inv.step guard step) {} run trace
      guarded sender_start entry mem
  refine ⟨fun id success resolved elsewhere => inv.settled resolved elsewhere, fun announced => ⟨?_, ?_⟩⟩
  · exact fun more trace internal => inv.internal_bound announced more trace internal
  · exact fun quiet running returned => inv.quiet_settled quiet announced running returned

theorem Sender.Blocked.quiet (blocked : s.Blocked) (unqueued : s.sendQueue = []) (jobless : s.jobs = []) :
    s.Quiet counterparts isAgent := by
  obtain ⟨here, unset, running⟩ := blocked
  intro action next step internal
  cases step with
  | response next step =>
    cases step with
    | control pc moved => simp [Sender.control, here, unset, running] at moved
    | _ => simp_all
  | take id rest queued => simp [unqueued] at queued
  | work id stage later before after done busy step => simp [jobless] at busy
  | _ => simp [Action.Internal] at internal

-- Request 7 is announced, its two infos arrive one by one, and the thread goes to sleep after it has sent the data.
theorem two_counterparts_run : ∃ run : List (Action × Sender), Trace (Step (fun _ => 2) true) {} run ∧
    AllSteps FlagGuard {} run ∧ ∃ last ∈ run.getLast?, last.2.Blocked ∧ last.2.sendQueue = [] ∧ last.2.jobs = [] ∧
      last.2.inserting = [] ∧ last.2.begun = [7] ∧ last.2.inbox = [] ∧ last.2.received = [(7, 1), (7, 0)] ∧
      last.2.sent = [(7, true)] ∧ last.2.resolved = [(7, true)] := by
  refine ⟨_, .cons (.arrive 7 1 (by decide) (by simp)) <| .cons (.insert 7 (by simp)) <| .cons (.flag 7 (by simp)) <|
    .cons (.control .readyTest rfl) <| .cons (.control .terminateTest rfl) <|
    .cons (.control .emptyTest rfl) <| .cons (.control .receive rfl) <|
    .cons (.response _ (.receive 7 1 [] rfl rfl)) <| .cons (.control (.setCurrent 7) rfl) <|
    .cons (.response _ (.setCurrent 7 rfl)) <| .cons (.response _ (.countInit 7 rfl rfl (by simp [addPeer, Table.find]))) <|
    .cons (.control .respond rfl) <| .cons (.response _ (.respondMore 7 0 rfl rfl rfl)) <|
    .cons (.response _ (.reset rfl)) <| .cons (.arrive 7 0 (by decide) (by simp)) <|
    .cons (.control .readyTest rfl) <| .cons (.control .terminateTest rfl) <|
    .cons (.control .emptyTest rfl) <| .cons (.control .receive rfl) <|
    .cons (.response _ (.receive 7 0 [] rfl rfl)) <| .cons (.control (.setCurrent 7) rfl) <|
    .cons (.response _ (.setCurrent 7 rfl)) <| .cons (.response _ (.countKnown 7 rfl (by simp [Table.find, Table.update]))) <|
    .cons (.control .respond rfl) <| .cons (.response _ (.respondLast 7 rfl rfl rfl)) <|
    .cons (.control (.signal 7 true) rfl) <|
    .cons (.response _ (.signal 7 true rfl ⟨[1, 0], rfl, by decide⟩)) <| .cons (.response _ (.startJob 7 rfl rfl)) <|
    .cons (.response _ (.job 7 .sending _ _ rfl (.send (by simp [addPeer, Table.find, Table.update])))) <|
    .cons (.response _ (.job 7 .releasing _ _ rfl (.release (by simp [addPeer, Table.find, Table.update])))) <|
    .cons (.response _ (.job 7 .resolving _ _ rfl .resolve)) <| .cons (.response _ (.removeResponse 7 rfl)) <|
    .cons (.control .clearReady rfl) <| .cons (.response _ (.clearReady rfl)) <|
    .cons (.response _ (.reset rfl)) <| .cons (.control .readyTest rfl) <| .cons (.control .topWait rfl) <| .nil _,
    ?_, _, rfl, ⟨rfl, rfl, rfl⟩, rfl, rfl, rfl, rfl, rfl, rfl, rfl, rfl⟩
  simp [AllSteps, FlagGuard]

theorem two_counterparts_end_once : ∃ s : Sender, s.Blocked ∧ s.resolved = [(7, true)] ∧ Settled (fun _ => 2) s 7 true ∧
    (∀ more, Trace (Step (fun _ => 2) true) s more → (∀ later ∈ more, later.1.Internal) → more.length ≤ s.work) ∧
    ∃ success, Settled (fun _ => 2) s 7 success := by
  obtain ⟨run, traced, guarded, last, final, blocked, unqueued, jobless, returned, begun, empty, received, _, resolved⟩ :=
    two_counterparts_run
  obtain ⟨settled, served⟩ := transfers_end_once (fun _ => 2) true run traced guarded last (mem_of_getLast? final)
  have announced : last.2.Announced := by simp [Announced, empty, received, begun]
  obtain ⟨bounded, quiet⟩ := served announced
  refine ⟨last.2, blocked, resolved, settled 7 true (by simp [resolved]) (by simp [blocked.1]), bounded, ?_⟩
  refine quiet (blocked.quiet unqueued jobless) blocked.2.2 returned 7 (by simp [begun]) (by decide) fun peer below => ?_
  simp only [empty, received, nil_append]
  interval_cases peer <;> simp

-- A request cancelled before its info is received keeps its session.
theorem cancelled_keeps_session : ∃ s : Sender, Reachable (Step (fun _ => 1) false) {} s ∧ s.resolved = [(0, false)] ∧
    s.currentRequest = none ∧ s.Blocked ∧ Table.find 0 s.requestToSession = some [0] := by
  refine ⟨_, Reachable.refl
    |>.step (.insert 0 (by simp)) |>.step (.flag 0 (by simp)) |>.step (.cancel 0 (by simp) (by simp))
    |>.step (.arrive 0 0 (by decide) (by simp))
    |>.step (.control .readyTest rfl) |>.step (.control .terminateTest rfl)
    |>.step (.control .emptyTest rfl) |>.step (.control .receive rfl)
    |>.step (.response _ (.receive 0 0 [] rfl rfl)) |>.step (.control (.setCurrent 0) rfl)
    |>.step (.response _ (.setCurrent 0 rfl)) |>.step (.response _ (.countInit 0 rfl rfl (by simp [addPeer, Table.find])))
    |>.step (.control .respond rfl) |>.step (.response _ (.respondLast 0 rfl rfl rfl))
    |>.step (.control (.signal 0 false) rfl) |>.step (.response _ (.signal 0 false rfl ⟨[0], rfl, by simp⟩))
    |>.step (.response _ (.removeCancelled 0 rfl (by simp))) |>.step (.response _ (.resolveCancelled 0 rfl))
    |>.step (.control .clearReady rfl) |>.step (.response _ (.clearReady rfl)) |>.step (.response _ (.reset rfl))
    |>.step (.control .readyTest rfl) |>.step (.control .topWait rfl), rfl, rfl, ⟨rfl, rfl, rfl⟩, rfl⟩

theorem data_follows_infos (counterparts : RequestId → Nat) (isAgent : Bool) (run : List (Action × Sender))
    (trace : Trace (Step counterparts isAgent) {} run) (guarded : AllSteps FlagGuard {} run) : ∀ entry ∈ run,
      (∀ id ∈ entry.2.begun, id ∈ entry.2.readyResponses ∨ id ∈ entry.2.signals.map Prod.fst) ∧
      (∀ id ∈ entry.2.signals.map Prod.fst, id ∈ entry.2.begun ∧ ∀ peer < counterparts id, (id, peer) ∈ entry.2.received) ∧
      ∀ id ∈ entry.2.sent.map Prod.fst, (id, true) ∈ entry.2.signals := by
  intro entry mem
  obtain ⟨_, booked, marked⟩ := trace_invariant FlagGuard (SenderInvariant counterparts)
    (fun _ _ _ inv guard step => inv.step guard step) {} run trace guarded sender_start entry mem
  refine ⟨marked.kept, fun id signalled => ⟨marked.signalBegun id signalled, fun peer below => ?_⟩, fun id sent => ?_⟩
  · exact booked.all_received (booked.signalled id signalled) peer below
  · obtain ⟨⟨_, isReady⟩, signal, rfl⟩ := mem_map.mp (marked.ledger.known id (.inl sent))
    cases isReady with
    | true => exact signal
    | false => exact absurd sent (marked.ledger.dropped _ signal).1

theorem served_request_signalled : ∃ s : Sender, s.begun = [7] ∧ s.sent = [(7, true)] ∧
    (7 ∈ s.readyResponses ∨ 7 ∈ s.signals.map Prod.fst) ∧ (∀ peer < 2, (7, peer) ∈ s.received) ∧ (7, true) ∈ s.signals := by
  obtain ⟨run, traced, guarded, last, final, _, _, _, _, begun, _, _, sent, _⟩ := two_counterparts_run
  obtain ⟨kept, received, follows⟩ := data_follows_infos (fun _ => 2) true run traced guarded last (mem_of_getLast? final)
  have signal := follows 7 (by simp [sent])
  exact ⟨last.2, begun, sent, kept 7 (by simp [begun]), (received 7 (mem_map.mpr ⟨_, signal, rfl⟩)).2, signal⟩

end TrtLlm.Transceiver
