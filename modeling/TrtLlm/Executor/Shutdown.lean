import TrtLlm.Lib.Runs
import TrtLlm.Executor.Owing

set_option autoImplicit false

namespace TrtLlm.Executor
open List LlmRequest
open Lib (Trace AllSteps trace_invariant)

namespace Impl

theorem take_fitting_cons (beamWidth maxNew count : Nat) (req : RequestWithId) (rest : List RequestWithId) :
    takeFitting beamWidth maxNew count (req :: rest) = ([], req :: rest) ∨
      (count + (getNumChildRequests req.req + 1) ≤ maxNew ∧ req.req.beamWidth = beamWidth ∧
        takeFitting beamWidth maxNew count (req :: rest) =
          let later := takeFitting beamWidth maxNew (count + (getNumChildRequests req.req + 1)) rest
          (req :: later.1, later.2)) := by
  rw [takeFitting]
  split
  · exact .inl rfl
  split
  · exact .inl rfl
  next small =>
  split
  · exact .inl rfl
  next same => exact .inr ⟨not_lt.mp small, Decidable.not_not.mp same, rfl⟩

section
variable (queue : List RequestWithId)

theorem take_fitting_append (beamWidth maxNew count : Nat) :
    (takeFitting beamWidth maxNew count queue).1 ++ (takeFitting beamWidth maxNew count queue).2 = queue := by
  induction queue generalizing count with
  | nil => rfl
  | cons req rest ih =>
    rcases take_fitting_cons beamWidth maxNew count req rest with none_taken | ⟨_, _, taken⟩
    · rw [none_taken, nil_append]
    · rw [taken]
      exact congrArg (cons req) (ih _)

theorem take_urgent_append (beamWidth : Nat) (lowest : PriorityType) :
    (takeUrgent beamWidth lowest queue).1 ++ (takeUrgent beamWidth lowest queue).2 = queue := by
  induction queue with
  | nil => rfl
  | cons req rest ih =>
    rw [takeUrgent]
    split
    · rfl
    · split
      · rfl
      · exact congrArg (cons req) ih

theorem take_fitting_beams (beamWidth maxNew count : Nat) :
    ∀ req ∈ (takeFitting beamWidth maxNew count queue).1, req.req.beamWidth = beamWidth := by
  induction queue generalizing count with
  | nil => exact nofun
  | cons req rest ih =>
    rcases take_fitting_cons beamWidth maxNew count req rest with none_taken | ⟨_, same, taken⟩
    · rw [none_taken]
      exact nofun
    · rw [taken]
      exact forall_mem_cons.mpr ⟨same, ih _⟩

theorem take_urgent_taken (beamWidth : Nat) (lowest : PriorityType) :
    ∀ req ∈ (takeUrgent beamWidth lowest queue).1, req.req.beamWidth = beamWidth ∧ lowest < req.req.priority := by
  induction queue with
  | nil => exact nofun
  | cons req rest ih =>
    rw [takeUrgent]
    split
    · exact nofun
    next urgent =>
    split
    · exact nofun
    next same => exact forall_mem_cons.mpr ⟨⟨Decidable.not_not.mp same, lt_of_not_ge urgent⟩, ih⟩

theorem take_fitting_all (beamWidth maxNew count : Nat) (within : count ≤ maxNew)
    (emptied : (takeFitting beamWidth maxNew count queue).2 = []) : count + totalRequestSize queue ≤ maxNew := by
  induction queue generalizing count with
  | nil => exact within
  | cons req rest ih =>
    rcases take_fitting_cons beamWidth maxNew count req rest with none_taken | ⟨fits, _, taken⟩
    · rw [none_taken] at emptied
      cases emptied
    rw [taken] at emptied
    have later := ih _ fits emptied
    have total : totalRequestSize (req :: rest) = getNumChildRequests req.req + 1 + totalRequestSize rest := rfl
    omega

end

variable (s : Impl) (modelBeamWidth : Nat)

theorem dequeue_append :
    (s.getLeaderNewReqWithIds modelBeamWidth).1 ++ (s.getLeaderNewReqWithIds modelBeamWidth).2 = s.queuedRequests := by
  rw [getLeaderNewReqWithIds]
  cases s.queuedRequests with
  | nil => rfl
  | cons first rest =>
    dsimp only
    split
    · rfl
    have fitting := take_fitting_append (first :: rest) (s.operatingBeamWidth modelBeamWidth first) s.maxNewRequests 0
    cases s.lowestPriority with
    | none => exact fitting
    | some lowest =>
      rw [append_assoc, take_urgent_append]
      exact fitting

-- While the terminate request waits behind others, the batch cannot hold the queue: a beam width differs, or the
-- queue exceeds the free places and no active request is less urgent.
def SafeToFetch : Prop :=
  ∀ first rest, s.queuedRequests = first :: rest → first.id ≠ kTerminateReqId → terminateRequest ∈ rest →
    (∃ request ∈ s.queuedRequests, request.req.beamWidth ≠ s.operatingBeamWidth modelBeamWidth first) ∨
    (s.maxNewRequests < totalRequestSize s.queuedRequests ∧ ∀ lowest, s.lowestPriority = some lowest → kDefaultPriority ≤ lowest)

section
variable (first : RequestWithId) (rest : List RequestWithId) (queue : s.queuedRequests = first :: rest)
    (ordinary : first.id ≠ kTerminateReqId)

include queue ordinary

theorem dequeue_all (emptied : (s.getLeaderNewReqWithIds modelBeamWidth).2 = []) :
    (∀ req ∈ s.queuedRequests, req.req.beamWidth = s.operatingBeamWidth modelBeamWidth first) ∧
    (totalRequestSize s.queuedRequests ≤ s.maxNewRequests ∨ ∃ lowest, s.lowestPriority = some lowest ∧
      ∀ last, s.queuedRequests.getLast? = some last → lowest < last.req.priority) := by
  rw [getLeaderNewReqWithIds, queue] at emptied
  dsimp only at emptied
  rw [if_neg ordinary] at emptied
  rw [queue]
  generalize s.operatingBeamWidth modelBeamWidth first = width at *
  have whole := take_fitting_append (first :: rest) width s.maxNewRequests 0
  have beams := take_fitting_beams (first :: rest) width s.maxNewRequests 0
  have room := take_fitting_all (first :: rest) width s.maxNewRequests 0 (Nat.zero_le _)
  rw [Nat.zero_add] at room
  generalize takeFitting width s.maxNewRequests 0 (first :: rest) = taken at *
  obtain ⟨fitting, left⟩ := taken
  cases urgency : s.lowestPriority with
  | none =>
    simp only [urgency] at emptied
    rw [emptied, append_nil] at whole
    exact ⟨fun req mem => beams req (whole ▸ mem), .inl (room emptied)⟩
  | some lowest =>
    simp only [urgency] at emptied
    have urgent := take_urgent_taken left width lowest
    have part := take_urgent_append left width lowest
    rw [emptied, append_nil] at part
    rw [part] at urgent
    refine ⟨?_, ?_⟩
    · intro req mem
      rw [← whole] at mem
      rcases mem_append.mp mem with early | late
      · exact beams req early
      · exact (urgent req late).1
    · cases left with
      | nil => exact .inl (room rfl)
      | cons next more =>
        refine .inr ⟨lowest, rfl, ?_⟩
        intro last lastEq
        rw [← whole, getLast?_append_of_ne_nil _ (cons_ne_nil _ _)] at lastEq
        exact (urgent last (mem_of_getLast? lastEq)).2

theorem dequeue_leaves (waiting : s.queuedRequests.getLast? = some terminateRequest)
    (safe : s.SafeToFetch modelBeamWidth) : (s.getLeaderNewReqWithIds modelBeamWidth).2 ≠ [] := by
  intro emptied
  have mem : terminateRequest ∈ rest := by
    have present := mem_of_getLast? waiting
    rw [queue] at present
    rcases mem_cons.mp present with same | later
    · exact absurd (congrArg RequestWithId.id same).symm ordinary
    · exact later
  obtain ⟨beams, room⟩ := s.dequeue_all modelBeamWidth first rest queue ordinary emptied
  rcases safe first rest queue ordinary mem with ⟨req, requestMem, other⟩ | ⟨large, calm⟩
  · exact other (beams req requestMem)
  · rcases room with fits | ⟨lowest, urgency, urgent⟩
    · exact absurd fits (not_le.mpr large)
    · exact absurd (urgent terminateRequest waiting) (not_lt_of_ge (calm lowest urgency))

end

-- When a forward call throws, every active child has its parent.
def ParentsActive : Prop :=
  ∀ request ∈ s.activeRequests, request.isChild = true → ∃ parent ∈ s.activeRequests, parent.requestId = request.parentRequestId

def numIds (requests : List Request) : Nat := (requests.map fun request => getNumChildRequests request + 1).sum

def DrainGuard (s : Impl) : Action → Prop
  | .enqueueRequests requests => s.lastReqId + numIds requests ≤ kMaxLocalReqId
  | .sync _ none => s.ParentsActive
  | .async none => s.ParentsActive
  | .fetch modelBeamWidth _ => s.SafeToFetch modelBeamWidth
  | _ => True

def queuedIds : List Nat := s.queuedRequests.map RequestWithId.id

def tags : List Tag := s.activeRequests.map LlmRequest.tag

structure Draining (s : Impl) : Prop where
  counted : 1 ≤ s.lastReqId
  named : ∀ id ∈ s.returned, id ≠ kTerminateReqId
  running : s.shutdownCalled = false → s.shutdown = false ∧ ∀ request ∈ s.queuedRequests, request.id ≠ kTerminateReqId
  stopping : s.shutdownCalled = true → s.shutdown = false → ∃ ordinary, s.queuedRequests = ordinary ++ [terminateRequest] ∧
    ∀ request ∈ ordinary, request.id ≠ kTerminateReqId
  stopped : s.shutdown = true → s.queuedRequests = []
  left : s.phase = .exited → s.shutdown = true ∧ s.activeRequests = []
  owing : Owing (fun id => id ∈ s.returned ∧ id ∉ s.queuedIds) s.tags s.sequenceFinalVecs s.responses

theorem generated_id (lastReqId : Nat) (req : Request) (counted : 1 ≤ lastReqId) (few : lastReqId < kMaxLocalReqId) :
    let made := generateReqId lastReqId req
    made.1 ≠ kTerminateReqId ∧ lastReqId ≤ made.2 ∧ made.2 ≤ lastReqId + 1 := by
  have small : lastReqId % kMaxLocalReqId = lastReqId := Nat.mod_eq_of_lt few
  have ordinary : lastReqId % kMaxLocalReqId ≠ kTerminateReqId := by
    rw [small]
    exact ne_of_gt counted
  rw [generateReqId]
  cases req.disaggRequestId with
  | none => exact ⟨ordinary, Nat.le_succ _, le_rfl⟩
  | some id =>
    dsimp only
    split
    · next foreign =>
      exact ⟨ne_of_gt (Nat.zero_lt_of_lt foreign), le_rfl, Nat.le_succ _⟩
    · exact ⟨ordinary, Nat.le_succ _, le_rfl⟩

theorem assigned_ids (lastReqId : Nat) (reqs : List Request) (counted : 1 ≤ lastReqId)
    (few : lastReqId + numIds reqs ≤ kMaxLocalReqId) :
    (∀ req ∈ (assignIds lastReqId reqs).1, req.id ≠ kTerminateReqId) ∧
      lastReqId ≤ (assignIds lastReqId reqs).2 := by
  induction reqs generalizing lastReqId with
  | nil => exact ⟨nofun, le_rfl⟩
  | cons req rest ih =>
    have total : numIds (req :: rest) = getNumChildRequests req + 1 + numIds rest := rfl
    have here := generated_id lastReqId req counted (by omega)
    rw [assignIds]
    generalize generateReqId lastReqId req = made at here
    obtain ⟨id, next⟩ := made
    dsimp only at here ⊢
    obtain ⟨ordinary, more⟩ := ih (next + getNumChildRequests req) (by omega) (by omega)
    refine ⟨?_, by omega⟩
    exact forall_mem_cons.mpr ⟨here.1, ordinary⟩

theorem draining_enqueue (reqs : List Request) (few : s.lastReqId + numIds reqs ≤ kMaxLocalReqId)
    (draining : s.Draining) : (s.enqueueRequests reqs).Draining := by
  rw [enqueueRequests]
  by_cases called : s.shutdownCalled = true
  · rw [if_pos called]
    exact draining
  have notCalled : s.shutdownCalled = false := Bool.eq_false_iff.mpr called
  have assigned := assigned_ids s.lastReqId reqs draining.counted few
  have running := draining.running notCalled
  rw [if_neg called]
  generalize assignIds s.lastReqId reqs = made at assigned
  obtain ⟨added, last⟩ := made
  dsimp only at assigned ⊢
  have counted : 1 ≤ last := draining.counted.trans assigned.2
  by_cases full : s.queueFull added = true
  · rw [if_pos full]
    exact { draining with counted := counted }
  rw [if_neg full]
  refine ⟨counted, ?_, ?_, ?_, ?_, draining.left, ?_⟩
  · intro id mem
    rcases mem_append.mp mem with old | new
    · exact draining.named id old
    · obtain ⟨req, requestMem, rfl⟩ := mem_map.mp new
      exact assigned.1 req requestMem
  · intro _
    refine ⟨running.1, ?_⟩
    intro req mem
    rcases mem_append.mp ((insert_each_perm _ _ _).mem_iff.mp mem) with old | new
    · exact running.2 req old
    · exact assigned.1 req new
  · intro wrong
    exact absurd wrong called
  · intro wrong
    have wrong' : s.shutdown = true := wrong
    rw [running.1] at wrong'
    cases wrong'
  · refine owing_owed ?_ draining.owing
    rintro id ⟨known, absent⟩
    have apart : ∀ req, (req ∈ s.queuedRequests ∨ req ∈ added) → req.id ≠ id := by
      rintro req mem rfl
      exact absent (mem_map_of_mem ((insert_each_perm _ _ _).mem_iff.mpr (mem_append.mpr mem)))
    rcases mem_append.mp known with old | new
    · refine ⟨old, ?_⟩
      intro queued
      obtain ⟨req, mem, same⟩ := mem_map.mp queued
      exact apart req (.inl mem) same
    · obtain ⟨req, mem, same⟩ := mem_map.mp new
      exact absurd same (apart req (.inr mem))

theorem draining_shutdown (draining : s.Draining) : s.callShutdown.Draining := by
  rw [callShutdown]
  by_cases called : s.shutdownCalled = true
  · rw [if_pos called]
    exact draining
  have running := draining.running (Bool.eq_false_iff.mpr called)
  have open' : ¬s.shutdown = true := Bool.eq_false_iff.mp running.1
  rw [if_neg called, if_neg open']
  refine ⟨draining.counted, draining.named, nofun, fun _ _ => ⟨s.queuedRequests, rfl, running.2⟩,
    fun wrong => absurd wrong open', fun exited => absurd (draining.left exited).1 open', ?_⟩
  · refine owing_owed ?_ draining.owing
    rintro id ⟨known, absent⟩
    refine ⟨known, ?_⟩
    intro queued
    apply absent
    rw [queuedIds, map_append]
    exact mem_append_left _ queued

theorem progressed_tags (progress : Progress) (active : List LlmRequest) :
    (active.map (progressed progress)).map tag = active.map tag := by
  rw [map_map]
  rfl

structure Worked (s next : Impl) : Prop where
  queue : next.queuedRequests = s.queuedRequests
  returned : next.returned = s.returned
  counter : next.lastReqId = s.lastReqId
  called : next.shutdownCalled = s.shutdownCalled
  shutdown : next.shutdown = s.shutdown

theorem draining_worked (next : Impl) (worked : s.Worked next)
    (left : next.phase = .exited → next.shutdown = true ∧ next.activeRequests = [])
    (owing : Owing (fun id => id ∈ s.returned ∧ id ∉ s.queuedIds) next.tags next.sequenceFinalVecs next.responses)
    (draining : s.Draining) : next.Draining := by
  refine ⟨?_, ?_, ?_, ?_, ?_, left, ?_⟩
  · rw [worked.counter]
    exact draining.counted
  · rw [worked.returned]
    exact draining.named
  · rw [worked.called, worked.shutdown, worked.queue]
    exact draining.running
  · rw [worked.called, worked.shutdown, worked.queue]
    exact draining.stopping
  · rw [worked.shutdown, worked.queue]
    exact draining.stopped
  · rw [worked.returned, queuedIds, worked.queue]
    exact owing

theorem owing_forward (owed : Nat → Prop) (out : Option Progress) (parents : out = none → s.ParentsActive)
    (owing : Owing owed s.tags s.sequenceFinalVecs s.responses) :
    Owing owed (s.forward out).tags (s.forward out).sequenceFinalVecs (s.forward out).responses := by
  cases out with
  | some progress =>
    rw [tags, forward]
    rw [progressed_tags]
    exact owing
  | none =>
    have active := parents rfl
    have thrown := owing_terminate s.tags ?_ owing
    · rw [tags, map_map] at thrown
      exact thrown
    intro tag mem child
    obtain ⟨req, requestMem, rfl⟩ := mem_map.mp mem
    obtain ⟨parent, parentMem, same⟩ := active req requestMem child
    exact ⟨parent.tag, mem_map_of_mem parentMem, same⟩

theorem forward_worked (out : Option Progress) : s.Worked (s.forward out) := by
  cases out with
  | some progress | none => exact ⟨rfl, rfl, rfl, rfl, rfl⟩

theorem draining_sync (timedOut : LlmRequest → Bool) (out : Option Progress)
    (parents : out = none → s.ParentsActive) (draining : s.Draining) : (s.syncPart timedOut out).Draining := by
  rw [syncPart]
  by_cases ended : (s.shutdown && s.activeRequests.isEmpty) = true
  · rw [if_pos ended]
    rw [Bool.and_eq_true, List.isEmpty_iff] at ended
    exact s.draining_worked _ ⟨rfl, rfl, rfl, rfl, rfl⟩ (fun _ => ended) draining.owing draining
  rw [if_neg ended]
  by_cases idle : s.activeRequests.isEmpty = true
  · rw [if_pos idle]
    exact s.draining_worked _ ⟨rfl, rfl, rfl, rfl, rfl⟩ nofun draining.owing draining
  rw [if_neg idle]
  have forwarded := ((s.finishTimedOutRequests timedOut).terminateCancelledRequests).owing_forward _ out parents
    draining.owing
  have worked := ((s.finishTimedOutRequests timedOut).terminateCancelledRequests).forward_worked out
  generalize ((s.finishTimedOutRequests timedOut).terminateCancelledRequests).forward out = after at forwarded worked
  exact s.draining_worked _ { worked with } nofun (owing_populate [] after.activeRequests forwarded) draining

theorem draining_fetch_ordinary (failing : RequestWithId → Option Nat) (batch left : List RequestWithId)
    (split : batch ++ left = s.queuedRequests) (ordinary : ∀ req ∈ batch, req.id ≠ kTerminateReqId)
    (remains : s.shutdownCalled = true → left ≠ []) (opened : s.shutdown = false) (draining : s.Draining) :
    Draining { (fetchEach failing { s with queuedRequests := left } [] batch).1 with
      activeRequests := insertAll s.activeRequests (fetchEach failing { s with queuedRequests := left } [] batch).2
      phase := .async } := by
  have start : Owing (fun id => id ∈ s.returned ∧ id ∉ s.queuedIds) ((s.activeRequests ++ []).map tag)
      s.sequenceFinalVecs s.responses := by
    rw [append_nil]
    exact draining.owing
  have owing := owing_fetch_each { s with queuedRequests := left } failing _ s.activeRequests [] batch ordinary start
  have outside := fetch_each_outside { s with queuedRequests := left } failing [] batch ordinary
  generalize fetchEach failing { s with queuedRequests := left } [] batch = result at owing outside
  obtain ⟨next, fetched⟩ := result
  obtain ⟨queue, returned, shutdown, called, _, counter, _⟩ := outside
  refine ⟨?_, ?_, ?_, ?_, ?_, nofun, ?_⟩
  · rw [counter]
    exact draining.counted
  · rw [returned]
    exact draining.named
  · rw [called, shutdown, queue]
    intro notCalled
    refine ⟨opened, ?_⟩
    intro req mem
    exact (draining.running notCalled).2 req (split ▸ mem_append_right _ mem)
  · rw [called, shutdown, queue]
    intro isCalled _
    obtain ⟨before, whole, clean⟩ := draining.stopping isCalled opened
    -- The last of what is left is the last of the queue.
    obtain ⟨front, last, leftEq⟩ := (eq_nil_or_concat' left).resolve_left (remains isCalled)
    rw [whole, leftEq, ← append_assoc] at split
    obtain ⟨beforeEq, lastEq⟩ := append_inj' split rfl
    refine ⟨front, ?_, ?_⟩
    · rw [leftEq, lastEq]
    · intro req mem
      exact clean req (beforeEq ▸ mem_append_right _ mem)
  · rw [shutdown, opened]
    exact nofun
  · have active : Owing (fun id => id ∈ s.returned ∧ id ∉ left.map RequestWithId.id)
        ((s.activeRequests ++ fetched).map tag) next.sequenceFinalVecs next.responses := by
      refine owing_owed ?_ owing
      rintro id ⟨known, absent⟩
      by_cases batched : id ∈ batch.map RequestWithId.id
      · exact .inr batched
      · refine .inl ⟨known, ?_⟩
        rw [queuedIds, ← split, map_append, mem_append]
        exact fun either => either.elim batched absent
    dsimp only
    rw [returned, queue]
    exact owing_congr (fun _ => ((insert_each_perm _ s.activeRequests fetched).map tag).symm.mem_iff) active

theorem draining_fetch_terminate (queue : s.queuedRequests = [terminateRequest]) (called : s.shutdownCalled = true)
    (draining : s.Draining) : Draining { s with queuedRequests := [], shutdown := true, phase := .async } := by
  refine ⟨draining.counted, draining.named, fun notCalled => ?_, nofun, fun _ => rfl, nofun, ?_⟩
  · have wrong : s.shutdownCalled = false := notCalled
    rw [called] at wrong
    cases wrong
  · refine owing_owed ?_ draining.owing
    rintro id ⟨known, _⟩
    refine ⟨known, ?_⟩
    rw [queuedIds, queue]
    intro mem
    exact draining.named id known (mem_singleton.mp mem)

theorem draining_fetch (next : Impl) (failing : RequestWithId → Option Nat) (safe : s.SafeToFetch modelBeamWidth)
    (goes : s.fetchPart modelBeamWidth failing = some next) (draining : s.Draining) : next.Draining := by
  rw [fetchPart] at goes
  by_cases shut : s.shutdown = true
  · rw [if_pos shut] at goes
    cases goes
    exact s.draining_worked _ ⟨rfl, rfl, rfl, rfl, rfl⟩ nofun draining.owing draining
  rw [if_neg shut] at goes
  have opened : s.shutdown = false := Bool.eq_false_iff.mpr shut
  by_cases idle : (s.queuedRequests.isEmpty && s.activeRequests.isEmpty) = true
  · rw [if_pos idle] at goes
    cases goes
  rw [if_neg idle] at goes
  cases goes
  rw [fetchNewRequests]
  have split := s.dequeue_append modelBeamWidth
  by_cases called : s.shutdownCalled = true
  · obtain ⟨before, whole, clean⟩ := draining.stopping called opened
    cases before with
    | nil =>
      have alone := s.draining_fetch_terminate whole called draining
      have batch : s.getLeaderNewReqWithIds modelBeamWidth = ([terminateRequest], []) := by
        rw [getLeaderNewReqWithIds, whole]
        rfl
      rw [batch]
      exact alone
    | cons first rest =>
      have ordinaryFirst := clean first mem_cons_self
      have last : s.queuedRequests.getLast? = some terminateRequest := by
        rw [whole]
        exact getLast?_concat
      have remains := s.dequeue_leaves modelBeamWidth first (rest ++ [terminateRequest]) whole ordinaryFirst last safe
      refine s.draining_fetch_ordinary failing _ _ split ?_ (fun _ => remains) opened draining
      -- The batch comes before the terminate request.
      intro req mem
      apply clean req
      obtain ⟨front, final, leftEq⟩ := (eq_nil_or_concat' _).resolve_left remains
      rw [whole, leftEq, ← append_assoc] at split
      obtain ⟨beforeEq, _⟩ := append_inj' split rfl
      exact beforeEq ▸ mem_append_left _ mem
  · have running := draining.running (Bool.eq_false_iff.mpr called)
    refine s.draining_fetch_ordinary failing _ _ split ?_ (fun wrong => absurd wrong called) opened draining
    intro req mem
    exact running.2 req (split ▸ mem_append_left _ mem)

theorem draining_step (action : Action) (next : Impl) (draining : s.Draining) (guarded : s.DrainGuard action)
    (step : Step s action next) : next.Draining := by
  cases step with
  | enqueueRequests reqs => exact s.draining_enqueue reqs guarded draining
  | cancelRequest reqId =>
    rw [cancelRequest]
    split
    · exact draining
    · exact s.draining_worked _ ⟨rfl, rfl, rfl, rfl, rfl⟩ draining.left draining.owing draining
  | shutdown => exact s.draining_shutdown draining
  | sync timedOut out here =>
    refine s.draining_sync timedOut out ?_ draining
    rintro rfl
    exact guarded
  | fetch next modelBeamWidth failing here goes => exact s.draining_fetch modelBeamWidth next failing guarded goes draining
  | async out here =>
    rw [asyncPart]
    split
    · exact s.draining_worked _ ⟨rfl, rfl, rfl, rfl, rfl⟩ nofun draining.owing draining
    · have worked := s.forward_worked out
      refine s.draining_worked _ { worked with } nofun (s.owing_forward _ out ?_ draining.owing) draining
      rintro rfl
      exact guarded

end Impl

theorem shutdown_drains (maxNumActiveRequests : Nat) (maxQueueSize : Option Nat) (staticBatching : Bool)
    (run : List (Action × Impl)) (trace : Trace Impl.Step { maxNumActiveRequests, maxQueueSize, staticBatching } run)
    (guarded : AllSteps Impl.DrainGuard { maxNumActiveRequests, maxQueueSize, staticBatching } run)
    (action : Action) (s : Impl) (member : (action, s) ∈ run) (exited : s.phase = .exited) :
    s.activeRequests = [] ∧ ∀ id ∈ s.returned, id ∉ s.queuedIds ∧ Answered s.responses id := by
  have draining := trace_invariant Impl.DrainGuard Impl.Draining
    (fun st action next holds guard step => st.draining_step action next holds guard step) _ run trace guarded
    ⟨le_rfl, nofun, fun _ => ⟨rfl, nofun⟩, nofun, nofun, nofun, nofun, nofun, fun _ due => absurd due.1 not_mem_nil⟩
    (action, s) member
  obtain ⟨shut, gone⟩ := draining.left exited
  refine ⟨gone, ?_⟩
  intro id known
  have absent : id ∉ s.queuedIds := by
    rw [Impl.queuedIds, draining.stopped shut]
    exact not_mem_nil
  refine ⟨absent, ?_⟩
  rcases draining.owing.due id ⟨known, absent⟩ with ⟨tag, tagMem, _⟩ | answered
  · rw [Impl.tags, gone] at tagMem
    exact absurd tagMem not_mem_nil
  · exact answered

def Impl.after (s : Impl) : Action → Option Impl
  | .enqueueRequests requests => some (s.enqueueRequests requests)
  | .cancelRequest requestId => some (s.cancelRequest requestId)
  | .shutdown => some s.callShutdown
  | .sync timedOut outcome => if s.phase = .top then some (s.syncPart timedOut outcome) else none
  | .fetch modelBeamWidth failing => if s.phase = .fetch then s.fetchPart modelBeamWidth failing else none
  | .async outcome => if s.phase = .async then some (s.asyncPart outcome) else none

def Impl.runFrom : Impl → List Action → Option (List (Action × Impl))
  | _, [] => some []
  | s, action :: rest =>
    match s.after action with
    | none => none
    | some next => (runFrom next rest).map fun run => (action, next) :: run

theorem Impl.step_after (s next : Impl) (action : Action) (goes : s.after action = some next) : Step s action next := by
  cases action with
  | enqueueRequests reqs =>
    cases goes
    exact .enqueueRequests s reqs
  | cancelRequest reqId =>
    cases goes
    exact .cancelRequest s reqId
  | shutdown =>
    cases goes
    exact .shutdown s
  | sync timedOut out =>
    rw [after] at goes
    split at goes
    · rename_i here
      cases goes
      exact .sync s timedOut out here
    · cases goes
  | fetch modelBeamWidth failing =>
    rw [after] at goes
    split at goes
    · rename_i here
      exact .fetch s next modelBeamWidth failing here goes
    · cases goes
  | async out =>
    rw [after] at goes
    split at goes
    · rename_i here
      cases goes
      exact .async s out here
    · cases goes

theorem Impl.run_from_trace (s : Impl) (actions : List Action) (run : List (Action × Impl))
    (goes : s.runFrom actions = some run) : Trace Step s run := by
  induction actions generalizing s run with
  | nil =>
    cases goes
    exact .nil s
  | cons action rest ih =>
    rw [runFrom] at goes
    cases taken : s.after action with
    | none =>
      rw [taken] at goes
      cases goes
    | some next =>
      simp only [taken, Option.map_eq_some_iff] at goes
      obtain ⟨later, found, rfl⟩ := goes
      exact .cons (s.step_after next action taken) (ih next later found)

def working : Impl.Progress := fun _ => (.generationInProgress, 4)

def finishing : Impl.Progress := fun _ => (.generationComplete, 5)

-- The request is active when shutdown is called, and the loop goes on until it is answered.
def shutdownWhileServing : List Action :=
  [.enqueueRequests [{}], .sync (fun _ => false) none, .fetch 1 (fun _ => none), .async (some working), .shutdown,
    .sync (fun _ => false) (some working), .fetch 1 (fun _ => none), .async (some finishing),
    .sync (fun _ => false) (some finishing), .fetch 1 (fun _ => none), .async none, .sync (fun _ => false) none]

theorem served_request_drained : ∃ run action s, Trace Impl.Step { maxNumActiveRequests := 2 } run ∧
      AllSteps Impl.DrainGuard { maxNumActiveRequests := 2 } run ∧
      (∃ serving, (.shutdown, serving) ∈ run ∧ serving.tags.length = 1 ∧ serving.responses = []) ∧ (action, s) ∈ run ∧
      s.phase = .exited ∧ s.returned = [1] ∧ Answered s.responses 1 := by
  have orphanless : ∀ req ∈ ([] : List LlmRequest), req.isChild = true → ∃ parent ∈ ([] : List LlmRequest),
      parent.requestId = req.parentRequestId := nofun
  obtain ⟨run, goes, guarded, serving, action, s, last, exited, returned⟩ :
      ∃ run, Impl.runFrom { maxNumActiveRequests := 2 } shutdownWhileServing = some run ∧
        AllSteps Impl.DrainGuard { maxNumActiveRequests := 2 } run ∧
        (∃ serving, (.shutdown, serving) ∈ run ∧ serving.tags.length = 1 ∧ serving.responses = []) ∧
        ∃ action s, run.getLast? = some (action, s) ∧ s.phase = .exited ∧ s.returned = [1] := by
    refine ⟨_, rfl, ?_, ⟨_, mem_of_getElem? (i := 4) rfl, rfl, rfl⟩, _, _, rfl, rfl, rfl⟩
    refine ⟨?_, orphanless, ?_, trivial, trivial, trivial, ?_, trivial, trivial, ?_, orphanless, orphanless, trivial⟩
    · change 1 + 1 ≤ 2 ^ 42
      decide
    · intro first rest queue _ waiting
      cases queue
      exact absurd waiting not_mem_nil
    · intro first rest queue ordinary _
      cases queue
      exact absurd rfl ordinary
    · exact nofun
  have trace := Impl.run_from_trace _ _ _ goes
  have mem := mem_of_getLast? last
  have drained := shutdown_drains 2 none false run trace guarded action s mem exited
  exact ⟨run, action, s, trace, guarded, serving, mem, exited, returned, (drained.2 1 (returned ▸ mem_cons_self)).2⟩

-- A request still queued at shutdown is dropped with the batch that holds the terminate request.
theorem queued_request_dropped :
    ∃ run action s, Trace Impl.Step { maxNumActiveRequests := 2 } run ∧ (action, s) ∈ run ∧ s.phase = .exited ∧
      s.returned = [1] ∧ s.responses = [] := by
  have trace := Impl.run_from_trace { maxNumActiveRequests := 2 }
    [.enqueueRequests [{}], .shutdown, .sync (fun _ => false) none, .fetch 1 (fun _ => none), .async none,
      .sync (fun _ => false) none] _ rfl
  exact ⟨_, _, _, trace, mem_of_getLast? rfl, rfl, rfl, rfl⟩

end TrtLlm.Executor
