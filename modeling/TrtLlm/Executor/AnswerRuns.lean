import TrtLlm.Executor.Answers

set_option autoImplicit false

namespace TrtLlm.Executor
open List LlmRequest
open Lib (Trace AllSteps trace_invariant)

namespace Impl
variable (s : Impl) (requests : List Request)

def foreignIds : List Nat :=
  requests.filterMap fun request => request.disaggRequestId.filter fun id => decide (kMaxLocalReqId < id)

-- No id comes twice, no forward call throws while a child is active, and a request fails at its first sequence or
-- not at all.
def AnswerGuard (s : Impl) : Action → Prop
  | .enqueueRequests requests => s.lastReqId + numIds requests ≤ kMaxLocalReqId ∧ (foreignIds requests).Nodup ∧
      ∀ id ∈ foreignIds requests, id ∉ s.returned
  | .sync _ none => ∀ request ∈ s.activeRequests, request.isChild = false
  | .async none => ∀ request ∈ s.activeRequests, request.isChild = false
  | .fetch _ failing => ∀ request ∈ s.queuedRequests, ∀ index, failing request = some index →
      index < LlmRequest.getNumSubRequests request.req → index = 0
  | .shutdown => False
  | _ => True

structure Answering (s : Impl) : Prop where
  counted : 1 ≤ s.lastReqId
  ranged : ∀ id ∈ s.returned, id ≠ kTerminateReqId ∧ (id < s.lastReqId ∨ kMaxLocalReqId < id)
  running : s.shutdown = false
  exactly : Exact s.returned s.queuedIds s.tags s.sequenceFinalVecs s.responses

structure Assigned (lastReqId : Nat) (requests : List Request) (ids : List Nat) (last : Nat) : Prop where
  ranged : ∀ id ∈ ids, (lastReqId ≤ id ∧ id < last ∧ id < kMaxLocalReqId) ∨ id ∈ foreignIds requests
  distinct : ids.Nodup
  counted : lastReqId ≤ last

theorem foreign_large (id : Nat) (mem : id ∈ foreignIds requests) : kMaxLocalReqId < id := by
  obtain ⟨req, _, found⟩ := mem_filterMap.mp mem
  obtain ⟨_, large⟩ := Option.filter_eq_some_iff.mp found
  exact of_decide_eq_true large

theorem generated (lastReqId : Nat) (req : Request) (few : lastReqId < kMaxLocalReqId) :
    (∃ id, foreignIds [req] = [id] ∧ generateReqId lastReqId req = (id, lastReqId)) ∨
      (foreignIds [req] = [] ∧ generateReqId lastReqId req = (lastReqId, lastReqId + 1)) := by
  have small : lastReqId % kMaxLocalReqId = lastReqId := Nat.mod_eq_of_lt few
  cases own : req.disaggRequestId with
  | none => exact .inr ⟨by simp [foreignIds, own], by simp [generateReqId, own, small]⟩
  | some id =>
    by_cases foreign : kMaxLocalReqId < id
    · have found : req.disaggRequestId.filter (fun id => decide (kMaxLocalReqId < id)) = some id := by
        rw [own, Option.filter_some, if_pos (decide_eq_true foreign)]
      refine .inl ⟨id, ?_, by simp [generateReqId, own, foreign]⟩
      simp only [foreignIds, filterMap_cons, found, filterMap_nil]
    · have missing : req.disaggRequestId.filter (fun id => decide (kMaxLocalReqId < id)) = none := by
        rw [own, Option.filter_some, decide_eq_false foreign, if_neg Bool.false_ne_true]
      refine .inr ⟨?_, by simp [generateReqId, own, foreign, small]⟩
      simp only [foreignIds, filterMap_cons, missing, filterMap_nil]

theorem assign_assigned (lastReqId : Nat) (requests : List Request) (few : lastReqId + numIds requests ≤ kMaxLocalReqId)
    (nodup : (foreignIds requests).Nodup) :
    Assigned lastReqId requests ((assignIds lastReqId requests).1.map RequestWithId.id) (assignIds lastReqId requests).2 := by
  induction requests generalizing lastReqId with
  | nil => exact ⟨nofun, nodup_nil, le_rfl⟩
  | cons req rest ih =>
    have total : numIds (req :: rest) = getNumChildRequests req + 1 + numIds rest := rfl
    have split : foreignIds (req :: rest) = foreignIds [req] ++ foreignIds rest := by
      simp only [foreignIds, filterMap_cons]
      cases req.disaggRequestId.filter fun id => decide (kMaxLocalReqId < id) <;> rfl
    rw [split] at nodup
    have restDistinct := (nodup_append.mp nodup).2.1
    rw [assignIds]
    rcases generated lastReqId req (by omega) with ⟨id, foreign, made⟩ | ⟨foreign, made⟩
    · rw [made]
      have later := ih (lastReqId + getNumChildRequests req) (by omega) restDistinct
      rw [foreign] at nodup split
      have large : kMaxLocalReqId < id := foreign_large [req] id (foreign ▸ mem_cons_self)
      refine ⟨?_, ?_, (Nat.le_add_right _ _).trans later.counted⟩
      · intro other mem
        rcases mem_cons.mp mem with same | old
        · exact .inr (by rw [split, same]; exact mem_cons_self)
        · rcases later.ranged other old with near | far
          · exact .inl ⟨by omega, near.2⟩
          · exact .inr (by rw [split]; exact mem_cons_of_mem _ far)
      · refine nodup_cons.mpr ⟨?_, later.distinct⟩
        intro mem
        rcases later.ranged id mem with near | far
        · omega
        · exact (nodup_cons.mp nodup).1 far
    · rw [made]
      dsimp only
      have later := ih (lastReqId + 1 + getNumChildRequests req) (by omega) restDistinct
      have counted := later.counted
      rw [foreign, nil_append] at split
      refine ⟨?_, ?_, by omega⟩
      · intro other mem
        rcases mem_cons.mp mem with same | old
        · have here : other = lastReqId := same
          exact .inl ⟨by omega, by omega, by omega⟩
        · rcases later.ranged other old with near | far
          · exact .inl ⟨by omega, near.2⟩
          · exact .inr (split ▸ far)
      · refine nodup_cons.mpr ⟨?_, later.distinct⟩
        intro mem
        rcases later.ranged lastReqId mem with near | far
        · omega
        · have large := foreign_large rest lastReqId far
          omega

theorem answering_enqueue (guarded : s.AnswerGuard (.enqueueRequests requests))
    (answering : s.Answering) : (s.enqueueRequests requests).Answering := by
  obtain ⟨few, foreignDistinct, foreignFresh⟩ := guarded
  rw [enqueueRequests]
  split
  · exact answering
  have assigned := assign_assigned s.lastReqId requests few foreignDistinct
  generalize assignIds s.lastReqId requests = made at assigned
  obtain ⟨added, last⟩ := made
  dsimp only at assigned ⊢
  have counted : 1 ≤ last := answering.counted.trans assigned.counted
  have old : ∀ id ∈ s.returned, id ≠ kTerminateReqId ∧ (id < last ∨ kMaxLocalReqId < id) := by
    intro id mem
    obtain ⟨ordinary, near | far⟩ := answering.ranged id mem
    · exact ⟨ordinary, .inl (lt_of_lt_of_le near assigned.counted)⟩
    · exact ⟨ordinary, .inr far⟩
  split
  · exact ⟨counted, old, answering.running, answering.exactly⟩
  refine ⟨counted, ?_, answering.running, ?_⟩
  · intro id mem
    rcases mem_append.mp mem with before | new
    · exact old id before
    rcases assigned.ranged id new with near | far
    · exact ⟨ne_of_gt (lt_of_lt_of_le answering.counted near.1), .inl near.2.1⟩
    · have large := foreign_large requests id far
      exact ⟨ne_of_gt (Nat.zero_lt_of_lt large), .inr large⟩
  · refine answering.exactly.enqueue _ _ ?_ ?_ assigned.distinct
    · rw [queuedIds, queuedIds, ← map_append]
      exact (insert_each_perm _ s.queuedRequests added).map RequestWithId.id
    intro id mem known
    rcases assigned.ranged id mem with near | far
    · have range := (answering.ranged id known).2
      omega
    · exact foreignFresh id far known

theorem exact_fetch_each (failing : RequestWithId → Option Nat) (active fetched : List LlmRequest)
    (batch : List RequestWithId) (returned left : List Nat) (early : ∀ req ∈ batch, ∀ idx, failing req = some idx →
      idx < getNumSubRequests req.req → idx = 0) (ordinary : ∀ req ∈ batch, req.id ≠ kTerminateReqId)
    (exactly : Exact returned (batch.map RequestWithId.id ++ left) ((active ++ fetched).map tag)
      s.sequenceFinalVecs s.responses) : let res := fetchEach failing s fetched batch
    Exact returned left ((active ++ res.2).map tag) res.1.sequenceFinalVecs res.1.responses := by
  induction batch generalizing s fetched with
  | nil => exact exactly
  | cons req rest ih =>
    have laterEarly := (forall_mem_cons.mp early).2
    have laterOrdinary := (forall_mem_cons.mp ordinary).2
    rw [fetchEach, if_neg (ordinary req mem_cons_self)]
    have first := early req mem_cons_self
    by_cases fails : failing req = some 0
    · simp only [fetchOne, fails, if_pos (sub_requests_pos req.req)]
      apply ih _ _ laterEarly laterOrdinary
      rw [range_zero, map_nil, append_nil]
      exact exactly.refuse _
    · have made : s.fetchOne failing req = ({ s with sequenceFinalVecs := s.sequenceFinalVecs ++
          [replicate (getNumSubRequests req.req) false] },
          (range (getNumSubRequests req.req)).map (s.makeSequence req s.sequenceFinalVecs.length)) := by
        unfold fetchOne
        cases found : failing req with
        | none => rfl
        | some idx => exact if_neg fun within => fails (first idx found within ▸ found)
      rw [made]
      apply ih _ _ laterEarly laterOrdinary
      rw [← append_assoc, map_append]
      refine exactly.family (sub_requests_pos req.req) ?_ ?_ ?_
      · exact fun tag mem => s.made_tags req _ _ tag mem
      · exact fun idx inside => s.made_all req _ _ idx inside
      · rw [map_map, pairwise_map]
        exact nodup_range

theorem answering_fetch (next : Impl) (modelBeamWidth : Nat) (failing : RequestWithId → Option Nat)
    (guarded : s.AnswerGuard (.fetch modelBeamWidth failing))
    (goes : s.fetchPart modelBeamWidth failing = some next) (answering : s.Answering) : next.Answering := by
  rw [fetchPart, answering.running, if_neg Bool.false_ne_true] at goes
  by_cases idle : (s.queuedRequests.isEmpty && s.activeRequests.isEmpty) = true
  · rw [if_pos idle] at goes
    cases goes
  rw [if_neg idle] at goes
  cases goes
  have split := s.dequeue_append modelBeamWidth
  rw [fetchNewRequests]
  generalize s.getLeaderNewReqWithIds modelBeamWidth = dequeued at split
  obtain ⟨batch, left⟩ := dequeued
  dsimp only at split ⊢
  have inQueue : ∀ req ∈ batch, req ∈ s.queuedRequests := fun req mem => split ▸ mem_append_left _ mem
  have ordinary : ∀ req ∈ batch, req.id ≠ kTerminateReqId := by
    intro req mem
    have known := (answering.exactly.waiting req.id (mem_map_of_mem (inQueue req mem))).1
    exact (answering.ranged req.id known).1
  have start : Exact s.returned (batch.map RequestWithId.id ++ left.map RequestWithId.id)
      ((s.activeRequests ++ []).map tag) s.sequenceFinalVecs s.responses := by
    rw [← map_append, split, append_nil]
    exact answering.exactly
  have fetched := exact_fetch_each { s with queuedRequests := left } failing s.activeRequests [] batch _ _
    (fun req mem => guarded req (inQueue req mem)) ordinary start
  have outside := fetch_each_outside { s with queuedRequests := left } failing [] batch ordinary
  generalize fetchEach failing { s with queuedRequests := left } [] batch = result at fetched outside
  obtain ⟨after, new⟩ := result
  obtain ⟨queue, returned, shutdown, _, _, counter, _⟩ := outside
  refine ⟨?_, ?_, ?_, ?_⟩
  · rw [counter]
    exact answering.counted
  · rw [returned, counter]
    exact answering.ranged
  · rw [shutdown]
    exact answering.running
  · rw [returned, queue]
    exact fetched.reorder ((insert_each_perm priority s.activeRequests new).map tag)

theorem answering_worked (next : Impl) (worked : s.Worked next)
    (exactly : Exact s.returned s.queuedIds next.tags next.sequenceFinalVecs next.responses) (answering : s.Answering) :
    next.Answering := by
  refine ⟨?_, ?_, ?_, ?_⟩
  · rw [worked.counter]
    exact answering.counted
  · rw [worked.returned, worked.counter]
    exact answering.ranged
  · rw [worked.shutdown]
    exact answering.running
  · rw [worked.returned, queuedIds, worked.queue]
    exact exactly

theorem exact_forward (returned queued : List Nat) (out : Option Progress)
    (parents : out = none → ∀ req ∈ s.activeRequests, req.isChild = false)
    (exactly : Exact returned queued s.tags s.sequenceFinalVecs s.responses) :
    Exact returned queued (s.forward out).tags (s.forward out).sequenceFinalVecs (s.forward out).responses := by
  cases out with
  | some progress =>
    rw [tags, forward]
    rw [progressed_tags]
    exact exactly
  | none =>
    have thrown := exactly.terminate ?_
    · rw [tags, map_map] at thrown
      exact thrown
    · exact forall_mem_map.mpr (parents rfl)

theorem answering_sync (timedOut : LlmRequest → Bool) (out : Option Progress)
    (parents : out = none → ∀ req ∈ s.activeRequests, req.isChild = false) (answering : s.Answering) :
    (s.syncPart timedOut out).Answering := by
  rw [syncPart]
  by_cases ended : (s.shutdown && s.activeRequests.isEmpty) = true
  · rw [if_pos ended]
    exact s.answering_worked _ ⟨rfl, rfl, rfl, rfl, rfl⟩ answering.exactly answering
  rw [if_neg ended]
  by_cases idle : s.activeRequests.isEmpty = true
  · rw [if_pos idle]
    exact s.answering_worked _ ⟨rfl, rfl, rfl, rfl, rfl⟩ answering.exactly answering
  rw [if_neg idle]
  have forwarded := ((s.finishTimedOutRequests timedOut).terminateCancelledRequests).exact_forward _ _ out parents
    answering.exactly
  have worked := ((s.finishTimedOutRequests timedOut).terminateCancelledRequests).forward_worked out
  exact s.answering_worked _ { worked with } (Exact.populate [] forwarded) answering

theorem answering_step (action : Action) (next : Impl) (answering : s.Answering) (guarded : s.AnswerGuard action)
    (step : Step s action next) : next.Answering := by
  cases step with
  | enqueueRequests requests => exact s.answering_enqueue requests guarded answering
  | cancelRequest reqId =>
    rw [cancelRequest]
    split
    · exact answering
    · exact s.answering_worked _ ⟨rfl, rfl, rfl, rfl, rfl⟩ answering.exactly answering
  | shutdown => exact absurd guarded id
  | sync timedOut out here =>
    refine s.answering_sync timedOut out ?_ answering
    rintro rfl
    exact guarded
  | fetch next modelBeamWidth failing here goes => exact s.answering_fetch next modelBeamWidth failing guarded goes answering
  | async out here =>
    rw [asyncPart]
    split
    · exact s.answering_worked _ ⟨rfl, rfl, rfl, rfl, rfl⟩ answering.exactly answering
    · have worked := s.forward_worked out
      refine s.answering_worked _ { worked with } (s.exact_forward _ _ out ?_ answering.exactly) answering
      rintro rfl
      exact guarded

end Impl

theorem one_last_response {resps : List Response} {id : Nat}
    (once : resps.Pairwise fun early late => early.last = true → late.requestId ≠ early.requestId)
    (answered : Answered resps id) :
    (resps.filter fun resp => decide (resp.requestId = id) && resp.last).length = 1 := by
  obtain ⟨resp, mem, named, last⟩ := answered
  have present : resp ∈ resps.filter fun resp => decide (resp.requestId = id) && resp.last :=
    mem_filter.mpr ⟨mem, by simp [named, last]⟩
  have pairs := once.filter fun resp => decide (resp.requestId = id) && resp.last
  have kept : ∀ other ∈ resps.filter fun resp => decide (resp.requestId = id) && resp.last,
      other.requestId = id ∧ other.last = true := by
    intro other otherMem
    have both := (mem_filter.mp otherMem).2
    rwa [Bool.and_eq_true, decide_eq_true_eq] at both
  generalize (resps.filter fun resp => decide (resp.requestId = id) && resp.last) = found at *
  match found, present with
  | [_], _ => rfl
  | first :: second :: rest, _ =>
    have early := kept first mem_cons_self
    have late := kept second (mem_cons_of_mem _ mem_cons_self)
    exact absurd (late.1.trans early.1.symm) ((pairwise_cons.mp pairs).1 second mem_cons_self early.2)

theorem answered_exactly_once (maxNumActiveRequests : Nat) (maxQueueSize : Option Nat) (staticBatching : Bool)
    (run : List (Action × Impl)) (trace : Trace Impl.Step { maxNumActiveRequests, maxQueueSize, staticBatching } run)
    (guarded : AllSteps Impl.AnswerGuard { maxNumActiveRequests, maxQueueSize, staticBatching } run)
    (action : Action) (s : Impl) (member : (action, s) ∈ run) : (∀ response ∈ s.responses, response.requestId ∈ s.returned) ∧
    (s.responses.Pairwise fun early late => early.last = true → late.requestId ≠ early.requestId) ∧
    (s.queuedRequests = [] → s.activeRequests = [] → ∀ id ∈ s.returned,
      (s.responses.filter fun response => decide (response.requestId = id) && response.last).length = 1) := by
  have answering := trace_invariant Impl.AnswerGuard Impl.Answering
    (fun st action next holds guard step => st.answering_step action next holds guard step) _ run trace guarded
    (by
      refine ⟨le_rfl, ?_, rfl, ?_, ?_, ?_, Pairwise.nil, ?_, ?_, ?_, ?_, nodup_nil, ?_, Pairwise.nil, ?_⟩
      all_goals exact nofun) (action, s) member
  have exactly := answering.exactly
  refine ⟨exactly.known, exactly.once, ?_⟩
  intro idle done id known
  rcases exactly.due id known with queuedMem | ⟨tag, tagMem, _⟩ | answered
  · rw [Impl.queuedIds, idle] at queuedMem
    exact absurd queuedMem not_mem_nil
  · rw [Impl.tags, done] at tagMem
    exact absurd tagMem not_mem_nil
  · exact one_last_response exactly.once answered

def twoSequences : Request := { numReturnSequences := some 2 }

def siblingsServed : List Action :=
  [.enqueueRequests [twoSequences], .sync (fun _ => false) none, .fetch 1 (fun _ => none), .async (some finishing),
    .sync (fun _ => false) (some fun request => if request.isChild then (.contextInit, 1) else (.generationComplete, 4)),
    .fetch 1 (fun _ => none), .async (some finishing), .sync (fun _ => false) (some finishing)]

theorem siblings_answered_once : ∃ run action s, Trace Impl.Step { maxNumActiveRequests := 2 } run ∧
      AllSteps Impl.AnswerGuard { maxNumActiveRequests := 2 } run ∧ (action, s) ∈ run ∧ s.returned = [1] ∧
      s.responses.length = 2 ∧
      (s.responses.filter fun response => decide (response.requestId = 1) && response.last).length = 1 := by
  obtain ⟨run, goes, guarded, action, s, last, returned, queue, active, resps⟩ :
      ∃ run, Impl.runFrom { maxNumActiveRequests := 2 } siblingsServed = some run ∧
        AllSteps Impl.AnswerGuard { maxNumActiveRequests := 2 } run ∧
        ∃ action s, run.getLast? = some (action, s) ∧ s.returned = [1] ∧ s.queuedRequests = [] ∧ s.activeRequests = [] ∧
          s.responses.length = 2 := by
    refine ⟨_, rfl, ?_, _, _, rfl, rfl, rfl, rfl, ?_⟩
    swap
    · rfl
    refine ⟨⟨?_, nodup_nil, nofun⟩, nofun, fun _ _ _ => nofun, trivial, trivial, fun _ _ _ => nofun, trivial, trivial, trivial⟩
    decide
  have trace := Impl.run_from_trace _ _ _ goes
  have mem := mem_of_getLast? last
  have once := (answered_exactly_once 2 none false run trace guarded action s mem).2.2 queue active 1
    (returned ▸ mem_cons_self)
  exact ⟨run, action, s, trace, guarded, mem, returned, resps, once⟩

-- A forward call that throws answers a child under its own id, which no client knows. A request that fails at its
-- second sequence has a response after its error.
theorem child_answered_apart :
    (∃ run action s, Trace Impl.Step { maxNumActiveRequests := 2 } run ∧ (action, s) ∈ run ∧ s.returned = [1] ∧
      ∃ response ∈ s.responses, response.requestId = 2) ∧
    ∃ run action s, Trace Impl.Step { maxNumActiveRequests := 2 } run ∧ (action, s) ∈ run ∧
      ∃ early late, s.responses = [early, late] ∧ early.last = true ∧ early.requestId = late.requestId := by
  constructor
  · have trace := Impl.run_from_trace { maxNumActiveRequests := 2 }
      [.enqueueRequests [twoSequences], .sync (fun _ => false) none, .fetch 1 (fun _ => none), .async none] _ rfl
    refine ⟨_, _, _, trace, mem_of_getLast? rfl, rfl, ?_⟩
    exact ⟨Impl.errorResponse 2, mem_cons_of_mem _ mem_cons_self, rfl⟩
  · have trace := Impl.run_from_trace { maxNumActiveRequests := 2 }
      [.enqueueRequests [twoSequences], .sync (fun _ => false) none, .fetch 1 (fun _ => some 1), .async (some finishing),
        .sync (fun _ => false) (some finishing)] _ rfl
    exact ⟨_, _, _, trace, mem_of_getLast? rfl, _, _, rfl, rfl, rfl⟩

end TrtLlm.Executor
