import TrtLlm.MicroBatch

set_option autoImplicit false

namespace TrtLlm.Py
open Batch (LlmRequest LlmRequestState)

structure Request where
  base : LlmRequest
  skipCrossKvProjection : Bool
  mmBidirectionalBlocks : Bool
  multimodalEmbedMaskCumsum : Option (List Int)
  encoderOutputPending : Bool

namespace Request
variable (req : Request)

def id : Nat := req.base.requestId

def draftLen : Nat := req.base.numDraftTokens

def isStarted : Bool :=
  (req.base.isContextInitState && !req.base.isFirstContextChunk) || req.base.isGenerationInProgressState

def needsCrossContextAllocation : Bool := req.base.encoderOutputLen.isSome && !req.skipCrossKvProjection

end Request

inductive ScheduleAction where
  | scheduled
  | skip
  | stop
deriving DecidableEq, Repr

structure PeftCacheManager where
  maxDevicePages : Nat
  determineNumPages : Request → Nat

structure BudgetTracker where
  maxNumTokens : Option Nat
  maxNumRequests : Nat
  peftCacheManager : Option PeftCacheManager
  numTokens : Nat := 0
  numRequests : Nat := 0
  claimedPeftPages : Nat := 0
  seenPeftTaskIds : List Nat := []

namespace BudgetTracker
variable (budget : BudgetTracker)

def requestsFull : Bool := decide (budget.maxNumRequests ≤ budget.numRequests)

def canFitTokens (numTokens : Nat) : Bool :=
  match budget.maxNumTokens with
  | none => true
  | some limit => decide (budget.numTokens + numTokens ≤ limit)

def remainingTokens : Option Int :=
  match budget.maxNumTokens with
  | none => none
  | some limit => some ((limit : Int) - (budget.numTokens : Int))

variable (req : Request)

def commitPeft (peftPages : Nat) : BudgetTracker :=
  { budget with
    claimedPeftPages := budget.claimedPeftPages + peftPages
    seenPeftTaskIds := req.base.loraTaskId.toList ++ budget.seenPeftTaskIds }

def commit (numTokens peftPages : Nat) : BudgetTracker :=
  let counted := { budget with numTokens := budget.numTokens + numTokens, numRequests := budget.numRequests + 1 }
  if 0 < peftPages then counted.commitPeft req peftPages else counted

def peftPagesNeeded : Option Nat :=
  match budget.peftCacheManager, req.base.loraTaskId with
  | none, _ => some 0
  | some _, none => some 0
  | some manager, some task =>
    if task ∈ budget.seenPeftTaskIds then some 0
    else
      let required := manager.determineNumPages req
      if manager.maxDevicePages < budget.claimedPeftPages + required then none else some required

def preClaimPeft : BudgetTracker :=
  match budget.peftCacheManager, req.base.loraTaskId with
  | some manager, some task =>
    if task ∈ budget.seenPeftTaskIds then budget
    else { budget with
      claimedPeftPages := budget.claimedPeftPages + manager.determineNumPages req
      seenPeftTaskIds := task :: budget.seenPeftTaskIds }
  | _, _ => budget

end BudgetTracker

-- The fallible calls are numbered; the n-th is answered by the entries for n, which may be anything.
structure CacheManager where
  tokensPerBlock : Nat
  enableBlockReuse : Bool
  creates : Nat → Bool
  resumes : Nat → Bool
  resizes : Nat → Bool
  numCommittedTokens : Nat → Nat

structure Caches where
  isActive : Nat → Option Bool
  calls : Nat

namespace Caches
variable (caches : Caches)

def set (id : Nat) (active : Bool) : Caches :=
  { caches with isActive := Function.update caches.isActive id (some active) }

def tick : Caches := { caches with calls := caches.calls + 1 }

def isRequestActive (id : Nat) : Bool := caches.isActive id == some true

def suspendRequest (id : Nat) : Caches :=
  if caches.isRequestActive id then caches.set id false else caches

end Caches

namespace CacheManager
variable (manager : CacheManager) (caches : Caches)

def resumeAndRestore (id : Nat) : Bool × Caches :=
  if caches.isRequestActive id then (true, caches)
  else if manager.resumes caches.calls then (true, caches.tick.set id true)
  else (false, caches.tick)

def prepareContext (req : Request) : Option (Bool × Request × Caches) :=
  if req.base.isFirstContextChunk then
    let known := (caches.isActive req.id).isSome
    if !known && !manager.creates caches.calls then some (false, req, caches.tick)
    else
      let created := if known then caches else caches.tick.set req.id false
      -- The position assigned before the call is what a length of zero leaves; any other length sets it again.
      let positioned :=
        if manager.enableBlockReuse then
          req.base.rewind.setPrepopulatedPromptLen (manager.numCommittedTokens created.calls) manager.tokensPerBlock
        else some req.base
      match positioned with
      | none => none
      | some base =>
        let resumed := manager.resumeAndRestore created req.id
        some (resumed.1, { req with base := base }, resumed.2)
  else
    match caches.isActive req.id with
    | none => none
    | some _ =>
      let resumed := manager.resumeAndRestore caches req.id
      some (resumed.1, req, resumed.2)

def resizeContext (req : Request) : Bool × Caches :=
  match caches.isActive req.id with
  | none => (false, caches)
  | some _ =>
    if manager.resizes caches.calls then (true, caches.tick)
    else (false, if req.base.isFirstContextChunk then caches.tick.set req.id false else caches.tick)

def tryAllocateGeneration (req : Request) : Bool × Caches :=
  match caches.isActive req.id with
  | none => (false, caches)
  | some _ =>
    let resumed := manager.resumeAndRestore caches req.id
    if resumed.1 then (manager.resizes resumed.2.calls, resumed.2.tick) else (false, resumed.2)

end CacheManager

structure Managers where
  self : CacheManager
  cross : Option CacheManager
  peft : Option PeftCacheManager

structure World where
  caches : Caches
  crossCaches : Caches

-- Chunking is off without a chunk unit.
structure KVCacheV2Scheduler where
  maxNumRequests : Nat
  maxNumTokens : Option Nat
  chunkUnitSize : Option Nat
  noScheduleUntilState : LlmRequestState
  noScheduleAfterState : LlmRequestState
  managers : Managers

structure Attempt where
  action : ScheduleAction
  tokens : Nat
  chunking : Bool
  req : Request
  world : World

def maskAt (cumsum : List Int) : Nat → Option Bool
  | 0 => cumsum[0]?.map fun first => first == 1
  | position + 1 =>
    match cumsum[position + 1]?, cumsum[position]? with
    | some here, some before => some (here - before == 1)
    | _, _ => none

def blockEndFrom (cumsum : List Int) : Nat → Nat → Option Nat
  | 0, position => some position
  | left + 1, position =>
    match maskAt cumsum position with
    | none => none
    | some false => some position
    | some true => blockEndFrom cumsum left (position + 1)

def blockStartFrom (cumsum : List Int) : Nat → Option Nat
  | 0 => some 0
  | position + 1 =>
    match maskAt cumsum position with
    | none => none
    | some false => some (position + 1)
    | some true => blockStartFrom cumsum position

namespace KVCacheV2Scheduler
variable (sched : KVCacheV2Scheduler)

def maxContextLength : Option Nat := sched.maxNumTokens

def within (limit : Option Nat) (size : Nat) : Bool :=
  match limit with
  | none => true
  | some most => decide (size ≤ most)

def withinBudget (remainingBudget : Option Int) (size : Nat) : Bool :=
  match remainingBudget with
  | none => true
  | some left => decide ((size : Int) ≤ left)

def snapUp (unit lo promptLen blockEndAbs : Nat) : Nat :=
  min (if 0 < unit ∧ blockEndAbs < promptLen then (blockEndAbs + unit - 1) / unit * unit else blockEndAbs) promptLen - lo

def snapDown (unit lo blockStartAbs : Nat) : Nat :=
  (if 0 < unit then blockStartAbs / unit * unit else blockStartAbs) - lo

-- The chunk that does not split the run around a boundary: up to its end if that fits, else down to its start; 0
-- defers the request.
def snapToBlock (unit lo chunkSize contextRemaining : Nat) (remainingBudget : Option Int) (cumsum : List Int) : Option Nat :=
  let endAbs := lo + chunkSize
  let promptLen := lo + contextRemaining
  match blockEndFrom cumsum (promptLen - endAbs) endAbs, blockStartFrom cumsum endAbs with
  | some blockEndAbs, some blockStartAbs =>
    if !within sched.maxContextLength (blockEndAbs - blockStartAbs) then none
    else
      let upChunkSize := snapUp unit lo promptLen blockEndAbs
      if withinBudget remainingBudget upChunkSize && within sched.maxContextLength upChunkSize &&
          decide (upChunkSize ≤ contextRemaining) && decide (chunkSize < upChunkSize) then some upChunkSize
      else some (snapDown unit lo blockStartAbs)
  | _, _ => none

-- none: a position outside the mask, or a run that fits no chunk.
def alignChunkToMmBlock (unit : Nat) (req : Request) (chunkSize : Nat) (remainingBudget : Option Int)
    (contextRemaining : Nat) : Option Nat :=
  match req.mmBidirectionalBlocks, req.multimodalEmbedMaskCumsum with
  | true, some cumsum =>
    let lo := req.base.contextCurrentPosition
    let endAbs := lo + chunkSize
    if lo + contextRemaining ≤ endAbs ∨ endAbs = 0 then some chunkSize
    else
      match maskAt cumsum endAbs, maskAt cumsum (endAbs - 1) with
      | some true, some true => sched.snapToBlock unit lo chunkSize contextRemaining remainingBudget cumsum
      | some false, _ => some chunkSize
      | some true, some false => some chunkSize
      | _, _ => none
  | _, _ => some chunkSize

-- A first chunk creates the cross cache; without a free slot that raises.
def tryScheduleCrossContextV2 (cross : CacheManager) (caches : Caches) (req : Request) : Option (Bool × Caches) :=
  let known := (caches.isActive req.id).isSome
  if !known && !req.base.isFirstContextChunk then some (false, caches)
  else if !known && !cross.creates caches.calls then none
  else
    let created := if known then caches else caches.tick.set req.id false
    let resumed := cross.resumeAndRestore created req.id
    if resumed.1 then some (cross.resizeContext resumed.2 req) else some (false, resumed.2)

def tryScheduleCrossContext (caches : Caches) (req : Request) : Option (ScheduleAction × Caches) :=
  if req.needsCrossContextAllocation then
    match sched.managers.cross with
    | none => some (.stop, caches)
    | some cross =>
      (tryScheduleCrossContextV2 cross caches req).map fun done => (if done.1 then .scheduled else .skip, done.2)
  else some (.scheduled, caches)

variable (world : World)

def reserveContext (req : Request) (tokens : Nat) (chunking : Bool) : Option Attempt :=
  let resized := sched.managers.self.resizeContext world.caches req
  if !resized.1 then some ⟨.skip, 0, false, req, { world with caches := resized.2 }⟩
  else
    match sched.tryScheduleCrossContext world.crossCaches req with
    | none => none
    | some (.scheduled, crossCaches) => some ⟨.scheduled, tokens, chunking, req, ⟨resized.2, crossCaches⟩⟩
    | some (action, crossCaches) => some ⟨action, 0, false, req, ⟨resized.2.suspendRequest req.id, crossCaches⟩⟩

variable (budget : BudgetTracker)

def tryScheduleContextFull (req : Request) : Option Attempt :=
  match sched.managers.self.prepareContext world.caches req with
  | none => none
  | some (prepared, moved, caches) =>
    let after : World := { world with caches := caches }
    if !prepared then some ⟨.stop, 0, false, moved, after⟩
    else
      let contextTokens := moved.base.getContextRemainingLength
      let reqTokens := contextTokens + moved.draftLen
      if !budget.canFitTokens reqTokens then some ⟨.stop, 0, false, moved, after⟩
      else if !within sched.maxContextLength contextTokens then none
      else sched.reserveContext after moved reqTokens false

def capped (limit : Option Nat) (size : Nat) : Nat :=
  match limit with
  | none => size
  | some most => min size most

-- Rounding down to the chunk unit divides by it.
def chunkSizeFor (unit : Nat) (remainingBudget : Option Int) (contextRemaining : Nat) : Option Nat :=
  let limited := capped sched.maxContextLength (capped (remainingBudget.map Int.toNat) contextRemaining)
  if limited < contextRemaining then if unit = 0 then none else some (limited / unit * unit) else some limited

def chunkTokens (req : Request) : Nat :=
  req.base.contextChunkSize + if req.base.isLastContextChunk then req.draftLen else 0

def tryScheduleContextChunked (unit : Nat) (world : World) (budget : BudgetTracker) (req : Request) : Option Attempt :=
  if !withinBudget budget.remainingTokens unit then some ⟨.skip, 0, false, req, world⟩
  else
    match sched.managers.self.prepareContext world.caches req with
    | none => none
    | some (prepared, moved, caches) =>
      let after : World := { world with caches := caches }
      if !prepared then some ⟨.skip, 0, false, moved, after⟩
      else
        let contextRemaining := moved.base.getContextRemainingLength
        match sched.chunkSizeFor unit budget.remainingTokens contextRemaining with
        | none => none
        | some 0 => some ⟨.skip, 0, false, moved, after⟩
        | some chunkSize =>
          match sched.alignChunkToMmBlock unit moved chunkSize budget.remainingTokens contextRemaining with
          | none => none
          | some 0 => some ⟨.skip, 0, false, moved, after⟩
          | some aligned =>
            let chunked := { moved with base := moved.base.setContextChunkSize aligned }
            sched.reserveContext after chunked (chunkTokens chunked)
              (decide (chunked.base.contextChunkSize < chunked.base.getContextRemainingLength))

def tryScheduleContext (req : Request) : Option Attempt :=
  match sched.chunkUnitSize with
  | some unit => sched.tryScheduleContextChunked unit world budget req
  | none => sched.tryScheduleContextFull world budget req

-- The encoder raises without a cross manager and beyond the limit.
def tryScheduleEncoder (req : Request) : Option (ScheduleAction × Nat) :=
  match sched.managers.cross, req.base.encoderOutputLen with
  | some _, some reqTokens =>
    if !budget.canFitTokens reqTokens then some (.stop, 0)
    else if !within sched.maxContextLength reqTokens then none
    else some (.scheduled, reqTokens)
  | _, _ => none

def tryScheduleDisaggGenInit (req : Request) : Option Attempt :=
  match sched.managers.self.prepareContext world.caches req with
  | none => none
  | some (prepared, moved, caches) =>
    if !prepared then some ⟨.skip, 0, false, moved, { world with caches := caches }⟩
    else
      let resized := sched.managers.self.resizeContext caches moved
      some ⟨if resized.1 then .scheduled else .skip, 0, false, moved, { world with caches := resized.2 }⟩

end KVCacheV2Scheduler

structure LoopState where
  scheduledEncoder : List Request
  scheduledCtx : List Request
  scheduledGen : List Request
  evicted : List Request
  disaggCandidates : List Request
  pendingCtx : List Request
  scheduledBeamWidth : Nat
  hasChunking : Bool
  budget : BudgetTracker
  world : World

inductive Outcome (Result : Type) where
  | returned (result : Result)
  | raised
  | running

structure Eviction where
  before : Option (List Request)
  caches : Caches
  victims : List Request

namespace KVCacheV2Scheduler
variable (sched : KVCacheV2Scheduler)

def isEvictable (caches : Caches) (req : Request) : Bool := req.isStarted && caches.isRequestActive req.id

-- The requests behind the current one, last first. A victim ends the range.
def tryEvictForGen (req : Request) : List Request → Caches → List Request → Eviction
  | [], caches, victims => ⟨none, caches, victims⟩
  | victim :: before, caches, victims =>
    if isEvictable caches victim then
      let allocated := sched.managers.self.tryAllocateGeneration (caches.suspendRequest victim.id) req
      if allocated.1 then ⟨some before, allocated.2, victims ++ [victim]⟩
      else tryEvictForGen req before allocated.2 (victims ++ [victim])
    else tryEvictForGen req before caches victims

def generationTokens (req : Request) : Nat := req.base.getBeamWidthByIter + req.draftLen

def withEviction (s : LoopState) (eviction : Eviction) : LoopState :=
  { s with evicted := s.evicted ++ eviction.victims, world := { s.world with caches := eviction.caches } }

def selfEvict (s : LoopState) (req : Request) : LoopState :=
  if s.world.caches.isRequestActive req.id then
    { s with
      evicted := s.evicted ++ [req]
      world := { s.world with caches := s.world.caches.suspendRequest req.id } }
  else s

def tryScheduleGeneration (s : LoopState) (req : Request) (tail : List Request) : ScheduleAction × LoopState × List Request :=
  if !s.budget.canFitTokens (generationTokens req) then (.stop, s, tail)
  else if s.scheduledBeamWidth ≠ 0 ∧ s.scheduledBeamWidth ≠ req.base.getBeamWidthByIter then (.skip, s, tail)
  else
    let allocated := sched.managers.self.tryAllocateGeneration s.world.caches req
    let tried : LoopState := { s with
      scheduledBeamWidth := req.base.getBeamWidthByIter
      world := { s.world with caches := allocated.2 } }
    if allocated.1 then (.scheduled, tried, tail)
    else
      let eviction := sched.tryEvictForGen req tail.reverse allocated.2 []
      match eviction.before with
      | some before => (.scheduled, withEviction tried eviction, before.reverse)
      | none => (.stop, selfEvict (withEviction tried eviction) req, tail)

def schedulable (req : Request) : Bool :=
  decide (sched.noScheduleUntilState.value ≤ req.base.state.value) &&
    decide (req.base.state.value < sched.noScheduleAfterState.value)

def deferred (req : Request) : Bool := req.base.state = .encoderInit || req.base.state = .contextInit

def phaseOne (inflight : List Nat) : Nat → List Request → LoopState → Outcome LoopState
  | _, [], s => .returned s
  | 0, _ :: _, _ => .running
  | rounds + 1, req :: tail, s =>
    if req.id ∈ inflight then phaseOne inflight rounds tail s
    else if req.base.state = .disaggGenerationInit then
      match s.budget.peftPagesNeeded req with
      | none => .returned s
      | some pages =>
        match sched.tryScheduleDisaggGenInit s.world req with
        | none => .raised
        | some attempt =>
          let tried : LoopState := { s with world := attempt.world }
          match attempt.action with
          | .stop => .returned tried
          | .skip => phaseOne inflight rounds tail tried
          | .scheduled =>
            phaseOne inflight rounds tail { tried with
              disaggCandidates := s.disaggCandidates ++ [attempt.req]
              budget := if 0 < pages then s.budget.commitPeft attempt.req pages else s.budget }
    else if s.budget.requestsFull then .returned s
    else if !sched.schedulable req then phaseOne inflight rounds tail s
    else if deferred req then phaseOne inflight rounds tail { s with pendingCtx := s.pendingCtx ++ [req] }
    else
      match s.budget.peftPagesNeeded req with
      | none => .returned s
      | some pages =>
        match sched.tryScheduleGeneration s req tail with
        | (.stop, tried, _) => .returned tried
        | (.skip, tried, left) => phaseOne inflight rounds left tried
        | (.scheduled, tried, left) =>
          phaseOne inflight rounds left { tried with
            scheduledGen := tried.scheduledGen ++ [req]
            budget := tried.budget.commit req (generationTokens req) pages }

-- One pass of the second loop, and whether it goes on.
def visit (req : Request) (s : LoopState) : Option (LoopState × Bool) :=
  if s.budget.requestsFull then some (s, false)
  else
    match s.budget.peftPagesNeeded req with
    | none => some (s, true)
    | some pages =>
      if req.base.state = .encoderInit then
        match sched.tryScheduleEncoder s.budget req with
        | none => none
        | some (.stop, _) => some (s, false)
        | some (_, tokens) =>
          some ({ s with
            scheduledEncoder := s.scheduledEncoder ++ [req]
            budget := s.budget.commit req tokens pages }, true)
      else
        match sched.tryScheduleContext s.world s.budget req with
        | none => none
        | some attempt =>
          let tried : LoopState := { s with world := attempt.world }
          match attempt.action with
          | .stop => some (tried, false)
          | .skip => some (tried, true)
          | .scheduled =>
            some ({ tried with
              hasChunking := s.hasChunking || attempt.chunking
              scheduledCtx := s.scheduledCtx ++ [attempt.req]
              budget := s.budget.commit attempt.req attempt.tokens pages }, true)

def phaseTwo : List Request → LoopState → Option LoopState
  | [], s => some s
  | req :: rest, s =>
    match sched.visit req s with
    | none => none
    | some (next, false) => some next
    | some (next, true) => phaseTwo rest next

variable (inflight : List Nat)

def generationCandidate (req : Request) : Bool :=
  req.base.isGenerationInProgressState && !decide (req.base.state = .generationToComplete) && !decide (req.id ∈ inflight)

variable (active : List Request)

def deadlocked (s : LoopState) : Bool :=
  s.scheduledGen.isEmpty && s.scheduledCtx.isEmpty && s.evicted.isEmpty && active.any (generationCandidate inflight)

def preClaim (budget : BudgetTracker) : BudgetTracker :=
  active.foldl (fun claimed req => if req.base.state = .generationToComplete then claimed.preClaimPeft req else claimed) budget

def start (world : World) : LoopState :=
  ⟨[], [], [], [], [], [], 0, false, preClaim active ⟨sched.maxNumTokens, sched.maxNumRequests, sched.managers.peft, 0, 0, 0, []⟩,
    world⟩

def scheduleLoop (world : World) : Outcome LoopState :=
  match sched.phaseOne inflight active.length active (sched.start active world) with
  | .raised => .raised
  | .running => .running
  | .returned first =>
    match sched.phaseTwo first.pendingCtx first with
    | none => .raised
    | some s => if deadlocked inflight active s then .raised else .returned s

def loraSorted (reqs : List Request) : List Request :=
  reqs.insertionSort fun left right => Batch.loraOrder left.base ≤ Batch.loraOrder right.base

structure SchedulerOutput where
  encoderRequests : List Request
  contextRequests : List Request
  generationRequests : List Request
  pausedRequests : List Request
  fittingDisaggGenInitRequests : List Request
  world : World

def sortContext (reqs : List Request) (hasChunks : Bool) : List Request :=
  if hasChunks then
    loraSorted (reqs.filter fun req => !req.base.isLastContextChunk) ++
      loraSorted (reqs.filter fun req => req.base.isLastContextChunk)
  else loraSorted reqs

def SchedulerOutput.ofLoop (s : LoopState) : SchedulerOutput :=
  ⟨loraSorted s.scheduledEncoder, sortContext s.scheduledCtx s.hasChunking, loraSorted s.scheduledGen, s.evicted,
    s.disaggCandidates, s.world⟩

-- Contexts that wait for their encoder output are dropped first.
def scheduleRequest (world : World) : Outcome SchedulerOutput :=
  match sched.scheduleLoop inflight
      (active.filter fun req => !(req.base.isContextInitState && req.encoderOutputPending)) world with
  | .returned s => .returned (SchedulerOutput.ofLoop s)
  | .raised => .raised
  | .running => .running

end KVCacheV2Scheduler
end TrtLlm.Py
