import TrtLlm.Lib.Table
import TrtLlm.Capacity.Scheduler

set_option autoImplicit false

namespace TrtLlm.Py
open Batch (LlmRequestState)
open Capacity (Request PrefixReuseSummary KvCacheManager PeftCacheManager Managers Contributed CapacitySchedulerPolicy
  isNewTask seeTask)
open Lib (Table)

inductive PyCapacityError where
  | crossManagerRequired (requestId : Nat)
  | noAttribute (name : String)
deriving DecidableEq, Repr

structure PyCapacityScheduler where
  maxNumRequests : Nat
  schedulerPolicy : CapacitySchedulerPolicy := .guaranteedNoEvict
  twoStepLookahead : Bool := false
  noScheduleUntilState : LlmRequestState := .contextInit
  noScheduleAfterState : LlmRequestState := .generationComplete
deriving DecidableEq, Repr

abbrev PrefixSummaryCache (Key : Type) := Table Nat (PrefixReuseSummary Key)

namespace PyCapacityScheduler
variable {Key Simulation : Type} [DecidableEq Key] (sched : PyCapacityScheduler) (managers : Managers Key Simulation)

def isWaitingForEncoderOutput (req : Request) : Bool := req.isContextInitState && req.encoderOutputPending

def canBeScheduled (req : Request) : Bool :=
  !isWaitingForEncoderOutput req &&
    decide (sched.noScheduleUntilState.value ≤ req.state.value ∧ req.state.value < sched.noScheduleAfterState.value)

def canBeScheduledWithDisaggException (req : Request) : Bool :=
  req.isDisaggGenerationInitState || sched.canBeScheduled req

def maxRequests : List Request → List Request → List Request
  | scheduled, [] => scheduled
  | scheduled, req :: rest =>
    if !sched.canBeScheduled req then maxRequests scheduled rest
    else if sched.maxNumRequests ≤ scheduled.length then scheduled
    else if req.isEncoderInitState || req.isContextInitState || req.isGenerationInProgressState then
      maxRequests (scheduled ++ [req]) rest
    else maxRequests scheduled rest

def isSkippingRelevant : Bool :=
  !managers.kvCacheManager.isVariableWindow && managers.crossKvCacheManager.all (!·.isVariableWindow)

variable (contributed : List Key)

def addBlock (summary : PrefixReuseSummary Key) : List Key :=
  match summary.firstNewBlock with
  | some key => key :: contributed
  | none => contributed

-- Without encoder tokens the cross manager is not asked.
def prefillContributedBlocks : Contributed Key → List Request → Contributed Key
  | contributed, [] => contributed
  | contributed, req :: rest =>
    if req.isContextInitState && !req.isFirstContextChunk then
      let context :=
        if managers.kvCacheManager.enableBlockReuse then
          addBlock contributed.context (managers.kvCacheManager.analyzePrefixReuse req.uniqueTokens req)
        else contributed.context
      let crossContext :=
        match managers.crossKvCacheManager.filter (·.enableBlockReuse), req.encoderUniqueTokens with
        | some cross, some tokens => addBlock contributed.crossContext (cross.analyzePrefixReuse tokens req)
        | _, _ => contributed.crossContext
      prefillContributedBlocks { context, crossContext } rest
    else prefillContributedBlocks contributed rest

def selfSummary (req : Request) (cache : PrefixSummaryCache Key) : Option (PrefixReuseSummary Key) × PrefixSummaryCache Key :=
  if managers.kvCacheManager.enableBlockReuse then
    match cache.find req.requestId with
    | some summary => (some summary, cache)
    | none =>
      let summary := managers.kvCacheManager.analyzePrefixReuse req.uniqueTokens req
      (some summary, (req.requestId, summary) :: cache)
  else (none, cache)

def crossSummary (req : Request) (cache : PrefixSummaryCache Key) : Option (PrefixReuseSummary Key) × PrefixSummaryCache Key :=
  match managers.crossKvCacheManager.filter (·.enableBlockReuse) with
  | none => (none, cache)
  | some cross =>
    match cache.find req.requestId with
    | some summary => (some summary, cache)
    | none =>
      match req.encoderUniqueTokens with
      | none => (none, cache)
      | some tokens =>
        let summary := cross.analyzePrefixReuse tokens req
        (some summary, (req.requestId, summary) :: cache)

structure SkipCheck (Key : Type) where
  skip : Bool
  contributed : Contributed Key
  summaryByReq : PrefixSummaryCache Key
  crossSummaryByReq : PrefixSummaryCache Key

def isContributed (summary : Option (PrefixReuseSummary Key)) : Bool :=
  (summary.bind (·.firstNewBlock)).any fun key => key ∈ contributed

def addSummary (summary : Option (PrefixReuseSummary Key)) : List Key :=
  match summary with
  | some summary => addBlock contributed summary
  | none => contributed

-- Only first-chunk context requests are ever skipped.
def beneficialToSkip (req : Request) (contributed : Contributed Key)
    (summaryByReq crossSummaryByReq : PrefixSummaryCache Key) : SkipCheck Key :=
  if !(req.isContextInitState && req.isFirstContextChunk) then ⟨false, contributed, summaryByReq, crossSummaryByReq⟩
  else
    let summary := selfSummary managers req summaryByReq
    if isContributed contributed.context summary.1 then ⟨true, contributed, summary.2, crossSummaryByReq⟩
    else
      let cross := crossSummary managers req crossSummaryByReq
      if isContributed contributed.crossContext cross.1 then ⟨true, contributed, summary.2, cross.2⟩
      else
        ⟨false,
          { context := addSummary contributed.context summary.1
            crossContext := addSummary contributed.crossContext cross.1 },
          summary.2, cross.2⟩

structure NoEvictPass (Key : Type) where
  scheduledRequests : List Request := []
  availableBlocks : Nat → Int
  availableCrossBlocks : Option (Nat → Int)
  claimedPeftPages : Int := 0
  availablePeftPages : Int := 0
  uniqTaskIds : List Nat := []
  contributed : Contributed Key := {}
  summaryByReq : PrefixSummaryCache Key := []
  crossSummaryByReq : PrefixSummaryCache Key := []
  pendingRequests : List Request := []
  pendingDisGenInitRequests : List Request := []

def decrementReservedBlocks (available : Nat → Int) (manager : KvCacheManager Key Simulation) (req : Request)
    (cached : Option (PrefixReuseSummary Key)) : Nat → Int :=
  fun window => available window - manager.getRemainingBlocksToCompletion req window cached

def enoughAvailableBlocks (available : Nat → Int) (manager : KvCacheManager Key Simulation) (req : Request)
    (cached : Option (PrefixReuseSummary Key)) : Bool :=
  manager.windowSizes.all fun window => manager.getRemainingBlocksToCompletion req window cached ≤ available window

def decrementCross (available : Option (Nat → Int)) (req : Request) (cached : Option (PrefixReuseSummary Key)) :
    Option (Nat → Int) :=
  available.map fun blocks =>
    managers.crossKvCacheManager.elim blocks fun cross => decrementReservedBlocks blocks cross req cached

def enoughCross (available : Option (Nat → Int)) (req : Request) (cached : Option (PrefixReuseSummary Key)) : Bool :=
  match available, managers.crossKvCacheManager with
  | some blocks, some cross => enoughAvailableBlocks blocks cross req cached
  | _, _ => true

def requiredPages (peft : PeftCacheManager) (seen : List Nat) (req : Request) : Int :=
  if isNewTask seen req then peft.determineNumPages req else 0

variable (pass : NoEvictPass Key)

def keepInProgress (req : Request) : NoEvictPass Key :=
  let kept : NoEvictPass Key :=
    { pass with
      scheduledRequests := pass.scheduledRequests ++ [req]
      availableBlocks := decrementReservedBlocks pass.availableBlocks managers.kvCacheManager req none
      availableCrossBlocks := decrementCross managers pass.availableCrossBlocks req none }
  match managers.peftCacheManager with
  | none => kept
  | some peft =>
    { kept with
      claimedPeftPages := pass.claimedPeftPages + requiredPages peft pass.uniqTaskIds req
      uniqTaskIds := seeTask pass.uniqTaskIds req }

def classify (pass : NoEvictPass Key) : List Request → NoEvictPass Key
  | [] => pass
  | req :: rest =>
    if !sched.canBeScheduledWithDisaggException req then classify pass rest
    else if sched.maxNumRequests ≤ pass.scheduledRequests.length then pass
    else if req.isGenerationInProgressState then classify (keepInProgress managers pass req) rest
    else if req.isDisaggGenerationInitState then
      classify { pass with pendingDisGenInitRequests := pass.pendingDisGenInitRequests ++ [req] } rest
    else classify { pass with pendingRequests := pass.pendingRequests ++ [req] } rest

def payPages (req : Request) : Option (NoEvictPass Key) :=
  match managers.peftCacheManager with
  | none => some pass
  | some peft =>
    let pages := requiredPages peft pass.uniqTaskIds req
    if pass.availablePeftPages < pages then none
    else
      some { pass with
        availablePeftPages := pass.availablePeftPages - pages
        uniqTaskIds := seeTask pass.uniqTaskIds req }

def admitEncoder (req : Request) : NoEvictPass Key :=
  match payPages managers pass req with
  | none => pass
  | some paid => { paid with scheduledRequests := paid.scheduledRequests ++ [req] }

def admitContext (req : Request) : Option (NoEvictPass Key) :=
  let cached := pass.summaryByReq.find req.requestId
  let crossCached := pass.crossSummaryByReq.find req.requestId
  let enoughBlocks := enoughAvailableBlocks pass.availableBlocks managers.kvCacheManager req cached
  let enoughCrossBlocks := enoughCross managers pass.availableCrossBlocks req crossCached
  if !enoughBlocks || !enoughCrossBlocks then none
  else
    match payPages managers pass req with
    | none => some pass
    | some paid =>
      some { paid with
        scheduledRequests := paid.scheduledRequests ++ [req]
        availableBlocks := decrementReservedBlocks paid.availableBlocks managers.kvCacheManager req cached
        availableCrossBlocks := decrementCross managers paid.availableCrossBlocks req crossCached }

def checkSkip (static : Bool) (pass : NoEvictPass Key) (req : Request) : SkipCheck Key :=
  if !static && isSkippingRelevant managers && !req.isDisaggGenerationInitState then
    beneficialToSkip managers req pass.contributed pass.summaryByReq pass.crossSummaryByReq
  else ⟨false, pass.contributed, pass.summaryByReq, pass.crossSummaryByReq⟩

def admitNext (static : Bool) (pass : NoEvictPass Key) (req : Request) : Except PyCapacityError (NoEvictPass Key × Bool) :=
  if req.isEncoderInitState && pass.availableCrossBlocks.isNone then .error (.crossManagerRequired req.requestId)
  else
    let check := checkSkip managers static pass req
    let considered :=
      { pass with
        contributed := check.contributed
        summaryByReq := check.summaryByReq
        crossSummaryByReq := check.crossSummaryByReq }
    if check.skip then .ok (considered, true)
    else if sched.maxNumRequests ≤ pass.scheduledRequests.length then .ok (considered, false)
    else if req.isEncoderInitState then .ok (admitEncoder managers considered req, true)
    else if req.isContextInitState || req.isDisaggGenerationInitState then
      match admitContext managers considered req with
      | none => .ok (considered, false)
      | some admitted => .ok (admitted, true)
    else .ok (considered, true)

def admitPending (static : Bool) : NoEvictPass Key → List Request → Except PyCapacityError (NoEvictPass Key)
  | pass, [] => .ok pass
  | pass, req :: rest =>
    match sched.admitNext managers static pass req with
    | .error e => .error e
    | .ok (next, true) => admitPending static next rest
    | .ok (next, false) => .ok next

def noEvict (static : Bool) (activeRequests : List Request) : Except PyCapacityError (List Request) :=
  let pass := sched.classify managers
    { availableBlocks := managers.kvCacheManager.numFreeBlocks
      availableCrossBlocks := managers.crossKvCacheManager.map (·.numFreeBlocks)
      availablePeftPages := managers.peftCacheManager.elim 0 (·.maxDevicePages)
      contributed :=
        if !static && isSkippingRelevant managers then prefillContributedBlocks managers {} activeRequests else {} }
    activeRequests
  if !static || pass.scheduledRequests.isEmpty then
    let paid :=
      if managers.peftCacheManager.isSome then
        { pass with availablePeftPages := pass.availablePeftPages - pass.claimedPeftPages }
      else pass
    match sched.admitPending managers static paid pass.pendingDisGenInitRequests with
    | .error e => .error e
    | .ok admitted =>
      (sched.admitPending managers static admitted pass.pendingRequests).map (·.scheduledRequests)
  else .ok pass.scheduledRequests

def classifyOutput (scheduled paused : List Request) : List Request × List Request × List Request :=
  (scheduled.filter (!·.isDisaggGenerationInitState), scheduled.filter (·.isDisaggGenerationInitState), paused)

-- MAX_UTILIZATION starts by reading max_attention_window_vec, which the bound C++ manager does not have.
def scheduleRequest (given : Option (Managers Key Simulation)) (activeRequests : List Request) :
    Except PyCapacityError (List Request × List Request × List Request) :=
  match given with
  | none => .ok (classifyOutput (sched.maxRequests [] activeRequests) [])
  | some managers =>
    match sched.schedulerPolicy with
    | .maxUtilization => .error (.noAttribute "max_attention_window_vec")
    | .guaranteedNoEvict => (sched.noEvict managers false activeRequests).map fun chosen => classifyOutput chosen []
    | .staticBatch => (sched.noEvict managers true activeRequests).map fun chosen => classifyOutput chosen []

end PyCapacityScheduler
end TrtLlm.Py
