import TrtLlm.Request

set_option autoImplicit false

namespace TrtLlm.Capacity
open Batch (LlmRequestState)

-- encoderOutputPending: a ready event is attached and has not fired.
structure Request extends Batch.LlmRequest where
  uniqueTokens : List Nat := []
  encoderUniqueTokens : Option (List Nat) := none
  encoderOutputPending : Bool := false
deriving DecidableEq, Repr

structure PrefixReuseSummary (Key : Type) where
  reusableBlocksAllocated : Nat := 0
  reusableBlocksAll : Nat := 0
  reusableTokens : Nat := 0
  firstNewBlock : Option Key := none
deriving DecidableEq, Repr

-- What the schedulers ask a KV cache manager. Simulation is what startScheduling and schedulingRemoveSequence
-- change.
structure KvCacheManager (Key Simulation : Type) where
  isCrossKv : Bool := false
  enableBlockReuse : Bool
  isVariableWindow : Bool := false
  windowSizes : List Nat
  numFreeBlocks : Nat → Int
  analyzePrefixReuse : List Nat → Request → PrefixReuseSummary Key
  remainingBlocks : Request → Nat → Option (PrefixReuseSummary Key) → Int
  neededBlocks : Request → Bool → Nat → Option (PrefixReuseSummary Key) → Int
  startScheduling : Simulation
  schedulingHasFreeBlocks : Simulation → Int → Nat → Bool
  schedulingRemoveSequence : Simulation → Nat → Simulation

structure PeftCacheManager where
  maxDevicePages : Nat
  determineNumPages : Request → Nat

structure Managers (Key Simulation : Type) where
  kvCacheManager : KvCacheManager Key Simulation
  crossKvCacheManager : Option (KvCacheManager Key Simulation) := none
  peftCacheManager : Option PeftCacheManager := none
  cross_kind : ∀ cross ∈ crossKvCacheManager, cross.isCrossKv = true

namespace KvCacheManager
variable {Key Simulation : Type} (manager : KvCacheManager Key Simulation)

def reuseSummary (req : Request) (cached : Option (PrefixReuseSummary Key)) : Option (PrefixReuseSummary Key) :=
  if manager.enableBlockReuse && req.isContextInitState && req.isFirstContextChunk && !manager.isCrossKv then
    some (cached.getD (manager.analyzePrefixReuse req.uniqueTokens req))
  else none

def getRemainingBlocksToCompletion (req : Request) (windowSize : Nat) (cached : Option (PrefixReuseSummary Key)) : Int :=
  manager.remainingBlocks req windowSize (manager.reuseSummary req cached)

def getNeededBlocksOneStep (req : Request) (twoStepsLookAhead : Bool) (windowSize : Nat)
    (cached : Option (PrefixReuseSummary Key)) : Int :=
  manager.neededBlocks req twoStepsLookAhead windowSize (manager.reuseSummary req cached)

theorem reuse_summary_cross (cross : manager.isCrossKv = true) (req : Request)
    (cached : Option (PrefixReuseSummary Key)) : manager.reuseSummary req cached = none := by
  unfold reuseSummary
  rw [cross, Bool.not_true, Bool.and_false, if_neg Bool.false_ne_true]

end KvCacheManager

inductive CapacityError where
  | crossManagerRequired
  | noEncoderTokens (requestId : Nat)
deriving DecidableEq, Repr

inductive CapacitySchedulerPolicy where
  | maxUtilization
  | guaranteedNoEvict
  | staticBatch
deriving DecidableEq, Repr

-- The reorder policy sorts the requests by their agent trees.
structure CapacityScheduler where
  maxNumRequests : Nat
  policy : CapacitySchedulerPolicy := .guaranteedNoEvict
  twoStepsLookAhead : Bool := false
  noScheduleUntilState : LlmRequestState := .contextInit
  noScheduleAfterState : LlmRequestState := .generationComplete
  reorderPolicy : Option (List Request → List Request) := none

section BlocksManagers
variable {Key Simulation : Type}

-- The counts of the last check wait in cachedNeededBlocks for commitBlocks.
structure NoEvictScheduledBlocksManager where
  availableBlocks : Nat → Int
  cachedNeededBlocks : Option (Nat → Int) := none

def NoEvictScheduledBlocksManager.enoughAvailableBlocks (blocks : NoEvictScheduledBlocksManager)
    (manager : KvCacheManager Key Simulation) (req : Request) (cached : Option (PrefixReuseSummary Key)) :
    Bool × NoEvictScheduledBlocksManager :=
  let needed := fun window => manager.getRemainingBlocksToCompletion req window cached
  (manager.windowSizes.all fun window => needed window ≤ blocks.availableBlocks window,
    { blocks with cachedNeededBlocks := some needed })

def NoEvictScheduledBlocksManager.commitBlocks (blocks : NoEvictScheduledBlocksManager) : NoEvictScheduledBlocksManager :=
  match blocks.cachedNeededBlocks with
  | none => blocks
  | some needed => { availableBlocks := fun window => blocks.availableBlocks window - needed window }

def prepareNewNumberOfBlocks (numScheduledBlocks : Nat → Int) (manager : KvCacheManager Key Simulation)
    (simulation : Simulation) (twoStepsLookAhead : Bool) (req : Request) (cached : Option (PrefixReuseSummary Key)) :
    Option (Nat → Int) :=
  let total := fun window => numScheduledBlocks window + manager.getNeededBlocksOneStep req twoStepsLookAhead window cached
  if manager.windowSizes.all fun window => manager.schedulingHasFreeBlocks simulation (total window) window then
    some total
  else none

end BlocksManagers

def splitLastStarted (started : Request → Bool) : List Request → Option (List Request × Request)
  | [] => none
  | req :: rest =>
    match splitLastStarted started rest with
    | some (before, paused) => some (req :: before, paused)
    | none => if started req then some ([], req) else none

theorem split_last_started_before (started : Request → Bool) (requests before : List Request) (paused : Request)
    (split : splitLastStarted started requests = some (before, paused)) :
    before.length < requests.length ∧ ∀ req ∈ before, req ∈ requests := by
  induction requests generalizing before with
  | nil => cases split
  | cons req rest ih =>
    rw [splitLastStarted] at split
    split at split
    · next found later =>
      cases split
      obtain ⟨shorter, listed⟩ := ih _ later
      refine ⟨Nat.succ_lt_succ shorter, List.forall_mem_cons.mpr ⟨List.mem_cons_self, ?_⟩⟩
      exact fun other mem => List.mem_cons_of_mem _ (listed other mem)
    · split_ifs at split
      cases split
      exact ⟨Nat.succ_pos _, List.forall_mem_nil _⟩

structure Contributed (Key : Type) where
  context : List Key := []
  crossContext : List Key := []

def isNewTask (seen : List Nat) (req : Request) : Bool := req.loraTaskId.any fun task => task ∉ seen

def seeTask (seen : List Nat) (req : Request) : List Nat :=
  if isNewTask seen req then req.loraTaskId.toList ++ seen else seen

namespace CapacityScheduler
variable {Key Simulation : Type} [DecidableEq Key] (sched : CapacityScheduler)
  (managers : Managers Key Simulation)

def schedulable (req : Request) : Bool :=
  req.hasReachedState sched.noScheduleUntilState && !req.hasReachedState sched.noScheduleAfterState

-- The scheduler of an engine without a KV cache.
def maxRequests : List Request → List Request → List Request
  | scheduled, [] => scheduled
  | scheduled, req :: rest =>
    if !sched.schedulable req then maxRequests scheduled rest
    else if sched.maxNumRequests ≤ scheduled.length then scheduled
    else if req.isEncoderInitState || req.isContextInitState || req.isGenerationInProgressState then
      maxRequests (scheduled ++ [req]) rest
    else maxRequests scheduled rest

def registerBlock (contributed : List Key) (summary : Option (PrefixReuseSummary Key)) : List Key :=
  match summary.bind (·.firstNewBlock) with
  | some key => key :: contributed
  | none => contributed

def selfSummary (manager : KvCacheManager Key Simulation) (req : Request) : Option (PrefixReuseSummary Key) :=
  if manager.enableBlockReuse then some (manager.analyzePrefixReuse req.uniqueTokens req) else none

-- The encoder tokens are dereferenced unchecked.
def crossSummary (cross : Option (KvCacheManager Key Simulation)) (req : Request) :
    Except CapacityError (Option (PrefixReuseSummary Key)) :=
  match cross with
  | none => .ok none
  | some manager =>
    if manager.enableBlockReuse then
      match req.encoderUniqueTokens with
      | none => .error (.noEncoderTokens req.requestId)
      | some tokens => .ok (some (manager.analyzePrefixReuse tokens req))
    else .ok none

def prefillWithChunkedContextsAlreadyExecuting (manager : KvCacheManager Key Simulation)
    (cross : Option (KvCacheManager Key Simulation)) :
    Contributed Key → List Request → Except CapacityError (Contributed Key)
  | contributed, [] => .ok contributed
  | contributed, req :: rest =>
    if req.isContextInitState && !req.isFirstContextChunk then
      match crossSummary cross req with
      | .error e => .error e
      | .ok summary =>
        prefillWithChunkedContextsAlreadyExecuting manager cross
          { context := registerBlock contributed.context (selfSummary manager req)
            crossContext := registerBlock contributed.crossContext summary } rest
    else prefillWithChunkedContextsAlreadyExecuting manager cross contributed rest

def oneManagerBeneficialToSkip (summary : Option (PrefixReuseSummary Key)) (contributed : List Key) : Bool :=
  (summary.bind (·.firstNewBlock)).any fun key => key ∈ contributed

-- The contributions are registered only when the request is not skipped.
def beneficialToSkip (summary crossSummary : Option (PrefixReuseSummary Key)) (contributed : Contributed Key) :
    Bool × Contributed Key :=
  if oneManagerBeneficialToSkip summary contributed.context then (true, contributed)
  else if oneManagerBeneficialToSkip crossSummary contributed.crossContext then (true, contributed)
  else
    (false,
      { context := registerBlock contributed.context summary
        crossContext := registerBlock contributed.crossContext crossSummary })

def requiredPages (seen : List Nat) (req : Request) : Int :=
  if isNewTask seen req then
    match managers.peftCacheManager with
    | some peft => peft.determineNumPages req
    | none => 0
  else 0

def checkRequiredCrossKvCacheManager : Except CapacityError Unit :=
  if sched.noScheduleUntilState = .encoderInit ∧ managers.crossKvCacheManager.isNone then
    .error .crossManagerRequired
  else .ok ()

def isFirstChunkContext (req : Request) : Bool :=
  req.isContextInitState && req.isFirstContextChunk && !req.isDisaggGenerationInitState

structure NoEvictPass (Key : Type) where
  scheduledRequests : List Request := []
  reservedBlocks : NoEvictScheduledBlocksManager
  reservedCrossBlocks : Option NoEvictScheduledBlocksManager
  claimedPeftPages : Int := 0
  availablePeftPages : Int := 0
  uniqTaskIds : List Nat := []
  contributed : Contributed Key := {}
  pendingRequests : List Request := []
  pendingDisGenInitRequests : List Request := []

def reserve (blocks : NoEvictScheduledBlocksManager) (manager : KvCacheManager Key Simulation) (req : Request) :
    NoEvictScheduledBlocksManager :=
  (blocks.enoughAvailableBlocks manager req none).2.commitBlocks

variable (pass : NoEvictPass Key)

def keepInProgress (req : Request) : NoEvictPass Key :=
  { pass with
    scheduledRequests := pass.scheduledRequests ++ [req]
    reservedBlocks := reserve pass.reservedBlocks managers.kvCacheManager req
    reservedCrossBlocks := pass.reservedCrossBlocks.map fun blocks =>
      managers.crossKvCacheManager.elim blocks fun cross => reserve blocks cross req
    claimedPeftPages := pass.claimedPeftPages + requiredPages managers pass.uniqTaskIds req
    uniqTaskIds := seeTask pass.uniqTaskIds req }

def classify (pass : NoEvictPass Key) : List Request → NoEvictPass Key
  | [] => pass
  | req :: rest =>
    if !req.isDisaggGenerationInitState && !sched.schedulable req then classify pass rest
    else if sched.maxNumRequests ≤ pass.scheduledRequests.length then pass
    else if req.isGenerationInProgressState then classify (keepInProgress managers pass req) rest
    else if req.isDisaggGenerationInitState then
      classify { pass with pendingDisGenInitRequests := pass.pendingDisGenInitRequests ++ [req] } rest
    else classify { pass with pendingRequests := pass.pendingRequests ++ [req] } rest

def admitEncoder (req : Request) : NoEvictPass Key :=
  let pages := requiredPages managers pass.uniqTaskIds req
  if pages ≤ pass.availablePeftPages then
    { pass with
      scheduledRequests := pass.scheduledRequests ++ [req]
      availablePeftPages := pass.availablePeftPages - pages
      uniqTaskIds := seeTask pass.uniqTaskIds req }
  else pass

def enoughCross (req : Request) (crossSummary : Option (PrefixReuseSummary Key)) : Bool × Option NoEvictScheduledBlocksManager :=
  match pass.reservedCrossBlocks, managers.crossKvCacheManager with
  | some blocks, some cross =>
    let checked := blocks.enoughAvailableBlocks cross req crossSummary
    (checked.1, some checked.2)
  | blocks, _ => (true, blocks)

def admitContext (req : Request) (summary crossSummary : Option (PrefixReuseSummary Key)) : Option (NoEvictPass Key) :=
  let blocks := pass.reservedBlocks.enoughAvailableBlocks managers.kvCacheManager req summary
  let crossBlocks := enoughCross managers pass req crossSummary
  let pages := requiredPages managers pass.uniqTaskIds req
  if blocks.1 && crossBlocks.1 && decide (pages ≤ pass.availablePeftPages) then
    some { pass with
      scheduledRequests := pass.scheduledRequests ++ [req]
      reservedBlocks := blocks.2.commitBlocks
      reservedCrossBlocks := crossBlocks.2.map NoEvictScheduledBlocksManager.commitBlocks
      availablePeftPages := pass.availablePeftPages - pages
      uniqTaskIds := seeTask pass.uniqTaskIds req }
  else if !blocks.1 || !crossBlocks.1 then none
  else some { pass with reservedBlocks := blocks.2, reservedCrossBlocks := crossBlocks.2 }

def summaries (req : Request) : Except CapacityError (Option (PrefixReuseSummary Key) × Option (PrefixReuseSummary Key)) :=
  if isFirstChunkContext req then
    (crossSummary managers.crossKvCacheManager req).map fun summary => (selfSummary managers.kvCacheManager req, summary)
  else if req.isEncoderInitState then
    (crossSummary managers.crossKvCacheManager req).map fun summary => (none, summary)
  else .ok (none, none)

-- The flag is whether the loop goes on to the next request.
def admitNext (static skippingIsRelevant : Bool) (pass : NoEvictPass Key) (req : Request) :
    Except CapacityError (NoEvictPass Key × Bool) :=
  match summaries managers req with
  | .error e => .error e
  | .ok (summary, crossSummary) =>
    let skip :=
      if !static && skippingIsRelevant && (isFirstChunkContext req || req.isEncoderInitState) then
        beneficialToSkip summary crossSummary pass.contributed
      else (false, pass.contributed)
    let considered := { pass with contributed := skip.2 }
    if skip.1 then .ok (considered, true)
    else if sched.maxNumRequests ≤ pass.scheduledRequests.length then .ok (considered, false)
    else if req.isEncoderInitState then .ok (admitEncoder managers considered req, true)
    else if req.isContextInitState || req.isDisaggGenerationInitState then
      match admitContext managers considered req summary crossSummary with
      | none => .ok (considered, false)
      | some admitted => .ok (admitted, true)
    else .ok (considered, true)

def admitPending (static skippingIsRelevant : Bool) : NoEvictPass Key → List Request → Except CapacityError (NoEvictPass Key)
  | pass, [] => .ok pass
  | pass, req :: rest =>
    match sched.admitNext managers static skippingIsRelevant pass req with
    | .error e => .error e
    | .ok (next, true) => admitPending static skippingIsRelevant next rest
    | .ok (next, false) => .ok next

-- Without a PEFT manager SizeType32's maximum.
def maxPeftCachePages : Int :=
  match managers.peftCacheManager with
  | some peft => peft.maxDevicePages
  | none => 2147483647

def guaranteedNoEvict (static : Bool) (activeRequests : List Request) : Except CapacityError (List Request) :=
  let skippingIsRelevant := !managers.kvCacheManager.isVariableWindow &&
    managers.crossKvCacheManager.all (!·.isVariableWindow)
  match sched.checkRequiredCrossKvCacheManager managers,
    (if !static && skippingIsRelevant then
      prefillWithChunkedContextsAlreadyExecuting managers.kvCacheManager managers.crossKvCacheManager {} activeRequests
    else .ok {}) with
  | .error e, _ => .error e
  | .ok (), .error e => .error e
  | .ok (), .ok contributed =>
    let pass := sched.classify managers
      { reservedBlocks := { availableBlocks := managers.kvCacheManager.numFreeBlocks }
        reservedCrossBlocks := managers.crossKvCacheManager.map fun cross => { availableBlocks := cross.numFreeBlocks }
        contributed } activeRequests
    if !static || pass.scheduledRequests.isEmpty then
      let paid := { pass with availablePeftPages := maxPeftCachePages managers - pass.claimedPeftPages }
      match sched.admitPending managers static skippingIsRelevant paid pass.pendingDisGenInitRequests with
      | .error e => .error e
      | .ok admitted =>
        (sched.admitPending managers static skippingIsRelevant admitted pass.pendingRequests).map
          (·.scheduledRequests)
    else .ok pass.scheduledRequests

structure UtilizationState (Key Simulation : Type) where
  scheduledRequests : List Request := []
  pausedRequests : List Request := []
  simulation : Simulation
  crossSimulation : Option Simulation
  numScheduledBlocks : Nat → Int := fun _ => 0
  numScheduledCrossBlocks : Nat → Int := fun _ => 0
  numScheduledPeftPages : Int := 0
  seenTaskIds : List Nat := []
  contributed : List Key := []

def isStarted (req : Request) : Bool :=
  sched.schedulable req &&
    ((req.isContextInitState && !req.isFirstContextChunk) || req.isGenerationInProgressState)

variable (state : UtilizationState Key Simulation)

def prepareCross (req : Request) : Option (Option (Nat → Int)) :=
  match managers.crossKvCacheManager, state.crossSimulation with
  | some cross, some simulation =>
    (prepareNewNumberOfBlocks state.numScheduledCrossBlocks cross simulation sched.twoStepsLookAhead req none).map some
  | _, _ => some none

def tryScheduling (req : Request) (cachedSummary : Option (PrefixReuseSummary Key)) : Option (UtilizationState Key Simulation) :=
  if state.scheduledRequests.length < sched.maxNumRequests then
    let pages := requiredPages managers state.seenTaskIds req
    let fitsPeft := managers.peftCacheManager.all fun peft =>
      decide (pages + state.numScheduledPeftPages ≤ (peft.maxDevicePages : Int))
    let accepted : UtilizationState Key Simulation :=
      { state with
        scheduledRequests := state.scheduledRequests ++ [req]
        numScheduledPeftPages := state.numScheduledPeftPages + pages
        seenTaskIds := seeTask state.seenTaskIds req }
    if req.isEncoderInitState then
      if fitsPeft then some accepted else none
    else
      match sched.prepareCross managers state req,
        prepareNewNumberOfBlocks state.numScheduledBlocks managers.kvCacheManager state.simulation
          sched.twoStepsLookAhead req cachedSummary with
      | some crossBlocks, some blocks =>
        if fitsPeft then
          some { accepted with
            numScheduledBlocks := blocks
            numScheduledCrossBlocks := crossBlocks.getD state.numScheduledCrossBlocks }
        else none
      | _, _ => none
  else none

def pause (req : Request) : UtilizationState Key Simulation :=
  { state with
    pausedRequests := state.pausedRequests ++ [req]
    simulation := managers.kvCacheManager.schedulingRemoveSequence state.simulation req.requestId
    crossSimulation := state.crossSimulation.map fun simulation =>
      managers.crossKvCacheManager.elim simulation fun cross => cross.schedulingRemoveSequence simulation req.requestId }

-- The requests still to visit lose their first one, or their end from the last started one on. One that did not
-- fit is tried again, its own block now among the contributed.
def utilizationLoop (state : UtilizationState Key Simulation) (requests : List Request) : UtilizationState Key Simulation :=
  match requests with
  | [] => state
  | req :: rest =>
    if !req.isDisaggGenerationInitState && !sched.schedulable req then utilizationLoop state rest
    else
      let summary := if isFirstChunkContext req then selfSummary managers.kvCacheManager req else none
      let skip :=
        if !managers.kvCacheManager.isVariableWindow && isFirstChunkContext req then
          beneficialToSkip summary none { context := state.contributed }
        else (false, { context := state.contributed })
      let considered := { state with contributed := skip.2.context }
      if skip.1 then utilizationLoop considered rest
      else
        match sched.tryScheduling managers considered req summary with
        | some accepted => utilizationLoop accepted rest
        | none =>
          match _split : splitLastStarted sched.isStarted (req :: rest) with
          | some (before, paused) => utilizationLoop (pause managers considered paused) before
          | none => considered
termination_by requests.length
decreasing_by
  · exact Nat.lt_succ_self _
  · exact Nat.lt_succ_self _
  · exact Nat.lt_succ_self _
  · exact (split_last_started_before _ _ _ _ _split).1

def maxUtilization (activeRequests : List Request) : Except CapacityError (List Request × List Request) :=
  match sched.checkRequiredCrossKvCacheManager managers,
    prefillWithChunkedContextsAlreadyExecuting managers.kvCacheManager none {} activeRequests with
  | .error e, _ => .error e
  | .ok (), .error e => .error e
  | .ok (), .ok contributed =>
    let final := sched.utilizationLoop managers
      { simulation := managers.kvCacheManager.startScheduling
        crossSimulation := managers.crossKvCacheManager.map (·.startScheduling)
        contributed := contributed.context } activeRequests
    .ok (final.scheduledRequests, final.pausedRequests)

def classifyOutput (scheduled paused : List Request) : List Request × List Request × List Request :=
  (scheduled.filter (!·.isDisaggGenerationInitState), scheduled.filter (·.isDisaggGenerationInitState), paused)

def schedule (given : Option (Managers Key Simulation)) (activeRequests : List Request) :
    Except CapacityError (List Request × List Request × List Request) :=
  let requestsToSchedule := sched.reorderPolicy.elim activeRequests fun reorder => reorder activeRequests
  match given with
  | none => .ok (classifyOutput (sched.maxRequests [] requestsToSchedule) [])
  | some managers =>
    match sched.policy with
    | .maxUtilization =>
      (sched.maxUtilization managers requestsToSchedule).map fun chosen => classifyOutput chosen.1 chosen.2
    | .guaranteedNoEvict =>
      (sched.guaranteedNoEvict managers false requestsToSchedule).map fun chosen => classifyOutput chosen []
    | .staticBatch =>
      (sched.guaranteedNoEvict managers true requestsToSchedule).map fun chosen => classifyOutput chosen []

end CapacityScheduler

end TrtLlm.Capacity
