import TrtLlm.Executor.Impl
import TrtLlm.Executor.Participants

set_option autoImplicit false

namespace TrtLlm.Executor

-- A grid of tensor and context parallel ranks, or a pipeline of tensor parallel stages.
structure World where
  pp : Nat
  tp : Nat
  cp : Nat
  pp_pos : 0 < pp := by decide
  tp_pos : 0 < tp := by decide
  cp_pos : 0 < cp := by decide
  flat : pp = 1 ∨ cp = 1 := by decide
deriving Repr

structure Rank where
  pp : Nat
  tp : Nat
  cp : Nat
deriving DecidableEq, Repr

structure World.Has (world : World) (rank : Rank) : Prop where
  pp : rank.pp < world.pp
  tp : rank.tp < world.tp
  cp : rank.cp < world.cp

-- The first rank of the first stage distributes what the leader, in the last stage, has queued.
def pipelineLeader : Rank := ⟨0, 0, 0⟩

def World.leader (world : World) : Rank := ⟨world.pp - 1, 0, 0⟩

def World.isLastPipelineParallelRank (world : World) (rank : Rank) : Bool := decide (rank.pp + 1 = world.pp)

inductive PostProcessorName where
  | batched
  | dynamic (suffix : String)
  | other (name : String)
deriving DecidableEq, Repr

def PostProcessorName.isDynamic : PostProcessorName → Bool
  | .dynamic _ => true
  | _ => false

-- What fetchNewRequests checks besides the sequences. A request has a post processor of its own or the name of
-- one.
structure RankRequest where
  request : RequestWithId
  logitsPostProcessorName : Option PostProcessorName := none
  logitsPostProcessor : Bool := false
  guidedDecoding : Bool := false
  additionalOutputs : List String := []
  lone : logitsPostProcessor = true → logitsPostProcessorName = none := by decide
deriving Repr

def RankRequest.dynamicName (request : RankRequest) : PostProcessorName := .dynamic (toString request.request.id)

-- The leader names a request's post processor after its id.
def RankRequest.setupDynamic (request : RankRequest) : RankRequest :=
  if request.logitsPostProcessor then
    { request with
      logitsPostProcessorName := some request.dynamicName
      logitsPostProcessor := false
      lone := Bool.noConfusion }
  else request

def setupDynamicLogitsPostProcessors (requests : List RankRequest) : List RankRequest :=
  requests.map RankRequest.setupDynamic

-- outputTensors are the engine's outputs whose first dimension is dynamic.
structure RankConfig where
  staticBatching : Bool := false
  batchedPostProcessor : Bool := false
  postProcessors : List PostProcessorName := []
  replicateLogitsPostProcessor : Bool := true
  guidedDecoder : Bool := false
  outputTensors : List String := []
deriving DecidableEq, Repr

variable (config : RankConfig)

-- The names getLogitsPostProcessor finds: those of the requests' own processors are only entered on the leader.
def postProcessorMap (world : World) (registered : List PostProcessorName) (rank : Rank) : List PostProcessorName :=
  config.postProcessors ++ if rank = world.leader then registered else []

def postProcessorFails (world : World) (registered : List PostProcessorName) (rank : Rank) : Option PostProcessorName → Bool
  | none => false
  | some .batched => !config.batchedPostProcessor
  | some name =>
    (name.isDynamic && config.replicateLogitsPostProcessor && decide (world.tp ≠ 1)) ||
      ((decide (rank.tp = 0) || config.replicateLogitsPostProcessor) &&
        !(postProcessorMap config world registered rank).contains name)

def guidedDecodingFails (request : RankRequest) : Bool :=
  request.guidedDecoding && !config.guidedDecoder

def additionalOutputsFail (request : RankRequest) : Bool :=
  request.additionalOutputs.any fun name => !config.outputTensors.contains name

-- Where building a request throws on a rank. The checks of the last stage fail at the first sequence, those of
-- all ranks at common.
def failsAt (world : World) (registered : List PostProcessorName)
    (common : RankRequest → Option Nat) (rank : Rank) (request : RankRequest) : Option Nat :=
  if world.isLastPipelineParallelRank rank &&
      (postProcessorFails config world registered rank request.logitsPostProcessorName ||
        guidedDecodingFails config request || additionalOutputsFail config request) then some 0
  else common request

structure RankState where
  activeRequests : List LlmRequest := []
  cancelledReqIds : List Nat := []
  shutdown : Bool := false
  fetches : Nat := 0
  exchanges : Nat := 0
  terminated : List (List Nat) := []
deriving DecidableEq, Repr

def buildSequences (request : RequestWithId) (failing : Option Nat) : List LlmRequest :=
  let count := LlmRequest.getNumSubRequests request.req
  let base : Impl := { maxNumActiveRequests := 0, staticBatching := config.staticBatching }
  (List.range (min count (failing.getD count))).map (base.makeSequence request 0)

def fetchSequences (config : RankConfig) (failing : RankRequest → Option Nat) : List RankRequest → Option (List LlmRequest)
  | [] => some []
  | request :: rest =>
    if request.request.id = kTerminateReqId then none
    else
      (fetchSequences config failing rest).map fun later =>
        buildSequences config request.request (failing request) ++ later

def fetchOnRank (config : RankConfig) (failing : RankRequest → Option Nat) (requests : List RankRequest)
    (s : RankState) : RankState :=
  match fetchSequences config failing requests with
  | none => { s with shutdown := true, fetches := s.fetches + 1 }
  | some fetched => { s with activeRequests := Impl.insertAll s.activeRequests fetched, fetches := s.fetches + 1 }

structure Outcomes where
  sync : Option Impl.Progress
  async : Option Impl.Progress

def forwardAll (outcome : Option Impl.Progress) (requests : List LlmRequest) : List LlmRequest :=
  match outcome with
  | none => []
  | some progress => requests.map (Impl.progressed progress)

-- terminateCancelledRequests, forwardSync and populateNewResponses.
def syncOnRank (cancelled : List Nat) (outcome : Option Impl.Progress) (s : RankState) : RankState :=
  let terminated := s.activeRequests.filter fun request => cancelled.contains request.responseId
  { s with
    activeRequests := (forwardAll outcome s.activeRequests).filter fun request => !request.isFinished
    cancelledReqIds := cancelled.filter fun id => !(terminated.any fun request => request.responseId == id)
    exchanges := s.exchanges + 1
    terminated := s.terminated ++ [terminated.map LlmRequest.requestId] }

def asyncOnRank (outcome : Option Impl.Progress) (s : RankState) : RankState :=
  if s.activeRequests = [] then s else { s with activeRequests := forwardAll outcome s.activeRequests }

def iterate (config : RankConfig) (failing : RankRequest → Option Nat) (cancelled : List Nat)
    (requests : List RankRequest) (outcomes : Outcomes) (s : RankState) : RankState :=
  if s.shutdown = true ∧ s.activeRequests = [] then s
  else
    let synced := if s.activeRequests = [] then s else syncOnRank cancelled outcomes.sync s
    let fetched := if synced.shutdown then synced else fetchOnRank config failing requests synced
    asyncOnRank outcomes.async fetched

-- The root of a split communicator: its ranks are those of one color, ordered by key and then by session rank.
def splitRoot (size : Nat) (color key : Nat → Nat) (rank : Nat) : Nat :=
  (((List.range size).filter fun other => color other = color rank).argmin fun other => toLex (key other, other)).getD rank

section Broadcast
variable {α : Type} (world : World)

def World.size : Nat := world.pp * world.tp * world.cp

-- Context parallel ranks are consecutive.
def World.sessionRank (rank : Rank) : Nat := (rank.pp * world.tp + rank.tp) * world.cp + rank.cp

def World.tpBcast (buffers : Nat → α) (rank : Nat) : α :=
  buffers (splitRoot world.size (fun rank => rank / world.tp) (getTensorParallelRank world.tp world.cp) rank)

def World.cpBcast (buffers : Nat → α) (rank : Nat) : α :=
  buffers (splitRoot world.size (fun rank => rank / (world.tp * world.cp) * world.tp + rank % world.tp)
    (getContextParallelRank world.cp) rank)

-- The colors take tensor parallel ranks to be consecutive. A rank the value does not reach keeps initial.
def World.gridBcast (value initial : α) (rank : Rank) : α :=
  world.cpBcast (world.tpBcast fun rank => if rank = 0 then value else initial) (world.sessionRank rank)

end Broadcast

-- The pipeline leader adds what has arrived, the others of its stage take the broadcast set unless it is empty,
-- later stages that of the stage before.
def exchanged (world : World) (rank : Rank) (own arrivals lead previous : List Nat) : List Nat :=
  if rank = pipelineLeader then arrivals ∪ own
  else if rank.pp = 0 then
    let numCancelledRequests := world.gridBcast lead.length 0 rank
    let ids := world.gridBcast lead (List.replicate numCancelledRequests 0) rank
    if 0 < numCancelledRequests then ids else own
  else previous

def Rank.source (rank : Rank) : Rank := if rank.pp = 0 then pipelineLeader else { rank with pp := rank.pp - 1 }

-- enqueueRequests has looked the name up on the leader.
def Enqueued (request : RankRequest) : Prop :=
  ∀ name, request.logitsPostProcessorName = some name →
    name = .batched ∨ name ∈ config.postProcessors ∨ name.isDynamic = true

-- The n-th message over a channel is the n-th received, and a rank waits for what it receives. registered are the
-- dynamic names the leader knows at a fetch, arrivals the ids cancelled or timed out before an exchange.
structure RankRun (world : World) (config : RankConfig) where
  iterations : Rank → Nat
  state : Rank → Nat → RankState
  requests : Nat → List RankRequest
  registered : Nat → List PostProcessorName
  common : Nat → RankRequest → Option Nat
  arrivals : Nat → List Nat
  outcomes : Nat → Outcomes
  fetched : Rank → Nat → List RankRequest
  cancelled : Rank → Nat → List Nat
  enqueued : ∀ count, ∀ request ∈ requests count, Enqueued config request
  entered : ∀ count, ∀ request ∈ requests count, request.logitsPostProcessor = true →
    request.dynamicName ∈ registered count
  start : ∀ rank, state rank 0 = {}
  broadcast : ∀ rank, world.Has rank → ∀ count, rank.pp = 0 →
    fetched rank count = world.gridBcast (setupDynamicLogitsPostProcessors (requests count)) [] rank
  relayed : ∀ rank count, rank.pp ≠ 0 → fetched rank count = fetched { rank with pp := rank.pp - 1 } count
  step : ∀ rank, world.Has rank → ∀ k < iterations rank,
    state rank (k + 1) =
      iterate config
        (failsAt config world (registered (state rank k).fetches) (common (state rank k).fetches) rank)
        (cancelled rank (state rank k).exchanges) (fetched rank (state rank k).fetches) (outcomes k) (state rank k)
  exchange : ∀ rank, world.Has rank → ∀ k < iterations rank, (state rank k).activeRequests ≠ [] →
    cancelled rank (state rank k).exchanges =
      exchanged world rank (state rank k).cancelledReqIds (arrivals (state rank k).exchanges)
        (cancelled pipelineLeader (state rank k).exchanges) (cancelled rank.source (state rank k).exchanges)
  waits : ∀ rank, world.Has rank → rank ≠ pipelineLeader → ∀ k < iterations rank, (state rank k).activeRequests ≠ [] →
    ∃ past < iterations rank.source, (state rank.source past).activeRequests ≠ [] ∧
      (state rank.source past).exchanges = (state rank k).exchanges

end TrtLlm.Executor
