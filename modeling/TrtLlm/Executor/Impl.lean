import TrtLlm.Request

set_option autoImplicit false

namespace TrtLlm.Executor
open Batch (LlmRequestState)

abbrev PriorityType := Rat

def kDefaultPriority : PriorityType := ⟨1, 2, by decide, by decide⟩

def kTerminateReqId : Nat := 0

def kMaxLocalReqId : Nat := 2 ^ 42

theorem no_count : ∀ count ∈ (none : Option Nat), 0 < count := by simp

-- The sampling config checks both counts.
structure Request where
  beamWidth : Nat := 1
  numReturnSequences : Option Nat := none
  priority : PriorityType := kDefaultPriority
  streaming : Bool := false
  disaggRequestId : Option Nat := none
  promptLen : Nat := 1
  beam_pos : 0 < beamWidth := by first | exact Nat.one_pos | decide
  sequences_pos : ∀ count ∈ numReturnSequences, 0 < count := by first | exact no_count | decide
deriving Repr

def getNumChildRequests (request : Request) : Nat :=
  if 1 < request.beamWidth then 0 else request.numReturnSequences.getD 1 - 1

structure RequestWithId where
  req : Request
  id : Nat
  childReqIds : List Nat := []
deriving Repr

-- Siblings share a vector of final marks: family is its place.
structure LlmRequest where
  requestId : Nat
  parentRequestId : Nat
  sequenceIndex : Nat
  family : Nat
  streaming : Bool
  priority : PriorityType
  state : LlmRequestState
  numTokens : Nat
  maxSentTokenLen : Nat
deriving DecidableEq, Repr

namespace LlmRequest

def getNumSubRequests (request : Request) : Nat :=
  if request.beamWidth = 1 then request.numReturnSequences.getD 1 else 1

variable (request : LlmRequest)

def isChild : Bool := decide (0 < request.sequenceIndex)

def isFinished : Bool :=
  match request.state with
  | .generationComplete | .disaggContextTransInProgress | .disaggContextComplete => true
  | _ => false

def streamingInProgress : Bool :=
  match request.state with
  | .generationInProgress | .generationToComplete => request.streaming
  | _ => false

def responseId : Nat := if request.isChild then request.parentRequestId else request.requestId

end LlmRequest

structure Response where
  requestId : Nat
  hasError : Bool := false
  sequenceIndex : Nat := 0
  isSequenceFinal : Bool := false
  isFinal : Bool := false
deriving DecidableEq, Repr

def Response.last (response : Response) : Bool := response.hasError || response.isFinal

abbrev FinalVecs := List (List Bool)

def markSequence (vecs : FinalVecs) (request : LlmRequest) : FinalVecs :=
  vecs.modify request.family fun vec => vec.set request.sequenceIndex request.isFinished

def allFinal (vecs : FinalVecs) (family : Nat) : Bool := (vecs.getD family []).all fun done => done

-- The marks are set before it is decided whether to send anything.
def createResponse (vecs : FinalVecs) (request : LlmRequest) : Option Response × FinalVecs × LlmRequest :=
  if !(request.isFinished || request.streamingInProgress) then (none, vecs, request)
  else
    let marked := markSequence vecs request
    if request.isFinished || (request.streaming && decide (request.maxSentTokenLen < request.numTokens)) then
      (some {
          requestId := request.responseId
          sequenceIndex := request.sequenceIndex
          isSequenceFinal := request.isFinished
          isFinal := allFinal marked request.family },
        marked, { request with maxSentTokenLen := request.numTokens })
    else (none, marked, request)

-- upper_bound in a list of falling priorities.
def insertRequestInOrder {Item : Type} (priority : Item → PriorityType) (item : Item) : List Item → List Item
  | [] => [item]
  | first :: rest =>
    if priority first < priority item then item :: first :: rest
    else first :: insertRequestInOrder priority item rest

inductive Phase where
  | top
  | fetch
  | async
  | exited
deriving DecidableEq, Repr

-- One rank in leader mode. returned are the ids given out, responses all those ever appended.
structure Impl where
  maxNumActiveRequests : Nat
  maxQueueSize : Option Nat := none
  staticBatching : Bool := false
  lastReqId : Nat := 1
  shutdownCalled : Bool := false
  shutdown : Bool := false
  queuedRequests : List RequestWithId := []
  cancelledReqIds : List Nat := []
  activeRequests : List LlmRequest := []
  sequenceFinalVecs : FinalVecs := []
  responses : List Response := []
  returned : List Nat := []
  phase : Phase := .top
deriving Repr

namespace Impl

def generateReqId (lastReqId : Nat) (request : Request) : Nat × Nat :=
  match request.disaggRequestId with
  | some id => if kMaxLocalReqId < id then (id, lastReqId) else (lastReqId % kMaxLocalReqId, lastReqId + 1)
  | none => (lastReqId % kMaxLocalReqId, lastReqId + 1)

def assignIds : Nat → List Request → List RequestWithId × Nat
  | lastReqId, [] => ([], lastReqId)
  | lastReqId, request :: rest =>
    let (id, next) := generateReqId lastReqId request
    let children := (List.range (getNumChildRequests request)).map fun child => (next + child) % kMaxLocalReqId
    let (others, last) := assignIds (next + getNumChildRequests request) rest
    (⟨request, id, children⟩ :: others, last)

def totalRequestSize (requests : List RequestWithId) : Nat :=
  (requests.map fun request => getNumChildRequests request.req + 1).sum

variable (s : Impl)

def queueFull (requests : List RequestWithId) : Bool :=
  match s.maxQueueSize with
  | some size => decide (0 < size ∧ size < s.queuedRequests.length + totalRequestSize requests)
  | none => false

-- A call that throws returns no ids, but the counter has moved on.
def enqueueRequests (requests : List Request) : Impl :=
  if s.shutdownCalled then s
  else
    let (withIds, last) := assignIds s.lastReqId requests
    if s.queueFull withIds then { s with lastReqId := last }
    else
      { s with
        lastReqId := last
        queuedRequests := withIds.foldl (fun queue request =>
          insertRequestInOrder (fun item => item.req.priority) request queue) s.queuedRequests
        returned := s.returned ++ withIds.map fun request => request.id }

def cancelRequest (requestId : Nat) : Impl :=
  if s.shutdownCalled then s else { s with cancelledReqIds := requestId :: s.cancelledReqIds }

def terminateRequest : RequestWithId := { req := {}, id := kTerminateReqId }

def callShutdown : Impl :=
  if s.shutdownCalled then s
  else if s.shutdown then { s with shutdownCalled := true }
  else { s with shutdownCalled := true, queuedRequests := s.queuedRequests ++ [terminateRequest] }

-- A forward call throws, or leaves any state and any number of tokens in each request.
abbrev Progress := LlmRequest → LlmRequestState × Nat

def progressed (progress : Progress) (request : LlmRequest) : LlmRequest :=
  { request with state := (progress request).1, numTokens := (progress request).2 }

def errorResponse (requestId : Nat) : Response := { requestId := requestId, hasError := true }

def terminateActiveRequests : Impl :=
  { s with
    activeRequests := []
    responses := s.responses ++ s.activeRequests.map fun request => errorResponse request.requestId }

def forward (outcome : Option Progress) : Impl :=
  match outcome with
  | none => s.terminateActiveRequests
  | some progress => { s with activeRequests := s.activeRequests.map (progressed progress) }

def finishTimedOutRequests (timedOut : LlmRequest → Bool) : Impl :=
  { s with cancelledReqIds := s.cancelledReqIds ++
      (s.activeRequests.filter fun request => timedOut request && !request.isFinished).map LlmRequest.requestId }

def terminateCancelledRequests : Impl :=
  { s with cancelledReqIds := s.cancelledReqIds.filter fun id =>
      !(s.activeRequests.any fun request => request.responseId == id) }

def populate : List LlmRequest → List LlmRequest → FinalVecs → List Response → List LlmRequest × FinalVecs × List Response
  | kept, [], vecs, responses => (kept, vecs, responses)
  | kept, request :: rest, vecs, responses =>
    match createResponse vecs request with
    | (response, marked, sent) =>
      populate (if request.isFinished then kept else kept ++ [sent]) rest marked (responses ++ response.toList)

def populateNewResponses : Impl :=
  match populate [] s.activeRequests s.sequenceFinalVecs s.responses with
  | (active, vecs, responses) =>
    { s with activeRequests := active, sequenceFinalVecs := vecs, responses := responses }

-- Stops at the active limit or another beam width.
def takeFitting (beamWidth maxNewRequests : Nat) : Nat → List RequestWithId → List RequestWithId × List RequestWithId
  | _, [] => ([], [])
  | count, request :: rest =>
    if maxNewRequests ≤ count then ([], request :: rest)
    else if maxNewRequests < count + (getNumChildRequests request.req + 1) then ([], request :: rest)
    else if request.req.beamWidth ≠ beamWidth then ([], request :: rest)
    else
      match takeFitting beamWidth maxNewRequests (count + (getNumChildRequests request.req + 1)) rest with
      | (taken, left) => (request :: taken, left)

-- Goes on while the front is more urgent than some active request.
def takeUrgent (beamWidth : Nat) (lowest : PriorityType) : List RequestWithId → List RequestWithId × List RequestWithId
  | [] => ([], [])
  | request :: rest =>
    if request.req.priority ≤ lowest then ([], request :: rest)
    else if request.req.beamWidth ≠ beamWidth then ([], request :: rest)
    else
      match takeUrgent beamWidth lowest rest with
      | (taken, left) => (request :: taken, left)

def lowestPriority : Option PriorityType := s.activeRequests.getLast?.map LlmRequest.priority

def operatingBeamWidth (modelBeamWidth : Nat) (first : RequestWithId) : Nat :=
  if s.activeRequests.isEmpty then first.req.beamWidth else modelBeamWidth

def maxNewRequests : Nat := s.maxNumActiveRequests - s.activeRequests.length

def getLeaderNewReqWithIds (modelBeamWidth : Nat) : List RequestWithId × List RequestWithId :=
  match s.queuedRequests with
  | [] => ([], [])
  | first :: rest =>
    if first.id = kTerminateReqId then ([first], rest)
    else
      let beamWidth := s.operatingBeamWidth modelBeamWidth first
      match takeFitting beamWidth s.maxNewRequests 0 (first :: rest) with
      | (fitting, left) =>
        match s.lowestPriority with
        | none => (fitting, left)
        | some lowest =>
          match takeUrgent beamWidth lowest left with
          | (urgent, left') => (fitting ++ urgent, left')

def makeSequence (request : RequestWithId) (family index : Nat) : LlmRequest :=
  { requestId := if index = 0 then request.id else request.childReqIds.getD (index - 1) 0
    parentRequestId := request.id
    sequenceIndex := index
    family := family
    streaming := request.req.streaming && !s.staticBatching
    priority := request.req.priority
    state := .contextInit
    numTokens := request.req.promptLen
    maxSentTokenLen := request.req.promptLen }

-- failing: the sequence at which building the request throws; those before it are new requests already.
def fetchOne (failing : RequestWithId → Option Nat) (request : RequestWithId) : Impl × List LlmRequest :=
  let count := LlmRequest.getNumSubRequests request.req
  let opened := { s with sequenceFinalVecs := s.sequenceFinalVecs ++ [List.replicate count false] }
  match failing request with
  | none => (opened, (List.range count).map (s.makeSequence request s.sequenceFinalVecs.length))
  | some index =>
    if index < count then
      ({ opened with responses := s.responses ++ [errorResponse request.id] },
        (List.range index).map (s.makeSequence request s.sequenceFinalVecs.length))
    else (opened, (List.range count).map (s.makeSequence request s.sequenceFinalVecs.length))

-- The terminate request ends the fetch and drops what was built before it.
def fetchEach (failing : RequestWithId → Option Nat) : Impl → List LlmRequest → List RequestWithId → Impl × List LlmRequest
  | s, fetched, [] => (s, fetched)
  | s, fetched, request :: rest =>
    if request.id = kTerminateReqId then ({ s with shutdown := true }, [])
    else
      match s.fetchOne failing request with
      | (next, made) => fetchEach failing next (fetched ++ made) rest

def insertAll (active fetched : List LlmRequest) : List LlmRequest :=
  fetched.foldl (fun list request => insertRequestInOrder LlmRequest.priority request list) active

def fetchNewRequests (modelBeamWidth : Nat) (failing : RequestWithId → Option Nat) : Impl :=
  match s.getLeaderNewReqWithIds modelBeamWidth with
  | (batch, left) =>
    match fetchEach failing { s with queuedRequests := left } [] batch with
    | (next, fetched) => { next with activeRequests := insertAll s.activeRequests fetched }

end Impl

inductive Action where
  | enqueueRequests (requests : List Request)
  | cancelRequest (requestId : Nat)
  | shutdown
  | sync (timedOut : LlmRequest → Bool) (outcome : Option Impl.Progress)
  | fetch (modelBeamWidth : Nat) (failing : RequestWithId → Option Nat)
  | async (outcome : Option Impl.Progress)

namespace Impl

def syncPart (s : Impl) (timedOut : LlmRequest → Bool) (outcome : Option Progress) : Impl :=
  if s.shutdown && s.activeRequests.isEmpty then { s with phase := .exited }
  else if s.activeRequests.isEmpty then { s with phase := .fetch }
  else
    let synced := (((s.finishTimedOutRequests timedOut).terminateCancelledRequests).forward outcome).populateNewResponses
    { synced with phase := .fetch }

def fetchPart (s : Impl) (modelBeamWidth : Nat) (failing : RequestWithId → Option Nat) : Option Impl :=
  if s.shutdown then some { s with phase := .async }
  else if s.queuedRequests.isEmpty && s.activeRequests.isEmpty then none
  else some { s.fetchNewRequests modelBeamWidth failing with phase := .async }

def asyncPart (s : Impl) (outcome : Option Progress) : Impl :=
  { (if s.activeRequests.isEmpty then s else s.forward outcome) with phase := .top }

inductive Step : Impl → Action → Impl → Prop
  | enqueueRequests (s : Impl) (requests : List Request) : Step s (.enqueueRequests requests) (s.enqueueRequests requests)
  | cancelRequest (s : Impl) (requestId : Nat) : Step s (.cancelRequest requestId) (s.cancelRequest requestId)
  | shutdown (s : Impl) : Step s .shutdown s.callShutdown
  | sync (s : Impl) (timedOut : LlmRequest → Bool) (outcome : Option Progress) (here : s.phase = .top) :
      Step s (.sync timedOut outcome) (s.syncPart timedOut outcome)
  | fetch (s next : Impl) (modelBeamWidth : Nat) (failing : RequestWithId → Option Nat) (here : s.phase = .fetch)
      (goes : s.fetchPart modelBeamWidth failing = some next) : Step s (.fetch modelBeamWidth failing) next
  | async (s : Impl) (outcome : Option Progress) (here : s.phase = .async) :
      Step s (.async outcome) (s.asyncPart outcome)

end Impl
end TrtLlm.Executor
