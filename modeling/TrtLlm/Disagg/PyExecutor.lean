import TrtLlm.Lib.Runs
import TrtLlm.Lib.Table
import TrtLlm.Request

set_option autoImplicit false

namespace TrtLlm.Disagg
open Batch (LlmRequestState)
open Lib (Table)

inductive LlmRequestType where
  | contextAndGeneration
  | contextOnly
  | generationOnly
deriving DecidableEq, Repr

inductive FinishReason where
  | notFinished
  | endId
  | stopWords
  | length
  | cancelled
deriving DecidableEq, Repr

inductive Response where
  | error
  | result (isFinal : Bool)
deriving DecidableEq, Repr

def Response.final : Response → Bool
  | .error => true
  | .result isFinal => isFinal

structure Config where
  shouldStoreBlocks : Bool := false
  streamInterval : Nat := 1
  kvTransferTimeout : Bool := true
  interval_pos : 0 < streamInterval := by decide
deriving Repr

-- Membership in active_requests, the batch and canceled_req_ids is marked, and the dictionaries of the transfer
-- manager and the responses are split by request. freed counts the calls of free_resources; sending, receiving
-- and saving are the transfers in flight.
structure Request where
  type : LlmRequestType
  state : LlmRequestState
  finishReasons : List FinishReason := [.notFinished]
  streaming : Bool := false
  decodingIter : Nat := 0
  kvTransferStarted : Bool := false
  kvTransferTimedOut : Bool := false
  canceled : Bool := false
  scheduled : Bool := false
  active : Bool := true
  transfers : Option Nat := none
  pinned : Bool := false
  freed : Nat := 0
  pendingResponses : List Response := []
  responses : List Response := []
  sending : Bool := false
  receiving : Bool := false
  saving : Bool := false
deriving DecidableEq, Repr

namespace Request
variable (config : Config) (r : Request)

def isFinished : Bool :=
  match r.state with
  | .generationComplete | .disaggContextTransInProgress | .disaggContextComplete => true
  | _ => false

def isContextFinished : Bool :=
  match r.state with
  | .generationInProgress | .generationToComplete | .disaggGenerationTransComplete | .disaggContextInitAndTrans => true
  | _ => false

def isDisaggContextTransmissionState : Bool :=
  match r.state with
  | .disaggContextTransInProgress | .disaggContextInitAndTrans => true
  | _ => false

def isFinishedDueToLength : Bool := r.finishReasons.all fun reason => reason == .length

def isFinishedDueToCancellation : Bool := r.finishReasons.all fun reason => reason == .cancelled

def streamingInProgress : Bool :=
  match r.state with
  | .generationInProgress | .generationToComplete => r.streaming
  | _ => false

def createResponse : Option Response :=
  if r.isFinished || r.streamingInProgress then some (.result r.isFinished) else none

def startTransfer : Request :=
  match r.transfers with
  | some count => { r with transfers := some (count + 1) }
  | none =>
    { r with
      state := .disaggContextTransInProgress
      pinned := config.shouldStoreBlocks
      transfers := some 1 }

def endTransfer : Request × Bool :=
  match r.transfers with
  | none => (r, false)
  | some count =>
    if count - 1 = 0 then
      ({ r with
        transfers := none
        pinned := r.pinned && !config.shouldStoreBlocks
        state := if r.state = .disaggTransError then .disaggTransError else .disaggContextComplete }, true)
    else ({ r with transfers := some (count - 1) }, false)

def terminateRequest : Request := { r with freed := r.freed + 1 }

-- Without a fatal error only the given request fails.
def handleError : Request :=
  let failed := { r with state := .generationComplete, active := false, responses := r.responses ++ [Response.error] }
  failed.terminateRequest

-- A transfer faster than the response, which is buffered here.
def endTransferAndMaybeTerminate : Request :=
  if r.active then
    let answered := { r with pendingResponses := r.pendingResponses ++ r.createResponse.toList }
    match answered.endTransfer config with
    | (ended, true) => terminateRequest { ended with active := false }
    | (kept, false) => kept
  else
    match r.endTransfer config with
    | (ended, true) => if config.shouldStoreBlocks then ended else ended.terminateRequest
    | (kept, false) => kept

def flushPendingTransferResponses : Request :=
  { r with responses := r.responses ++ r.pendingResponses, pendingResponses := [] }

inductive Report where
  | finished
  | failed
deriving DecidableEq, Repr

def reported (report : Option Report) : Request :=
  match report with
  | none => r
  | some .finished => { r with sending := false }
  | some .failed => { r with sending := false, state := .disaggTransError }

-- A cancel_request that returns True ends the transceiver's transfers.
def withdrawn : Request := { r with sending := false, receiving := false }

def checkCacheTransferErrors : Request :=
  if r.active && decide (r.state = .disaggTransError) then r.handleError else r

def cancelTimedOutTransfer (completed cancels : Bool) : Request :=
  if r.transfers.isSome && r.kvTransferTimedOut && !completed && cancels then
    endTransferAndMaybeTerminate config
      { r.withdrawn with kvTransferStarted := false, state := .disaggContextComplete }
  else r

def checkContextTransferStatus (report : Option Report) (cancels : Bool) : Request :=
  let seen := r.reported report
  let ended := if report.isSome && seen.transfers.isSome then seen.endTransferAndMaybeTerminate config else seen
  (ended.cancelTimedOutTransfer config report.isSome cancels).checkCacheTransferErrors

def respondAndSendAsync : Request :=
  if r.scheduled && decide (r.type = .contextOnly) && (r.isContextFinished || r.isFinishedDueToLength) &&
      !r.isFinishedDueToCancellation then
    { r.startTransfer config with
      sending := true
      kvTransferStarted := r.kvTransferStarted || config.kvTransferTimeout }
  else r

def connectorRequestFinished (takes : Bool) : Request :=
  if r.scheduled && r.isFinished && takes then { r.startTransfer config with saving := true } else r

def beginTransfers (takes : Bool) : Request := (r.respondAndSendAsync config).connectorRequestFinished config takes

def sendKvAsync (takes : Bool) (report : Option Report) (cancels : Bool) : Request :=
  (r.beginTransfers config takes).checkContextTransferStatus config report cancels

inductive GenReport where
  | finished
  | failed
  | cancelled
deriving DecidableEq, Repr

def genReported (report : Option GenReport) : Request :=
  match report with
  | none => r
  | some .finished => { r with receiving := false, state := .disaggGenerationTransComplete }
  | some .failed => { r with receiving := false, state := .disaggTransError }
  | some .cancelled =>
    { r with receiving := false, state := if r.canceled then r.state else .disaggTransError }

def checkGenTransferStatus (report : Option GenReport) : Request := (r.genReported report).checkCacheTransferErrors

def checkKvTransferTimeout (due : Bool) : Request :=
  if (r.transfers.isSome || (r.active && decide (r.state = .disaggGenerationTransInProgress))) && r.kvTransferStarted && due then
    { r with kvTransferTimedOut := true }
  else r

def recvDisaggGenCache (fits : Bool) : Request :=
  if fits && r.active && decide (r.state = .disaggGenerationInit) then
    { r with
      state := .disaggGenerationTransInProgress
      receiving := true
      kvTransferStarted := r.kvTransferStarted || config.kvTransferTimeout }
  else r

def schedulable : Bool :=
  match r.state with
  | .contextInit | .generationInProgress | .disaggGenerationTransComplete => r.active
  | _ => false

def prepareDisaggGenTransmissionComplete : Request :=
  if r.state = .disaggGenerationTransComplete then
    { r with
      state := .generationInProgress
      decodingIter := 1
      kvTransferStarted := false
      kvTransferTimedOut := false }
  else r

def handleFirstTokenResponse : Request :=
  if r.decodingIter = 1 && decide (r.state = .generationInProgress) then
    { r with responses := r.responses ++ r.createResponse.toList }
  else r

structure Update where
  state : LlmRequestState
  finishReasons : List FinishReason
  decodingIter : Nat
deriving DecidableEq, Repr

def Update.Possible (update : Update) : Prop :=
  update.state = .contextInit ∨ update.state = .generationInProgress ∨ update.state = .generationComplete

def forwardStep (batched : Bool) (update : Update) : Request :=
  if batched then
    { r.prepareDisaggGenTransmissionComplete.handleFirstTokenResponse with
      state := update.state
      finishReasons := update.finishReasons
      decodingIter := update.decodingIter
      scheduled := true }
  else { r with scheduled := false }

def inTransmission : Bool :=
  match r.state with
  | .disaggContextTransInProgress | .disaggGenerationTransInProgress => true
  | _ => false

def finishByCancellation : Request :=
  { r with
    state := .generationComplete
    finishReasons := r.finishReasons.map fun reason => if reason = .notFinished then .cancelled else reason
    canceled := false }

def handleCanceled (cancels : Bool) : Request :=
  if !(r.canceled && r.active) then { r with canceled := false }
  else if !r.inTransmission then r.finishByCancellation
  else if cancels then r.withdrawn.finishByCancellation
  else r

def shouldEmit : Bool :=
  r.decodingIter == 1 || r.isFinished || r.decodingIter % config.streamInterval == 0

def finishResponse : Request :=
  let left := { r with active := false }
  if r.state = .disaggContextComplete then left
  else if config.shouldStoreBlocks then left.terminateRequest
  else if !r.isDisaggContextTransmissionState then left.terminateRequest
  else left

-- A timed-out request is not kept, cancelled or not.
def handleResponse (cancels : Bool) : Request :=
  if !r.active then r
  else if r.kvTransferTimedOut then
    if cancels then handleError { r.withdrawn with active := false } else { r with active := false }
  else if r.type = .generationOnly ∧ r.isFinished = false ∧ r.state = .disaggGenerationTransInProgress then r
  else
    match if r.shouldEmit config then r.createResponse else none with
    | none => r
    | some response =>
      let answered := { r with responses := r.responses ++ [response] }
      if r.isFinished then answered.finishResponse config else answered

def connectorDone (done : Bool) : Request :=
  if done then endTransferAndMaybeTerminate config { r with saving := false } else r

end Request

inductive Phase where
  | fetch
  | genStatus
  | timeouts
  | genInit
  | initStatus
  | contextStatus
  | forward
  | send
  | flush
  | cancel
  | respond
  | lateStatus
  | lateTimeouts
  | connector
deriving DecidableEq, Repr

structure PyExecutor where
  config : Config
  phase : Phase := .fetch
  requests : Table Nat Request := []
deriving Repr

structure NewRequest where
  id : Nat
  type : LlmRequestType
  streaming : Bool := false
deriving DecidableEq, Repr

def NewRequest.activated (new : NewRequest) : Request where
  type := new.type
  streaming := new.streaming
  state :=
    match new.type with
    | .generationOnly => .disaggGenerationInit
    | _ => .contextInit

namespace PyExecutor

def each (s : PyExecutor) (phase : Phase) (handler : Nat → Request → Request) : PyExecutor :=
  { s with phase, requests := s.requests.map fun entry => (entry.1, handler entry.1 entry.2) }

def fetch (s : PyExecutor) (fresh : List NewRequest) (canceled : Nat → Bool) : PyExecutor :=
  { s with
    phase := .genStatus
    requests := (s.requests ++ fresh.map fun new => (new.id, new.activated)).map fun entry =>
      (entry.1, { entry.2 with canceled := entry.2.canceled || canceled entry.1 }) }

def hasAnyInflightRequests (s : PyExecutor) : Bool := s.requests.any fun entry => entry.2.transfers.isSome

end PyExecutor

open Request

inductive Action where
  | fetch (fresh : List NewRequest) (canceled : Nat → Bool)
  | genStatus (report : Nat → Option GenReport)
  | timeouts (due : Nat → Bool)
  | genInit (fits : Nat → Bool)
  | contextStatus (report : Nat → Option Report) (cancels : Nat → Bool)
  | pass
  | forward (batch : Nat → Bool) (update : Nat → Update)
  | send (takes : Nat → Bool) (report : Nat → Option Report) (cancels : Nat → Bool)
  | flush
  | cancel (cancels : Nat → Bool)
  | respond (cancels : Nat → Bool)
  | connector (done : Nat → Bool)

-- The transceiver and the connector report any transfers in flight. With nothing to forward an iteration goes on
-- at the late timeouts.
inductive Step (s : PyExecutor) : Action → PyExecutor → Prop where
  | fetch (fresh : List NewRequest) (canceled : Nat → Bool) (here : s.phase = .fetch)
      (distinct : (s.requests.map Prod.fst ++ fresh.map NewRequest.id).Nodup) :
      Step s (.fetch fresh canceled) (s.fetch fresh canceled)
  | genStatus (report : Nat → Option GenReport) (here : s.phase = .genStatus)
      (flying : ∀ entry ∈ s.requests, (report entry.1).isSome = true → entry.2.receiving = true) :
      Step s (.genStatus report) (s.each .timeouts fun id r => r.checkGenTransferStatus (report id))
  | timeouts (due : Nat → Bool) (here : s.phase = .timeouts) :
      Step s (.timeouts due) (s.each .genInit fun id r => r.checkKvTransferTimeout (due id))
  | genInit (fits : Nat → Bool) (here : s.phase = .genInit) :
      Step s (.genInit fits) (s.each .initStatus fun id r => r.recvDisaggGenCache s.config (fits id))
  | initStatus (report : Nat → Option GenReport) (here : s.phase = .initStatus)
      (flying : ∀ entry ∈ s.requests, (report entry.1).isSome = true → entry.2.receiving = true) :
      Step s (.genStatus report) (s.each .contextStatus fun id r => r.checkGenTransferStatus (report id))
  | contextStatus (report : Nat → Option Report) (cancels : Nat → Bool) (here : s.phase = .contextStatus)
      (flying : ∀ entry ∈ s.requests, (report entry.1).isSome = true → entry.2.sending = true) :
      Step s (.contextStatus report cancels)
        (s.each .forward fun id r => r.checkContextTransferStatus s.config (report id) (cancels id))
  | unneeded (here : s.phase = .contextStatus) : Step s .pass { s with phase := .forward }
  | forward (batch : Nat → Bool) (update : Nat → Update) (here : s.phase = .forward)
      (scheduled : ∀ entry ∈ s.requests, batch entry.1 = true → entry.2.schedulable = true)
      (possible : ∀ id, (update id).Possible) :
      Step s (.forward batch update) (s.each .send fun id r => r.forwardStep (batch id) (update id))
  | idle (here : s.phase = .forward) : Step s .pass { s with phase := .lateTimeouts }
  | send (takes : Nat → Bool) (report : Nat → Option Report) (cancels : Nat → Bool) (here : s.phase = .send)
      (flying : ∀ entry ∈ s.requests, (report entry.1).isSome = true →
        (entry.2.beginTransfers s.config (takes entry.1)).sending = true) :
      Step s (.send takes report cancels)
        (s.each .flush fun id r => r.sendKvAsync s.config (takes id) (report id) (cancels id))
  | flush (here : s.phase = .flush) : Step s .flush (s.each .cancel fun _ r => r.flushPendingTransferResponses)
  | cancel (cancels : Nat → Bool) (here : s.phase = .cancel) :
      Step s (.cancel cancels) (s.each .respond fun id r => r.handleCanceled (cancels id))
  | respond (cancels : Nat → Bool) (here : s.phase = .respond) :
      Step s (.respond cancels) (s.each .lateStatus fun id r => r.handleResponse s.config (cancels id))
  | lateStatus (report : Nat → Option Report) (cancels : Nat → Bool) (here : s.phase = .lateStatus)
      (flying : ∀ entry ∈ s.requests, (report entry.1).isSome = true → entry.2.sending = true) :
      Step s (.contextStatus report cancels)
        (s.each .lateTimeouts fun id r => r.checkContextTransferStatus s.config (report id) (cancels id))
  | lateTimeouts (due : Nat → Bool) (here : s.phase = .lateTimeouts) (inflight : s.hasAnyInflightRequests = true) :
      Step s (.timeouts due) (s.each .connector fun id r => r.checkKvTransferTimeout (due id))
  | noneInflight (here : s.phase = .lateTimeouts) (absent : s.hasAnyInflightRequests = false) :
      Step s .pass { s with phase := .connector }
  | connector (done : Nat → Bool) (here : s.phase = .connector)
      (flying : ∀ entry ∈ s.requests, done entry.1 = true → entry.2.saving = true) :
      Step s (.connector done) (s.each .fetch fun id r => r.connectorDone s.config (done id))

end TrtLlm.Disagg
