import TrtLlm.Lib.Runs
import TrtLlm.Lib.Table

set_option autoImplicit false

namespace TrtLlm.Peft
open Lib (Table)

abbrev TaskId := Nat

structure TaskValue where
  pageIds : List Nat
  inProgress : Bool
  loaded : Bool
  done : Bool
  loadInProgress : Bool
deriving DecidableEq, Repr

structure LoraCache where
  cacheMap : Table TaskId TaskValue
  inProgressTasks : List TaskId
  doneTasks : List TaskId
  freePageIds : List Nat
deriving DecidableEq, Repr

def LoraCache.init (totalNumPages : Nat) : LoraCache := ⟨[], [], [], List.range totalNumPages⟩

inductive ValueStatus where
  | missing
  | processing
  | loaded
deriving DecidableEq, Repr

namespace LoraCache
variable (c : LoraCache) (taskId : TaskId)

def getStatus : ValueStatus :=
  match Table.find taskId c.cacheMap with
  | none => .missing
  | some value => if value.loaded then .loaded else .processing

def has : Bool := c.getStatus taskId ≠ .missing

def claimPages (numPages : Nat) : Option (List Nat × LoraCache) :=
  if numPages ≤ c.freePageIds.length then
    some (c.freePageIds.take numPages, { c with freePageIds := c.freePageIds.drop numPages })
  else none

def releasePages (pageIds : List Nat) : LoraCache :=
  { c with freePageIds := pageIds.foldl (fun free pageId => if pageId ∈ free then free else pageId :: free) c.freePageIds }

def evictees (cacheMap : Table TaskId TaskValue) : List TaskId → Int → List TaskId
  | [], _ => []
  | taskId :: newer, neededPages =>
    if neededPages > 0 then
      let pages := ((Table.find taskId cacheMap).map fun value => value.pageIds.length).getD 0
      taskId :: evictees cacheMap newer (neededPages - pages)
    else []

def evict (taskIds : List TaskId) : LoraCache :=
  let pageIds := taskIds.flatMap fun taskId => ((Table.find taskId c.cacheMap).map TaskValue.pageIds).getD []
  releasePages
    { c with
      doneTasks := c.doneTasks.take (c.doneTasks.length - taskIds.length)
      cacheMap := taskIds.foldl (fun cacheMap taskId => Table.clear taskId cacheMap) c.cacheMap } pageIds

-- The test for a full cache reads the outer iterator, at the oldest done task: it fires only where there is none.
-- Too few done tasks are evicted before the claim fails.
def claimPagesWithEvict (numPages : Nat) : LoraCache × Except String (List Nat) :=
  match c.claimPages numPages with
  | some (pageIds, claimed) => (claimed, .ok pageIds)
  | none =>
    if c.doneTasks = [] then (c, .error "Cache is full. There are no done tasks to evict")
    else
      let evicted := c.evict (evictees c.cacheMap c.doneTasks.reverse (numPages - c.freePageIds.length))
      match evicted.claimPages numPages with
      | some (pageIds, claimed) => (claimed, .ok pageIds)
      | none => (evicted, .error "Assertion failed: pageIds.has_value()")

def bumpTaskInProgress : LoraCache :=
  match Table.find taskId c.cacheMap with
  | none => c
  | some value =>
    { c with
      inProgressTasks := taskId :: if value.inProgress then c.inProgressTasks.erase taskId else c.inProgressTasks
      doneTasks := if value.inProgress then c.doneTasks else c.doneTasks.erase taskId
      cacheMap := Table.put taskId { value with inProgress := true, done := false } c.cacheMap }

def markTaskDone : LoraCache :=
  match Table.find taskId c.cacheMap with
  | none => c
  | some value =>
    if value.inProgress ∧ value.loaded then
      { c with
        inProgressTasks := c.inProgressTasks.erase taskId
        doneTasks := taskId :: c.doneTasks
        cacheMap := Table.put taskId { value with inProgress := false, done := true } c.cacheMap }
    else { c with cacheMap := Table.put taskId { value with done := true } c.cacheMap }

-- put with load = false.
def put (neededPages : Nat) : LoraCache × Except String Unit :=
  if c.has taskId then (c.bumpTaskInProgress taskId, .ok ())
  else
    let entered := { c with
      inProgressTasks := taskId :: c.inProgressTasks
      cacheMap := Table.put taskId ⟨[], true, false, false, true⟩ c.cacheMap }
    match entered.claimPagesWithEvict neededPages with
    | (claimed, .error message) =>
      ({ claimed with
         inProgressTasks := claimed.inProgressTasks.erase taskId
         cacheMap := Table.clear taskId claimed.cacheMap }, .error message)
    | (claimed, .ok pageIds) =>
      ({ claimed with cacheMap := Table.put taskId ⟨pageIds, true, false, false, false⟩ claimed.cacheMap }, .ok ())

-- Whether this call of loadWeights does the load.
def beginLoad : LoraCache × Except String Bool :=
  match Table.find taskId c.cacheMap with
  | none => (c, .error s!"task {taskId} has not been added to cache. call put first")
  | some value =>
    if value.loaded ∨ value.loadInProgress then (c, .ok false)
    else ({ c with cacheMap := Table.put taskId { value with loadInProgress := true } c.cacheMap }, .ok true)

def endLoad : LoraCache :=
  match Table.find taskId c.cacheMap with
  | none => c
  | some value => { c with cacheMap := Table.put taskId { value with loadInProgress := false, loaded := true } c.cacheMap }

def isDone : Bool := (Table.find taskId c.cacheMap).any TaskValue.done

-- The task counts as unloaded during the copy only, which may fail for want of device pages.
def copyTask : LoraCache × Except String Unit :=
  match c.getStatus taskId with
  | .processing => (c, .error s!"can't move a processing task taskId={taskId}")
  | .missing => (c, .error s!"can't move a missing task{taskId}")
  | .loaded => (c.bumpTaskInProgress taskId, .ok ())

end LoraCache

abbrev ReqId := Nat

structure LlmRequest where
  requestId : ReqId
  loraTaskId : Option TaskId
  -- The pages its LoRA configuration needs, if it carries weights.
  loraWeights : Option Nat := none
  -- What loraValidateRequestTensors finds wrong with the weights.
  tensorsError : Option String := none
deriving DecidableEq, Repr

inductive JobStage where
  | queued
  | copying
  | reading
  | marking
deriving DecidableEq, Repr

structure Job where
  taskId : TaskId
  stage : JobStage
deriving DecidableEq, Repr

-- A task's non-empty set of requests is kept as pairs.
structure Manager where
  taskIdToReqIds : List (TaskId × ReqId)
  taskIdToPausedReqIds : List (TaskId × ReqId)
  putFutures : List TaskId
  host : LoraCache
  jobs : List Job
deriving DecidableEq, Repr

def initManager (totalNumPages : Nat) : Manager := ⟨[], [], [], LoraCache.init totalNumPages, []⟩

def Active (m : Manager) (taskId : TaskId) : Prop := ∃ reqId, (taskId, reqId) ∈ m.taskIdToReqIds

def Paused (m : Manager) (taskId : TaskId) : Prop := ∃ reqId, (taskId, reqId) ∈ m.taskIdToPausedReqIds

def counts (pairs : List (TaskId × ReqId)) (taskId : TaskId) : Bool := pairs.any fun pair => pair.1 = taskId

variable (taskId : TaskId) (reqId : ReqId)

def registerRequest (m : Manager) : Manager :=
  { m with
    taskIdToReqIds := m.taskIdToReqIds.insert (taskId, reqId)
    taskIdToPausedReqIds := m.taskIdToPausedReqIds.filter fun pair => pair ≠ (taskId, reqId) }

def releaseTask (m : Manager) : Manager :=
  if counts m.taskIdToReqIds taskId ∨ counts m.taskIdToPausedReqIds taskId then m
  else { m with putFutures := m.putFutures.filter fun other => other ≠ taskId, host := m.host.markTaskDone taskId }

def terminateRequest (pause : Bool) (m : Manager) : Manager :=
  releaseTask taskId
    { m with
      taskIdToReqIds := m.taskIdToReqIds.filter fun pair => pair ≠ (taskId, reqId)
      taskIdToPausedReqIds :=
        if pause then m.taskIdToPausedReqIds.insert (taskId, reqId)
        else m.taskIdToPausedReqIds.filter fun pair => pair ≠ (taskId, reqId) }

def updateTaskState (terminate pause : Bool) (m : Manager) : Manager :=
  if terminate then terminateRequest taskId reqId pause m else registerRequest taskId reqId m

-- A worker holds its task's entry, which is done once evicted: what it will read is settled then.
def evictedJob (host : LoraCache) (job : Job) : Job :=
  if job.stage = .reading ∧ host.has job.taskId = false then { job with stage := .marking } else job

def storeTask (loraWeights : Option Nat) (m : Manager) : Manager × Except String Unit :=
  match loraWeights with
  | some neededPages =>
    match m.host.put taskId neededPages with
    | (host, .ok _) =>
      ({ m with
         host
         jobs := m.jobs.map (evictedJob host) ++ [⟨taskId, .queued⟩]
         putFutures := m.putFutures.insert taskId }, .ok ())
    | (host, .error message) => ({ m with host, jobs := m.jobs.map (evictedJob host) }, .error message)
  | none => ({ m with host := m.host.bumpTaskInProgress taskId, putFutures := m.putFutures.insert taskId }, .ok ())

def addTaskRequest (loraWeights : Option Nat) (m : Manager) : Manager × Except String Unit :=
  if loraWeights = none ∧ m.host.has taskId = false then
    (m, .error s!"LoRA task {taskId} not found in cache. Please send LoRA weights with request")
  else
    let registered := updateTaskState taskId reqId false false m
    if taskId ∈ registered.putFutures then (registered, .ok ())
    else
      match storeTask taskId loraWeights registered with
      | (stored, .ok _) => (stored, .ok ())
      | (stored, .error message) =>
        (updateTaskState taskId reqId true false stored, .error s!"Error storing task={taskId} in PEFT cache -- {message}")

def addRequestPeft (llmRequest : LlmRequest) (m : Manager) : Manager × Except String Unit :=
  match llmRequest.loraTaskId, llmRequest.loraWeights, llmRequest.tensorsError with
  | none, none, _ => (m, .ok ())
  | none, some _, _ => (m, .error "lora_task_id must be set for LoRA inference")
  | some _, some _, some message => (m, .error message)
  | some taskId, loraWeights, _ => addTaskRequest taskId llmRequest.requestId loraWeights m

def markRequestDone (llmReq : LlmRequest) (pause : Bool) (m : Manager) : Manager :=
  match llmReq.loraTaskId with
  | none => m
  | some taskId => updateTaskState taskId llmReq.requestId true pause m

-- The futures are taken out, then each task is copied from the host cache, whether or not other copies fail.
def ensureBatch (requests : List LlmRequest) (m : Manager) : Manager :=
  let taskIds := (requests.filterMap LlmRequest.loraTaskId).dedup
  { m with
    putFutures := m.putFutures.filter fun taskId => taskId ∉ taskIds
    host := taskIds.foldl (fun host taskId => (host.copyTask taskId).1) m.host }

def dropJob (job : Job) (m : Manager) : Manager := { m with jobs := m.jobs.erase job }

def beginLoad (m : Manager) : Manager :=
  let left := dropJob ⟨taskId, .queued⟩ m
  match m.host.beginLoad taskId with
  | (host, .ok true) => { left with host, jobs := left.jobs ++ [⟨taskId, .copying⟩] }
  | (host, _) => { left with host }

def endLoad (m : Manager) : Manager :=
  { m with host := m.host.endLoad taskId, jobs := m.jobs.erase ⟨taskId, .copying⟩ ++ [⟨taskId, .reading⟩] }

def readDone (m : Manager) : Manager :=
  let left := dropJob ⟨taskId, .reading⟩ m
  if m.host.isDone taskId then { left with jobs := left.jobs ++ [⟨taskId, .marking⟩] } else left

def endMark (m : Manager) : Manager :=
  { dropJob ⟨taskId, .marking⟩ m with host := m.host.markTaskDone taskId }

end TrtLlm.Peft
