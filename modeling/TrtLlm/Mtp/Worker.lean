import TrtLlm.Lib.Table
import TrtLlm.Lib.Runs

set_option autoImplicit false

namespace TrtLlm.Mtp
open Lib (Table)

-- Of the tensors only the rows of the hidden states, and whether rotary coefficients and a continuous cache are
-- there.
structure RequestState where
  length : Nat := 0
  promptLength : Nat := 0
  positionDelta : Int := 0
  context : Bool := false
  slot : Option Nat := none
  draftLength : Nat := 1
  hiddenStates : Option Nat := none
  rotaryCache : Bool := false
  kv : Bool := false
  tokens : List Nat := []
deriving DecidableEq, Repr

inductive MtpError where
  | capacity
  | protocol
deriving DecidableEq, Repr

-- The free slots are a stack, top first.
structure Qwen35MtpWorker where
  maxSequenceLength : Nat
  maxBatchSize : Nat
  maxDraftLength : Nat
  mergeDraftBatches : Bool
  pagedKv : Bool
  freeSlots : List Nat
  requests : Table Nat RequestState
deriving DecidableEq, Repr

def insertRequest (id : Nat) (state : RequestState) : Table Nat RequestState → Table Nat RequestState
  | [] => [(id, state)]
  | entry :: rest => if id < entry.1 then (id, state) :: entry :: rest else entry :: insertRequest id state rest

namespace Qwen35MtpWorker

def create (maxSequenceLength maxBatchSize maxDraftLength : Nat) (mergeDraftBatches pagedKv : Bool) :
    Except MtpError Qwen35MtpWorker :=
  if maxDraftLength = 0 ∨ 30 < maxDraftLength then .error .protocol
  else
    .ok ⟨maxSequenceLength, maxBatchSize, maxDraftLength, mergeDraftBatches, pagedKv,
      if pagedKv then List.range maxBatchSize else [], []⟩

variable (w : Qwen35MtpWorker) (requestId : Nat)

def release : Qwen35MtpWorker :=
  match w.requests.find requestId with
  | none => w
  | some state =>
    { w with
      freeSlots := if w.pagedKv then state.slot.toList ++ w.freeSlots else w.freeSlots
      requests := w.requests.remove requestId }

-- A call that throws leaves what it had done by then, so every call returns the worker and the error, if any.
abbrev Result := Qwen35MtpWorker × Option MtpError

-- A context starts a request over, in a slot of its own if the cache is paged.
def startContext : Result :=
  let released := w.release requestId
  if released.pagedKv then
    match released.freeSlots with
    | [] => (released, some .capacity)
    | slot :: rest =>
      ({ released with
          freeSlots := rest
          requests := insertRequest requestId { slot := some slot } released.requests }, none)
  else ({ released with requests := insertRequest requestId {} released.requests }, none)

variable (context : Bool)

-- hiddenStates: the rows of the captured tensor; none and false are null.
def retain (hiddenStates : Option Nat) (rotaryCache : Bool) (positionDelta : Int) : Result :=
  match w.requests.find requestId with
  | none => (w, some .protocol)
  | some state =>
    if hiddenStates.isNone || !rotaryCache || !state.tokens.isEmpty then (w, some .protocol)
    else
      ({ w with requests := w.requests.update requestId fun state =>
          { state with
            context := context
            hiddenStates := hiddenStates
            rotaryCache := rotaryCache
            positionDelta := positionDelta } }, none)

def capture (hiddenStates : Option Nat) (rotaryCache : Bool) (positionDelta : Int) : Result :=
  if context then
    match w.startContext requestId with
    | (stopped, some error) => (stopped, some error)
    | (started, none) => started.retain requestId context hiddenStates rotaryCache positionDelta
  else w.retain requestId context hiddenStates rotaryCache positionDelta

def queue (tokens : List Nat) (draftLength : Nat) : Result :=
  match w.requests.find requestId with
  | none => (w, some .protocol)
  | some state =>
    if !state.tokens.isEmpty then (w, some .protocol)
    else if tokens.isEmpty || (!state.context && decide (w.maxDraftLength + 1 < tokens.length)) then
      (w, some .protocol)
    else if draftLength = 0 ∨ w.maxDraftLength < draftLength then (w, some .protocol)
    else
      ({ w with requests := w.requests.update requestId fun state =>
          { state with draftLength := draftLength, tokens := tokens } }, none)

variable (states : List RequestState)

def widthOf : Nat := states.foldl (fun width state => max width state.tokens.length) 1

def checkRow (width : Nat) (state : RequestState) : Option MtpError :=
  if state.context ≠ context then some .protocol
  else if w.maxSequenceLength < state.length + (if context then state.tokens.length else width) then some .capacity
  else
    match state.hiddenStates with
    | none => some .protocol
    | some rows => if rows < state.tokens.length then some .protocol else none

def checkCache (states : List RequestState) : Option MtpError :=
  if !context && !w.pagedKv && states.any (fun state => !state.kv) then some .protocol else none

def checkBatch : Option MtpError :=
  match states with
  | [] => some .capacity
  | front :: _ =>
    if w.maxBatchSize < states.length then some .capacity
    else
      match states.findSome? (w.checkRow front.context (if front.context then 1 else widthOf states)) with
      | some error => some error
      | none => w.checkCache front.context states

variable (depth : Nat)

def advance (state : RequestState) : RequestState :=
  { state with
    length := state.length + state.tokens.length
    promptLength := if state.context then state.tokens.length else state.promptLength
    tokens := []
    kv := state.kv || !w.pagedKv
    hiddenStates := if depth + 1 < state.draftLength then some 1 else state.hiddenStates }

-- Every check comes before the first change to a request.
def draftBatch (states : List RequestState) : List RequestState × Option MtpError :=
  match w.checkBatch states with
  | some error => (states, some error)
  | none => (states.map (w.advance depth), none)

def speculate (state : RequestState) : RequestState :=
  if depth < state.draftLength then { state with context := false, tokens := [0] } else state

def deepen (state : RequestState) : RequestState :=
  if depth < state.draftLength then w.advance depth (speculate depth state) else state

def draftDeeper (states : List RequestState) : List RequestState × Option MtpError :=
  let active := (states.filter fun state => decide (depth < state.draftLength)).map (speculate depth)
  if active.isEmpty then (states, none)
  else
    match w.draftBatch depth active with
    | (_, some error) => (states.map (speculate depth), some error)
    | (_, none) => (states.map (w.deepen depth), none)

def draftDepths : List Nat → List RequestState → List RequestState × Option MtpError
  | [], states => (states, none)
  | depth :: deeper, states =>
    match w.draftDeeper depth states with
    | (stopped, some error) => (stopped, some error)
    | (drafted, none) => draftDepths deeper drafted

def settle (committed drafted : RequestState) : RequestState :=
  { drafted with length := committed.length, hiddenStates := none, rotaryCache := false }

def draftGroup : List RequestState × Option MtpError :=
  match w.draftBatch 0 states with
  | (stopped, some error) => (stopped, some error)
  | (committed, none) =>
    match w.draftDepths (List.range' 1 (w.maxDraftLength - 1)) committed with
    | (stopped, some error) => (stopped, some error)
    | (drafted, none) => (List.zipWith settle committed drafted, none)

def groupOf (merge : Bool) (state : RequestState) : Nat :=
  if state.context then 0 else if merge then 1 else state.tokens.length

def inGroup (merge : Bool) (group : Nat) (state : RequestState) : Bool :=
  !state.tokens.isEmpty && decide (groupOf merge state = group)

def writeBack (chosen : RequestState → Bool) : Table Nat RequestState → List RequestState → Table Nat RequestState
  | [], _ => []
  | entry :: rest, [] => entry :: rest
  | entry :: rest, state :: states =>
    if chosen entry.2 then (entry.1, state) :: writeBack chosen rest states
    else entry :: writeBack chosen rest (state :: states)

def draftGroups (merge : Bool) : List Nat → Table Nat RequestState → List Nat →
    Table Nat RequestState × List Nat × Option MtpError
  | [], requests, ids => (requests, ids, none)
  | group :: groups, requests, ids =>
    let chosen := requests.filter fun entry => inGroup merge group entry.2
    if chosen.isEmpty then draftGroups merge groups requests ids
    else
      match w.draftGroup (chosen.map Prod.snd) with
      | (states, some error) => (writeBack (inGroup merge group) requests states, ids, some error)
      | (states, none) =>
        draftGroups merge groups (writeBack (inGroup merge group) requests states) (ids ++ chosen.map Prod.fst)

def generationWidth : Nat := widthOf ((w.requests.map Prod.snd).filter fun state => !state.context)

def merges : Bool :=
  w.mergeDraftBatches && w.requests.all fun entry =>
    entry.2.context || entry.2.tokens.isEmpty || decide (entry.2.length + w.generationWidth ≤ w.maxSequenceLength)

def draftDevice : Qwen35MtpWorker × List Nat × Option MtpError :=
  match w.draftGroups w.merges (List.range (w.maxDraftLength + 2)) w.requests [] with
  | (requests, ids, error) => ({ w with requests := requests }, ids, error)

end Qwen35MtpWorker

inductive Call where
  | capture (requestId : Nat) (context : Bool) (hiddenStates : Option Nat) (rotaryCache : Bool) (positionDelta : Int)
  | queue (requestId : Nat) (tokens : List Nat) (draftLength : Nat)
  | draftDevice
  | release (requestId : Nat)
deriving DecidableEq, Repr

def Call.apply (w : Qwen35MtpWorker) : Call → Qwen35MtpWorker
  | .capture requestId context hiddenStates rotaryCache positionDelta =>
    (w.capture requestId context hiddenStates rotaryCache positionDelta).1
  | .queue requestId tokens draftLength => (w.queue requestId tokens draftLength).1
  | .draftDevice => w.draftDevice.1
  | .release requestId => w.release requestId

end TrtLlm.Mtp
