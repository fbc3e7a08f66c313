import TrtLlm.Lib.Table

set_option autoImplicit false

namespace TrtLlm.Adp

inductive PyError where
  | indexError
  | keyError
  | zeroDivisionError
deriving DecidableEq, Repr

structure SchedulingParams where
  attentionDpRank : Option Int
  attentionDpRelax : Option Bool
deriving DecidableEq, Repr

structure ExecutorRequest where
  inputTokenIds : List Nat
  pySchedulingParams : Option SchedulingParams
deriving DecidableEq, Repr

structure RequestQueueItem where
  id : Nat
  request : Option ExecutorRequest
  childReqIds : List Nat
deriving DecidableEq, Repr

namespace RequestQueueItem
variable (item : RequestQueueItem)

def schedulingParams : Option SchedulingParams := item.request.bind (·.pySchedulingParams)

def tokens : List Nat := (item.request.map (·.inputTokenIds)).getD []

def targetDpRank : Option Int := item.schedulingParams.bind (·.attentionDpRank)

-- A missing attention_dp_relax is true here and false in canProcessAttentionDpRequest.
def getRelaxValue : Bool :=
  match item.schedulingParams with
  | none => true
  | some params => if params.attentionDpRank = none then true else params.attentionDpRelax.getD true

end RequestQueueItem

structure RankState where
  rank : Int
  numActiveRequests : Nat
  numActiveTokens : Nat
deriving DecidableEq, Repr

-- A negative index of a Python list counts from its end.
def pyIndex (size : Nat) (index : Int) : Option Nat :=
  if 0 ≤ index then if index < size then some index.toNat else none
  else if -(size : Int) ≤ index then some (size + index).toNat else none

def canProcessAttentionDpRequest (item : RequestQueueItem) (counts : List Nat) (maxNumActiveRequests : Nat) :
    Except PyError (Bool × List Nat) :=
  match item.schedulingParams with
  | none => .ok (true, counts)
  | some params =>
    match params.attentionDpRank with
    | none => .ok (true, counts)
    | some target =>
      if params.attentionDpRelax = some true then .ok (true, counts)
      else match pyIndex counts.length target with
        | none => .error .indexError
        | some place =>
          if counts.getD place 0 < maxNumActiveRequests then .ok (true, counts.modify place (· + 1))
          else .ok (false, counts)

abbrev Assignment := Lib.Table Int (List RequestQueueItem)

variable (assigned : Assignment)

def Assignment.requests : List RequestQueueItem := assigned.flatMap Prod.snd

def Assignment.ofRank (rank : Int) : List RequestQueueItem := (Lib.Table.find rank assigned).getD []

-- A rank that comes twice has one entry.
def emptyAssignment (states : List RankState) : Assignment := (states.map (·.rank)).dedup.map fun rank => (rank, [])

def Assignment.extend (rank : Int) (items : List RequestQueueItem) : Except PyError Assignment :=
  match Lib.Table.find rank assigned with
  | none => .error .keyError
  | some _ => .ok (Lib.Table.update rank (· ++ items) assigned)

def strictFirst (newRequests : List RequestQueueItem) : List RequestQueueItem :=
  newRequests.insertionSort fun left right => left.getRelaxValue = true → right.getRelaxValue = true

namespace DefaultADPRouter

structure Placement where
  numActive : List Nat
  assigned : Assignment
  remaining : List RequestQueueItem
deriving Repr

def placeTargeted (maxNumActiveRequests : Nat) : List RequestQueueItem → Placement → Except PyError Placement
  | [], placed => .ok placed
  | item :: rest, placed =>
    match item.targetDpRank with
    | none => placeTargeted maxNumActiveRequests rest { placed with remaining := placed.remaining ++ [item] }
    | some target =>
      match pyIndex placed.numActive.length target with
      | none => .error .indexError
      | some place =>
        if placed.numActive.getD place 0 < maxNumActiveRequests then
          match placed.assigned.extend target [item] with
          | .error raised => .error raised
          | .ok assigned =>
            placeTargeted maxNumActiveRequests rest
              { placed with numActive := placed.numActive.modify place (· + 1), assigned }
        else placeTargeted maxNumActiveRequests rest { placed with remaining := placed.remaining ++ [item] }

structure HeapVal where
  numTokens : Nat
  numRequests : Nat
  rank : Nat
deriving DecidableEq, Repr

-- The request lists are never compared, since the ranks differ.
def HeapVal.before (left right : HeapVal) : Bool :=
  decide (left.numTokens < right.numTokens) ||
    (decide (left.numTokens = right.numTokens) && (decide (left.numRequests < right.numRequests) ||
        (decide (left.numRequests = right.numRequests) && decide (left.rank < right.rank))))

-- The least value and the others, as heappop splits the heap.
def splitLeast : HeapVal → List HeapVal → HeapVal × List HeapVal
  | least, [] => (least, [])
  | least, val :: rest =>
    if val.before least then ((splitLeast val rest).1, least :: (splitLeast val rest).2)
    else ((splitLeast least rest).1, val :: (splitLeast least rest).2)

def balanceLoop (expected : Nat) : List RequestQueueItem → List HeapVal → Assignment → Except PyError Assignment
  | [], _, scheduled => .ok scheduled
  | _ :: _, [], _ => .error .indexError
  | item :: rest, first :: others, scheduled =>
    let val := (splitLeast first others).1
    let heap := (splitLeast first others).2
    let taken : HeapVal := ⟨val.numTokens + item.tokens.length, val.numRequests + 1, val.rank⟩
    balanceLoop expected rest (if taken.numRequests < expected then taken :: heap else heap)
      (Lib.Table.update (val.rank : Int) (· ++ [item]) scheduled)

def extendAll : List (Int × List RequestQueueItem) → Assignment → Except PyError Assignment
  | [], assigned => .ok assigned
  | (rank, items) :: rest, assigned => (assigned.extend rank items).bind (extendAll rest)

def heapOf (numActive numTokens : List Nat) : List HeapVal :=
  (numActive.zip numTokens).mapIdx fun rank entry => ⟨entry.2, entry.1, rank⟩

def longestFirst (items : List RequestQueueItem) : List RequestQueueItem :=
  items.insertionSort fun left right => right.tokens.length ≤ left.tokens.length

def balanceRequestsAcrossRanks (newRequests : List RequestQueueItem) (assigned : Assignment)
    (numActive numTokens : List Nat) (expected : Nat) : Except PyError Assignment :=
  if newRequests = [] then .ok assigned
  else
    let heap := (heapOf numActive numTokens).filter fun val => val.numRequests < expected
    (balanceLoop expected (longestFirst newRequests) heap (heap.map fun val => ((val.rank : Int), []))).bind
      fun scheduled => extendAll scheduled assigned

def expectedNumActiveRequests (numActive : List Nat) (numNew maxNumActiveRequests : Nat) : Nat :=
  min (max ((numActive.sum + numNew + numActive.length - 1) / numActive.length) (numActive.foldr max 0)) maxNumActiveRequests

def routeRequests (states : List RankState) (newRequests : List RequestQueueItem) (maxNumActiveRequests : Nat) :
    Except PyError (Assignment × Nat) :=
  (placeTargeted maxNumActiveRequests (strictFirst newRequests)
      ⟨states.map (·.numActiveRequests), emptyAssignment states, []⟩).bind fun placed =>
    if states = [] then .error .zeroDivisionError
    else
      let expected := expectedNumActiveRequests placed.numActive placed.remaining.length maxNumActiveRequests
      (balanceRequestsAcrossRanks placed.remaining placed.assigned placed.numActive (states.map (·.numActiveTokens))
        expected).map fun assigned => (assigned, expected)

end DefaultADPRouter

end TrtLlm.Adp
