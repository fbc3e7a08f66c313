import TrtLlm.Lib.Table
import TrtLlm.Lib.Runs

set_option autoImplicit false

namespace TrtLlm.Transceiver
open Lib (Table)

abbrev RequestId := Nat

inductive JobStage where
  | sending
  | releasing
  | resolving
deriving DecidableEq, Repr

-- Each locked section and each access to mAnyReady, mTerminate and mCurrentRequest is a step.
inductive Pc where
  | loopTest
  | loopTestReady
  | readyTest
  | topWait
  | terminateTest
  | emptyTest
  | receive
  | receivedTest (id : RequestId)
  | setCurrent (id : RequestId)
  | countInit (id : RequestId)
  | lookup
  | lookupAgain
  | innerWait
  | innerTerminateTest
  | foundTest
  | respond
  | cancelCheck (id : RequestId)
  | signal (id : RequestId) (isReady : Bool)
  | handOver (id : RequestId)
  | job (id : RequestId) (stage : JobStage)
  | removeResponse (id : RequestId)
  | removeCancelled (id : RequestId)
  | resolveCancelled (id : RequestId)
  | mapTest
  | clearReady
  | reset
  | left
  | died
deriving DecidableEq, Repr

-- An info is a request and the counterpart that sent it. inserting lists the sendAsync calls between their two
-- sections. From begun on the fields record what has happened: signals the calls of sendReadySignal, readySignals
-- what each counterpart got from them.
structure Sender where
  readyResponses : List RequestId := []
  anyReady : Bool := false
  terminate : Bool := false
  currentRequest : Option RequestId := none
  cancelledRequests : List RequestId := []
  remainSendCount : Table RequestId Nat := []
  requestToSession : Table RequestId (List Nat) := []
  inbox : List (RequestId × Nat) := []
  sendQueue : List RequestId := []
  jobs : List (RequestId × JobStage) := []
  inserting : List RequestId := []
  pc : Pc := .loopTest
  begun : List RequestId := []
  received : List (RequestId × Nat) := []
  counted : List RequestId := []
  cancelReturned : List RequestId := []
  signals : List (RequestId × Bool) := []
  readySignals : List (RequestId × Nat × Bool) := []
  sent : List (RequestId × Bool) := []
  released : List RequestId := []
  resolved : List (RequestId × Bool) := []
deriving Repr

def Sender.control (s : Sender) : Option Pc :=
  match s.pc with
  | .loopTest => some (if s.terminate then .loopTestReady else .readyTest)
  | .loopTestReady => some (if s.anyReady then .left else .readyTest)
  | .readyTest => some (if s.anyReady then .terminateTest else .topWait)
  | .topWait => if s.anyReady || s.terminate then some .terminateTest else none
  | .terminateTest => some (if s.terminate then .left else .emptyTest)
  | .emptyTest => some (if s.readyResponses = [] then .lookup else .receive)
  | .receive => if s.terminate then some .left else none
  | .receivedTest id => some (if s.terminate then .left else .setCurrent id)
  | .lookup =>
    match s.currentRequest with
    | none => some .died
    | some id => some (if id ∈ s.readyResponses then .respond else .lookupAgain)
  | .lookupAgain =>
    match s.currentRequest with
    | none => some .died
    | some id => some (if id ∈ s.readyResponses then .foundTest else .innerWait)
  | .innerWait => if s.anyReady || s.terminate then some .innerTerminateTest else none
  | .innerTerminateTest => some (if s.terminate then .left else .lookupAgain)
  | .foundTest => some (if s.terminate then .left else .respond)
  | .cancelCheck id => some (.signal id (decide (id ∉ s.cancelledRequests)))
  | .mapTest => some (if s.readyResponses = [] then .clearReady else .reset)
  | _ => none

def Sender.connected (counterparts : RequestId → Nat) (s : Sender) (id : RequestId) : Prop :=
  ∃ peers, Table.find id s.requestToSession = some peers ∧ ∀ peer < counterparts id, peer ∈ peers

def addPeer (peer : Nat) (id : RequestId) (sessions : Table RequestId (List Nat)) : Table RequestId (List Nat) :=
  match Table.find id sessions with
  | none => (id, [peer]) :: sessions
  | some _ => Table.update id (fun peers => peers ++ [peer]) sessions

-- The loop of sendReadySignal over the session's connections.
def toCounterparts (counterparts : RequestId → Nat) (signal : RequestId × Bool) : List (RequestId × Nat × Bool) :=
  (List.range (counterparts signal.1)).map fun peer => (signal.1, peer, signal.2)

-- One part of sendAndRemoveResponse. What a failed check raises ends in the future.
inductive JobStep (s : Sender) (id : RequestId) : JobStage → Option JobStage → Sender → Prop where
  | send (session : Table.find id s.requestToSession ≠ none) :
      JobStep s id .sending (some .releasing) { s with sent := s.sent ++ [(id, true)] }
  | sendThrows (session : Table.find id s.requestToSession ≠ none) :
      JobStep s id .sending none { s with sent := s.sent ++ [(id, false)], resolved := s.resolved ++ [(id, false)] }
  | sendUnknown (unknown : Table.find id s.requestToSession = none) :
      JobStep s id .sending none { s with resolved := s.resolved ++ [(id, false)] }
  | release (session : Table.find id s.requestToSession ≠ none) :
      JobStep s id .releasing (some .resolving) { s with
        requestToSession := Table.clear id s.requestToSession
        released := s.released ++ [id] }
  | releaseUnknown (unknown : Table.find id s.requestToSession = none) :
      JobStep s id .releasing none { s with resolved := s.resolved ++ [(id, false)] }
  | resolve : JobStep s id .resolving none { s with resolved := s.resolved ++ [(id, true)] }

-- With an agent connection manager the thread sends itself, otherwise it hands the response over to the sending
-- threads.
inductive ResponseStep (counterparts : RequestId → Nat) (isAgent : Bool) (s : Sender) : Sender → Prop where
  | control (pc : Pc) (moved : s.control = some pc) : ResponseStep counterparts isAgent s { s with pc }
  | receive (id : RequestId) (peer : Nat) (rest : List (RequestId × Nat)) (here : s.pc = .receive)
      (arrived : s.inbox = (id, peer) :: rest) :
      ResponseStep counterparts isAgent s { s with
        inbox := rest
        received := s.received ++ [(id, peer)]
        requestToSession := addPeer peer id s.requestToSession
        pc := .receivedTest id }
  | setCurrent (id : RequestId) (here : s.pc = .setCurrent id) :
      ResponseStep counterparts isAgent s { s with currentRequest := some id, pc := .countInit id }
  | countKnown (id : RequestId) (here : s.pc = .countInit id) (known : Table.find id s.remainSendCount ≠ none) :
      ResponseStep counterparts isAgent s { s with pc := .lookup }
  | countInit (id : RequestId) (here : s.pc = .countInit id) (first : Table.find id s.remainSendCount = none)
      (session : Table.find id s.requestToSession ≠ none) :
      ResponseStep counterparts isAgent s { s with
        remainSendCount := (id, counterparts id) :: s.remainSendCount
        pc := .lookup }
  | countUnknown (id : RequestId) (here : s.pc = .countInit id) (first : Table.find id s.remainSendCount = none)
      (unknown : Table.find id s.requestToSession = none) :
      ResponseStep counterparts isAgent s { s with pc := .died }
  | respondMore (id : RequestId) (count : Nat) (here : s.pc = .respond) (current : s.currentRequest = some id)
      (found : Table.find id s.remainSendCount = some (count + 2)) :
      ResponseStep counterparts isAgent s { s with
        remainSendCount := Table.update id (fun _ => count + 1) s.remainSendCount
        counted := s.counted ++ [id]
        pc := .reset }
  | respondLast (id : RequestId) (here : s.pc = .respond) (current : s.currentRequest = some id)
      (found : Table.find id s.remainSendCount = some 1) :
      ResponseStep counterparts isAgent s { s with
        remainSendCount := Table.clear id s.remainSendCount
        counted := s.counted ++ [id]
        pc := .cancelCheck id }
  | respondUnknown (here : s.pc = .respond)
      (unknown : ∀ id, s.currentRequest = some id → ∀ count, Table.find id s.remainSendCount = some count → count = 0) :
      ResponseStep counterparts isAgent s { s with pc := .died }
  | signal (id : RequestId) (isReady : Bool) (here : s.pc = .signal id isReady) (connected : s.connected counterparts id) :
      ResponseStep counterparts isAgent s { s with
        signals := s.signals ++ [(id, isReady)]
        readySignals := s.readySignals ++ toCounterparts counterparts (id, isReady)
        pc := if isReady then .handOver id else .removeCancelled id }
  | signalUnknown (id : RequestId) (isReady : Bool) (here : s.pc = .signal id isReady)
      (unknown : ¬s.connected counterparts id) :
      ResponseStep counterparts isAgent s { s with pc := .died }
  | handOver (id : RequestId) (here : s.pc = .handOver id) (other : isAgent = false) :
      ResponseStep counterparts isAgent s { s with sendQueue := s.sendQueue ++ [id], pc := .removeResponse id }
  | startJob (id : RequestId) (here : s.pc = .handOver id) (agent : isAgent = true) :
      ResponseStep counterparts isAgent s { s with pc := .job id .sending }
  | job (id : RequestId) (stage : JobStage) (next : Option JobStage) (after : Sender) (here : s.pc = .job id stage)
      (step : JobStep s id stage next after) :
      ResponseStep counterparts isAgent s { after with pc := (next.map fun later => Pc.job id later).getD (.removeResponse id) }
  | removeResponse (id : RequestId) (here : s.pc = .removeResponse id) :
      ResponseStep counterparts isAgent s { s with readyResponses := s.readyResponses.erase id, pc := .mapTest }
  | removeCancelled (id : RequestId) (here : s.pc = .removeCancelled id) (held : id ∈ s.readyResponses) :
      ResponseStep counterparts isAgent s { s with
        readyResponses := s.readyResponses.erase id
        cancelledRequests := s.cancelledRequests.filter fun other => other ≠ id
        remainSendCount := Table.clear id s.remainSendCount
        pc := .resolveCancelled id }
  | removeUnknown (id : RequestId) (here : s.pc = .removeCancelled id) (absent : id ∉ s.readyResponses) :
      ResponseStep counterparts isAgent s { s with pc := .died }
  | resolveCancelled (id : RequestId) (here : s.pc = .resolveCancelled id) :
      ResponseStep counterparts isAgent s { s with
        resolved := s.resolved ++ [(id, false)]
        currentRequest := none
        pc := .mapTest }
  | clearReady (here : s.pc = .clearReady) : ResponseStep counterparts isAgent s { s with anyReady := false, pc := .reset }
  | reset (here : s.pc = .reset) : ResponseStep counterparts isAgent s { s with currentRequest := none, pc := .loopTest }

inductive Action where
  | insert (id : RequestId)
  | flag (id : RequestId)
  | cancel (id : RequestId)
  | arrive (id : RequestId) (peer : Nat)
  | shutdown
  | response
  | worker
deriving DecidableEq, Repr

-- sendAsync is an insert, then a flag. No request id is used twice, and each counterpart sends its info once.
inductive Step (counterparts : RequestId → Nat) (isAgent : Bool) (s : Sender) : Action → Sender → Prop where
  | insert (id : RequestId) (fresh : id ∉ s.begun) :
      Step counterparts isAgent s (.insert id) { s with
        readyResponses := s.readyResponses ++ [id]
        inserting := s.inserting ++ [id]
        begun := s.begun ++ [id] }
  | flag (id : RequestId) (begun : id ∈ s.inserting) :
      Step counterparts isAgent s (.flag id) { s with anyReady := true, inserting := s.inserting.erase id }
  | cancel (id : RequestId) (held : id ∈ s.readyResponses) (idle : s.currentRequest ≠ some id) :
      Step counterparts isAgent s (.cancel id) { s with
        cancelledRequests := id :: s.cancelledRequests
        cancelReturned := s.cancelReturned ++ [id] }
  | refuse (id : RequestId) (busy : ¬(id ∈ s.readyResponses ∧ s.currentRequest ≠ some id)) :
      Step counterparts isAgent s (.cancel id) s
  | arrive (id : RequestId) (peer : Nat) (expected : peer < counterparts id) (first : (id, peer) ∉ s.inbox ++ s.received) :
      Step counterparts isAgent s (.arrive id peer) { s with inbox := s.inbox ++ [(id, peer)] }
  | shutdown : Step counterparts isAgent s .shutdown { s with terminate := true }
  | response (next : Sender) (step : ResponseStep counterparts isAgent s next) : Step counterparts isAgent s .response next
  | take (id : RequestId) (rest : List RequestId) (queued : s.sendQueue = id :: rest) :
      Step counterparts isAgent s .worker { s with sendQueue := rest, jobs := s.jobs ++ [(id, .sending)] }
  | work (id : RequestId) (stage : JobStage) (next : Option JobStage) (before after : List (RequestId × JobStage))
      (done : Sender) (running : s.jobs = before ++ (id, stage) :: after) (step : JobStep s id stage next done) :
      Step counterparts isAgent s .worker { done with jobs := before ++ (next.map fun later => (id, later)).toList ++ after }

variable {counterparts : RequestId → Nat} {isAgent : Bool} {s next : Sender}

structure JobFrame (s after : Sender) : Prop where
  readyResponses : after.readyResponses = s.readyResponses
  anyReady : after.anyReady = s.anyReady
  terminate : after.terminate = s.terminate
  currentRequest : after.currentRequest = s.currentRequest
  cancelledRequests : after.cancelledRequests = s.cancelledRequests
  remainSendCount : after.remainSendCount = s.remainSendCount
  inbox : after.inbox = s.inbox
  sendQueue : after.sendQueue = s.sendQueue
  jobs : after.jobs = s.jobs
  inserting : after.inserting = s.inserting
  pc : after.pc = s.pc
  begun : after.begun = s.begun
  received : after.received = s.received
  counted : after.counted = s.counted
  cancelReturned : after.cancelReturned = s.cancelReturned
  signals : after.signals = s.signals

section
variable {id : RequestId} {stage : JobStage} {later : Option JobStage} {after : Sender}
    (step : JobStep s id stage later after)

include step

theorem JobStep.frame : JobFrame s after := by cases step <;> constructor <;> rfl

-- As one equation: a case on it leaves every other field as in s.
theorem JobStep.written :
    ∃ requestToSession sent released resolved, after = { s with requestToSession, sent, released, resolved } := by
  cases step <;> exact ⟨_, _, _, _, rfl⟩

end

def Pc.drained : Pc → Bool
  | .resolveCancelled _ => true
  | .mapTest => true
  | .clearReady => true
  | _ => false

structure FlagSound (s : Sender) : Prop where
  flagged : s.anyReady = true → s.readyResponses ≠ [] ∨ s.pc.drained = true
  unflagged : s.readyResponses ≠ [] → (s.anyReady = true ∧ s.pc ≠ .clearReady) ∨ s.inserting ≠ []
  entering : s.pc = .terminateTest → s.readyResponses ≠ [] ∨ s.terminate = true
  serving : s.pc = .emptyTest → s.readyResponses ≠ []
  stopping : s.pc = .loopTestReady → s.terminate = true
  leaving : s.pc = .left → s.terminate = true

-- The second section of sendAsync falls neither after the last response was served nor between the test of the
-- map and the clearing of the flag.
def FlagGuard (s : Sender) : Action → Prop
  | .flag _ => s.readyResponses ≠ [] ∧ s.pc ≠ .clearReady
  | _ => True

variable (sound : FlagSound s)

include sound

theorem FlagSound.move (ready : next.readyResponses = s.readyResponses)
    (flag : next.anyReady = s.anyReady) (stop : next.terminate = s.terminate) (calls : next.inserting = s.inserting)
    (undrained : s.pc.drained = false) (apart : next.pc ≠ .clearReady)
    (entering : next.pc = .terminateTest → s.anyReady = true ∨ s.terminate = true)
    (serving : next.pc = .emptyTest → s.readyResponses ≠ [])
    (stopping : next.pc = .loopTestReady → s.terminate = true) (leaving : next.pc = .left → s.terminate = true) :
    FlagSound next := by
  have nonempty : s.anyReady = true → s.readyResponses ≠ [] := by
    intro set
    rcases sound.flagged set with held | drained
    · exact held
    · rw [undrained] at drained
      cases drained
  constructor
  · intro set
    rw [flag] at set
    rw [ready]
    exact .inl (nonempty set)
  · intro held
    rw [ready] at held
    rw [flag, calls]
    rcases sound.unflagged held with ⟨set, _⟩ | running
    · exact .inl ⟨set, apart⟩
    · exact .inr running
  · intro here
    rw [ready, stop]
    exact (entering here).imp_left nonempty
  · intro here
    rw [ready]
    exact serving here
  · intro here
    rw [stop]
    exact stopping here
  · intro here
    rw [stop]
    exact leaving here

theorem FlagSound.control (pc : Pc) (moved : s.control = some pc) : FlagSound { s with pc } := by
  cases here : s.pc with
  | mapTest =>
    simp only [Sender.control, here, Option.some.injEq] at moved
    split at moved
    · next empty =>
      subst moved
      exact ⟨fun _ => .inr rfl, fun held => absurd empty held, nofun, nofun, nofun, nofun⟩
    · next empty =>
      subst moved
      refine ⟨fun _ => .inl empty, fun held => ?_, nofun, nofun, nofun, nofun⟩
      exact (sound.unflagged held).imp_left fun set => ⟨set.1, nofun⟩
  | resolveCancelled id | clearReady => simp [Sender.control, here] at moved
  | _ =>
    have entry := sound.entering
    have serve := sound.serving
    have stop := sound.stopping
    have leave := sound.leaving
    simp only [Sender.control, here] at moved entry serve stop leave
    refine sound.move rfl rfl rfl rfl (by simp [here, Pc.drained]) ?_ ?_ ?_ ?_ ?_ <;> grind

theorem FlagSound.response (step : ResponseStep counterparts isAgent s next) : FlagSound next := by
  cases step with
  | control pc moved => exact sound.control pc moved
  | clearReady here =>
    refine ⟨nofun, fun held => .inr ?_, nofun, nofun, nofun, nofun⟩
    rcases sound.unflagged held with ⟨_, apart⟩ | running
    · exact absurd here apart
    · exact running
  | removeResponse id here =>
    refine ⟨fun _ => .inr rfl, fun held => ?_, nofun, nofun, nofun, nofun⟩
    have before : s.readyResponses ≠ [] := fun empty => held (by simp [empty])
    exact (sound.unflagged before).imp_left fun set => ⟨set.1, nofun⟩
  | removeCancelled id here held =>
    refine ⟨fun _ => .inr rfl, fun left => ?_, nofun, nofun, nofun, nofun⟩
    exact (sound.unflagged (List.ne_nil_of_mem held)).imp_left fun set => ⟨set.1, nofun⟩
  | resolveCancelled id here =>
    refine ⟨fun _ => .inr rfl, fun held => ?_, nofun, nofun, nofun, nofun⟩
    exact (sound.unflagged held).imp_left fun set => ⟨set.1, nofun⟩
  | job id stage later after here step =>
    have frame := step.frame
    refine sound.move frame.readyResponses frame.anyReady frame.terminate frame.inserting (by simp [here, Pc.drained])
      ?_ ?_ ?_ ?_ ?_
      <;> cases later <;> simp
  | signal id isReady here connected =>
    refine sound.move rfl rfl rfl rfl (by simp [here, Pc.drained]) ?_ ?_ ?_ ?_ ?_ <;> cases isReady <;> simp
  | _ => exact sound.move rfl rfl rfl rfl (by simp [*, Pc.drained]) nofun nofun nofun nofun nofun

theorem FlagSound.step {action : Action} (guard : FlagGuard s action)
    (step : Step counterparts isAgent s action next) : FlagSound next := by
  cases step with
  | insert id fresh =>
    refine ⟨fun _ => .inl (by simp), fun _ => .inr (by simp), fun _ => .inl (by simp), fun _ => by simp, ?_, ?_⟩
    · exact sound.stopping
    · exact sound.leaving
  | flag id begun => exact { sound with flagged := fun _ => .inl guard.1, unflagged := fun _ => .inl ⟨rfl, guard.2⟩ }
  | cancel id held idle | arrive id peer expected first | take id rest queued => exact { sound with }
  | refuse id busy => exact sound
  | shutdown => exact { sound with entering := fun _ => .inr rfl, stopping := fun _ => rfl, leaving := fun _ => rfl }
  | response _ step => exact sound.response step
  | work id stage later before after done running step =>
    obtain ⟨_, _, _, _, rfl⟩ := step.written
    exact { sound with }

omit sound

theorem flag_sound_start : FlagSound {} := ⟨nofun, fun held => absurd rfl held, nofun, nofun, nofun, nofun⟩

end TrtLlm.Transceiver
