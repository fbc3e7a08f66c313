import TrtLlm.Lib.Runs

set_option autoImplicit false

namespace TrtLlm.KvTransfer

inductive Request where
  | requestData
  | cancelSession
deriving DecidableEq, Repr

inductive Reply where
  | kvAgentResult (succeeded : Bool)
  | cancelSession
deriving DecidableEq, Repr

inductive TaskStatus where
  | init
  | transferring
  | transferred
  | error
deriving DecidableEq, Repr

inductive SessionStatus where
  | init
  | transferring
  | kvTransferred
  | error
  | cancelled
deriving DecidableEq, Repr

inductive Slot where
  | absent
  | opened
  | closed
deriving DecidableEq, Repr

-- A context rank serving one receiving rank: the messages, its TxSession with one KV task, and the worker of this
-- pair.
structure Sender where
  inbox : List Request := []
  outbox : List Reply := []
  session : Slot := .absent
  preCancelled : Bool := false
  peerRequest : Bool := false
  terminalStatus : Option SessionStatus := none
  kvTask : Bool := false
  queued : Nat := 0
  writing : Bool := false
deriving DecidableEq, Repr

namespace Sender
variable (t : Sender)

def failed : Bool := t.terminalStatus = some .error ∨ t.terminalStatus = some .cancelled

-- Without a task no worker would tell the receiver, so the listener does.
def respondWithKv : Sender :=
  if t.kvTask then { t with peerRequest := true, queued := t.queued + 1 }
  else if t.failed then { t with peerRequest := true, outbox := t.outbox ++ [.kvAgentResult false] }
  else { t with peerRequest := true }

def cancel : Sender :=
  if t.terminalStatus = some .cancelled then t
  else { t with
    terminalStatus := some .cancelled
    outbox := if t.peerRequest then t.outbox ++ [.cancelSession] else t.outbox }

def handleCancelSession : Sender :=
  if t.session = .opened then t.cancel else { t with preCancelled := true }

def setupSession : Sender :=
  if t.preCancelled then cancel { t with session := .opened, preCancelled := false } else { t with session := .opened }

def send : Sender :=
  { t with kvTask := true, queued := if t.peerRequest then t.queued + 1 else t.queued }

-- The locked part of a delivery, and what follows where the session has failed.
def beginDelivery : Sender :=
  if t.failed then { t with outbox := t.outbox ++ [.kvAgentResult false] } else { t with writing := true }

-- A write that raises ends without a message.
def endDelivery (outcome : Option Bool) (t : Sender) : Sender :=
  { t with writing := false, outbox := t.outbox ++ (outcome.map Reply.kvAgentResult).toList }

end Sender

-- The session is looked up before the locked part, so a closed one may still be used. setException stands for
-- what the task's other receivers do.
inductive SenderStep (t : Sender) : Sender → Prop where
  | requestData (rest : List Request) (arrived : t.inbox = .requestData :: rest) (known : t.session ≠ .absent) :
      SenderStep t (Sender.respondWithKv { t with inbox := rest })
  | requestSaved (rest : List Request) (arrived : t.inbox = .requestData :: rest) (unknown : t.session ≠ .opened) :
      SenderStep t { t with inbox := rest, peerRequest := true }
  | cancelSession (rest : List Request) (arrived : t.inbox = .cancelSession :: rest) :
      SenderStep t (Sender.handleCancelSession { t with inbox := rest })
  | setupSession (absent : t.session = .absent) : SenderStep t t.setupSession
  | send (opened : t.session = .opened) (first : t.kvTask = false) : SenderStep t t.send
  | cancel (opened : t.session = .opened) : SenderStep t t.cancel
  | setException (opened : t.session = .opened) : SenderStep t { t with terminalStatus := some .error }
  | deliver (count : Nat) (waiting : t.queued = count + 1) (idle : t.writing = false) (known : t.session ≠ .absent) :
      SenderStep t (Sender.beginDelivery { t with queued := count })
  | deliverUnknown (count : Nat) (waiting : t.queued = count + 1) (idle : t.writing = false) (unknown : t.session ≠ .opened) :
      SenderStep t { t with queued := count }
  | endDelivery (outcome : Option Bool) (busy : t.writing = true) : SenderStep t (t.endDelivery outcome)
  | close (opened : t.session = .opened) : SenderStep t { t with session := .closed, peerRequest := false }
  | sweep (unknown : t.session ≠ .opened) : SenderStep t { t with peerRequest := false }

structure KVRecvTask where
  status : TaskStatus := .init
  lastSliceCount : Nat := 0
deriving DecidableEq, Repr

-- What check_gen_transfer_status finds for the request. An unprocessed one is not in to_process.
inductive Outcome where
  | unprocessed
  | pending
  | cancelled
  | failed
  | completed
deriving DecidableEq, Repr

def Outcome.drops : Outcome → Bool
  | .cancelled | .failed | .completed => true
  | _ => false

-- Where a rank stands in its check: before it, in the allgather of the outcomes, or with what they agreed on.
inductive Check where
  | idle
  | voted (outcome : Outcome)
  | decided (outcome : Outcome)
deriving DecidableEq, Repr

-- A generation rank's session with the context ranks that serve it; those whose successes have been counted are
-- ghost state.
structure System where
  senders : Nat → Sender := fun _ => {}
  session : Slot := .absent
  terminalStatus : Option SessionStatus := none
  kvTask : KVRecvTask := {}
  check : Check := .idle
  counted : List Nat := []

def broadcast (ranks : Nat) (request : Request) (senders : Nat → Sender) (rank : Nat) : Sender :=
  if rank < ranks then { senders rank with inbox := (senders rank).inbox ++ [request] } else senders rank

namespace System

def status (s : System) : SessionStatus :=
  match s.terminalStatus, s.kvTask.status with
  | some terminal, _ => terminal
  | none, .error => .error
  | none, .transferred => .kvTransferred
  | none, .transferring => .transferring
  | none, .init => .init

def hasTransferringTasks (s : System) : Bool := s.kvTask.status = .transferring

-- request_and_receive_async asks every rank for the one slice.
def receive (ranks : Nat) (s : System) : System :=
  { s with session := .opened, kvTask := ⟨.transferring, 0⟩, senders := broadcast ranks .requestData s.senders }

def processKvAgentResult (ranks rank : Nat) (succeeded : Bool) (s : System) : System :=
  if succeeded then
    { s with
      kvTask := ⟨if s.kvTask.lastSliceCount + 1 = ranks then .transferred else s.kvTask.status, s.kvTask.lastSliceCount + 1⟩
      counted := rank :: s.counted }
  else
    { s with
      kvTask := { s.kvTask with status := .error }
      terminalStatus := if s.terminalStatus = none then some .error else s.terminalStatus }

def cancel (ranks : Nat) (s : System) : System :=
  if s.terminalStatus = some .cancelled then s
  else { s with
    terminalStatus := some .cancelled
    kvTask := if s.kvTask.status = .init then { s.kvTask with status := .error } else s.kvTask
    senders := broadcast ranks .cancelSession s.senders }

-- It returns True where the session is dropped.
def cancelRequest (ranks : Nat) (s : System) : System :=
  if (s.cancel ranks).hasTransferringTasks then s.cancel ranks else { s.cancel ranks with session := .closed }

-- true for COMPLETED, false for FAILED. Only a blocking wait can time out.
def waitComplete (timedOut : Bool) (s : System) : Option Bool :=
  match s.kvTask.status with
  | .transferred => some true
  | .error => some false
  | _ => if timedOut then some false else none

def outcome (timedOut : Bool) (s : System) : Outcome :=
  if s.status = .cancelled then .cancelled
  else
    match s.waitComplete timedOut with
    | some true => .completed
    | some false => .failed
    | none => .pending

-- The last part of check_gen_transfer_status.
def applyOutcome (outcome : Outcome) (s : System) : System :=
  if outcome.drops then { s with session := .closed, check := .idle } else { s with check := .idle }

def pop (rank : Nat) (rest : List Reply) (s : System) : System :=
  { s with senders := Function.update s.senders rank { s.senders rank with outbox := rest } }

end System

-- The generation ranks of a request.
abbrev Group := Nat → System

def vote (s : System) : Outcome :=
  match s.check with
  | .voted outcome => outcome
  | _ => .unprocessed

-- CANCELLED and FAILED on any rank, COMPLETED on all of them.
def consensusOutcome (gens : Nat) (votes : Nat → Outcome) (gen : Nat) : Outcome :=
  if votes gen = .unprocessed then .unprocessed
  else if ∃ other < gens, votes other = .cancelled then .cancelled
  else if ∃ other < gens, votes other = .failed then .failed
  else if ∀ other < gens, votes other = .completed then .completed
  else .pending

def genConsensusOutcome (gens : Nat) (group : Group) (gen : Nat) : System :=
  if gen < gens then { group gen with check := .decided (consensusOutcome gens (fun other => vote (group other)) gen) }
  else group gen

inductive LocalAction where
  | receive
  | result (rank : Nat) (succeeded : Bool)
  | remoteCancel (rank : Nat)
  | cancelRequest
  | process (timedOut : Bool)
  | pass
  | finish
  | sender (rank : Nat)
deriving DecidableEq, Repr

-- A message for a session that is gone is dropped. Messages arrive also during a check, the executor's own calls
-- do not overlap. Which requests a rank processes is left open.
inductive LocalStep (ranks : Nat) (s : System) : LocalAction → System → Prop where
  | receive (fresh : s.session = .absent) (idle : s.check = .idle) : LocalStep ranks s .receive (s.receive ranks)
  | result (rank : Nat) (succeeded : Bool) (rest : List Reply) (inside : rank < ranks)
      (arrived : (s.senders rank).outbox = .kvAgentResult succeeded :: rest) :
      LocalStep ranks s (.result rank succeeded)
        (if s.session = .opened then (s.pop rank rest).processKvAgentResult ranks rank succeeded else s.pop rank rest)
  | remoteCancel (rank : Nat) (rest : List Reply) (inside : rank < ranks)
      (arrived : (s.senders rank).outbox = .cancelSession :: rest) :
      LocalStep ranks s (.remoteCancel rank) (if s.session = .opened then (s.pop rank rest).cancel ranks else s.pop rank rest)
  | cancelRequest (opened : s.session = .opened) (idle : s.check = .idle) :
      LocalStep ranks s .cancelRequest (s.cancelRequest ranks)
  | process (timedOut : Bool) (opened : s.session = .opened) (idle : s.check = .idle) :
      LocalStep ranks s (.process timedOut) { s with check := .voted (s.outcome timedOut) }
  | pass (idle : s.check = .idle) : LocalStep ranks s .pass { s with check := .voted .unprocessed }
  | finish (outcome : Outcome) (decided : s.check = .decided outcome) : LocalStep ranks s .finish (s.applyOutcome outcome)
  | sender (rank : Nat) (t : Sender) (inside : rank < ranks) (step : SenderStep (s.senders rank) t) :
      LocalStep ranks s (.sender rank) { s with senders := Function.update s.senders rank t }

inductive Action where
  | onRank (gen : Nat) (action : LocalAction)
  | gather
deriving DecidableEq, Repr

-- The allgather of the outcomes ends once all ranks have come to it.
inductive Step (gens ranks : Nat) (group : Group) : Action → Group → Prop where
  | onRank (gen : Nat) (inside : gen < gens) {action : LocalAction} {next : System}
      (step : LocalStep ranks (group gen) action next) :
      Step gens ranks group (.onRank gen action) (Function.update group gen next)
  | gather (ready : ∀ gen < gens, ∃ outcome, (group gen).check = .voted outcome) :
      Step gens ranks group .gather (genConsensusOutcome gens group)

end TrtLlm.KvTransfer
