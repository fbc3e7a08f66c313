import TrtLlm.Py.CapacityNoEvict

set_option autoImplicit false

namespace TrtLlm.Py
open Capacity (Request KvCacheManager Managers CapacityScheduler)

namespace PyCapacityScheduler
variable {Key Simulation : Type}

variable (sched : PyCapacityScheduler)

structure AgreementGuard [DecidableEq Key] (given : Option (Managers Key Simulation)) (active : List Request) : Prop where
  unmanaged : given = none → ∀ req ∈ sched.counterpart.maxRequests [] active, isWaitingForEncoderOutput req = false
  policy : given.isSome = true → sched.schedulerPolicy ≠ .maxUtilization
  managed : ∀ managers ∈ given, sched.NoEvictGuard managers (sched.schedulerPolicy = .staticBatch) active

def encoderFirst : PyCapacityScheduler := { maxNumRequests := 3, noScheduleUntilState := .encoderInit }

def plentiful (isCrossKv : Bool) : KvCacheManager Nat Unit where
  isCrossKv := isCrossKv
  enableBlockReuse := true
  windowSizes := [64]
  numFreeBlocks := fun _ => 10
  analyzePrefixReuse := fun tokens _ => { firstNewBlock := tokens.head? }
  remainingBlocks := fun _ _ _ => 2
  neededBlocks := fun _ _ _ _ => 1
  startScheduling := ()
  schedulingHasFreeBlocks := fun _ count _ => count ≤ 10
  schedulingRemoveSequence := fun simulation _ => simulation

def plenty : Managers Nat Unit where
  kvCacheManager := plentiful false
  crossKvCacheManager := some (plentiful true)
  cross_kind := by rintro cross ⟨⟩; rfl

def encoding (requestId : Nat) (tokens : List Nat) : Request :=
  { requestId, promptLen := 4, state := .encoderInit, encoderUniqueTokens := some tokens }

def decoding (requestId : Nat) (tokens : List Nat) : Request :=
  { requestId, promptLen := 4, uniqueTokens := [1, 2, 3], encoderUniqueTokens := some tokens }

theorem plenty_encoded {req : Request} (tokens : req.encoderUniqueTokens.isSome = true) : Encoded plenty req :=
  fun _ _ _ => tokens

end PyCapacityScheduler
end TrtLlm.Py
