import TrtLlm.Py.CapacityScheduler

set_option autoImplicit false

namespace TrtLlm.Py
open Capacity (Request PrefixReuseSummary KvCacheManager Managers Contributed CapacityScheduler isNewTask seeTask)
open Lib (Table)

namespace PyCapacityScheduler
variable {Key Simulation : Type}

-- The C++ scheduler with the same configuration, and no reorder policy.
def counterpart (sched : PyCapacityScheduler) : CapacityScheduler :=
  { maxNumRequests := sched.maxNumRequests
    policy := sched.schedulerPolicy
    twoStepsLookAhead := sched.twoStepLookahead
    noScheduleUntilState := sched.noScheduleUntilState
    noScheduleAfterState := sched.noScheduleAfterState }

variable (sched : PyCapacityScheduler)

section
variable {sched} {req : Request}

theorem can_be_scheduled_alike (ready : isWaitingForEncoderOutput req = false) :
    sched.canBeScheduled req = sched.counterpart.schedulable req := by
  unfold canBeScheduled CapacityScheduler.schedulable Batch.LlmRequest.hasReachedState
  rw [ready, Bool.not_false, Bool.true_and, Bool.decide_and, ← decide_not]
  simp only [Int.not_le]
  rfl

theorem waiting_unscheduled (waiting : isWaitingForEncoderOutput req = true) : sched.canBeScheduled req = false := by
  unfold canBeScheduled
  rw [waiting, Bool.not_true, Bool.false_and]

theorem disagg_exception_alike (ready : isWaitingForEncoderOutput req = false) :
    (!sched.canBeScheduledWithDisaggException req) =
      (!req.isDisaggGenerationInitState && !sched.counterpart.schedulable req) := by
  unfold canBeScheduledWithDisaggException
  rw [can_be_scheduled_alike ready, Bool.not_or]

theorem max_requests_full {scheduled : List Request} (full : sched.maxNumRequests ≤ scheduled.length)
    (active : List Request) : sched.maxRequests scheduled active = scheduled := by
  induction active with
  | nil => rfl
  | cons req rest ih =>
    rw [maxRequests, ih, if_pos full, ite_self]

theorem max_requests_keep (active : List Request) {scheduled : List Request} (mem : req ∈ scheduled) :
    req ∈ sched.counterpart.maxRequests scheduled active := by
  induction active generalizing scheduled with
  | nil => exact mem
  | cons other rest ih =>
    rw [CapacityScheduler.maxRequests]
    split_ifs
    · exact ih mem
    · exact mem
    · exact ih (List.mem_append_left _ mem)
    · exact ih mem

theorem max_requests_alike (active scheduled : List Request)
    (ready : ∀ req ∈ sched.counterpart.maxRequests scheduled active, isWaitingForEncoderOutput req = false) :
    sched.maxRequests scheduled active = sched.counterpart.maxRequests scheduled active := by
  induction active generalizing scheduled with
  | nil => rfl
  | cons req rest ih =>
    rw [CapacityScheduler.maxRequests, show sched.counterpart.maxNumRequests = sched.maxNumRequests from rfl] at ready ⊢
    rw [maxRequests]
    cases waiting : isWaitingForEncoderOutput req with
    | false =>
      rw [can_be_scheduled_alike waiting]
      split_ifs at ready ⊢ with skipped full chosen
      · exact ih scheduled ready
      · rfl
      · exact ih _ ready
      · exact ih scheduled ready
    | true =>
      have context : req.isContextInitState = true := (Bool.and_eq_true_iff.mp waiting).1
      rw [waiting_unscheduled waiting, Bool.not_false, if_pos rfl]
      rw [context, Bool.or_true, Bool.true_or] at ready ⊢
      split_ifs at ready ⊢ with skipped full
      · exact ih scheduled ready
      · exact max_requests_full full rest
      · rw [ready req (max_requests_keep rest (List.mem_append_right _ List.mem_cons_self))] at waiting
        cases waiting
      · exact ih scheduled ready

end

theorem register_block_eq (contributed : List Key) (summary : Option (PrefixReuseSummary Key)) :
    CapacityScheduler.registerBlock contributed summary = addSummary contributed summary := by
  cases summary <;> rfl

section Managers
variable (managers : Managers Key Simulation) (active : List Request)

def Encoded (req : Request) : Prop :=
  ∀ cross ∈ managers.crossKvCacheManager, cross.enableBlockReuse = true → req.encoderUniqueTokens.isSome = true

def crossWalk (req : Request) : Option (PrefixReuseSummary Key) :=
  match managers.crossKvCacheManager.filter (·.enableBlockReuse), req.encoderUniqueTokens with
  | some cross, some tokens => some (cross.analyzePrefixReuse tokens req)
  | _, _ => none

variable {managers active}

theorem cross_summary_ok {req : Request} (encoded : Encoded managers req) :
    CapacityScheduler.crossSummary managers.crossKvCacheManager req = .ok (crossWalk managers req) := by
  unfold CapacityScheduler.crossSummary crossWalk
  cases given : managers.crossKvCacheManager with
  | none => rfl
  | some cross =>
    by_cases reuse : cross.enableBlockReuse = true
    · obtain ⟨tokens, present⟩ := Option.isSome_iff_exists.mp (encoded cross given reuse)
      simp [Option.filter, reuse, present]
    · simp [Option.filter, reuse]

def isExecuting (req : Request) : Bool := req.isContextInitState && !req.isFirstContextChunk

theorem prefill_alike (contributed : Contributed Key) (reqs : List Request)
    (encoded : ∀ req ∈ reqs, isExecuting req = true → Encoded managers req) :
    CapacityScheduler.prefillWithChunkedContextsAlreadyExecuting managers.kvCacheManager managers.crossKvCacheManager
      contributed reqs = .ok (prefillContributedBlocks managers contributed reqs) := by
  induction reqs generalizing contributed with
  | nil => rfl
  | cons req rest ih =>
    have later := fun contributed => ih contributed (List.forall_mem_cons.mp encoded).2
    rw [CapacityScheduler.prefillWithChunkedContextsAlreadyExecuting, prefillContributedBlocks]
    by_cases executing : (req.isContextInitState && !req.isFirstContextChunk) = true
    · rw [if_pos executing, if_pos executing, cross_summary_ok (encoded req List.mem_cons_self executing)]
      dsimp only
      rw [later]
      congr 3
      · unfold CapacityScheduler.selfSummary
        split_ifs <;> rfl
      · unfold crossWalk
        cases managers.crossKvCacheManager.filter (·.enableBlockReuse) <;> cases req.encoderUniqueTokens <;> rfl
    · rw [if_neg executing, if_neg executing]
      exact later contributed

theorem required_pages_none (absent : managers.peftCacheManager = none) (seen : List Nat) (req : Request) :
    CapacityScheduler.requiredPages managers seen req = 0 := by
  unfold CapacityScheduler.requiredPages
  rw [absent]
  rw [ite_self]

theorem required_pages_some {peft : Capacity.PeftCacheManager} (present : managers.peftCacheManager = some peft)
    (seen : List Nat) (req : Request) : CapacityScheduler.requiredPages managers seen req = requiredPages peft seen req := by
  unfold CapacityScheduler.requiredPages
  rw [present]
  rfl

variable (managers active)

def CachesWalks (walk : Request → Option (PrefixReuseSummary Key)) (cache : PrefixSummaryCache Key) : Prop :=
  ∀ req ∈ active, ∀ summary, Table.find req.requestId cache = some summary → walk req = some summary

def selfWalk (req : Request) : Option (PrefixReuseSummary Key) :=
  some (managers.kvCacheManager.analyzePrefixReuse req.uniqueTokens req)

variable {active}

theorem caches_walks_nil (walk : Request → Option (PrefixReuseSummary Key)) : CachesWalks active walk [] := by
  intro req _ summary present
  cases present

section
variable {cache : PrefixSummaryCache Key} (req : Request) (member : req ∈ active)

include member

theorem caches_walks_insert {walk : Request → Option (PrefixReuseSummary Key)}
    (distinct : ∀ first ∈ active, ∀ second ∈ active, first.requestId = second.requestId → first = second)
    (cached : CachesWalks active walk cache) (summary : PrefixReuseSummary Key)
    (walked : walk req = some summary) : CachesWalks active walk ((req.requestId, summary) :: cache) := by
  intro other listed found present
  rw [Table.find_cons] at present
  split at present
  · next same =>
    cases present
    rw [← distinct req member other listed same]
    exact walked
  · exact cached other listed found present

theorem reuse_summary_cached (cached : CachesWalks active (selfWalk managers) cache) :
    managers.kvCacheManager.reuseSummary req (Table.find req.requestId cache) =
      managers.kvCacheManager.reuseSummary req none := by
  cases present : Table.find req.requestId cache with
  | none => rfl
  | some summary =>
    have own := cached req member summary present
    cases own
    rfl

end

section
variable (distinct : ∀ first ∈ active, ∀ second ∈ active, first.requestId = second.requestId → first = second)
    {cache : PrefixSummaryCache Key}

include distinct

theorem self_summary_walk (cached : CachesWalks active (selfWalk managers) cache) (req : Request) (member : req ∈ active) :
    (selfSummary managers req cache).1 = CapacityScheduler.selfSummary managers.kvCacheManager req ∧
      CachesWalks active (selfWalk managers) (selfSummary managers req cache).2 := by
  unfold selfSummary CapacityScheduler.selfSummary
  by_cases reuse : managers.kvCacheManager.enableBlockReuse = true
  · rw [if_pos reuse, if_pos reuse]
    cases present : Table.find req.requestId cache with
    | none => exact ⟨rfl, caches_walks_insert req member distinct cached _ rfl⟩
    | some summary => exact ⟨(cached req member summary present).symm, cached⟩
  · rw [if_neg reuse, if_neg reuse]
    exact ⟨rfl, cached⟩

theorem cross_summary_walk (cached : CachesWalks active (crossWalk managers) cache) (req : Request) (member : req ∈ active) :
    (crossSummary managers req cache).1 = crossWalk managers req ∧
      CachesWalks active (crossWalk managers) (crossSummary managers req cache).2 := by
  unfold crossSummary
  cases asked : managers.crossKvCacheManager.filter (·.enableBlockReuse) with
  | none =>
    refine ⟨?_, cached⟩
    unfold crossWalk
    rw [asked]
  | some cross =>
    cases present : Table.find req.requestId cache with
    | some summary => exact ⟨(cached req member summary present).symm, cached⟩
    | none =>
      cases tokens : req.encoderUniqueTokens with
      | none =>
        refine ⟨?_, cached⟩
        unfold crossWalk
        rw [asked, tokens]
      | some given =>
        have walked : crossWalk managers req = some (cross.analyzePrefixReuse given req) := by
          unfold crossWalk
          rw [asked, tokens]
        exact ⟨walked.symm, caches_walks_insert req member distinct cached _ walked⟩

end

theorem beneficial_to_skip_alike [DecidableEq Key]
    (distinct : ∀ first ∈ active, ∀ second ∈ active, first.requestId = second.requestId → first = second)
    {cache crossCache : PrefixSummaryCache Key} (cached : CachesWalks active (selfWalk managers) cache)
    (crossCached : CachesWalks active (crossWalk managers) crossCache) (contributed : Contributed Key) {req : Request}
    (member : req ∈ active) (first : (req.isContextInitState && req.isFirstContextChunk) = true) :
    let check := beneficialToSkip managers req contributed cache crossCache
    (check.skip, check.contributed) = CapacityScheduler.beneficialToSkip
        (CapacityScheduler.selfSummary managers.kvCacheManager req) (crossWalk managers req) contributed ∧
      CachesWalks active (selfWalk managers) check.summaryByReq ∧
      CachesWalks active (crossWalk managers) check.crossSummaryByReq := by
  obtain ⟨selfSame, selfCached⟩ := self_summary_walk managers distinct cached req member
  obtain ⟨crossSame, crossKept⟩ := cross_summary_walk managers distinct crossCached req member
  unfold beneficialToSkip CapacityScheduler.beneficialToSkip
  rw [first, Bool.not_true, if_neg Bool.false_ne_true]
  dsimp only
  rw [selfSame, crossSame, register_block_eq, register_block_eq]
  split
  · next shared =>
    rw [if_pos (show CapacityScheduler.oneManagerBeneficialToSkip _ _ = true from shared)]
    exact ⟨rfl, selfCached, crossCached⟩
  next shared =>
  rw [if_neg (show ¬CapacityScheduler.oneManagerBeneficialToSkip _ _ = true from shared)]
  split
  · next crossShared =>
    rw [if_pos (show CapacityScheduler.oneManagerBeneficialToSkip _ _ = true from crossShared)]
    exact ⟨rfl, selfCached, crossKept⟩
  · next crossShared =>
    rw [if_neg (show ¬CapacityScheduler.oneManagerBeneficialToSkip _ _ = true from crossShared)]
    exact ⟨rfl, selfCached, crossKept⟩

def newCrossBlock (req : Request) : Option Key := (crossWalk managers req).bind (·.firstNewBlock)

end Managers
end PyCapacityScheduler
end TrtLlm.Py
