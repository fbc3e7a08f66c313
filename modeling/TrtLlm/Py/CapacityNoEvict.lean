import TrtLlm.Lib.Runs
import TrtLlm.Py.CapacityWalks

set_option autoImplicit false

namespace TrtLlm.Py
open Bool Option
open Capacity (Request PrefixReuseSummary KvCacheManager Managers Contributed CapacityScheduler seeTask)
open Capacity.CapacityScheduler (isFirstChunkContext)
open Lib (BothOk ite_alike)

namespace PyCapacityScheduler
variable {Key Simulation : Type} (sched : PyCapacityScheduler) (managers : Managers Key Simulation)

-- The two passes side by side. Python counts pages only with a PEFT manager.
structure Classified (active : List Request) (mine : NoEvictPass Key) (theirs : CapacityScheduler.NoEvictPass Key) :
    Prop where
  scheduled : mine.scheduledRequests = theirs.scheduledRequests
  blocks : mine.availableBlocks = theirs.reservedBlocks.availableBlocks
  crossBlocks : mine.availableCrossBlocks = theirs.reservedCrossBlocks.map (·.availableBlocks)
  crossed : theirs.reservedCrossBlocks.isSome = managers.crossKvCacheManager.isSome
  context : mine.contributed.context = theirs.contributed.context
  cached : CachesWalks active (selfWalk managers) mine.summaryByReq
  crossCached : CachesWalks active (crossWalk managers) mine.crossSummaryByReq
  tasks : managers.peftCacheManager.isSome = true → mine.uniqTaskIds = theirs.uniqTaskIds

structure Pending (active : List Request) (mine : NoEvictPass Key) (theirs : CapacityScheduler.NoEvictPass Key) :
    Prop extends Classified managers active mine theirs where
  claimed : managers.peftCacheManager.isSome = true → mine.claimedPeftPages = theirs.claimedPeftPages
  unclaimed : managers.peftCacheManager = none → theirs.claimedPeftPages = 0
  pending : mine.pendingRequests = theirs.pendingRequests.filter (!isWaitingForEncoderOutput ·)
  pendingDisGenInit : mine.pendingDisGenInitRequests = theirs.pendingDisGenInitRequests
  contributed : mine.contributed = theirs.contributed

def skipping (static : Bool) : Bool := !static && isSkippingRelevant managers

-- Only C++ counts the cross blocks of encoder requests.
structure Paid (static : Bool) (active : List Request) (encoderBlocks : List Key) (mine : NoEvictPass Key)
    (theirs : CapacityScheduler.NoEvictPass Key) : Prop extends Classified managers active mine theirs where
  cross : skipping managers static = true → ∀ key,
    key ∈ theirs.contributed.crossContext ↔ key ∈ mine.contributed.crossContext ∨ key ∈ encoderBlocks
  pages : managers.peftCacheManager.isSome = true → mine.availablePeftPages = theirs.availablePeftPages
  unlimited : managers.peftCacheManager = none → 0 ≤ theirs.availablePeftPages

variable {managers} {active : List Request} {static : Bool} {encoderBlocks : List Key} {mine : NoEvictPass Key}
  {theirs : CapacityScheduler.NoEvictPass Key}

section
variable (avail : Nat → Int) (blocks : Capacity.NoEvictScheduledBlocksManager)
    (same : avail = blocks.availableBlocks) (mgr : KvCacheManager Key Simulation) (req : Request)
    (cached cached' : Option (PrefixReuseSummary Key))
    (resolved : mgr.reuseSummary req cached = mgr.reuseSummary req cached')

include same resolved

theorem reserve_eq : decrementReservedBlocks avail mgr req cached =
      (blocks.enoughAvailableBlocks mgr req cached').2.commitBlocks.availableBlocks := by
  funext window
  change avail window - mgr.remainingBlocks req window (mgr.reuseSummary req cached) =
    blocks.availableBlocks window - mgr.remainingBlocks req window (mgr.reuseSummary req cached')
  rw [same, resolved]

theorem enough_eq :
    enoughAvailableBlocks avail mgr req cached = (blocks.enoughAvailableBlocks mgr req cached').1 := by
  change (mgr.windowSizes.all fun window =>
      decide (mgr.remainingBlocks req window (mgr.reuseSummary req cached) ≤ avail window)) =
    mgr.windowSizes.all fun window =>
      decide (mgr.remainingBlocks req window (mgr.reuseSummary req cached') ≤ blocks.availableBlocks window)
  rw [same, resolved]

end

theorem keep_in_progress_alike (related : Pending managers active mine theirs) (req : Request) :
    Pending managers active (keepInProgress managers mine req) (CapacityScheduler.keepInProgress managers theirs req) := by
  have blocks := reserve_eq mine.availableBlocks theirs.reservedBlocks related.blocks managers.kvCacheManager req none
    none rfl
  have crossBlocks : decrementCross managers mine.availableCrossBlocks req none =
      (CapacityScheduler.keepInProgress managers theirs req).reservedCrossBlocks.map (·.availableBlocks) := by
    unfold decrementCross CapacityScheduler.keepInProgress
    rw [related.crossBlocks]
    cases theirs.reservedCrossBlocks with
    | none => rfl
    | some reserved =>
      cases managers.crossKvCacheManager with
      | none => rfl
      | some cross => exact congrArg some (reserve_eq _ reserved rfl cross req none none rfl)
  have crossed : (CapacityScheduler.keepInProgress managers theirs req).reservedCrossBlocks.isSome =
      managers.crossKvCacheManager.isSome := by
    rw [← related.crossed]
    exact isSome_map
  have scheduled : mine.scheduledRequests ++ [req] = theirs.scheduledRequests ++ [req] := by rw [related.scheduled]
  cases peft : managers.peftCacheManager with
  | none =>
    have kept : (CapacityScheduler.keepInProgress managers theirs req).claimedPeftPages = 0 := by
      change theirs.claimedPeftPages + CapacityScheduler.requiredPages managers theirs.uniqTaskIds req = 0
      rw [required_pages_none peft, related.unclaimed peft]
      rfl
    have absent := not_isSome_iff_eq_none.mpr peft
    unfold keepInProgress
    rw [peft]
    exact ⟨⟨scheduled, blocks, crossBlocks, crossed, related.context, related.cached, related.crossCached,
      fun present => absurd present absent⟩, fun present => absurd present absent, fun _ => kept, related.pending,
      related.pendingDisGenInit, related.contributed⟩
  | some mgr =>
    have present := isSome_of_eq_some peft
    have tasks := related.tasks present
    have claimed : mine.claimedPeftPages + requiredPages mgr mine.uniqTaskIds req =
        (CapacityScheduler.keepInProgress managers theirs req).claimedPeftPages := by
      change _ = theirs.claimedPeftPages + CapacityScheduler.requiredPages managers theirs.uniqTaskIds req
      rw [required_pages_some peft, related.claimed present, tasks]
    have filled : ¬managers.peftCacheManager = none := by
      rw [peft]
      exact some_ne_none _
    have seen : seeTask mine.uniqTaskIds req = seeTask theirs.uniqTaskIds req := by rw [tasks]
    unfold keepInProgress
    rw [peft]
    exact ⟨⟨scheduled, blocks, crossBlocks, crossed, related.context, related.cached, related.crossCached,
      fun _ => seen⟩, fun _ => claimed, fun absent => absurd absent filled,
      related.pending, related.pendingDisGenInit, related.contributed⟩

theorem disagg_states (req : Request) (disagg : req.isDisaggGenerationInitState = true) :
    req.isContextInitState = false ∧ req.isEncoderInitState = false := by
  have st : req.state = .disaggGenerationInit := of_decide_eq_true disagg
  unfold Batch.LlmRequest.isContextInitState Batch.LlmRequest.isEncoderInitState
  rw [st]
  exact ⟨rfl, rfl⟩

theorem classify_full {pass : NoEvictPass Key} (full : sched.maxNumRequests ≤ pass.scheduledRequests.length)
    (reqs : List Request) : sched.classify managers pass reqs = pass := by
  induction reqs with
  | nil => rfl
  | cons req rest ih =>
    rw [classify, ih, if_pos full, ite_self]

theorem context_states (req : Request) (ctx : req.isContextInitState = true) : req.isDisaggGenerationInitState = false ∧
    req.isEncoderInitState = false ∧ req.isGenerationInProgressState = false := by
  unfold Batch.LlmRequest.isContextInitState at ctx
  unfold Batch.LlmRequest.isDisaggGenerationInitState Batch.LlmRequest.isEncoderInitState
    Batch.LlmRequest.isGenerationInProgressState
  rw [or_eq_true, decide_eq_true_eq, decide_eq_true_eq] at ctx
  rcases ctx with st | st <;> rw [st] <;> exact ⟨rfl, rfl, rfl⟩

theorem classify_alike (related : Pending managers active mine theirs) (reqs : List Request) :
    Pending managers active (sched.classify managers mine reqs) (sched.counterpart.classify managers theirs reqs) := by
  induction reqs generalizing mine theirs with
  | nil => exact related
  | cons req rest ih =>
    rw [classify, CapacityScheduler.classify]
    cases waiting : isWaitingForEncoderOutput req with
    | false =>
      rw [disagg_exception_alike waiting]
      refine ite_alike .rfl (fun _ => ih related) fun _ => ?_
      refine ite_alike (by rw [related.scheduled]; rfl) (fun _ => related) fun _ => ?_
      refine ite_alike .rfl (fun _ => ih (keep_in_progress_alike related req)) fun _ => ?_
      refine ite_alike .rfl (fun disagg => ?_) fun pending => ?_
      · exact ih ⟨{ related.toClassified with }, related.claimed, related.unclaimed, related.pending,
          congrArg (· ++ [req]) related.pendingDisGenInit, related.contributed⟩
      · refine ih ⟨{ related.toClassified with }, related.claimed, related.unclaimed, ?_, related.pendingDisGenInit,
          related.contributed⟩
        simp [related.pending, waiting]
    | true =>
      -- Python passes the request over, C++ keeps it among the pending ones or stops at it.
      obtain ⟨disagg, -, running⟩ := context_states req (Bool.and_eq_true_iff.mp waiting).1
      unfold canBeScheduledWithDisaggException
      rw [disagg, running, waiting_unscheduled waiting]
      simp only [Bool.or_self, Bool.not_false, Bool.true_and, if_true, Bool.false_eq_true, if_false]
      split_ifs with skipped full
      · exact ih related
      · rw [classify_full sched (by rw [related.scheduled]; exact full)]
        exact related
      · refine ih ⟨{ related.toClassified with }, related.claimed, related.unclaimed, ?_, related.pendingDisGenInit,
          related.contributed⟩
        simp [related.pending, waiting]

def considered (active : List Request) : List Request :=
  active.filter fun req => req.isDisaggGenerationInitState || sched.counterpart.schedulable req

structure Listed (active : List Request) (pass : CapacityScheduler.NoEvictPass Key) : Prop where
  pending : ∀ req ∈ pass.pendingRequests, req ∈ active
  disagg : ∀ req ∈ pass.pendingDisGenInitRequests, req ∈ active ∧ req.isDisaggGenerationInitState = true

theorem classify_lists (reqs : List Request) (given : ∀ req ∈ sched.considered reqs, req ∈ active)
    (listed : Listed active theirs) : Listed active (sched.counterpart.classify managers theirs reqs) := by
  induction reqs generalizing theirs with
  | nil => exact listed
  | cons req rest ih =>
    have later := fun other (mem : other ∈ sched.considered rest) =>
      given other (((List.sublist_cons_self req rest).filter _).subset mem)
    rw [CapacityScheduler.classify]
    split_ifs with skipped full running disagg
    · exact ih later listed
    · exact listed
    · exact ih later ⟨listed.pending, listed.disagg⟩
    all_goals
      have here : req ∈ active := by
        refine given req (List.mem_filter.mpr ⟨List.mem_cons_self, ?_⟩)
        simpa [or_iff_not_imp_left] using skipped
    · refine ih later ⟨listed.pending, fun other mem => ?_⟩
      rcases List.mem_append.mp mem with mem | mem
      · exact listed.disagg other mem
      · rw [List.mem_singleton.mp mem]
        exact ⟨here, disagg⟩
    · refine ih later ⟨fun other mem => ?_, listed.disagg⟩
      rcases List.mem_append.mp mem with mem | mem
      · exact listed.pending other mem
      · rw [List.mem_singleton.mp mem]
        exact here

section
variable (related : Paid managers static active encoderBlocks mine theirs) (req : Request)

include related

theorem pay_pages_alike
    (affordable : CapacityScheduler.requiredPages managers theirs.uniqTaskIds req ≤ theirs.availablePeftPages) :
    ∃ pages tasks, payPages managers mine req = some { mine with availablePeftPages := pages, uniqTaskIds := tasks } ∧
      (managers.peftCacheManager.isSome = true → tasks = seeTask theirs.uniqTaskIds req ∧
        pages = theirs.availablePeftPages - CapacityScheduler.requiredPages managers theirs.uniqTaskIds req) := by
  unfold payPages
  cases peft : managers.peftCacheManager with
  | none => exact ⟨mine.availablePeftPages, mine.uniqTaskIds, rfl, fun present => absurd present false_ne_true⟩
  | some mgr =>
    have present := isSome_of_eq_some peft
    rw [required_pages_some peft, ← related.tasks present, ← related.pages present] at affordable
    rw [required_pages_some peft, ← related.tasks present, ← related.pages present]
    dsimp only
    rw [if_neg (Int.not_lt.mpr affordable)]
    exact ⟨_, _, rfl, fun _ => ⟨rfl, rfl⟩⟩

theorem pay_pages_refused (dear : ¬CapacityScheduler.requiredPages managers theirs.uniqTaskIds req ≤ theirs.availablePeftPages) :
    payPages managers mine req = none := by
  unfold payPages
  cases peft : managers.peftCacheManager with
  | none =>
    rw [required_pages_none peft] at dear
    exact absurd (related.unlimited peft) dear
  | some mgr =>
    have present := isSome_of_eq_some peft
    rw [required_pages_some peft, ← related.tasks present, ← related.pages present] at dear
    dsimp only
    rw [if_pos (Int.not_le.mp dear)]

theorem unlimited_after (absent : managers.peftCacheManager = none) :
    0 ≤ theirs.availablePeftPages - CapacityScheduler.requiredPages managers theirs.uniqTaskIds req := by
  rw [required_pages_none absent, Int.sub_zero]
  exact related.unlimited absent

theorem admit_encoder_alike :
    Paid managers static active encoderBlocks (admitEncoder managers mine req)
      (CapacityScheduler.admitEncoder managers theirs req) := by
  unfold admitEncoder CapacityScheduler.admitEncoder
  by_cases affordable : CapacityScheduler.requiredPages managers theirs.uniqTaskIds req ≤ theirs.availablePeftPages
  · obtain ⟨pages, tasks, paid, books⟩ := pay_pages_alike related req affordable
    rw [paid]
    rw [if_pos affordable]
    exact ⟨{ related with scheduled := congrArg (· ++ [req]) related.scheduled, tasks := fun present => (books present).1 },
      related.cross, fun present => (books present).2, unlimited_after related req⟩
  · rw [pay_pages_refused related req affordable]
    rw [if_neg affordable]
    exact related

theorem cross_checks_alike (cached cached' : Option (PrefixReuseSummary Key)) :
    let check := CapacityScheduler.enoughCross managers theirs req cached'
    enoughCross managers mine.availableCrossBlocks req cached = check.1 ∧
      mine.availableCrossBlocks = check.2.map (·.availableBlocks) ∧
      check.2.isSome = managers.crossKvCacheManager.isSome ∧ decrementCross managers mine.availableCrossBlocks req cached =
        (check.2.map Capacity.NoEvictScheduledBlocksManager.commitBlocks).map (·.availableBlocks) := by
  have crossed := related.crossed
  rw [related.crossBlocks]
  unfold enoughCross decrementCross CapacityScheduler.enoughCross
  cases reserved : theirs.reservedCrossBlocks with
  | none =>
    rw [reserved] at crossed
    exact ⟨rfl, rfl, crossed, rfl⟩
  | some blocks =>
    rw [reserved] at crossed
    cases kind : managers.crossKvCacheManager with
    | none =>
      rw [kind] at crossed
      cases crossed
    | some cross =>
      have resolved : cross.reuseSummary req cached = cross.reuseSummary req cached' := by
        rw [cross.reuse_summary_cross (managers.cross_kind cross kind),
          cross.reuse_summary_cross (managers.cross_kind cross kind)]
      exact ⟨enough_eq _ blocks rfl cross req cached cached' resolved, rfl, rfl,
        congrArg some (reserve_eq _ blocks rfl cross req cached cached' resolved)⟩

theorem admit_context_alike (mem : req ∈ active) (summary crossSummary : Option (PrefixReuseSummary Key))
    (walked : managers.kvCacheManager.reuseSummary req summary = managers.kvCacheManager.reuseSummary req none) :
    Option.Rel (Paid managers static active encoderBlocks) (admitContext managers mine req)
      (CapacityScheduler.admitContext managers theirs req summary crossSummary) := by
  have resolved : managers.kvCacheManager.reuseSummary req (Lib.Table.find req.requestId mine.summaryByReq) =
      managers.kvCacheManager.reuseSummary req summary := by
    rw [walked]
    exact reuse_summary_cached managers req mem related.cached
  have enough := enough_eq mine.availableBlocks theirs.reservedBlocks related.blocks managers.kvCacheManager req _ _ resolved
  have reserved := reserve_eq mine.availableBlocks theirs.reservedBlocks related.blocks managers.kvCacheManager req _ _
    resolved
  obtain ⟨crossEnough, crossKept, crossSome, crossReserved⟩ :=
    cross_checks_alike related req (Lib.Table.find req.requestId mine.crossSummaryByReq) crossSummary
  unfold admitContext CapacityScheduler.admitContext
  dsimp only
  rw [enough, crossEnough]
  by_cases room : (theirs.reservedBlocks.enoughAvailableBlocks managers.kvCacheManager req summary).1 = true ∧
      (CapacityScheduler.enoughCross managers theirs req crossSummary).1 = true
  · rw [room.1, room.2]
    simp only [Bool.not_true, Bool.or_self, Bool.true_and]
    by_cases affordable : CapacityScheduler.requiredPages managers theirs.uniqTaskIds req ≤ theirs.availablePeftPages
    · obtain ⟨pages, tasks, paid, books⟩ := pay_pages_alike related req affordable
      rw [if_neg Bool.false_ne_true, if_pos (decide_eq_true affordable), paid]
      exact .some ⟨⟨congrArg (· ++ [req]) related.scheduled, reserved, crossReserved, by rw [Option.isSome_map, crossSome],
        related.context, related.cached, related.crossCached, fun present => (books present).1⟩,
        related.cross, fun present => (books present).2, unlimited_after related req⟩
    · rw [if_neg Bool.false_ne_true, if_neg (by simpa using affordable), if_neg Bool.false_ne_true,
        pay_pages_refused related req affordable]
      exact .some ⟨{ related with crossBlocks := crossKept, crossed := crossSome }, related.cross, related.pages,
        related.unlimited⟩
  · have short : (!(theirs.reservedBlocks.enoughAvailableBlocks managers.kvCacheManager req summary).1 ||
        !(CapacityScheduler.enoughCross managers theirs req crossSummary).1) = true := by
      simpa [Bool.and_eq_true, Bool.or_eq_true, imp_iff_not_or] using room
    have closed : ¬((theirs.reservedBlocks.enoughAvailableBlocks managers.kvCacheManager req summary).1 &&
        (CapacityScheduler.enoughCross managers theirs req crossSummary).1 &&
        decide (CapacityScheduler.requiredPages managers theirs.uniqTaskIds req ≤ theirs.availablePeftPages)) = true := by
      rw [Bool.and_eq_true, Bool.and_eq_true]
      exact fun all => room all.1
    rw [if_pos short, if_neg closed, if_pos short]
    exact .none

end

theorem first_chunk_context_eq (req : Request) :
    isFirstChunkContext req = (req.isContextInitState && req.isFirstContextChunk) := by
  unfold isFirstChunkContext
  by_cases ctx : req.isContextInitState = true
  · rw [(context_states req ctx).1, Bool.not_false, Bool.and_true]
  · rw [Bool.eq_false_iff.mpr ctx]
    rfl

theorem summaries_ok (req : Request)
    (encoded : (isFirstChunkContext req || req.isEncoderInitState) = true → Encoded managers req) :
    CapacityScheduler.summaries managers req =
      .ok (if isFirstChunkContext req then CapacityScheduler.selfSummary managers.kvCacheManager req else none,
        if isFirstChunkContext req || req.isEncoderInitState then crossWalk managers req else none) := by
  unfold CapacityScheduler.summaries
  by_cases asked : (isFirstChunkContext req || req.isEncoderInitState) = true
  · rw [cross_summary_ok (encoded asked)]
    cases isFirstChunkContext req <;> cases req.isEncoderInitState <;> rfl
  · have asked := Bool.or_eq_false_iff.mp (Bool.eq_false_iff.mpr asked)
    rw [asked.1, asked.2]
    rfl

theorem self_summary_resolved (req : Request) : managers.kvCacheManager.reuseSummary req
        (if isFirstChunkContext req then CapacityScheduler.selfSummary managers.kvCacheManager req else none) =
      managers.kvCacheManager.reuseSummary req none := by
  unfold CapacityScheduler.selfSummary
  split_ifs <;> rfl

section Admission
variable [DecidableEq Key]

def theirSkip (managers : Managers Key Simulation) (static : Bool) (req : Request) (contributed : Contributed Key) :
    Bool × Contributed Key :=
  if !static && isSkippingRelevant managers &&
      (CapacityScheduler.isFirstChunkContext req || req.isEncoderInitState) then
    CapacityScheduler.beneficialToSkip
      (if CapacityScheduler.isFirstChunkContext req then CapacityScheduler.selfSummary managers.kvCacheManager req
        else none)
      (if CapacityScheduler.isFirstChunkContext req || req.isEncoderInitState then crossWalk managers req else none)
      contributed
  else (false, contributed)

omit [DecidableEq Key] in
theorem mem_register_block (contributed : List Key) (summary : Option (PrefixReuseSummary Key)) (key : Key) :
    key ∈ CapacityScheduler.registerBlock contributed summary ↔
      summary.bind (·.firstNewBlock) = some key ∨ key ∈ contributed := by
  unfold CapacityScheduler.registerBlock
  cases summary.bind (·.firstNewBlock) with
  | none => simp
  | some first => simp [eq_comm]

-- What C++ must find at a request for Python to take the same branch. Python leaves out a context request whose
-- encoder output is not there, and neither puts an encoder request off nor counts its cross block.
structure SameBranch (managers : Managers Key Simulation) (static : Bool) (encoderBlocks : List Key)
    (pass : CapacityScheduler.NoEvictPass Key) (req : Request) : Prop where
  ready : isWaitingForEncoderOutput req = false
  crossed : managers.crossKvCacheManager = none → req.isEncoderInitState = false
  encoded : (isFirstChunkContext req || req.isEncoderInitState) = true → Encoded managers req
  encoder : skipping managers static = true → req.isEncoderInitState = true →
    ∀ key ∈ newCrossBlock managers req, key ∉ pass.contributed.crossContext
  context : skipping managers static = true → isFirstChunkContext req = true →
    CapacityScheduler.oneManagerBeneficialToSkip (CapacityScheduler.selfSummary managers.kvCacheManager req)
      pass.contributed.context = false →
    ∀ key ∈ newCrossBlock managers req, key ∉ encoderBlocks

def encoderBlocksAfter (managers : Managers Key Simulation) (encoderBlocks : List Key) (req : Request) : List Key :=
  if req.isEncoderInitState then CapacityScheduler.registerBlock encoderBlocks (crossWalk managers req) else encoderBlocks

-- Follows the C++ loop, so nothing is asked of the requests behind the one it stops at.
def SameBranches (managers : Managers Key Simulation) (static : Bool) :
    List Key → CapacityScheduler.NoEvictPass Key → List Request → Prop
  | _, _, [] => True
  | encoderBlocks, pass, req :: rest =>
    SameBranch managers static encoderBlocks pass req ∧
      ∀ next, sched.counterpart.admitNext managers static (isSkippingRelevant managers) pass req = .ok (next, true) →
        SameBranches managers static (encoderBlocksAfter managers encoderBlocks req) next rest

structure SkipAlike (managers : Managers Key Simulation) (static : Bool) (active : List Request)
    (encoderBlocks : List Key) (check : SkipCheck Key) (theirs : Bool × Contributed Key) : Prop where
  skip : check.skip = theirs.1
  context : check.contributed.context = theirs.2.context
  cross : skipping managers static = true → ∀ key,
    key ∈ theirs.2.crossContext ↔ key ∈ check.contributed.crossContext ∨ key ∈ encoderBlocks
  cached : CachesWalks active (selfWalk managers) check.summaryByReq
  crossCached : CachesWalks active (crossWalk managers) check.crossSummaryByReq

section
variable {req : Request} (related : Paid managers static active encoderBlocks mine theirs)
    (same : SameBranch managers static encoderBlocks theirs req) (relevant : skipping managers static = true)

include related same relevant

theorem first_chunk_skip_alike (first : isFirstChunkContext req = true) :
    let summary := CapacityScheduler.selfSummary managers.kvCacheManager req
    let check := CapacityScheduler.beneficialToSkip summary (crossWalk managers req) mine.contributed
    let other := CapacityScheduler.beneficialToSkip summary (crossWalk managers req) theirs.contributed
    check.1 = other.1 ∧ check.2.context = other.2.context ∧
      ∀ key, key ∈ other.2.crossContext ↔ key ∈ check.2.crossContext ∨ key ∈ encoderBlocks := by
  have cross := related.cross relevant
  unfold CapacityScheduler.beneficialToSkip
  rw [related.context]
  dsimp only
  split
  · exact ⟨rfl, related.context, cross⟩
  next unshared =>
  have foreign := same.context relevant first (Bool.eq_false_iff.mpr unshared)
  have decision : CapacityScheduler.oneManagerBeneficialToSkip (crossWalk managers req) mine.contributed.crossContext =
      CapacityScheduler.oneManagerBeneficialToSkip (crossWalk managers req) theirs.contributed.crossContext := by
    unfold CapacityScheduler.oneManagerBeneficialToSkip
    cases found : (crossWalk managers req).bind (·.firstNewBlock) with
    | none => rfl
    | some key =>
      refine decide_eq_decide.mpr ?_
      rw [cross key, or_iff_left (foreign key found)]
  rw [decision]
  split
  · exact ⟨rfl, related.context, cross⟩
  · refine ⟨rfl, rfl, fun key => ?_⟩
    dsimp only
    rw [mem_register_block, mem_register_block, cross key]
    exact or_assoc.symm

theorem encoder_skip_alike (encoder : req.isEncoderInitState = true) :
    let other := CapacityScheduler.beneficialToSkip none (crossWalk managers req) theirs.contributed
    other.1 = false ∧ other.2.context = theirs.contributed.context ∧ ∀ key, key ∈ other.2.crossContext ↔
      key ∈ mine.contributed.crossContext ∨ key ∈ encoderBlocksAfter managers encoderBlocks req := by
  have fresh : CapacityScheduler.oneManagerBeneficialToSkip (crossWalk managers req) theirs.contributed.crossContext =
      false := by
    unfold CapacityScheduler.oneManagerBeneficialToSkip
    cases found : (crossWalk managers req).bind (·.firstNewBlock) with
    | none => rfl
    | some key => exact decide_eq_false (same.encoder relevant encoder key found)
  unfold CapacityScheduler.beneficialToSkip encoderBlocksAfter
  rw [fresh, if_neg (show ¬CapacityScheduler.oneManagerBeneficialToSkip none _ = true from Bool.false_ne_true),
    if_neg Bool.false_ne_true, if_pos encoder]
  refine ⟨rfl, rfl, fun key => ?_⟩
  dsimp only
  rw [mem_register_block, mem_register_block, related.cross relevant key]
  exact or_left_comm

end

section
variable (distinct : ∀ first ∈ active, ∀ second ∈ active, first.requestId = second.requestId → first = second)
    (req : Request) (mem : req ∈ active) (related : Paid managers static active encoderBlocks mine theirs)
    (same : SameBranch managers static encoderBlocks theirs req)

include distinct mem related same

theorem check_skip_alike : SkipAlike managers static active (encoderBlocksAfter managers encoderBlocks req)
    (checkSkip managers static mine req) (theirSkip managers static req theirs.contributed) := by
  unfold checkSkip theirSkip
  rw [← skipping]
  by_cases relevant : skipping managers static = true
  · rw [relevant, Bool.true_and, Bool.true_and]
    by_cases first : (req.isContextInitState && req.isFirstContextChunk) = true
    · obtain ⟨disagg, decoder, -⟩ := context_states req (Bool.and_eq_true_iff.mp first).1
      have chunk : isFirstChunkContext req = true := by rw [first_chunk_context_eq, first]
      have unchanged : encoderBlocksAfter managers encoderBlocks req = encoderBlocks :=
        if_neg (by rw [decoder]; exact Bool.false_ne_true)
      obtain ⟨decision, cached, crossCached⟩ :=
        beneficial_to_skip_alike managers distinct related.cached related.crossCached mine.contributed mem first
      obtain ⟨skip, context, crossed⟩ := first_chunk_skip_alike related same relevant chunk
      rw [chunk, disagg, Bool.not_false, Bool.true_or, if_pos rfl, if_pos rfl, if_pos rfl,
        if_pos rfl, unchanged]
      rw [← decision] at skip context crossed
      exact ⟨skip, context, fun _ => crossed, cached, crossCached⟩
    have other : isFirstChunkContext req = false := by
      rw [first_chunk_context_eq]
      exact Bool.eq_false_iff.mpr first
    have untouched : ∀ condition : Bool, (if condition = true then
          beneficialToSkip managers req mine.contributed mine.summaryByReq mine.crossSummaryByReq
        else { mine with skip := false }) =
          { mine with skip := false } := by
      intro condition
      unfold beneficialToSkip
      rw [if_pos (show (!(req.isContextInitState && req.isFirstContextChunk)) = true by
        rw [Bool.eq_false_iff.mpr first]; rfl), ite_self]
    rw [untouched, other, Bool.false_or, if_neg Bool.false_ne_true]
    by_cases encoder : req.isEncoderInitState = true
    · obtain ⟨skip, context, crossed⟩ := encoder_skip_alike related same relevant encoder
      rw [encoder, if_pos rfl, if_pos rfl]
      exact ⟨skip.symm, related.context.trans context.symm, fun _ => crossed, related.cached, related.crossCached⟩
    · rw [if_neg encoder, encoderBlocksAfter, if_neg encoder]
      exact ⟨rfl, related.context, related.cross, related.cached, related.crossCached⟩
  · rw [Bool.eq_false_iff.mpr relevant, Bool.false_and, Bool.false_and, if_neg Bool.false_ne_true, if_neg Bool.false_ne_true]
    exact ⟨rfl, related.context, fun asked => absurd asked relevant, related.cached, related.crossCached⟩

theorem admit_next_alike :
    BothOk (fun mine theirs => mine.2 = theirs.2 ∧
        Paid managers static active (encoderBlocksAfter managers encoderBlocks req) mine.1 theirs.1)
      (sched.admitNext managers static mine req)
      (sched.counterpart.admitNext managers static (isSkippingRelevant managers) theirs req) := by
  have supported : ¬(req.isEncoderInitState && mine.availableCrossBlocks.isNone) = true := by
    rw [and_eq_true]
    rintro ⟨encoder, missing⟩
    have absent : managers.crossKvCacheManager = none := by
      have crossed := related.crossed
      rw [related.crossBlocks, isNone_map, isNone_iff_eq_none] at missing
      rw [missing] at crossed
      exact isNone_iff_eq_none.mp (by rw [← not_isSome, ← crossed]; rfl)
    rw [same.crossed absent] at encoder
    cases encoder
  have alike := check_skip_alike distinct req mem related same
  rw [admitNext, if_neg supported, CapacityScheduler.admitNext, summaries_ok req same.encoded]
  dsimp only
  rw [← theirSkip]
  have considered : Paid managers static active (encoderBlocksAfter managers encoderBlocks req)
      { mine with
        contributed := (checkSkip managers static mine req).contributed
        summaryByReq := (checkSkip managers static mine req).summaryByReq
        crossSummaryByReq := (checkSkip managers static mine req).crossSummaryByReq }
      { theirs with contributed := (theirSkip managers static req theirs.contributed).2 } :=
    ⟨{ related with context := alike.context, cached := alike.cached, crossCached := alike.crossCached },
      alike.cross, related.pages, related.unlimited⟩
  refine ite_alike (by rw [alike.skip]) (fun _ => ⟨_, _, rfl, rfl, rfl, considered⟩) fun _ => ?_
  refine ite_alike (by rw [related.scheduled]; rfl) (fun _ => ⟨_, _, rfl, rfl, rfl, considered⟩) fun _ => ?_
  refine ite_alike .rfl (fun _ => ⟨_, _, rfl, rfl, rfl, admit_encoder_alike considered req⟩) fun _ => ?_
  refine ite_alike .rfl (fun ctx => ?_) fun _ => ⟨_, _, rfl, rfl, rfl, considered⟩
  have out := admit_context_alike considered req mem _
    (if isFirstChunkContext req || req.isEncoderInitState then crossWalk managers req else none)
    (self_summary_resolved req)
  generalize admitContext managers _ req = mine' at out ⊢
  generalize CapacityScheduler.admitContext managers _ req _ _ = theirs' at out ⊢
  cases out with
  | none => exact ⟨_, _, rfl, rfl, rfl, considered⟩
  | some admitted => exact ⟨_, _, rfl, rfl, rfl, admitted⟩

end

-- The requests that wait for their encoder output are only in the C++ list.
theorem admit_pending_alike
    (distinct : ∀ first ∈ active, ∀ second ∈ active, first.requestId = second.requestId → first = second)
    (reqs : List Request) (listed : ∀ req ∈ reqs, req ∈ active)
    (related : Paid managers static active encoderBlocks mine theirs)
    (same : sched.SameBranches managers static encoderBlocks theirs reqs) :
    BothOk (fun mine theirs => ∃ blocks, Paid managers static active blocks mine theirs ∧
        (blocks = encoderBlocks ∨ ∃ req ∈ reqs, req.isEncoderInitState = true))
      (sched.admitPending managers static mine (reqs.filter (!isWaitingForEncoderOutput ·)))
      (sched.counterpart.admitPending managers static (isSkippingRelevant managers) theirs reqs) := by
  induction reqs generalizing mine theirs encoderBlocks with
  | nil => exact ⟨mine, theirs, rfl, rfl, encoderBlocks, related, .inl rfl⟩
  | cons req rest ih =>
    obtain ⟨here, later⟩ := same
    obtain ⟨next, next', mineNext, theirNext, go, admitted⟩ :=
      sched.admit_next_alike distinct req (listed req List.mem_cons_self) related here
    have added : encoderBlocksAfter managers encoderBlocks req = encoderBlocks ∨ req.isEncoderInitState = true := by
      unfold encoderBlocksAfter
      split
      · next encoder => exact .inr encoder
      · exact .inl rfl
    rw [List.filter_cons_of_pos (by rw [here.ready]; rfl), admitPending, CapacityScheduler.admitPending, mineNext, theirNext]
    obtain ⟨mineAfter, goOn⟩ := next
    obtain ⟨theirAfter, goOn'⟩ := next'
    cases go
    cases goOn with
    | false =>
      refine ⟨_, _, rfl, rfl, _, admitted, added.imp_right fun encoder => ⟨req, List.mem_cons_self, encoder⟩⟩
    | true =>
      obtain ⟨last, last', mineLast, theirLast, blocks, ended, from'⟩ :=
        ih (List.forall_mem_cons.mp listed).2 admitted (later theirAfter theirNext)
      refine ⟨last, last', mineLast, theirLast, blocks, ended, ?_⟩
      rcases from' with rfl | ⟨other, mem, encoder⟩
      · exact added.imp_right fun encoder => ⟨req, List.mem_cons_self, encoder⟩
      · exact .inr ⟨other, List.mem_cons_of_mem _ mem, encoder⟩

end Admission

theorem classify_pages (pass : NoEvictPass Key) (reqs : List Request) :
    (sched.classify managers pass reqs).availablePeftPages = pass.availablePeftPages := by
  induction reqs generalizing pass with
  | nil => rfl
  | cons req rest ih =>
    rw [classify]
    split_ifs
    · exact ih pass
    · rfl
    · rw [ih]
      unfold keepInProgress
      cases managers.peftCacheManager <;> rfl
    · exact ih _
    · exact ih _

section Schedule
variable (managers : Managers Key Simulation) (static : Bool) (active : List Request)

def blocksContributed : Contributed Key :=
  if skipping managers static then prefillContributedBlocks managers {} active else {}

def theirClassified : CapacityScheduler.NoEvictPass Key :=
  sched.counterpart.classify managers
    { reservedBlocks := { availableBlocks := managers.kvCacheManager.numFreeBlocks }
      reservedCrossBlocks := managers.crossKvCacheManager.map fun cross => { availableBlocks := cross.numFreeBlocks }
      contributed := blocksContributed managers static active } active

def theirPaid : CapacityScheduler.NoEvictPass Key :=
  let pass := sched.theirClassified managers static active
  { pass with availablePeftPages := CapacityScheduler.maxPeftCachePages managers - pass.claimedPeftPages }

def myClassified : NoEvictPass Key :=
  sched.classify managers
    { availableBlocks := managers.kvCacheManager.numFreeBlocks
      availableCrossBlocks := managers.crossKvCacheManager.map (·.numFreeBlocks)
      availablePeftPages := managers.peftCacheManager.elim 0 (·.maxDevicePages)
      contributed := blocksContributed managers static active } active

theorem classified_alike : Pending managers (sched.considered active) (sched.myClassified managers static active)
    (sched.theirClassified managers static active) := by
  refine sched.classify_alike ?_ active
  refine ⟨⟨rfl, rfl, ?_, ?_, rfl, caches_walks_nil _, caches_walks_nil _, fun _ => rfl⟩,
    fun _ => rfl, fun _ => rfl, rfl, rfl, rfl⟩
  · cases managers.crossKvCacheManager <;> rfl
  · exact isSome_map

theorem classified_listed : Listed (sched.considered active) (sched.theirClassified managers static active) := by
  refine sched.classify_lists active (fun _ mem => mem) ⟨fun req mem => ?_, fun req mem => ?_⟩ <;> cases mem

theorem paid_alike : Paid managers static (sched.considered active) []
    (if managers.peftCacheManager.isSome = true then
      { sched.myClassified managers static active with
        availablePeftPages := (sched.myClassified managers static active).availablePeftPages -
          (sched.myClassified managers static active).claimedPeftPages }
      else sched.myClassified managers static active)
    (sched.theirPaid managers static active) := by
  have related := sched.classified_alike managers static active
  have pages : (sched.myClassified managers static active).availablePeftPages =
      managers.peftCacheManager.elim (0 : Int) (·.maxDevicePages) := sched.classify_pages _ _
  have cross : ∀ key, key ∈ (sched.theirClassified managers static active).contributed.crossContext ↔
      key ∈ (sched.myClassified managers static active).contributed.crossContext ∨ key ∈ ([] : List Key) := by
    simp [related.contributed]
  unfold theirPaid CapacityScheduler.maxPeftCachePages
  cases peft : managers.peftCacheManager with
  | none =>
    have absent := not_isSome_iff_eq_none.mpr peft
    refine ⟨{ related with tasks := fun present => absurd present absent }, fun _ => cross,
      fun present => absurd present absent, fun _ => ?_⟩
    dsimp only
    rw [related.unclaimed peft]
    decide
  | some mgr =>
    have present := isSome_of_eq_some peft
    rw [peft] at pages
    refine ⟨{ related with }, fun _ => cross, fun _ => ?_, fun absent => ?_⟩
    · dsimp only
      rw [pages, related.claimed present]
      rfl
    · rw [peft] at absent
      cases absent

variable [DecidableEq Key]

-- C++ refuses encoder requests without a cross manager before it looks at any, and reads encoder tokens that are not there.
structure NoEvictGuard : Prop where
  allowed : managers.crossKvCacheManager = none → sched.noScheduleUntilState ≠ .encoderInit
  distinct : ∀ first ∈ sched.considered active, ∀ second ∈ sched.considered active,
    first.requestId = second.requestId → first = second
  executing : skipping managers static = true → ∀ req ∈ active, isExecuting req = true → Encoded managers req
  pending : (!static || (sched.theirClassified managers static active).scheduledRequests.isEmpty) = true →
    ∀ admitted, sched.counterpart.admitPending managers static (isSkippingRelevant managers)
        (sched.theirPaid managers static active)
        (sched.theirClassified managers static active).pendingDisGenInitRequests = .ok admitted →
      sched.SameBranches managers static [] admitted (sched.theirClassified managers static active).pendingRequests

variable {managers static active}

theorem disagg_same_branches (pass : CapacityScheduler.NoEvictPass Key) (reqs : List Request)
    (disaggs : ∀ req ∈ reqs, req.isDisaggGenerationInitState = true) : sched.SameBranches managers static [] pass reqs := by
  induction reqs generalizing pass with
  | nil => trivial
  | cons req rest ih =>
    obtain ⟨ctx, encoder⟩ := disagg_states req (disaggs req List.mem_cons_self)
    have first : isFirstChunkContext req = false := by rw [isFirstChunkContext, ctx]; rfl
    have unchanged : encoderBlocksAfter managers [] req = [] := by
      rw [encoderBlocksAfter, encoder]
      rfl
    refine ⟨⟨?_, fun _ => encoder, fun asked => ?_, fun _ asked => ?_, fun _ asked => ?_⟩, fun next _ => ?_⟩
    · rw [isWaitingForEncoderOutput, ctx]
      rfl
    · rw [first, encoder] at asked
      cases asked
    · rw [encoder] at asked
      cases asked
    · rw [first] at asked
      cases asked
    · rw [unchanged]
      exact ih next (List.forall_mem_cons.mp disaggs).2

theorem no_evict_alike (guard : sched.NoEvictGuard managers static active) :
    ∃ chosen, sched.noEvict managers static active = .ok chosen ∧
      sched.counterpart.guaranteedNoEvict managers static active = .ok chosen := by
  have related := sched.classified_alike managers static active
  have listed := sched.classified_listed managers static active
  have paid := sched.paid_alike managers static active
  have pending := guard.pending
  have checked : sched.counterpart.checkRequiredCrossKvCacheManager managers = .ok () := by
    refine if_neg fun both => ?_
    exact guard.allowed (isNone_iff_eq_none.mp both.2) both.1
  have prefilled : (if (!static && isSkippingRelevant managers) = true then
      CapacityScheduler.prefillWithChunkedContextsAlreadyExecuting managers.kvCacheManager
        managers.crossKvCacheManager {} active else .ok {}) = .ok (blocksContributed managers static active) :=
    ite_alike (R := fun theirs mine => theirs = Except.ok mine) .rfl
      (fun relevant => prefill_alike {} active (guard.executing relevant)) fun _ => rfl
  unfold noEvict CapacityScheduler.guaranteedNoEvict
  dsimp only
  rw [← isSkippingRelevant, checked, prefilled, ← skipping, ← blocksContributed]
  dsimp only
  rw [← myClassified, ← theirClassified, ← theirPaid]
  generalize sched.theirPaid managers static active = theirPaid at paid pending ⊢
  generalize sched.myClassified managers static active = mine at related paid ⊢
  generalize sched.theirClassified managers static active = theirs at related listed pending ⊢
  have same : (!static || mine.scheduledRequests.isEmpty) = (!static || theirs.scheduledRequests.isEmpty) := by
    rw [related.scheduled]
  by_cases open' : (!static || mine.scheduledRequests.isEmpty) = true
  · rw [if_pos open', if_pos (same.symm.trans open')]
    have awake : theirs.pendingDisGenInitRequests.filter (!isWaitingForEncoderOutput ·) =
        mine.pendingDisGenInitRequests := by
      rw [related.pendingDisGenInit, List.filter_eq_self]
      intro req mem
      rw [isWaitingForEncoderOutput, (disagg_states req (listed.disagg req mem).2).1]
      rfl
    obtain ⟨first, first', mineFirst, theirsFirst, blocks, admitted, from'⟩ :=
      sched.admit_pending_alike guard.distinct _ (fun req mem => (listed.disagg req mem).1) paid
        (sched.disagg_same_branches _ _ fun req mem => (listed.disagg req mem).2)
    have empty : blocks = [] := by
      refine from'.resolve_right ?_
      rintro ⟨req, mem, encoder⟩
      rw [(disagg_states req (listed.disagg req mem).2).2] at encoder
      cases encoder
    rw [empty] at admitted
    obtain ⟨second, second', mineSecond, theirsSecond, _, ended, _⟩ := sched.admit_pending_alike guard.distinct _
      listed.pending admitted (pending (same.symm.trans open') first' theirsFirst)
    rw [awake] at mineFirst
    refine ⟨second'.scheduledRequests, ?_, ?_⟩
    · rw [mineFirst]
      dsimp only
      rw [related.pending, mineSecond, ← ended.scheduled]
      rfl
    · rw [theirsFirst]
      dsimp only
      rw [theirsSecond]
      rfl
  · rw [if_neg open', if_neg fun closed => open' (same.trans closed)]
    exact ⟨_, rfl, congrArg Except.ok related.scheduled.symm⟩

end Schedule
end PyCapacityScheduler
end TrtLlm.Py
