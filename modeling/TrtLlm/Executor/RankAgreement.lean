import TrtLlm.Executor.Ranks

set_option autoImplicit false

namespace TrtLlm.Executor
open List PostProcessorName

def lastStageRejects (config : RankConfig) (world : World) (request : RankRequest) : Bool :=
  (match request.logitsPostProcessorName with
    | some .batched => !config.batchedPostProcessor
    | some (.dynamic _) => config.replicateLogitsPostProcessor && decide (world.tp ≠ 1)
    | _ => request.logitsPostProcessor && config.replicateLogitsPostProcessor && decide (world.tp ≠ 1)) ||
    guidedDecodingFails config request || additionalOutputsFail config request

-- With a pipeline it passes the checks of the last stage, a post processor of its own needs a single context
-- parallel rank, and a name with the dynamic prefix is configured.
structure Uniform (config : RankConfig) (world : World) (request : RankRequest) : Prop where
  stages : world.pp = 1 ∨ lastStageRejects config world request = false
  own : request.logitsPostProcessor = true → world.cp = 1 ∨ config.replicateLogitsPostProcessor = true ∧ world.tp ≠ 1
  known : ∀ suffix, request.logitsPostProcessorName = some (.dynamic suffix) → .dynamic suffix ∈ config.postProcessors

section Broadcast
variable {size : Nat} {color key : Nat → Nat}

theorem split_root_eq (first : Nat) {rank : Nat} (inside : first < size) (same : color first = color rank)
    (least : ∀ other < size, color other = color rank → key first < key other ∨ key first = key other ∧ first ≤ other) :
    splitRoot size color key rank = first := by
  have member : first ∈ (range size).filter fun other => color other = color rank := by simp [inside, same]
  rw [splitRoot]
  cases found : ((range size).filter fun other => color other = color rank).argmin fun other => toLex (key other, other) with
  | none =>
    rw [argmin_eq_none.mp found] at member
    cases member
  | some root =>
    obtain ⟨below, alike⟩ : root < size ∧ color root = color rank := by simpa using argmin_mem found
    have smallest := Prod.Lex.toLex_le_toLex.mp (le_of_mem_argmin (f := fun other => toLex (key other, other)) member found)
    have other := least root below alike
    simp only [Option.getD_some]
    omega

theorem World.tp_bcast_first {α : Type} (world : World) (buffers : Nat → α) {rank : Nat} (early : rank < world.tp) :
    world.tpBcast buffers rank = buffers 0 := by
  rw [World.tpBcast, split_root_eq 0]
  · exact Nat.mul_pos (Nat.mul_pos world.pp_pos world.tp_pos) world.cp_pos
  · rw [Nat.zero_div, Nat.div_eq_of_lt early]
  · intro other _ _
    rw [getTensorParallelRank, Nat.zero_mod, Nat.zero_div]
    exact (Nat.eq_zero_or_pos _).elim (fun first => .inr ⟨first.symm, Nat.zero_le _⟩) .inl

-- Where one of the two sizes divides the other, the first tp ranks are the roots of the context communicators.
def World.Aligned (world : World) : Prop := world.tp ∣ world.cp ∨ world.cp ∣ world.tp

theorem World.Aligned.context_root {world : World} (aligned : world.Aligned) {rank other : Nat}
    (same : other % world.tp = rank % world.tp) : rank % world.tp % world.cp < other % world.cp ∨
      rank % world.tp % world.cp = other % world.cp ∧ rank % world.tp ≤ other := by
  have small : rank % world.tp ≤ other := same ▸ Nat.mod_le _ _
  obtain narrow | wide := aligned
  · have fits : rank % world.tp < world.cp :=
      lt_of_lt_of_le (Nat.mod_lt _ world.tp_pos) (Nat.le_of_dvd world.cp_pos narrow)
    have least : rank % world.tp ≤ other % world.cp := by
      rw [← same, ← Nat.mod_mod_of_dvd other narrow]
      exact Nat.mod_le _ _
    rw [Nat.mod_eq_of_lt fits]
    omega
  · rw [← same, Nat.mod_mod_of_dvd other wide]
    exact .inr ⟨rfl, Nat.mod_le _ _⟩

theorem World.Has.placed {world : World} {rank : Rank} (has : world.Has rank) :
    getPipelineParallelRank world.tp world.cp (world.sessionRank rank) = rank.pp ∧
      getTensorParallelRank world.tp world.cp (world.sessionRank rank) = rank.tp ∧
      getContextParallelRank world.cp (world.sessionRank rank) = rank.cp := by
  have row : world.sessionRank rank / world.cp = rank.pp * world.tp + rank.tp := by
    rw [World.sessionRank, Nat.mul_comm, Nat.mul_add_div world.cp_pos, Nat.div_eq_of_lt has.cp, Nat.add_zero]
  refine ⟨?_, ?_, Nat.mul_add_mod_of_lt has.cp⟩
  · rw [getPipelineParallelRank, Nat.mul_comm, ← Nat.div_div_eq_div_mul, row, Nat.mul_comm, Nat.mul_add_div world.tp_pos,
      Nat.div_eq_of_lt has.tp, Nat.add_zero]
  · rw [getTensorParallelRank, Nat.mod_mul_left_div_self, row, Nat.mul_add_mod_of_lt has.tp]

theorem World.Has.session_rank {world : World} {rank : Rank} (has : world.Has rank) (stage : rank.pp = 0) :
    world.sessionRank rank < world.tp * world.cp := by
  have last : rank.tp * world.cp + world.cp ≤ world.tp * world.cp := by
    rw [← Nat.succ_mul]
    exact Nat.mul_le_mul_right _ has.tp
  have := has.cp
  rw [World.sessionRank, stage, Nat.zero_mul, Nat.zero_add]
  omega

theorem grid_bcast_value {α : Type} {world : World} (aligned : world.Aligned) (value initial : α) {rank : Rank}
    (has : world.Has rank) (stage : rank.pp = 0) : world.gridBcast value initial rank = value := by
  have inside := has.session_rank stage
  have early := Nat.mod_lt (world.sessionRank rank) world.tp_pos
  have whole : world.tp ≤ world.tp * world.cp := Nat.le_mul_of_pos_right _ world.cp_pos
  have all : world.tp * world.cp ≤ world.size := by
    rw [World.size, Nat.mul_assoc]
    exact Nat.le_mul_of_pos_left _ world.pp_pos
  rw [World.gridBcast, World.cpBcast, split_root_eq (world.sessionRank rank % world.tp), world.tp_bcast_first _ early,
    if_pos rfl]
  · omega
  · simp only [Nat.div_eq_of_lt inside, Nat.div_eq_of_lt (early.trans_le whole), Nat.mod_mod]
  · intro other _ same
    simp only [Nat.div_eq_of_lt inside, Nat.zero_mul, Nat.zero_add] at same
    apply aligned.context_root
    cases stages : other / (world.tp * world.cp) with
    | zero => simpa [stages] using same
    | succ later =>
      rw [stages, Nat.succ_mul] at same
      omega

end Broadcast

variable {config : RankConfig} {world : World} {registered : List PostProcessorName} {rank : Rank}
    {request : RankRequest}

theorem leader_of_corner (last : world.isLastPipelineParallelRank rank = true)
    (row : rank.tp = 0) (col : rank.cp = 0) : rank = world.leader := by
  simp only [World.isLastPipelineParallelRank, decide_eq_true_eq] at last
  obtain ⟨stage, tp, cp⟩ := rank
  simp only at last row col
  simp only [World.leader, row, col, Rank.mk.injEq, and_true]
  omega

variable {name : PostProcessorName}

theorem named_lookup (known : name ∈ config.postProcessors) :
    (postProcessorMap config world registered rank).contains name = true := by
  simp [postProcessorMap, known]

section
variable (has : world.Has rank) (last : world.isLastPipelineParallelRank rank = true)

include has last

theorem own_processor_found
    (allowed : (config.replicateLogitsPostProcessor && decide (world.tp ≠ 1)) = false) (single : world.cp = 1)
    (entered : name ∈ registered) : ((decide (rank.tp = 0) || config.replicateLogitsPostProcessor) &&
      !(postProcessorMap config world registered rank).contains name) = false := by
  have col : rank.cp = 0 := by have := has.cp; omega
  by_cases row : rank.tp = 0
  · simp [postProcessorMap, leader_of_corner last row col, entered]
  · have wide : world.tp ≠ 1 := by have := has.tp; omega
    have lone : config.replicateLogitsPostProcessor = false := by simpa [wide] using allowed
    simp [row, lone]

theorem own_processor_fails (uniform : Uniform config world request) (own : request.logitsPostProcessor = true)
    (entered : request.dynamicName ∈ registered) : postProcessorFails config world registered rank (some request.dynamicName) =
      (config.replicateLogitsPostProcessor && decide (world.tp ≠ 1)) := by
  cases allowed : config.replicateLogitsPostProcessor && decide (world.tp ≠ 1) with
  | true => simp only [postProcessorFails, RankRequest.dynamicName, isDynamic, Bool.true_and, allowed, Bool.true_or]
  | false =>
    have single : world.cp = 1 := by
      obtain single | both := uniform.own own
      · exact single
      · simp [both.1, both.2] at allowed
    have found := own_processor_found has last allowed single entered
    simpa only [postProcessorFails, RankRequest.dynamicName, isDynamic, Bool.true_and, allowed, Bool.false_or] using found

end

theorem named_processor_fails (rank : Rank) (uniform : Uniform config world request) (queued : Enqueued config request)
    (foreign : request.logitsPostProcessor = false) :
    (postProcessorFails config world registered rank request.logitsPostProcessorName ||
      guidedDecodingFails config request || additionalOutputsFail config request) = lastStageRejects config world request := by
  cases named : request.logitsPostProcessorName with
  | none => simp [lastStageRejects, named, foreign, postProcessorFails]
  | some name =>
    cases name with
    | batched => simp [lastStageRejects, named, postProcessorFails]
    | dynamic suffix =>
      simp only [lastStageRejects, named, postProcessorFails, isDynamic, Bool.true_and,
        named_lookup (uniform.known suffix named), Bool.not_true, Bool.and_false, Bool.or_false]
    | other text =>
      have known : other text ∈ config.postProcessors := by
        obtain batched | known | dynamic := queued _ named
        · cases batched
        · exact known
        · cases dynamic
      simp only [lastStageRejects, named, foreign, postProcessorFails, isDynamic, Bool.false_and,
        named_lookup known, Bool.not_true, Bool.and_false, Bool.or_false]

section
variable (has : world.Has rank) (uniform : Uniform config world request) (queued : Enqueued config request)
  (entered : request.logitsPostProcessor = true → request.dynamicName ∈ registered)

include has uniform queued entered

theorem last_stage_alike (last : world.isLastPipelineParallelRank rank = true) :
    (postProcessorFails config world registered rank request.setupDynamic.logitsPostProcessorName ||
      guidedDecodingFails config request.setupDynamic || additionalOutputsFail config request.setupDynamic) =
        lastStageRejects config world request := by
  cases own : request.logitsPostProcessor with
  | true =>
    have fails := own_processor_fails has last uniform own (entered own)
    simp only [RankRequest.setupDynamic, own, if_true, fails, lastStageRejects, request.lone own, Bool.true_and]
    rfl
  | false =>
    have same : request.setupDynamic = request := by simp [RankRequest.setupDynamic, own]
    rw [same]
    exact named_processor_fails rank uniform queued own

theorem fails_alike (common : RankRequest → Option Nat) : failsAt config world registered common rank request.setupDynamic =
      if lastStageRejects config world request then some 0 else common request.setupDynamic := by
  cases last : world.isLastPipelineParallelRank rank with
  | true => simp only [failsAt, last, Bool.true_and, last_stage_alike has uniform queued entered last]
  | false =>
    obtain single | passes := uniform.stages
    · have := has.pp
      rw [World.isLastPipelineParallelRank, decide_eq_false_iff_not] at last
      omega
    · simp [failsAt, last, passes]

end

section
variable (config : RankConfig) {failing other : RankRequest → Option Nat} {requests : List RankRequest}

theorem fetch_sequences_congr (same : ∀ request ∈ requests, failing request = other request) :
    fetchSequences config failing requests = fetchSequences config other requests := by
  induction requests with
  | nil => rfl
  | cons request rest ih =>
    have later := ih (forall_mem_cons.mp same).2
    simp only [fetchSequences, same request mem_cons_self, later]

theorem iterate_congr (cancelled : List Nat) (outcomes : Outcomes) (s : RankState)
    (same : ∀ request ∈ requests, failing request = other request) :
    iterate config failing cancelled requests outcomes s = iterate config other cancelled requests outcomes s := by
  simp only [iterate, fetchOnRank, fetch_sequences_congr config same]

end

section
variable (config : RankConfig) (failing : RankRequest → Option Nat) (requests : List RankRequest) (s : RankState)

@[simp] theorem fetch_exchanges : (fetchOnRank config failing requests s).exchanges = s.exchanges := by
  unfold fetchOnRank
  split <;> rfl

@[simp] theorem fetch_terminated : (fetchOnRank config failing requests s).terminated = s.terminated := by
  unfold fetchOnRank
  split <;> rfl

end

@[simp] theorem async_exchanges (out : Option Impl.Progress) (s : RankState) :
    (asyncOnRank out s).exchanges = s.exchanges := by
  unfold asyncOnRank
  split <;> rfl

@[simp] theorem async_terminated (out : Option Impl.Progress) (s : RankState) :
    (asyncOnRank out s).terminated = s.terminated := by
  unfold asyncOnRank
  split <;> rfl

section Iteration
variable (config : RankConfig) (failing : RankRequest → Option Nat) (cancelled : List Nat)
  (requests : List RankRequest) (outcomes : Outcomes) {s : RankState}

theorem iterate_exchanges_idle (idle : s.activeRequests = []) :
    (iterate config failing cancelled requests outcomes s).exchanges = s.exchanges := by
  simp only [iterate, idle, if_true]
  split
  · rfl
  rw [async_exchanges]
  split
  · rfl
  · exact fetch_exchanges config failing requests s

theorem iterate_terminated : s.terminated <+: (iterate config failing cancelled requests outcomes s).terminated := by
  have synced : s.terminated <+:
      (if s.activeRequests = [] then s else syncOnRank cancelled outcomes.sync s).terminated := by
    split
    · exact prefix_rfl
    · exact prefix_append _ _
  unfold iterate
  split
  · exact prefix_rfl
  simp only [async_terminated]
  generalize (if s.activeRequests = [] then s else syncOnRank cancelled outcomes.sync s) = after at synced ⊢
  split
  · exact synced
  · rw [fetch_terminated]
    exact synced

end Iteration

namespace RankRun
variable {world : World} {config : RankConfig} (run : RankRun world config)

theorem fetched_same (aligned : world.Aligned) {rank : Rank} (has : world.Has rank) (count : Nat) :
    run.fetched rank count = setupDynamicLogitsPostProcessors (run.requests count) := by
  obtain ⟨stage, row, column⟩ := rank
  induction stage with
  | zero =>
    rw [run.broadcast _ has count rfl]
    exact grid_bcast_value aligned _ _ has rfl
  | succ stage ih =>
    rw [run.relayed _ count (Nat.succ_ne_zero stage)]
    exact ih ⟨Nat.lt_of_succ_lt has.pp, has.tp, has.cp⟩

section
variable {rank : Rank} (has : world.Has rank)

include has

theorem exchanges_step {k : Nat} (made : k < run.iterations rank) : (run.state rank (k + 1)).exchanges =
      (run.state rank k).exchanges + if (run.state rank k).activeRequests = [] then 0 else 1 := by
  rw [run.step rank has k made]
  split
  · next idle => exact iterate_exchanges_idle _ _ _ _ _ idle
  · next busy =>
    simp only [iterate, busy, and_false, if_false, async_exchanges]
    split
    · rfl
    · simp [syncOnRank]

theorem exchanges_mono {k later : Nat} (order : k ≤ later)
    (made : later ≤ run.iterations rank) : (run.state rank k).exchanges ≤ (run.state rank later).exchanges := by
  induction later, order using Nat.le_induction with
  | base => exact le_rfl
  | succ later _ ih =>
    rw [run.exchanges_step has made]
    exact le_trans (ih (Nat.le_of_succ_le made)) (Nat.le_add_right _ _)

theorem exchanges_strict {k later : Nat} (order : k < later)
    (made : later ≤ run.iterations rank) (busy : (run.state rank k).activeRequests ≠ []) :
    (run.state rank k).exchanges < (run.state rank later).exchanges := by
  have step := run.exchanges_step has (lt_of_lt_of_le order made)
  rw [if_neg busy] at step
  have rest : (run.state rank (k + 1)).exchanges ≤ (run.state rank later).exchanges := run.exchanges_mono has order made
  omega

theorem terminated_mono {k later : Nat} (order : k ≤ later)
    (made : later ≤ run.iterations rank) : (run.state rank k).terminated <+: (run.state rank later).terminated := by
  induction later, order using Nat.le_induction with
  | base => exact prefix_rfl
  | succ later _ ih =>
    rw [run.step rank has later made]
    exact (ih (Nat.le_of_succ_le made)).trans (iterate_terminated _ _ _ _ _)

end

def AgreeAt (k : Nat) : Prop :=
  ∀ rank other, world.Has rank → world.Has other → k ≤ run.iterations rank → k ≤ run.iterations other →
    run.state rank k = run.state other k

theorem source_iteration {rank src : Rank} (has : world.Has rank) (sourceHas : world.Has src) {k past : Nat}
    (agree : ∀ earlier ≤ k, run.AgreeAt earlier) (made : k < run.iterations rank)
    (busy : (run.state rank k).activeRequests ≠ []) (sent : past < run.iterations src)
    (sourceBusy : (run.state src past).activeRequests ≠ [])
    (idx : (run.state src past).exchanges = (run.state rank k).exchanges) : past = k := by
  obtain less | same | more := Nat.lt_trichotomy past k
  · have equal := agree past less.le rank src has sourceHas (less.le.trans made.le) sent.le
    have strict := run.exchanges_strict has less made.le (equal ▸ sourceBusy)
    rw [equal] at strict
    omega
  · exact same
  · have equal := agree k le_rfl rank src has sourceHas made.le (more.le.trans sent.le)
    have strict := run.exchanges_strict sourceHas more sent.le (equal ▸ busy)
    rw [← equal] at strict
    omega

theorem leader_has (world : World) : world.Has pipelineLeader := ⟨world.pp_pos, world.tp_pos, world.cp_pos⟩

theorem source_has {rank : Rank} (has : world.Has rank) : world.Has rank.source := by
  unfold Rank.source
  split
  · exact leader_has world
  · exact ⟨lt_of_le_of_lt (Nat.sub_le _ _) has.pp, has.tp, has.cp⟩

theorem source_agrees {rank : Rank} (has : world.Has rank) (away : rank ≠ pipelineLeader) {k : Nat}
    (agree : ∀ earlier ≤ k, run.AgreeAt earlier) (made : k < run.iterations rank)
    (busy : (run.state rank k).activeRequests ≠ []) :
    k < run.iterations rank.source ∧ run.state rank.source k = run.state rank k := by
  obtain ⟨past, sent, sourceBusy, idx⟩ := run.waits rank has away k made busy
  have same := run.source_iteration has (source_has has) agree made busy sent sourceBusy idx
  subst same
  exact ⟨sent, agree past le_rfl rank.source rank (source_has has) has sent.le made.le⟩

theorem leader_exchange {k : Nat} (made : k < run.iterations pipelineLeader)
    (busy : (run.state pipelineLeader k).activeRequests ≠ []) :
    run.cancelled pipelineLeader (run.state pipelineLeader k).exchanges =
      run.arrivals (run.state pipelineLeader k).exchanges ∪ (run.state pipelineLeader k).cancelledReqIds := by
  rw [run.exchange pipelineLeader (leader_has world) k made busy, exchanged, if_pos rfl]

theorem stage_exchange (aligned : world.Aligned) {own arrivals lead prev : List Nat} {rank : Rank} (has : world.Has rank)
    (away : rank ≠ pipelineLeader) (first : rank.pp = 0) (sent : lead = arrivals ∪ own) :
    exchanged world rank own arrivals lead prev = arrivals ∪ own := by
  simp only [exchanged, away, if_false, first, if_true, grid_bcast_value aligned _ _ has first]
  split
  · exact sent
  next none =>
    have empty : arrivals ∪ own = [] := by
      rw [← sent]
      exact length_eq_zero_iff.mp (by omega)
    rw [empty]
    apply eq_nil_iff_forall_not_mem.mpr
    intro id mem
    have : id ∈ arrivals ∪ own := mem_union_iff.mpr (.inr mem)
    simp [empty] at this

-- By induction on the stage: the exchange depends only on the state.
theorem exchange_value (aligned : world.Aligned) {k : Nat} (agree : ∀ earlier ≤ k, run.AgreeAt earlier) (stage : Nat) :
    ∀ rank, rank.pp = stage → world.Has rank → k < run.iterations rank → (run.state rank k).activeRequests ≠ [] →
      run.cancelled rank (run.state rank k).exchanges =
        run.arrivals (run.state rank k).exchanges ∪ (run.state rank k).cancelledReqIds := by
  induction stage with
  | zero =>
    intro rank first has made busy
    by_cases leads : rank = pipelineLeader
    · subst leads
      exact run.leader_exchange made busy
    have place : rank.source = pipelineLeader := if_pos first
    obtain ⟨sent, equal⟩ := run.source_agrees has leads agree made busy
    rw [place] at sent equal
    have lead := run.leader_exchange sent (equal ▸ busy)
    rw [equal] at lead
    rw [run.exchange rank has k made busy]
    exact stage_exchange aligned has leads first lead
  | succ stage ih =>
    intro rank later has made busy
    have inner : rank.pp ≠ 0 := by omega
    have leads : rank ≠ pipelineLeader := by
      intro leads
      exact inner (leads ▸ rfl)
    have place : rank.source = { rank with pp := rank.pp - 1 } := if_neg inner
    obtain ⟨sent, equal⟩ := run.source_agrees has leads agree made busy
    have prev := ih rank.source (by rw [place, later]; rfl) (source_has has) sent (equal ▸ busy)
    rw [equal] at prev
    rw [run.exchange rank has k made busy, exchanged, if_neg leads, if_neg inner]
    exact prev

section
variable (uniform : ∀ count, ∀ request ∈ run.requests count, Uniform config world request)

include uniform

theorem failing_alike {rank other : Rank} (has : world.Has rank) (otherHas : world.Has other) (count : Nat) :
    ∀ request ∈ setupDynamicLogitsPostProcessors (run.requests count),
      failsAt config world (run.registered count) (run.common count) rank request =
        failsAt config world (run.registered count) (run.common count) other request := by
  intro request mem
  obtain ⟨given, queued, rfl⟩ := mem_map.mp mem
  have fits := uniform count given queued
  have passed := run.enqueued count given queued
  have entered := run.entered count given queued
  rw [fails_alike has fits passed entered _, fails_alike otherHas fits passed entered _]

variable (aligned : world.Aligned)

include aligned

theorem agree_step {k : Nat} (agree : ∀ earlier ≤ k, run.AgreeAt earlier) : run.AgreeAt (k + 1) := by
  intro rank other has otherHas made otherMade
  have same := agree k le_rfl rank other has otherHas (Nat.le_of_succ_le made) (Nat.le_of_succ_le otherMade)
  rw [run.step rank has k made, run.step other otherHas k otherMade, run.fetched_same aligned has,
    run.fetched_same aligned otherHas, same,
    iterate_congr config _ _ _ (run.failing_alike uniform has otherHas _)]
  by_cases idle : (run.state other k).activeRequests = []
  · simp only [iterate, idle, if_true]
  · have val := run.exchange_value aligned agree rank.pp rank rfl has made (same ▸ idle)
    rw [same] at val
    rw [val, run.exchange_value aligned agree other.pp other rfl otherHas otherMade idle]

theorem agree_always (k : Nat) : run.AgreeAt k := by
  induction k using Nat.strong_induction_on with
  | _ k ih =>
    cases k with
    | zero =>
      intro rank other _ _ _ _
      rw [run.start rank, run.start other]
    | succ k => exact run.agree_step uniform aligned fun earlier order => ih earlier (Nat.lt_succ_of_le order)

end

def terminatedOn (rank : Rank) : List (List Nat) := (run.state rank (run.iterations rank)).terminated

def activeIds (rank : Rank) (k : Nat) : List Nat := (run.state rank k).activeRequests.map LlmRequest.requestId

def RanksAgree : Prop :=
  ∀ rank other, world.Has rank → world.Has other →
    (∀ k, k ≤ run.iterations rank → k ≤ run.iterations other → run.activeIds rank k = run.activeIds other k) ∧
      ∀ call, call < (run.terminatedOn rank).length → call < (run.terminatedOn other).length →
        (run.terminatedOn rank)[call]? = (run.terminatedOn other)[call]?

theorem terminated_prefix {rank other : Rank} (has : world.Has rank) (otherHas : world.Has other)
    (agree : run.AgreeAt (run.iterations rank)) (fewer : run.iterations rank ≤ run.iterations other) :
    run.terminatedOn rank <+: run.terminatedOn other := by
  have record := run.terminated_mono otherHas fewer le_rfl
  rw [← agree rank other has otherHas le_rfl fewer] at record
  exact record

theorem record_agrees {shorter longer : List (List Nat)} (part : shorter <+: longer) {call : Nat}
    (made : call < shorter.length) : shorter[call]? = longer[call]? :=
  (prefix_iff_getElem?.mp part call made).symm ▸ getElem?_eq_getElem made

end RankRun

section Lockstep
variable (world : World) (config : RankConfig) (batches : Nat → List RankRequest) (arrivals : Nat → List Nat)
  (outcomes : Nat → Outcomes)

def lockstepState (rank : Rank) : Nat → RankState
  | 0 => {}
  | k + 1 =>
    let s := lockstepState rank k
    iterate config (failsAt config world ((batches s.fetches).map RankRequest.dynamicName) (fun _ => none) rank)
      (arrivals s.exchanges) (world.gridBcast (setupDynamicLogitsPostProcessors (batches s.fetches)) [] { rank with pp := 0 })
      (outcomes k) s

-- A busy rank finds its source busy with the same exchange and takes over what has arrived.
def Together (count : Nat) : Prop :=
  ∀ rank, world.Has rank → ∀ k < count,
    let s := lockstepState world config batches arrivals outcomes rank k
    let source := lockstepState world config batches arrivals outcomes rank.source k
    let ids := arrivals s.exchanges
    s.activeRequests ≠ [] → ids = exchanged world rank s.cancelledReqIds ids ids ids ∧
      source.activeRequests ≠ [] ∧ source.exchanges = s.exchanges

-- All ranks make their iterations side by side.
def RankRun.lockstep (count : Nat) (queued : ∀ fetch, ∀ request ∈ batches fetch, Enqueued config request)
    (together : Together world config batches arrivals outcomes count) : RankRun world config where
  iterations := fun _ => count
  state := lockstepState world config batches arrivals outcomes
  requests := batches
  registered := fun fetch => (batches fetch).map RankRequest.dynamicName
  common := fun _ _ => none
  arrivals := arrivals
  outcomes := outcomes
  fetched := fun rank fetch => world.gridBcast (setupDynamicLogitsPostProcessors (batches fetch)) [] { rank with pp := 0 }
  cancelled := fun _ => arrivals
  enqueued := queued
  entered := fun _ _ member _ => mem_map_of_mem member
  start := fun _ => rfl
  broadcast := fun rank _ _ stage => by rw [← stage]
  relayed := fun _ _ _ => rfl
  step := fun _ _ _ _ => rfl
  exchange := fun rank has k made busy => (together rank has k made busy).1
  waits := fun rank has _ k made busy => ⟨k, made, (together rank has k made busy).2⟩

theorem first_together : Together world config batches arrivals outcomes 1 := by
  intro rank _ k made
  obtain rfl : k = 0 := by omega
  exact fun busy => absurd rfl busy

end Lockstep

theorem unnamed_enqueued {config : RankConfig} {batch : List RankRequest}
    (plain : ∀ request ∈ batch, request.logitsPostProcessorName = none) : ∀ request ∈ batch, Enqueued config request := by
  intro request mem name named
  rw [plain request mem] at named
  cases named

def plainBatch : Nat → List RankRequest
  | 0 => [{ request := { req := {}, id := 1 } }, { request := { req := {}, id := 2 } }]
  | _ => []

theorem plain_enqueued (fetch : Nat) : ∀ request ∈ plainBatch fetch, Enqueued {} request := by
  apply unnamed_enqueued
  cases fetch <;> simp [plainBatch]

-- In the first forwardSync request 2 does not end.
def forwards (k : Nat) : Outcomes :=
  ⟨some fun request => (if k = 1 ∧ request.requestId = 2 then request.state else .generationComplete, request.numTokens),
    some fun request => (request.state, request.numTokens)⟩

def cancelFirst : Nat → List Nat
  | 0 => [1]
  | _ => []

theorem plain_together : Together { pp := 2, tp := 2, cp := 1 } {} plainBatch cancelFirst forwards 3 := by
  rintro ⟨stage, row, column⟩ ⟨stages, rows, columns⟩ k made
  simp only at stages rows columns
  interval_cases stage <;> interval_cases row <;> interval_cases column <;> interval_cases k <;> decide

def guidedBatch : Nat → List RankRequest
  | 0 => [{ request := { req := {}, id := 1 }, guidedDecoding := true }]
  | _ => []

end TrtLlm.Executor
