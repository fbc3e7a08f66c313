import TrtLlm.Py.SchedulerV2Moves

set_option autoImplicit false

namespace TrtLlm.Py
open List BudgetTracker
open Batch (LlmRequest)

section Prepare
variable (manager : CacheManager)

theorem prepare_keeps {caches next : Caches} {req moved : Request} {prepared : Bool}
    (done : manager.prepareContext caches req = some (prepared, moved, next)) :
    moved.base.state = req.base.state ∧ moved.id = req.id := by
  unfold CacheManager.prepareContext at done
  dsimp only at done
  split at done
  · split at done
    · cases done
      exact ⟨rfl, rfl⟩
    split at done
    · cases done
    rename_i base positioned
    cases done
    split at positioned
    · obtain ⟨same, state, _⟩ := Batch.LlmRequest.prepopulated_keeps _ positioned
      exact ⟨state, same⟩
    · cases positioned
      exact ⟨rfl, rfl⟩
  · split at done
    · cases done
    · cases done
      exact ⟨rfl, rfl⟩

end Prepare

namespace KVCacheV2Scheduler
variable (sched : KVCacheV2Scheduler)

def contextTokens (req : Request) : Nat :=
  match sched.chunkUnitSize with
  | some _ => chunkTokens req
  | none => req.base.getContextRemainingLength + req.draftLen

def encoderTokens (req : Request) : Nat := req.base.encoderOutputLen.getD 0

def batchTokens (encoder context generation : List Request) : Nat :=
  (encoder.map encoderTokens).sum + (context.map sched.contextTokens).sum + (generation.map generationTokens).sum

variable (active : List Request) (world : World) (req : Request)

theorem reserve_scheduled (tokens : Nat) (chunking : Bool) (attempt : Attempt)
    (done : sched.reserveContext world req tokens chunking = some attempt) :
    attempt.req = req ∧ (attempt.action = .scheduled → attempt.tokens = tokens) := by
  unfold reserveContext at done
  dsimp only at done
  split at done
  · cases done
    exact ⟨rfl, nofun⟩
  split at done
  · cases done
  · cases done
    exact ⟨rfl, fun _ => rfl⟩
  · rename_i refused _
    cases done
    exact ⟨rfl, fun same => absurd same refused⟩

section Chunks
variable (unit : Nat) (left : Int) (remaining : Nat) {budget : Option Int} {cumsum : List Int}

omit sched in
theorem capped_le (limit : Option Nat) (size : Nat) : capped limit size ≤ size := by
  unfold capped
  split
  · exact le_rfl
  · exact min_le_left _ _

theorem chunk_size_fits {size : Nat} (open_ : 0 ≤ left) (done : sched.chunkSizeFor unit (some left) remaining = some size) :
    (size : Int) ≤ left := by
  unfold chunkSizeFor at done
  dsimp only at done
  generalize bounded : capped sched.maxContextLength (capped (Option.map Int.toNat (some left)) remaining) = limited at done
  have small : limited ≤ left.toNat := by
    rw [← bounded]
    exact le_trans (capped_le _ _) (min_le_right _ _)
  split at done
  · split at done
    · cases done
    · cases done
      have down := Nat.div_mul_le_self limited unit
      omega
  · cases done
    omega

theorem chunk_size_whole {size limit : Nat} (most : sched.maxNumTokens = some limit) (below : left ≤ limit)
    (whole : (remaining : Int) ≤ left) (done : sched.chunkSizeFor unit (some left) remaining = some size) : size = remaining := by
  have all : capped sched.maxContextLength (capped (Option.map Int.toNat (some left)) remaining) = remaining := by
    simp only [maxContextLength, most, capped, Option.map_some]
    omega
  rw [chunkSizeFor, all, if_neg (Nat.lt_irrefl _)] at done
  exact (Option.some.inj done).symm

omit sched in
theorem block_start_spec {idx blockStart : Nat} (found : blockStartFrom cumsum idx = some blockStart) :
    blockStart ≤ idx ∧ (∀ position, blockStart ≤ position → position < idx → maskAt cumsum position = some true) ∧
      (0 < blockStart → maskAt cumsum (blockStart - 1) = some false) := by
  induction idx with
  | zero =>
    cases found
    exact ⟨le_rfl, fun _ _ below => absurd below (Nat.not_lt_zero _), fun pos => absurd pos (Nat.lt_irrefl _)⟩
  | succ idx ih =>
    unfold blockStartFrom at found
    split at found
    · cases found
    · cases found
      exact ⟨le_rfl, fun _ above below => absurd below (by omega), fun _ => ‹_›⟩
    · rename_i here
      obtain ⟨before, run, starts⟩ := ih found
      refine ⟨Nat.le_succ_of_le before, fun position above below => ?_, starts⟩
      rcases Nat.lt_succ_iff_lt_or_eq.mp below with earlier | rfl
      · exact run position above earlier
      · exact here

theorem snap_bounds (lo size snapped : Nat) (done : sched.snapToBlock unit lo size remaining budget cumsum = some snapped) :
    snapped ≤ size ∨ withinBudget budget snapped = true ∧ within sched.maxContextLength snapped = true := by
  unfold snapToBlock at done
  dsimp only at done
  split at done
  · rename_i blockEnd blockStart _ found
    have below := (block_start_spec found).1
    split at done
    · cases done
    split at done
    · rename_i up
      cases done
      simp only [Bool.and_eq_true] at up
      exact .inr up.1.1
    cases done
    have down : (if 0 < unit then blockStart / unit * unit else blockStart) ≤ lo + size := by
      split
      · exact le_trans (Nat.div_mul_le_self blockStart unit) below
      · exact below
    exact .inl (Nat.sub_le_iff_le_add'.mpr down)
  · cases done

theorem align_bounds (req : Request) (size aligned : Nat)
    (done : sched.alignChunkToMmBlock unit req size budget remaining = some aligned) :
    aligned ≤ size ∨ withinBudget budget aligned = true ∧ within sched.maxContextLength aligned = true := by
  unfold alignChunkToMmBlock at done
  dsimp only at done
  split at done
  · split at done
    · cases done
      exact .inl le_rfl
    split at done
    · exact sched.snap_bounds unit remaining _ size aligned done
    · cases done
      exact .inl le_rfl
    · cases done
      exact .inl le_rfl
    · cases done
  · cases done
    exact .inl le_rfl

theorem align_whole (req : Request) {aligned : Nat}
    (done : sched.alignChunkToMmBlock unit req remaining budget remaining = some aligned) : aligned = remaining := by
  unfold alignChunkToMmBlock at done
  split at done
  · rw [if_pos (.inl le_rfl)] at done
    exact (Option.some.inj done).symm
  · exact (Option.some.inj done).symm

end Chunks

-- What remains of the prompt fits what is left of the budget, but not with the draft tokens.
def DraftsExceed (budget : BudgetTracker) (req : Request) : Prop :=
  ∃ left, budget.remainingTokens = some left ∧ (req.base.getContextRemainingLength : Int) ≤ left ∧
    left < req.base.getContextRemainingLength + req.draftLen

theorem full_tokens {world : World} {budget : BudgetTracker} {req : Request} {attempt : Attempt}
    (done : sched.tryScheduleContextFull world budget req = some attempt) (action : attempt.action = .scheduled) :
    attempt.tokens = attempt.req.base.getContextRemainingLength + attempt.req.draftLen ∧
      budget.canFitTokens attempt.tokens = true := by
  unfold tryScheduleContextFull at done
  split at done
  · cases done
  dsimp only at done
  split at done
  · cases done
    cases action
  split at done
  · cases done
    cases action
  rename_i fits
  split at done
  · cases done
  · obtain ⟨same, tokens⟩ := sched.reserve_scheduled _ _ _ _ attempt done
    rw [same, tokens action]
    exact ⟨rfl, by simpa using fits⟩

theorem chunk_tokens_eq {req : Request} (contextual : req.base.state = .contextInit) (size : Nat) :
    chunkTokens { req with base := req.base.setContextChunkSize size } = min size req.base.getContextRemainingLength +
      if req.base.getContextRemainingLength ≤ size then req.draftLen else 0 := by
  have last : (req.base.setContextChunkSize size).isLastContextChunk =
      decide (req.base.getContextRemainingLength ≤ size) := by
    have inside := req.base.position_le_prompt
    simp only [LlmRequest.isLastContextChunk, LlmRequest.isDisaggGenerationInitState,
      LlmRequest.isDisaggGenerationTransmissionComplete, LlmRequest.setContextChunkSize, contextual,
      LlmRequest.getContextRemainingLength, reduceCtorEq, decide_false, Bool.false_or]
    apply decide_eq_decide.mpr
    omega
  simp only [chunkTokens, last, decide_eq_true_eq]
  rfl

-- A chunk that is not the last stays below what is left, the last one is all that remains.
theorem chunked_tokens {unit : Nat} {world : World} {budget : BudgetTracker} {req : Request} {attempt : Attempt}
    (limits : budget.maxNumTokens = sched.maxNumTokens) (contextual : req.base.state = .contextInit)
    (done : sched.tryScheduleContextChunked unit world budget req = some attempt) (action : attempt.action = .scheduled) :
    attempt.tokens = chunkTokens attempt.req ∧ (budget.canFitTokens attempt.tokens = true ↔ ¬DraftsExceed budget attempt.req) := by
  unfold tryScheduleContextChunked at done
  split at done
  · cases done
    cases action
  rename_i enough
  split at done
  · cases done
  rename_i prepared moved caches ready
  dsimp only at done
  split at done
  · cases done
    cases action
  split at done
  · cases done
  · cases done
    cases action
  rename_i size _ sized
  split at done
  · cases done
  · cases done
    cases action
  rename_i aligned _ snapped
  obtain ⟨same, tokens⟩ := sched.reserve_scheduled _ _ _ _ attempt done
  rw [same, tokens action]
  refine ⟨rfl, ?_⟩
  have exceed : DraftsExceed budget { moved with base := moved.base.setContextChunkSize aligned } ↔ DraftsExceed budget moved :=
    Iff.rfl
  rw [exceed, chunk_tokens_eq ((prepare_keeps _ ready).1.trans contextual), canFitTokens, DraftsExceed, remainingTokens]
  cases limit : budget.maxNumTokens with
  | none => simp
  | some most =>
    rw [remainingTokens, limit] at sized snapped enough
    simp only [withinBudget, Bool.not_eq_true', decide_eq_false_iff_not, not_not] at enough
    simp only [decide_eq_true_eq, Option.some.injEq, exists_eq_left', not_and, not_lt]
    by_cases whole : (moved.base.getContextRemainingLength : Int) ≤ most - budget.numTokens
    · obtain rfl := sched.chunk_size_whole unit _ _ (limits ▸ limit) (by omega) whole sized
      obtain rfl := sched.align_whole unit _ moved snapped
      rw [if_pos le_rfl, Nat.min_self]
      omega
    · have proposed := sched.chunk_size_fits unit _ _ (by omega) sized
      have fits : (aligned : Int) ≤ most - budget.numTokens := by
        rcases sched.align_bounds unit _ moved size aligned snapped with less | ⟨paid, _⟩
        · omega
        · exact of_decide_eq_true paid
      rw [if_neg (by omega)]
      omega

theorem context_tokens {budget : BudgetTracker} {req : Request} {attempt : Attempt}
    (limits : budget.maxNumTokens = sched.maxNumTokens) (contextual : req.base.state = .contextInit)
    (done : sched.tryScheduleContext world budget req = some attempt) (action : attempt.action = .scheduled) :
    attempt.tokens = sched.contextTokens attempt.req ∧
      (budget.canFitTokens attempt.tokens = true ↔ sched.chunkUnitSize = none ∨ ¬DraftsExceed budget attempt.req) := by
  unfold tryScheduleContext at done
  unfold contextTokens
  cases unit_size : sched.chunkUnitSize with
  | none =>
    rw [unit_size] at done
    obtain ⟨tokens, fits⟩ := sched.full_tokens done action
    exact ⟨tokens, fun _ => .inl rfl, fun _ => fits⟩
  | some unit =>
    rw [unit_size] at done
    obtain ⟨tokens, fits⟩ := sched.chunked_tokens limits contextual done action
    exact ⟨tokens, fun paid => .inr (fits.mp paid), fun kept => fits.mpr (kept.resolve_left nofun)⟩

section Budgets
variable (budget : BudgetTracker) (req : Request) (tokens pages : Nat)

omit sched

theorem commit_fields : let next := budget.commit req tokens pages
    next.maxNumTokens = budget.maxNumTokens ∧ next.maxNumRequests = budget.maxNumRequests ∧
      next.numTokens = budget.numTokens + tokens ∧ next.numRequests = budget.numRequests + 1 := by
  unfold commit
  split
  · exact ⟨rfl, rfl, rfl, rfl⟩
  · exact ⟨rfl, rfl, rfl, rfl⟩

end Budgets

structure Counted (s : LoopState) : Prop where
  tokens_limit : s.budget.maxNumTokens = sched.maxNumTokens
  requests_limit : s.budget.maxNumRequests = sched.maxNumRequests
  counted : s.budget.numTokens = sched.batchTokens s.scheduledEncoder s.scheduledCtx s.scheduledGen
  listed : s.budget.numRequests = s.scheduledEncoder.length + s.scheduledCtx.length + s.scheduledGen.length
  room : s.budget.numRequests ≤ sched.maxNumRequests

def Fits (s : LoopState) : Prop := ∀ limit, sched.maxNumTokens = some limit → s.budget.numTokens ≤ limit

variable {s : LoopState}

theorem Counted.commit (counts : sched.Counted s) (next : LoopState)
    (req : Request) (tokens pages : Nat) (budget : next.budget = s.budget.commit req tokens pages)
    (counted : sched.batchTokens next.scheduledEncoder next.scheduledCtx next.scheduledGen =
      sched.batchTokens s.scheduledEncoder s.scheduledCtx s.scheduledGen + tokens)
    (listed : next.scheduledEncoder.length + next.scheduledCtx.length + next.scheduledGen.length =
      s.scheduledEncoder.length + s.scheduledCtx.length + s.scheduledGen.length + 1)
    (room : s.budget.requestsFull = false) : sched.Counted next := by
  obtain ⟨same_tokens, same_requests, more_tokens, one_more⟩ := commit_fields s.budget req tokens pages
  rw [← budget] at same_tokens same_requests more_tokens one_more
  have free : s.budget.numRequests < s.budget.maxNumRequests := by
    rw [requestsFull, decide_eq_false_iff_not] at room
    omega
  refine ⟨same_tokens.trans counts.tokens_limit, same_requests.trans counts.requests_limit, ?_, ?_, ?_⟩
  · rw [more_tokens, counted, counts.counted]
  · rw [one_more, listed, counts.listed]
  · have limit := counts.requests_limit
    omega

theorem Counted.fits_commit (counts : sched.Counted s) (req : Request) (tokens pages : Nat) {next : LoopState}
    (budget : next.budget = s.budget.commit req tokens pages) : sched.Fits next ↔ s.budget.canFitTokens tokens = true := by
  rw [Fits, budget, (commit_fields s.budget req tokens pages).2.2.1, canFitTokens, counts.tokens_limit]
  cases sched.maxNumTokens with
  | none => simp
  | some limit => simp

theorem Counted.same (counts : sched.Counted s) (next : LoopState)
    (limits : next.budget.maxNumTokens = s.budget.maxNumTokens ∧ next.budget.maxNumRequests = s.budget.maxNumRequests)
    (tallies : next.budget.numTokens = s.budget.numTokens ∧ next.budget.numRequests = s.budget.numRequests)
    (encoder : next.scheduledEncoder = s.scheduledEncoder) (ctx : next.scheduledCtx = s.scheduledCtx)
    (gen : next.scheduledGen = s.scheduledGen) : sched.Counted next where
  tokens_limit := limits.1.trans counts.tokens_limit
  requests_limit := limits.2.trans counts.requests_limit
  counted := by rw [tallies.1, counts.counted, encoder, ctx, gen]
  listed := by rw [tallies.2, counts.listed, encoder, ctx, gen]
  room := tallies.2 ▸ counts.room

structure Within (s : LoopState) : Prop extends sched.Counted s where
  fits : sched.Fits s

theorem Within.commit (within : sched.Within s) (next : LoopState)
    (req : Request) (tokens pages : Nat) (budget : next.budget = s.budget.commit req tokens pages)
    (counted : sched.batchTokens next.scheduledEncoder next.scheduledCtx next.scheduledGen =
      sched.batchTokens s.scheduledEncoder s.scheduledCtx s.scheduledGen + tokens)
    (listed : next.scheduledEncoder.length + next.scheduledCtx.length + next.scheduledGen.length =
      s.scheduledEncoder.length + s.scheduledCtx.length + s.scheduledGen.length + 1)
    (room : s.budget.requestsFull = false) (fits : s.budget.canFitTokens tokens = true) : sched.Within next :=
  ⟨within.toCounted.commit sched next req tokens pages budget counted listed room,
    (within.toCounted.fits_commit sched req tokens pages budget).mpr fits⟩

theorem Within.same (within : sched.Within s) (next : LoopState)
    (limits : next.budget.maxNumTokens = s.budget.maxNumTokens ∧ next.budget.maxNumRequests = s.budget.maxNumRequests)
    (tallies : next.budget.numTokens = s.budget.numTokens ∧ next.budget.numRequests = s.budget.numRequests)
    (encoder : next.scheduledEncoder = s.scheduledEncoder) (ctx : next.scheduledCtx = s.scheduledCtx)
    (gen : next.scheduledGen = s.scheduledGen) : sched.Within next :=
  ⟨within.toCounted.same sched next limits tallies encoder ctx gen, fun limit most => tallies.1 ▸ within.fits limit most⟩

theorem Within.generation (within : sched.Within s) (tried : LoopState) (req : Request)
    (tail left : List Request) (action : ScheduleAction)
    (outcome : sched.tryScheduleGeneration s req tail = (action, tried, left)) :
    sched.Within tried ∧ tried.pendingCtx = s.pendingCtx := by
  obtain ⟨_, budget, encoder, ctx, gen, pending, _, _⟩ := sched.generation_fields s tried req tail left action outcome
  refine ⟨within.same sched tried ?_ ?_ encoder ctx gen, pending⟩
  · rw [budget]
    exact ⟨rfl, rfl⟩
  · rw [budget]
    exact ⟨rfl, rfl⟩

structure FirstPhase (active rest : List Request) (s : LoopState) : Prop where
  within : sched.Within s
  coming : ∀ req ∈ rest, req ∈ active
  parked : ∀ req ∈ s.pendingCtx, req ∈ active ∧ deferred req = true

theorem FirstPhase.move (tail : List Request) (s next : LoopState) (left : List Request)
    (first : sched.FirstPhase active (req :: tail) s) (move : sched.Move req tail s next left) :
    sched.FirstPhase active left next := by
  obtain ⟨within, coming, parked⟩ := first
  have later := (forall_mem_cons.mp coming).2
  cases move with
  | passed => exact ⟨within, later, parked⟩
  | parked waits =>
    refine ⟨within.same sched _ ⟨rfl, rfl⟩ ⟨rfl, rfl⟩ rfl rfl rfl, later, fun other mem => ?_⟩
    rcases mem_append.mp mem with known | fresh
    · exact parked other known
    · rw [mem_singleton.mp fresh]
      exact ⟨coming req mem_cons_self, waits⟩
  | disaggTried attempt tried => exact ⟨within.same sched _ ⟨rfl, rfl⟩ ⟨rfl, rfl⟩ rfl rfl rfl, later, parked⟩
  | disagg attempt pages tried =>
    refine ⟨within.same sched _ ?_ ?_ rfl rfl rfl, later, parked⟩
    · split <;> exact ⟨rfl, rfl⟩
    · split <;> exact ⟨rfl, rfl⟩
  | skipped _ _ outcome =>
    obtain ⟨unchanged, pending⟩ := within.generation sched next req tail left .skip outcome
    rw [← pending] at parked
    exact ⟨unchanged, fun other mem => later other ((sched.generation_fields s next req tail left .skip outcome).1.subset mem),
      parked⟩
  | stopped _ rest _ _ _ outcome =>
    obtain ⟨unchanged, pending⟩ := within.generation sched next req tail rest .stop outcome
    rw [← pending] at parked
    exact ⟨unchanged, forall_mem_nil _, parked⟩
  | generation tried _ pages room outcome =>
    obtain ⟨part, budget, encoder, ctx, generation, pending, _, fits⟩ :=
      sched.generation_fields s tried req tail left .scheduled outcome
    refine ⟨within.commit sched _ req (generationTokens req) pages ?_ ?_ ?_ room (fits rfl), ?_, ?_⟩
    · rw [budget]
    · rw [encoder, ctx, generation, batchTokens, batchTokens, map_append, sum_append]
      simp only [map_cons, map_nil, sum_cons, sum_nil]
      omega
    · rw [encoder, ctx, generation, length_append, length_singleton]
      omega
    · exact fun other mem => later other (part.subset mem)
    · rw [pending]
      exact parked

-- The request is admitted with a last chunk, and its draft tokens do not fit any more.
def Overshoots (s : LoopState) (req : Request) : Prop :=
  ∃ next going admitted, sched.visit req s = some (next, going) ∧ next.scheduledCtx = s.scheduledCtx ++ [admitted] ∧
    sched.chunkUnitSize ≠ none ∧ DraftsExceed s.budget admitted

section Admitting
variable {req} {next : LoopState} (counts : sched.Counted s)

include counts

theorem Counted.fits_of_can_fit {tokens : Nat} (fits : s.budget.canFitTokens tokens = true) : sched.Fits s := by
  intro limit most
  rw [canFitTokens, counts.tokens_limit, most] at fits
  exact le_trans (Nat.le_add_right _ _) (of_decide_eq_true fits)

theorem Counted.encoder {tokens : Nat} (pages : Nat) {action : ScheduleAction} (room : s.budget.requestsFull = false)
    (outcome : sched.tryScheduleEncoder s.budget req = some (action, tokens)) (going : action ≠ .stop) :
    let next : LoopState := { s with
      scheduledEncoder := s.scheduledEncoder ++ [req]
      budget := s.budget.commit req tokens pages }
    sched.Counted next ∧ s.budget.canFitTokens tokens = true := by
  have facts : s.budget.canFitTokens tokens = true ∧ encoderTokens req = tokens := by
    unfold tryScheduleEncoder at outcome
    split at outcome
    · rename_i length
      split at outcome
      · cases outcome
        exact absurd rfl going
      rename_i fits
      split at outcome
      · cases outcome
      cases outcome
      refine ⟨by simpa using fits, ?_⟩
      rw [encoderTokens, length]
      rfl
    · cases outcome
  refine ⟨counts.commit sched _ req tokens pages rfl ?_ ?_ room, facts.1⟩
  · rw [batchTokens, batchTokens, map_append, sum_append]
    simp only [map_cons, map_nil, sum_cons, sum_nil, facts.2]
    omega
  · dsimp only
    rw [length_append, length_singleton]
    omega

theorem Counted.admission (waits : deferred req = true) (admission : sched.Admission req s next) :
    sched.Counted next ∧ (sched.Fits next ↔ sched.Fits s ∧
      ∀ admitted, next.scheduledCtx = s.scheduledCtx ++ [admitted] →
        sched.chunkUnitSize = none ∨ ¬DraftsExceed s.budget admitted) := by
  have nobody (admitted : Request) : s.scheduledCtx ≠ s.scheduledCtx ++ [admitted] := by simp
  cases admission with
  | passed => exact ⟨counts, fun fits => ⟨fits, fun _ same => absurd same (nobody _)⟩, And.left⟩
  | contextTried attempt tried =>
    exact ⟨counts.same sched _ ⟨rfl, rfl⟩ ⟨rfl, rfl⟩ rfl rfl rfl,
      fun fits => ⟨fits, fun _ same => absurd same (nobody _)⟩, And.left⟩
  | encoder tokens pages action room encoding outcome going =>
    obtain ⟨counted, fits⟩ := counts.encoder sched pages room outcome going
    refine ⟨counted, fun _ => ⟨counts.fits_of_can_fit sched fits, fun _ same => absurd same (nobody _)⟩, fun _ => ?_⟩
    exact (counts.fits_commit sched req tokens pages rfl).mpr fits
  | context attempt pages room decoding tried action =>
    have contextual : req.base.state = .contextInit := by
      simp only [deferred, Bool.or_eq_true, decide_eq_true_eq] at waits
      exact waits.resolve_left decoding
    obtain ⟨tokens, fits⟩ := sched.context_tokens s.world counts.tokens_limit contextual tried action
    refine ⟨counts.commit sched _ attempt.req attempt.tokens pages rfl ?_ ?_ room, ?_⟩
    · rw [batchTokens, batchTokens, map_append, sum_append]
      simp only [map_cons, map_nil, sum_cons, sum_nil, tokens]
      omega
    · dsimp only
      rw [length_append, length_singleton]
      omega
    · rw [counts.fits_commit sched attempt.req attempt.tokens pages rfl]
      constructor
      · intro paid
        refine ⟨counts.fits_of_can_fit sched paid, fun admitted same => ?_⟩
        obtain rfl : attempt.req = admitted := by simpa using same
        exact fits.mp paid
      · exact fun ⟨_, kept⟩ => fits.mpr (kept attempt.req rfl)

-- By induction on the requests to go: once the budget is exceeded it stays so.
theorem Counted.phase_two {pending : List Request} {final : LoopState} (parked : ∀ req ∈ pending, deferred req = true)
    (ran : sched.phaseTwo pending s = some final) :
    sched.Counted final ∧ (sched.Fits final ↔
      sched.Fits s ∧ ∀ req tail reached, sched.Visits pending s (req :: tail) reached → ¬sched.Overshoots reached req) := by
  induction pending generalizing s with
  | nil =>
    cases ran
    exact ⟨counts, fun fits => ⟨fits, fun _ _ _ visit => by cases visit⟩, And.left⟩
  | cons req rest ih =>
    have waits := forall_mem_cons.mp parked
    cases step : sched.visit req s with
    | none =>
      rw [phaseTwo, step] at ran
      cases ran
    | some done =>
      obtain ⟨next, going⟩ := done
      obtain ⟨counted, fits⟩ := counts.admission sched waits.1 (admission_of_visit step)
      have kept : ¬sched.Overshoots s req ↔ ∀ admitted, next.scheduledCtx = s.scheduledCtx ++ [admitted] →
          sched.chunkUnitSize = none ∨ ¬DraftsExceed s.budget admitted := by
        constructor
        · intro none_over admitted same
          by_contra both
          obtain ⟨chunked, exceeds⟩ := not_or.mp both
          exact none_over ⟨next, going, admitted, step, same, chunked, not_not.mp exceeds⟩
        · rintro paid ⟨_, _, admitted, other, same, chunked, exceeds⟩
          cases step.symm.trans other
          exact (paid admitted same).elim chunked fun fits => fits exceeds
      rw [← kept] at fits
      cases going with
      | false =>
        simp only [phaseTwo, step, Option.some.injEq] at ran
        subst ran
        refine ⟨counted, fits.trans (and_congr_right fun _ => ⟨fun here other tail reached visit => ?_, fun all => ?_⟩)⟩
        · cases visit with
          | here => exact here
          | later onward _ => cases step.symm.trans onward
        · exact all req rest s (.here _ s)
      | true =>
        simp only [phaseTwo, step] at ran
        obtain ⟨last, after⟩ := ih counted waits.2 ran
        refine ⟨last, after.trans ?_⟩
        rw [fits, and_assoc]
        refine and_congr_right fun _ => ⟨fun ⟨here, later⟩ other tail reached visit => ?_, fun all => ⟨?_, ?_⟩⟩
        · cases visit with
          | here => exact here
          | later onward rest_visit =>
            cases step.symm.trans onward
            exact later other tail reached rest_visit
        · exact all req rest s (.here _ s)
        · exact fun other tail reached visit => all other tail reached (.later step visit)

end Admitting

theorem pre_claim_fields : ∀ budget : BudgetTracker, (preClaim active budget).maxNumTokens = budget.maxNumTokens ∧
      (preClaim active budget).maxNumRequests = budget.maxNumRequests ∧
      (preClaim active budget).numTokens = budget.numTokens ∧ (preClaim active budget).numRequests = budget.numRequests := by
  induction active with
  | nil => exact fun budget => ⟨rfl, rfl, rfl, rfl⟩
  | cons req rest ih =>
    intro budget
    rw [preClaim, foldl_cons]
    have later := ih (if req.base.state = .generationToComplete then budget.preClaimPeft req else budget)
    rw [preClaim] at later
    obtain ⟨tokens_limit, requests_limit, tokens, reqs⟩ := later
    rw [tokens_limit, requests_limit, tokens, reqs]
    split
    · unfold preClaimPeft
      split
      · split
        · exact ⟨rfl, rfl, rfl, rfl⟩
        · exact ⟨rfl, rfl, rfl, rfl⟩
      · exact ⟨rfl, rfl, rfl, rfl⟩
    · exact ⟨rfl, rfl, rfl, rfl⟩

theorem start_within : sched.Within (sched.start active world) := by
  obtain ⟨tokens_limit, requests_limit, tokens, reqs⟩ := pre_claim_fields active
    ⟨sched.maxNumTokens, sched.maxNumRequests, sched.managers.peft, 0, 0, 0, []⟩
  refine ⟨⟨tokens_limit, requests_limit, tokens, reqs, ?_⟩, fun limit _ => ?_⟩
  · exact le_trans (le_of_eq reqs) (Nat.zero_le _)
  · exact le_trans (le_of_eq tokens) (Nat.zero_le _)

-- No request that the second loop comes to overshoots.
def DraftsPaid (inflight : List Nat) (active : List Request) (world : World) : Prop :=
  ∀ first req tail s, sched.phaseOne inflight active.length active (sched.start active world) = .returned first →
    sched.Visits first.pendingCtx first (req :: tail) s → ¬sched.Overshoots s req

theorem loop_counted (inflight : List Nat) (active : List Request) (world : World) (s : LoopState)
    (done : sched.scheduleLoop inflight active world = .returned s) :
    sched.Counted s ∧ (sched.Fits s ↔ sched.DraftsPaid inflight active world) := by
  unfold scheduleLoop at done
  split at done
  · cases done
  · cases done
  rename_i first ran
  have begun : sched.FirstPhase active active (sched.start active world) :=
    ⟨sched.start_within active world, fun _ mem => mem, fun _ mem => by cases mem⟩
  obtain ⟨_, after⟩ := moves_invariant (FirstPhase.move sched active)
    (sched.phase_one_moves inflight _ active _ first ran) begun
  split at done
  · cases done
  rename_i last ran_two
  split at done
  · cases done
  cases done
  obtain ⟨counted, fits⟩ := after.within.toCounted.phase_two sched (fun req mem => (after.parked req mem).2) ran_two
  refine ⟨counted, fits.trans ⟨fun paid other req tail reached same visit => ?_, fun paid => ⟨after.within.fits, ?_⟩⟩⟩
  · cases ran.symm.trans same
    exact paid.2 req tail reached visit
  · exact fun req tail reached => paid first req tail reached ran

section Sorting

omit sched

theorem lora_sorted_perm (reqs : List Request) : (loraSorted reqs).Perm reqs := perm_insertionSort _ reqs

theorem sort_context_perm (reqs : List Request) (hasChunks : Bool) : (sortContext reqs hasChunks).Perm reqs := by
  unfold sortContext
  split
  · have parts := (lora_sorted_perm (reqs.filter fun req => !req.base.isLastContextChunk)).append
      (lora_sorted_perm (reqs.filter fun req => req.base.isLastContextChunk))
    have whole := filter_append_perm (fun req : Request => req.base.isLastContextChunk) reqs
    exact parts.trans (perm_append_comm.trans whole)
  · exact lora_sorted_perm reqs

end Sorting

end KVCacheV2Scheduler

def generous : CacheManager := ⟨4, false, fun _ => true, fun _ => true, fun _ => true, fun _ => 0⟩

def untouched : World := ⟨⟨fun _ => none, 0⟩, ⟨fun _ => none, 0⟩⟩

def promptOf (id length drafts : Nat) : Request where
  base :=
    { requestId := id
      promptLen := length
      numDraftTokens := drafts
      prompt_le_tokens := le_rfl
      position_le_prompt := Nat.zero_le _
      chunk_le_remaining := Nat.zero_le length }
  skipCrossKvProjection := false
  mmBidirectionalBlocks := false
  multimodalEmbedMaskCumsum := none
  encoderOutputPending := false

def eightTokens (chunkUnitSize : Option Nat) : KVCacheV2Scheduler :=
  ⟨4, some 8, chunkUnitSize, .contextInit, .generationToComplete, ⟨generous, none, none⟩⟩

end TrtLlm.Py
