import TrtLlm.Py.SchedulerV2Eviction

set_option autoImplicit false

namespace TrtLlm.Py
open List

def LoopState.listed (s : LoopState) : List Request :=
  s.scheduledEncoder ++ s.scheduledCtx ++ s.scheduledGen ++ s.evicted ++ s.disaggCandidates

namespace KVCacheV2Scheduler

def tally (reqs : List Request) (id : Nat) : Nat := (reqs.map Request.id).count id

theorem tally_append (front back : List Request) (id : Nat) : tally (front ++ back) id = tally front id + tally back id :=
  count_append front back id

theorem tally_cons (req : Request) (rest : List Request) (id : Nat) :
    tally (req :: rest) id = tally [req] id + tally rest id := tally_append [req] rest id

theorem tally_pos (reqs : List Request) (req : Request) (mem : req ∈ reqs) : 0 < tally reqs req.id :=
  count_pos_iff.mpr (mem_map_of_mem mem)

theorem tally_same {req other : Request} (same : other.id = req.id) (id : Nat) : tally [other] id = tally [req] id := by
  unfold tally
  rw [map_singleton, map_singleton, same]

theorem tally_listed (s : LoopState) (id : Nat) : tally s.listed id =
    tally s.scheduledEncoder id + tally s.scheduledCtx id + tally s.scheduledGen id + tally s.evicted id +
      tally s.disaggCandidates id := by
  unfold LoopState.listed
  rw [tally_append, tally_append, tally_append, tally_append]

variable (sched : KVCacheV2Scheduler)

-- What the loop hands to _try_schedule_generation.
def Dispatched (req : Request) : Prop :=
  sched.schedulable req = true ∧ req.base.state ≠ .disaggGenerationInit ∧ deferred req = false

-- Every request is in one list or waits; a scheduled one has an active cache, an evicted one was started or evicted
-- itself and has a suspended one.
structure Apart (waiting : List Request) (s : LoopState) : Prop where
  once : ∀ id, tally s.listed id + tally waiting id ≤ 1
  running : ∀ req ∈ s.scheduledCtx ++ s.scheduledGen, s.world.caches.isActive req.id = some true
  paused : ∀ req ∈ s.evicted, (req.isStarted = true ∨ sched.Dispatched req) ∧ s.world.caches.isActive req.id = some false

variable {sched} {waiting : List Request} {s next : LoopState}

theorem Apart.step (apart : Apart sched waiting s) (next : LoopState)
    (left : List Request) (req : Request) (more : List Request) (evicted : next.evicted = s.evicted ++ more)
    (once : ∀ id, tally next.listed id + tally left id ≤ tally s.listed id + tally waiting id)
    (others : ∀ other, other ≠ req.id → other ∉ more.map Request.id →
      next.world.caches.isActive other = s.world.caches.isActive other)
    (own : 0 < tally waiting req.id) (fresh : ∀ victim ∈ more, 0 < tally waiting victim.id)
    (paused : ∀ victim ∈ more, (victim.isStarted = true ∨ sched.Dispatched victim) ∧
      next.world.caches.isActive victim.id = some false)
    (running : ∀ other ∈ next.scheduledCtx ++ next.scheduledGen,
      other ∈ s.scheduledCtx ++ s.scheduledGen ∨ next.world.caches.isActive other.id = some true) : Apart sched left next := by
  have untouched : ∀ other : Request, 0 < tally s.listed other.id →
      next.world.caches.isActive other.id = s.world.caches.isActive other.id := by
    intro other listed
    have single := apart.once other.id
    refine others other.id (fun same => ?_) (fun mem => ?_)
    · rw [same] at listed single
      omega
    obtain ⟨victim, chosen, same⟩ := mem_map.mp mem
    have waits := fresh victim chosen
    rw [same] at waits
    omega
  refine ⟨fun id => le_trans (once id) (apart.once id), fun other mem => ?_, fun other mem => ?_⟩
  · rcases running other mem with known | active
    · rw [untouched other, apart.running other known]
      have some_list := tally_pos _ other known
      rw [tally_append] at some_list
      rw [tally_listed]
      omega
    · exact active
  · rw [evicted] at mem
    rcases mem_append.mp mem with known | recent
    · refine ⟨(apart.paused other known).1, ?_⟩
      rw [untouched other, (apart.paused other known).2]
      have some_list := tally_pos _ other known
      rw [tally_listed]
      omega
    · exact paused other recent

section
variable {req : Request} {tail : List Request} (apart : Apart sched (s.pendingCtx ++ req :: tail) s)

include apart

theorem Apart.tail_distinct : (tail.map Request.id).Nodup ∧ req.id ∉ tail.map Request.id := by
  have single : ∀ id, tally [req] id + tally tail id ≤ 1 := by
    intro id
    have all := apart.once id
    rw [tally_append, tally_cons] at all
    omega
  refine ⟨nodup_iff_count_le_one.mpr fun id => le_trans (Nat.le_add_left _ _) (single id), fun mem => ?_⟩
  have again : 0 < tally tail req.id := count_pos_iff.mpr mem
  have own := tally_pos [req] req mem_cons_self
  have both := single req.id
  omega

omit apart in
theorem waits : 0 < tally (s.pendingCtx ++ req :: tail) req.id := tally_pos _ req (by simp)

theorem Apart.drop : Apart sched (s.pendingCtx ++ tail) s := by
  refine ⟨fun id => ?_, apart.running, apart.paused⟩
  have single := apart.once id
  rw [tally_append, tally_cons] at single
  rw [tally_append]
  omega

theorem Apart.park : Apart sched (s.pendingCtx ++ [req] ++ tail) { s with pendingCtx := s.pendingCtx ++ [req] } := by
  refine ⟨fun id => ?_, apart.running, apart.paused⟩
  have single := apart.once id
  rw [tally_append, tally_cons] at single
  change tally s.listed id + _ ≤ 1
  rw [tally_append, tally_append]
  omega

theorem Apart.disagg {attempt : Attempt} (tried : sched.tryScheduleDisaggGenInit s.world req = some attempt)
    (chosen : List Request) (budget : BudgetTracker) (few : chosen = [] ∨ chosen = [attempt.req]) :
    Apart sched (s.pendingCtx ++ tail)
      { s with world := attempt.world, disaggCandidates := s.disaggCandidates ++ chosen, budget } := by
  obtain ⟨same, others⟩ := sched.disagg_effect s.world req attempt tried
  refine apart.step _ _ req [] (append_nil _).symm (fun id => ?_) (fun other aside _ => others other aside) waits
    (forall_mem_nil _) (forall_mem_nil _) (fun other mem => .inl mem)
  have own : tally chosen id ≤ tally [req] id := by
    rcases few with rfl | rfl
    · exact Nat.zero_le _
    · exact (tally_same same id).le
  rw [tally_listed, tally_listed]
  dsimp only
  rw [tally_append, tally_append, tally_append, tally_cons req tail]
  omega

theorem Apart.stopped {rest : List Request} (dispatched : sched.Dispatched req)
    (out : sched.tryScheduleGeneration s req tail = (.stop, next, rest)) : Apart sched (next.pendingCtx ++ []) next := by
  obtain ⟨nodup, outside⟩ := apart.tail_distinct
  obtain ⟨more, attempts⟩ := sched.generation_stopped s next req tail rest nodup outside out
  obtain ⟨_, _, encoder, ctx, generation, pending, disagg, _⟩ := sched.generation_fields s next req tail rest .stop out
  have few : ∀ id, tally more id ≤ tally (req :: tail) id := fun id => by
    have bound := attempts.count id
    exact le_trans (Nat.le_add_right _ _) bound
  refine apart.step next _ req more attempts.listed (fun id => ?_) attempts.others waits (fun victim mem => ?_)
    (fun victim mem => ?_) (fun other mem => ?_)
  · have bound := few id
    rw [tally_listed, tally_listed, encoder, ctx, generation, disagg, pending, attempts.listed, tally_append,
      append_nil, tally_append]
    omega
  · have bound := few victim.id
    have present := tally_pos more victim mem
    rw [tally_append]
    omega
  · refine (attempts.paused victim mem).imp_left (Or.imp_right fun own => ?_)
    rw [own]
    exact dispatched
  · rw [ctx, generation] at mem
    exact .inl mem

theorem Apart.generation {tried : LoopState} {left : List Request} (budget : BudgetTracker)
    (out : sched.tryScheduleGeneration s req tail = (.scheduled, tried, left)) :
    Apart sched (tried.pendingCtx ++ left) { tried with scheduledGen := tried.scheduledGen ++ [req], budget } := by
  obtain ⟨nodup, outside⟩ := apart.tail_distinct
  obtain ⟨⟨more, attempts⟩, active_now⟩ := sched.generation_scheduled s tried req tail left nodup outside out
  obtain ⟨split, _, encoder, ctx, generation, pending, disagg, _⟩ :=
    sched.generation_fields s tried req tail left .scheduled out
  have few : ∀ id, tally more id + tally left id ≤ tally tail id := attempts.count
  refine apart.step _ _ req more attempts.listed (fun id => ?_) attempts.others waits (fun victim mem => ?_)
    (fun victim mem => ?_) (fun other mem => ?_)
  · have bound := few id
    rw [tally_listed, tally_listed]
    rw [encoder, ctx, generation, disagg, pending, attempts.listed, tally_append, tally_append, tally_append,
      tally_append, tally_cons req tail]
    omega
  · have bound := few victim.id
    have present := tally_pos more victim mem
    rw [tally_append, tally_cons]
    omega
  · refine (attempts.paused victim mem).imp_left (Or.imp_right fun own => absurd (count_pos_iff.mp ?_) outside)
    have bound := few victim.id
    have present := tally_pos more victim mem
    rw [own] at bound present
    unfold tally at bound present
    omega
  · rw [ctx, generation, ← append_assoc] at mem
    rcases mem_append.mp mem with known | own
    · exact .inl known
    · rw [mem_singleton.mp own]
      exact .inr active_now

end

variable (sched)

theorem generation_skipped {tried : LoopState} {req : Request} {tail left : List Request}
    (out : sched.tryScheduleGeneration s req tail = (.skip, tried, left)) : tried = s ∧ left = tail := by
  unfold tryScheduleGeneration at out
  dsimp only at out
  split at out
  · cases out
  split at out
  · cases out
    exact ⟨rfl, rfl⟩
  split at out
  · cases out
  · split at out
    · cases out
    · cases out

theorem Apart.move (req : Request) (tail : List Request) (s next : LoopState) (left : List Request)
    (apart : Apart sched (s.pendingCtx ++ req :: tail) s) (move : sched.Move req tail s next left) :
    Apart sched (next.pendingCtx ++ left) next := by
  cases move with
  | passed => exact apart.drop
  | parked _ => exact apart.park
  | disaggTried attempt tried => simpa using apart.disagg tried [] s.budget (.inl rfl)
  | disagg attempt pages tried => exact apart.disagg tried _ _ (.inr rfl)
  | skipped _ _ out =>
    obtain ⟨rfl, rfl⟩ := sched.generation_skipped out
    exact apart.drop
  | stopped _ rest ordinary in_range now out => exact apart.stopped ⟨in_range, ordinary, now⟩ out
  | generation tried _ pages _ out => exact apart.generation _ out

theorem Apart.admission (req : Request) (rest : List Request) (s next : LoopState) (apart : Apart sched (req :: rest) s)
    (admission : sched.Admission req s next) : Apart sched rest next := by
  have waits : 0 < tally (req :: rest) req.id := tally_pos _ req mem_cons_self
  have nothing : ∀ victim ∈ ([] : List Request), 0 < tally (req :: rest) victim.id := forall_mem_nil _
  cases admission with
  | passed =>
    refine ⟨fun id => ?_, apart.running, apart.paused⟩
    have single := apart.once id
    rw [tally_cons] at single
    omega
  | encoder tokens pages action _ _ _ _ =>
    refine ⟨fun id => ?_, apart.running, apart.paused⟩
    have single := apart.once id
    rw [tally_listed, tally_cons] at single
    rw [tally_listed]
    dsimp only
    rw [tally_append]
    omega
  | contextTried attempt tried =>
    have effect := sched.context_effect s.world s.budget req attempt tried
    refine apart.step _ _ req [] (append_nil _).symm (fun id => ?_) (fun other aside _ => effect.2.1 other aside) waits
      nothing (forall_mem_nil _) (fun other mem => .inl mem)
    change tally s.listed id + _ ≤ _
    rw [tally_cons req rest]
    omega
  | context attempt pages _ _ tried action =>
    have effect := sched.context_effect s.world s.budget req attempt tried
    refine apart.step _ _ req [] (append_nil _).symm (fun id => ?_) (fun other aside _ => effect.2.1 other aside) waits
      nothing (forall_mem_nil _) (fun other mem => ?_)
    · rw [tally_listed, tally_listed]
      dsimp only
      rw [tally_append, tally_same effect.1, tally_cons req rest]
      omega
    rcases mem_append.mp mem with ctxs | generations
    · rcases mem_append.mp ctxs with known | own
      · exact .inl (mem_append_left _ known)
      · rw [mem_singleton.mp own, effect.1]
        exact .inr (effect.2.2 action)
    · exact .inl (mem_append_right _ generations)

theorem Dispatched.started {req : Request} (dispatched : sched.Dispatched req)
    (until_ : sched.noScheduleUntilState = .contextInit) (after : sched.noScheduleAfterState = .generationToComplete)
    (other : req.base.state ≠ .disaggContextInitAndTrans) : req.isStarted = true := by
  obtain ⟨in_range, _, now⟩ := dispatched
  unfold schedulable at in_range
  unfold Request.isStarted Batch.LlmRequest.isGenerationInProgressState
  unfold deferred at now
  rw [until_, after] at in_range
  cases st : req.base.state <;> simp_all [Batch.LlmRequestState.value]

end KVCacheV2Scheduler

def inState (req : Request) (state : Batch.LlmRequestState) : Request :=
  { req with base := { req.base with state := state } }

def tight (resizes : Nat → Bool) : KVCacheV2Scheduler :=
  ⟨4, some 8, none, .contextInit, .generationToComplete,
    ⟨⟨4, false, fun _ => true, fun _ => true, resizes, fun _ => 0⟩, none, none⟩⟩

def allActive : World := ⟨⟨fun _ => some true, 0⟩, ⟨fun _ => none, 0⟩⟩

def crowd : List Request :=
  [inState (promptOf 1 4 0) .generationInProgress, promptOf 2 4 0, inState (promptOf 3 4 0) .generationInProgress]

end TrtLlm.Py
