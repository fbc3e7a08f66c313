import TrtLlm.Capacity.Scheduler

set_option autoImplicit false

namespace TrtLlm.Capacity.CapacityScheduler
open List
variable {Key Simulation : Type} (sched : CapacityScheduler)

-- The loop takes requests from the front and pauses them from the back of what is left to visit.
structure Utilized (active : List Request) (state : UtilizationState Key Simulation) (requests : List Request) : Prop where
  ordered : state.scheduledRequests ++ (requests ++ state.pausedRequests.reverse) <+ active
  limit : state.scheduledRequests.length ≤ sched.maxNumRequests
  started : ∀ req ∈ state.pausedRequests, sched.isStarted req

variable {sched} {managers : Managers Key Simulation} {active requests rest : List Request} {req : Request}
  {state accepted : UtilizationState Key Simulation} {cached : Option (PrefixReuseSummary Key)}

theorem Utilized.drop (sound : Utilized sched active state requests) (fewer : rest <+ requests) :
    Utilized sched active state rest :=
  { sound with ordered := ((fewer.append_right _).append_left _).trans sound.ordered }

theorem Utilized.accept (sound : Utilized sched active state (req :: rest))
    (scheduling : sched.tryScheduling managers state req cached = some accepted) : Utilized sched active accepted rest := by
  have ⟨room, scheduled, paused⟩ : state.scheduledRequests.length < sched.maxNumRequests ∧
      accepted.scheduledRequests = state.scheduledRequests ++ [req] ∧ accepted.pausedRequests = state.pausedRequests := by
    unfold tryScheduling at scheduling
    grind
  refine ⟨?_, by simpa [scheduled] using room, paused ▸ sound.started⟩
  simpa [scheduled, paused] using sound.ordered

theorem split_last_started_sublist (started : Request → Bool) (split : splitLastStarted started requests = some (rest, req)) :
    started req = true ∧ rest ++ [req] <+ requests := by
  induction requests generalizing rest with
  | nil => cases split
  | cons first others ih => grind [splitLastStarted]

theorem Utilized.pause (sound : Utilized sched active state requests)
    (split : splitLastStarted sched.isStarted requests = some (rest, req)) :
    Utilized sched active (pause managers state req) rest := by
  obtain ⟨started, kept⟩ := split_last_started_sublist _ split
  refine ⟨?_, sound.limit, forall_mem_append.mpr ⟨sound.started, forall_mem_singleton.mpr started⟩⟩
  simpa [CapacityScheduler.pause] using (sound.drop kept).ordered

variable [DecidableEq Key]

theorem Utilized.loop (sound : Utilized sched active state requests) :
    Utilized sched active (sched.utilizationLoop managers state requests) [] := by
  fun_induction utilizationLoop sched managers state requests with
  | case1 => exact sound
  | case2 _ _ _ _ ih => exact ih (sound.drop (sublist_cons_self _ _))
  | case3 _ _ _ _ _ _ _ _ ih => exact ih { sound.drop (sublist_cons_self _ _) with }
  | case4 state req rest _ summary skip considered _ accepted scheduling ih =>
    have kept : Utilized sched active considered (req :: rest) := { sound with }
    exact ih (kept.accept scheduling)
  | case5 _ _ _ _ _ _ _ _ _ _ _ split ih => exact ih (Utilized.pause { sound with } split)
  | case6 => exact { sound.drop (nil_sublist _) with }

theorem max_utilization_apart {scheduled paused : List Request}
    (ran : sched.maxUtilization managers active = .ok (scheduled, paused)) :
    scheduled ++ paused.reverse <+ active ∧ scheduled.length ≤ sched.maxNumRequests ∧ ∀ req ∈ paused, sched.isStarted req := by
  unfold maxUtilization at ran
  split at ran <;> cases ran
  next contributed _ _ =>
  have fresh : Utilized sched active ⟨[], [], managers.kvCacheManager.startScheduling,
      managers.crossKvCacheManager.map (·.startScheduling), fun _ => 0, fun _ => 0, 0, [], contributed.context⟩ active :=
    ⟨by simp, Nat.zero_le _, forall_mem_nil _⟩
  obtain ⟨ordered, limit, started⟩ := fresh.loop
  exact ⟨by simpa using ordered, limit, started⟩

def oneBlock : Managers Nat Unit where
  kvCacheManager :=
    { enableBlockReuse := false
      windowSizes := [64]
      numFreeBlocks := fun _ => 1
      analyzePrefixReuse := fun _ _ => {}
      remainingBlocks := fun _ _ _ => 1
      neededBlocks := fun _ _ _ _ => 1
      startScheduling := ()
      schedulingHasFreeBlocks := fun _ count _ => count ≤ 1
      schedulingRemoveSequence := fun simulation _ => simulation }
  cross_kind := by simp

def generating (requestId : Nat) : Request := { requestId, promptLen := 0, state := .generationInProgress }

theorem second_request_paused : CapacityScheduler.maxUtilization { maxNumRequests := 8 } oneBlock
    [generating 0, generating 1] = .ok ([generating 0], [generating 1]) ∧
      CapacityScheduler.isStarted { maxNumRequests := 8 } (generating 1) :=
  (and_iff_left_of_imp fun ran => (max_utilization_apart ran).2.2 _ mem_cons_self).mpr (by decide +kernel)

end TrtLlm.Capacity.CapacityScheduler
