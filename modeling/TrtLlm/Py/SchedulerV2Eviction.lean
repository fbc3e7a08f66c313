import TrtLlm.Py.SchedulerV2Budget

set_option autoImplicit false

namespace TrtLlm.Py
open List

def Elsewhere (id : Nat) (before after : Caches) : Prop := ∀ other, other ≠ id → after.isActive other = before.isActive other

variable (id : Nat) (caches : Caches)

theorem Elsewhere.refl : Elsewhere id caches caches := fun _ _ => rfl

theorem Elsewhere.trans {id : Nat} {first second third : Caches} (left : Elsewhere id first second)
    (right : Elsewhere id second third) : Elsewhere id first third :=
  fun other apart => (right other apart).trans (left other apart)

theorem elsewhere_tick : Elsewhere id caches caches.tick := fun _ _ => rfl

theorem elsewhere_set (active : Bool) : Elsewhere id caches (caches.set id active) :=
  fun _ apart => Function.update_of_ne apart ..

theorem set_here (active : Bool) : (caches.set id active).isActive id = some active :=
  Function.update_self ..

variable {id caches}

theorem elsewhere_suspend : Elsewhere id caches (caches.suspendRequest id) := by
  unfold Caches.suspendRequest
  split
  · exact elsewhere_set id caches false
  · exact Elsewhere.refl id caches

theorem suspend_here (active : caches.isRequestActive id = true) : (caches.suspendRequest id).isActive id = some false := by
  rw [Caches.suspendRequest, if_pos active]
  exact set_here id caches false

namespace CacheManager
variable (mgr : CacheManager)
variable (id caches)

theorem resume_effect (caches : Caches) (id : Nat) : let res := mgr.resumeAndRestore caches id
    Elsewhere id caches res.2 ∧ (res.1 = true → res.2.isActive id = some true) := by
  unfold resumeAndRestore
  split
  · rename_i active
    exact ⟨Elsewhere.refl id caches, fun _ => eq_of_beq active⟩
  · split
    · exact ⟨(elsewhere_tick id caches).trans (elsewhere_set id _ true), fun _ => set_here id _ true⟩
    · exact ⟨elsewhere_tick id caches, nofun⟩

theorem prepare_effect (caches next : Caches) (req moved : Request) (prepared : Bool)
    (done : mgr.prepareContext caches req = some (prepared, moved, next)) :
    Elsewhere req.id caches next ∧ (prepared = true → next.isActive req.id = some true) := by
  unfold prepareContext at done
  dsimp only at done
  split at done
  · split at done
    · cases done
      exact ⟨elsewhere_tick req.id caches, nofun⟩
    split at done
    · cases done
    cases done
    have created : Elsewhere req.id caches
        (if (caches.isActive req.id).isSome = true then caches else caches.tick.set req.id false) := by
      split
      · exact Elsewhere.refl req.id caches
      · exact (elsewhere_tick req.id caches).trans (elsewhere_set req.id _ false)
    have resumed := mgr.resume_effect
      (if (caches.isActive req.id).isSome = true then caches else caches.tick.set req.id false) req.id
    exact ⟨created.trans resumed.1, resumed.2⟩
  · split at done
    · cases done
    · cases done
      exact mgr.resume_effect caches req.id

theorem resize_effect (caches : Caches) (req : Request) : let res := mgr.resizeContext caches req
    Elsewhere req.id caches res.2 ∧ (res.1 = true → res.2.isActive req.id = caches.isActive req.id) := by
  unfold resizeContext
  split
  · exact ⟨Elsewhere.refl req.id caches, nofun⟩
  split
  · exact ⟨elsewhere_tick req.id caches, fun _ => rfl⟩
  refine ⟨?_, nofun⟩
  split
  · exact (elsewhere_tick req.id caches).trans (elsewhere_set req.id _ false)
  · exact elsewhere_tick req.id caches

theorem allocate_effect (caches : Caches) (req : Request) : let res := mgr.tryAllocateGeneration caches req
    Elsewhere req.id caches res.2 ∧ (res.1 = true → res.2.isActive req.id = some true) := by
  unfold tryAllocateGeneration
  split
  · exact ⟨Elsewhere.refl req.id caches, nofun⟩
  have resumed := mgr.resume_effect caches req.id
  dsimp only
  split
  · rename_i ok
    exact ⟨resumed.1.trans (elsewhere_tick req.id _), fun _ => resumed.2 ok⟩
  · exact ⟨resumed.1, nofun⟩

end CacheManager

namespace KVCacheV2Scheduler
variable (sched : KVCacheV2Scheduler)

theorem reserve_effect (world : World) (req : Request) (tokens : Nat) (chunking : Bool) (attempt : Attempt)
    (done : sched.reserveContext world req tokens chunking = some attempt) : Elsewhere req.id world.caches attempt.world.caches ∧
      (attempt.action = .scheduled → attempt.world.caches.isActive req.id = world.caches.isActive req.id) := by
  have resized := sched.managers.self.resize_effect world.caches req
  unfold reserveContext at done
  dsimp only at done
  split at done
  · cases done
    exact ⟨resized.1, nofun⟩
  rename_i ok
  split at done
  · cases done
  · cases done
    exact ⟨resized.1, fun _ => resized.2 (by simpa using ok)⟩
  · rename_i refused _
    cases done
    exact ⟨resized.1.trans (elsewhere_suspend), fun same => absurd same refused⟩

theorem context_effect (world : World) (budget : BudgetTracker) (req : Request) (attempt : Attempt)
    (done : sched.tryScheduleContext world budget req = some attempt) :
    attempt.req.id = req.id ∧ Elsewhere req.id world.caches attempt.world.caches ∧
      (attempt.action = .scheduled → attempt.world.caches.isActive req.id = some true) := by
  unfold tryScheduleContext at done
  split at done
  · unfold tryScheduleContextChunked at done
    split at done
    · cases done
      exact ⟨rfl, Elsewhere.refl _ _, nofun⟩
    split at done
    · cases done
    rename_i prepared moved caches ready
    have kept := (prepare_keeps _ ready).2
    obtain ⟨aside, active⟩ := sched.managers.self.prepare_effect _ _ req moved prepared ready
    dsimp only at done
    split at done
    · cases done
      exact ⟨kept, aside, nofun⟩
    rename_i ok
    split at done
    · cases done
    · cases done
      exact ⟨kept, aside, nofun⟩
    split at done
    · cases done
    · cases done
      exact ⟨kept, aside, nofun⟩
    rename_i aligned _ _
    have same := (sched.reserve_scheduled _ _ _ _ attempt done).1
    obtain ⟨reserved, stays⟩ := sched.reserve_effect _ _ _ _ attempt done
    have own : ({ moved with base := moved.base.setContextChunkSize aligned } : Request).id = req.id := kept
    rw [own] at reserved stays
    refine ⟨by rw [same, own], aside.trans reserved, fun action => ?_⟩
    rw [stays action]
    exact active (by simpa using ok)
  · unfold tryScheduleContextFull at done
    split at done
    · cases done
    rename_i prepared moved caches ready
    have kept := (prepare_keeps _ ready).2
    obtain ⟨aside, active⟩ := sched.managers.self.prepare_effect _ _ req moved prepared ready
    dsimp only at done
    split at done
    · cases done
      exact ⟨kept, aside, nofun⟩
    rename_i ok
    split at done
    · cases done
      exact ⟨kept, aside, nofun⟩
    split at done
    · cases done
    have same := (sched.reserve_scheduled _ _ _ _ attempt done).1
    obtain ⟨reserved, stays⟩ := sched.reserve_effect _ _ _ _ attempt done
    rw [kept] at reserved stays
    refine ⟨by rw [same, kept], aside.trans reserved, fun action => ?_⟩
    rw [stays action]
    exact active (by simpa using ok)

theorem disagg_effect (world : World) (req : Request) (attempt : Attempt)
    (done : sched.tryScheduleDisaggGenInit world req = some attempt) :
    attempt.req.id = req.id ∧ Elsewhere req.id world.caches attempt.world.caches := by
  unfold tryScheduleDisaggGenInit at done
  split at done
  · cases done
  rename_i prepared moved caches ready
  have kept := (prepare_keeps _ ready).2
  have aside := (sched.managers.self.prepare_effect _ _ req moved prepared ready).1
  split at done
  · cases done
    exact ⟨kept, aside⟩
  cases done
  have resized := (sched.managers.self.resize_effect caches moved).1
  rw [kept] at resized
  exact ⟨kept, aside.trans resized⟩

structure Evicts (req : Request) (behind more : List Request) (before after : Caches) : Prop where
  paused : ∀ victim ∈ more, victim.isStarted = true ∧ after.isActive victim.id = some false
  others : ∀ other, other ≠ req.id → other ∉ more.map Request.id → after.isActive other = before.isActive other
  among : more.Sublist behind

theorem evict_effect (req : Request) (behind : List Request) : ∀ (caches : Caches) (victims : List Request),
    (behind.map Request.id).Nodup → req.id ∉ behind.map Request.id →
    let res := sched.tryEvictForGen req behind caches victims
    ∃ more, res.victims = victims ++ more ∧ Evicts req behind more caches res.caches ∧
      ∀ before, res.before = some before → res.caches.isActive req.id = some true ∧
        ∃ dropped, behind = dropped ++ before ∧ more.Sublist dropped := by
  induction behind with
  | nil =>
    intro caches victims _ _
    refine ⟨[], (append_nil _).symm, ⟨?_, fun _ _ _ => rfl, Sublist.refl _⟩, ?_⟩
    · exact forall_mem_nil _
    · intro before found
      cases found
  | cons victim rest ih =>
    intro caches victims distinct apart
    rw [map_cons, nodup_cons] at distinct
    rw [map_cons, mem_cons, not_or] at apart
    unfold tryEvictForGen
    split
    · rename_i evictable
      simp only [isEvictable, Bool.and_eq_true] at evictable
      have allocated := sched.managers.self.allocate_effect (caches.suspendRequest victim.id) req
      have gone : (sched.managers.self.tryAllocateGeneration (caches.suspendRequest victim.id) req).2.isActive victim.id =
          some false := by
        rw [allocated.1 victim.id (Ne.symm apart.1)]
        exact suspend_here evictable.2
      have kept : ∀ other, other ≠ req.id → other ≠ victim.id →
          (sched.managers.self.tryAllocateGeneration (caches.suspendRequest victim.id) req).2.isActive other =
            caches.isActive other := by
        intro other aside ne
        rw [allocated.1 other aside]
        exact elsewhere_suspend other ne
      dsimp only
      split
      · rename_i ok
        refine ⟨[victim], rfl, ⟨?_, ?_, singleton_sublist.mpr mem_cons_self⟩, ?_⟩
        · intro other mem
          rw [mem_singleton.mp mem]
          exact ⟨evictable.1, gone⟩
        · intro other aside outside
          exact kept other aside fun same => outside (mem_singleton.mpr same)
        · intro before found
          cases found
          exact ⟨allocated.2 ok, [victim], rfl, Sublist.refl _⟩
      · obtain ⟨more, listed, effect, success⟩ := ih
          (sched.managers.self.tryAllocateGeneration (caches.suspendRequest victim.id) req).2 (victims ++ [victim])
          distinct.2 apart.2
        have outside : victim.id ∉ more.map Request.id := fun mem => distinct.1 ((effect.among.map _).subset mem)
        refine ⟨victim :: more, by rw [listed, append_assoc]; rfl, ⟨?_, ?_, effect.among.cons_cons victim⟩, ?_⟩
        · intro other mem
          rcases mem_cons.mp mem with rfl | later
          · exact ⟨evictable.1, (effect.others other.id (Ne.symm apart.1) outside).trans gone⟩
          · exact effect.paused other later
        · intro other aside absent
          rw [map_cons, mem_cons, not_or] at absent
          rw [effect.others other aside absent.2]
          exact kept other aside absent.1
        · intro before found
          obtain ⟨active, dropped, split, part⟩ := success before found
          exact ⟨active, victim :: dropped, by rw [split, cons_append], part.cons_cons victim⟩
    · obtain ⟨more, listed, effect, success⟩ := ih caches victims distinct.2 apart.2
      refine ⟨more, listed, ⟨effect.paused, effect.others, effect.among.cons victim⟩, ?_⟩
      intro before found
      obtain ⟨active, dropped, split, part⟩ := success before found
      exact ⟨active, victim :: dropped, by rw [split, cons_append], part.cons victim⟩

structure Attempts (req : Request) (tail left : List Request) (s tried : LoopState) (more : List Request) : Prop where
  listed : tried.evicted = s.evicted ++ more
  paused : ∀ victim ∈ more, (victim.isStarted = true ∨ victim = req) ∧ tried.world.caches.isActive victim.id = some false
  others : ∀ other, other ≠ req.id → other ∉ more.map Request.id →
    tried.world.caches.isActive other = s.world.caches.isActive other
  count : ∀ id, (more.map Request.id).count id + (left.map Request.id).count id ≤ (tail.map Request.id).count id

theorem count_append (front back : List Request) (id : Nat) :
    ((front ++ back).map Request.id).count id = (front.map Request.id).count id + (back.map Request.id).count id := by
  rw [map_append, List.count_append]

theorem count_reverse (reqs : List Request) (id : Nat) :
    (reqs.reverse.map Request.id).count id = (reqs.map Request.id).count id := by
  rw [map_reverse]
  exact List.count_reverse

section
variable (s tried : LoopState) (req : Request) (tail left : List Request) (distinct : (tail.map Request.id).Nodup)
    (apart : req.id ∉ tail.map Request.id)

include distinct apart

theorem generation_scheduled (out : sched.tryScheduleGeneration s req tail = (.scheduled, tried, left)) :
    (∃ more, Attempts req tail left s tried more) ∧ tried.world.caches.isActive req.id = some true := by
  unfold tryScheduleGeneration at out
  dsimp only at out
  split at out
  · cases out
  split at out
  · cases out
  have allocated := sched.managers.self.allocate_effect s.world.caches req
  split at out
  · rename_i ok
    cases out
    refine ⟨⟨[], (append_nil _).symm, ?_, fun other aside _ => allocated.1 other aside, fun id => ?_⟩, allocated.2 ok⟩
    · exact forall_mem_nil _
    · simp
  obtain ⟨more, listed, effect, success⟩ := sched.evict_effect req tail.reverse
    (sched.managers.self.tryAllocateGeneration s.world.caches req).2 []
    (by rw [map_reverse]; exact nodup_reverse.mpr distinct) (by simpa using apart)
  split at out
  · rename_i before found
    cases out
    obtain ⟨active, dropped, split, part⟩ := success before found
    refine ⟨⟨more, ?_, fun victim mem => (effect.paused victim mem).imp_left .inl, ?_, fun id => ?_⟩, active⟩
    · change s.evicted ++ _ = _
      rw [listed, nil_append]
    · intro other aside outside
      exact (effect.others other aside outside).trans (allocated.1 other aside)
    · have whole := count_append dropped before id
      rw [← split, count_reverse] at whole
      have few := (part.map Request.id).count_le id
      rw [count_reverse]
      omega
  · cases out

theorem generation_stopped (out : sched.tryScheduleGeneration s req tail = (.stop, tried, left)) :
    ∃ more, Attempts req (req :: tail) [] s tried more := by
  unfold tryScheduleGeneration at out
  dsimp only at out
  split at out
  · cases out
    refine ⟨[], (append_nil _).symm, ?_, fun _ _ _ => rfl, fun id => by simp⟩
    exact forall_mem_nil _
  split at out
  · cases out
  have allocated := sched.managers.self.allocate_effect s.world.caches req
  split at out
  · cases out
  obtain ⟨more, listed, effect, _⟩ := sched.evict_effect req tail.reverse
    (sched.managers.self.tryAllocateGeneration s.world.caches req).2 []
    (by rw [map_reverse]; exact nodup_reverse.mpr distinct) (by simpa using apart)
  split at out
  · cases out
  cases out
  have few : ∀ id, (more.map Request.id).count id ≤ (tail.map Request.id).count id := by
    intro id
    rw [← count_reverse tail]
    exact (effect.among.map Request.id).count_le id
  have absent : req.id ∉ more.map Request.id := fun mem =>
    apart (by simpa using (effect.among.map Request.id).subset mem)
  unfold selfEvict
  split
  · rename_i active
    refine ⟨more ++ [req], ?_, ?_, ?_, fun id => ?_⟩
    · change s.evicted ++ _ ++ [req] = _
      rw [listed, nil_append, append_assoc]
    · intro victim mem
      rcases mem_append.mp mem with known | own
      · have aside : victim.id ≠ req.id := fun same => absent (same ▸ mem_map_of_mem known)
        refine ⟨.inl (effect.paused victim known).1, ?_⟩
        rw [elsewhere_suspend victim.id aside]
        exact (effect.paused victim known).2
      · rw [mem_singleton.mp own]
        exact ⟨.inr rfl, suspend_here active⟩
    · intro other aside outside
      rw [map_append, mem_append, not_or] at outside
      rw [elsewhere_suspend other aside]
      exact (effect.others other aside outside.1).trans (allocated.1 other aside)
    · have bound := few id
      rw [count_append, map_cons, count_cons]
      simp only [map_cons, map_nil, count_cons, count_nil]
      omega
  · refine ⟨more, ?_, fun victim mem => (effect.paused victim mem).imp_left .inl, ?_, fun id => ?_⟩
    · change s.evicted ++ _ = _
      rw [listed, nil_append]
    · intro other aside outside
      exact (effect.others other aside outside).trans (allocated.1 other aside)
    · have bound := few id
      rw [map_cons, count_cons]
      simp only [map_nil, count_nil]
      omega

end
end KVCacheV2Scheduler
end TrtLlm.Py
