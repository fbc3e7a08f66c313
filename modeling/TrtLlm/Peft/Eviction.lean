import TrtLlm.Peft.CacheSound

set_option autoImplicit false

namespace TrtLlm.Peft
open List LoraCache
open Lib (Table Reachable reachable_invariant)

inductive CacheCall where
  | put (taskId : TaskId) (neededPages : Nat) (load : Bool)
  | loadWeights (taskId : TaskId)
  | get (taskId : TaskId)
  | bump (taskId : TaskId)
  | markTaskDone (taskId : TaskId)
  | markAllDone

inductive Thrown where
  | loraCacheFullException
  | runtimeError
deriving DecidableEq, Repr

namespace LoraCache
variable (c : LoraCache) (taskId : TaskId)

def finishLoad : LoraCache :=
  if (c.endLoad taskId).isDone taskId then (c.endLoad taskId).markTaskDone taskId else c.endLoad taskId

def loadWeights : LoraCache :=
  match (c.beginLoad taskId).2 with
  | .ok true => (c.beginLoad taskId).1.finishLoad taskId
  | _ => (c.beginLoad taskId).1

-- The oldest task comes first.
def markAllDone : LoraCache := c.inProgressTasks.reverse.foldl markTaskDone c

-- put throws a copy of what claimPagesWithEvict threw, as a std::runtime_error: the class LoraCacheFullException
-- is lost.
def putThrows (neededPages : Nat) : Option Thrown :=
  match (c.put taskId neededPages).2 with
  | .ok _ => none
  | .error _ => some .runtimeError

def call : CacheCall → LoraCache
  | .put taskId neededPages load =>
    if load ∧ c.has taskId = false ∧ c.putThrows taskId neededPages = none then (c.put taskId neededPages).1.finishLoad taskId
    else (c.put taskId neededPages).1
  | .loadWeights taskId => c.loadWeights taskId
  | .get taskId => if c.getStatus taskId = .loaded then c.bumpTaskInProgress taskId else c
  | .bump taskId => c.bumpTaskInProgress taskId
  | .markTaskDone taskId => c.markTaskDone taskId
  | .markAllDone => c.markAllDone

end LoraCache

-- evicted is the shortest run of the least recently done tasks that makes room.
def Stored (c next : LoraCache) (taskId : TaskId) (neededPages : Nat) (load : Bool) : Prop :=
  ∃ kept evicted pageIds, c.doneTasks = kept ++ evicted ∧ neededPages ≤ c.freePageIds.length + c.pageCount evicted ∧
    (∀ first rest, evicted = first :: rest → c.freePageIds.length + c.pageCount rest < neededPages) ∧
    next.doneTasks = kept ∧ next.inProgressTasks = taskId :: c.inProgressTasks ∧
    Table.find taskId next.cacheMap = some ⟨pageIds, true, load, false, false⟩ ∧ pageIds.length = neededPages ∧
    (pageIds ++ next.freePageIds).Perm (evicted.flatMap (pagesOf c.cacheMap) ++ c.freePageIds) ∧
    ∀ other, other ≠ taskId → Table.find other next.cacheMap = if other ∈ evicted then none else Table.find other c.cacheMap

def Unchanged (c next : LoraCache) : Prop :=
  next.doneTasks = c.doneTasks ∧ next.inProgressTasks = c.inProgressTasks ∧ next.freePageIds.Perm c.freePageIds ∧
    ∀ other, Table.find other next.cacheMap = Table.find other c.cacheMap

def PutsCleanly (c : LoraCache) (taskId : TaskId) (neededPages : Nat) (load : Bool) : Prop :=
  let next := c.call (.put taskId neededPages load)
  if neededPages ≤ c.freePageIds.length + c.pageCount c.doneTasks then
    c.putThrows taskId neededPages = none ∧ Stored c next taskId neededPages load ∧
      ∀ other ∈ c.inProgressTasks, Table.find other next.cacheMap = Table.find other c.cacheMap
  else c.putThrows taskId neededPages = some .loraCacheFullException ∧ Unchanged c next

variable {total : Nat} {c : LoraCache} {taskId : TaskId}

theorem finish_sound (sound : CacheSound total c) : CacheSound total (c.finishLoad taskId) :=
  have ended := (end_load_carries taskId sound).1
  iteInduction (motive := CacheSound total) (fun _ => mark_sound ended) fun _ => ended

theorem mark_all_sound (taskIds : List TaskId) (sound : CacheSound total c) : CacheSound total (taskIds.foldl markTaskDone c) := by
  induction taskIds generalizing c with
  | nil => exact sound
  | cons _ _ ih => exact ih (mark_sound sound)

theorem call_sound (c : LoraCache) (call : CacheCall) (next : LoraCache) (sound : CacheSound total c)
    (step : c.call call = next) : CacheSound total next := by
  subst step
  cases call with
  | put taskId needed load =>
    have stored := (put_carries taskId needed sound).1.1
    exact iteInduction (motive := CacheSound total) (fun _ => finish_sound stored) fun _ => stored
  | loadWeights taskId =>
    have begun := (begin_load_carries taskId sound).1
    unfold LoraCache.call loadWeights
    dsimp only
    split
    · exact finish_sound begun
    · exact begun
  | get taskId => exact iteInduction (motive := CacheSound total) (fun _ => bump_sound sound) fun _ => sound
  | bump taskId => exact bump_sound sound
  | markTaskDone taskId => exact mark_sound sound
  | markAllDone => exact mark_all_sound _ sound

theorem page_count_append (left right : List TaskId) : c.pageCount (left ++ right) = c.pageCount left + c.pageCount right := by
  simp [pageCount]

theorem page_count_reverse (taskIds : List TaskId) : c.pageCount taskIds.reverse = c.pageCount taskIds :=
  (taskIds.reverse_perm.flatMap_right _).length_eq

theorem enter_pages (missing : Table.find taskId c.cacheMap = none) : pagesOf (enter c taskId).cacheMap = pagesOf c.cacheMap := by
  funext other
  simp only [pagesOf, enter, Table.find_put]
  split
  · next same => rw [same, missing]; rfl
  · rfl

section
variable {base : LoraCache} {neededPages : Nat} {msg : String} {pageIds free : List Nat} (load : Bool)

-- The load after a put that succeeds changes the task's own entry only.
theorem call_put_ok (absent : c.has taskId = false)
    (res : c.put taskId neededPages = ({ base with
      freePageIds := free
      cacheMap := Table.put taskId ⟨pageIds, true, false, false, false⟩ base.cacheMap }, .ok ())) :
    ∃ cacheMap, c.call (.put taskId neededPages load) = { base with freePageIds := free, cacheMap } ∧
      ∀ other, Table.find other cacheMap =
        if other = taskId then some ⟨pageIds, true, load, false, false⟩ else Table.find other base.cacheMap := by
  have fine : c.putThrows taskId neededPages = none := by rw [putThrows, res]
  cases load with
  | false =>
    refine ⟨_, ?_, fun other => Table.find_put ..⟩
    simp [LoraCache.call, res]
  | true =>
    refine ⟨Table.put taskId ⟨pageIds, true, true, false, false⟩
      (Table.put taskId ⟨pageIds, true, false, false, false⟩ base.cacheMap), ?_, fun other => ?_⟩
    · simp [LoraCache.call, absent, fine, res, finishLoad, LoraCache.endLoad, isDone, Table.find_put]
    · rw [Table.find_put, Table.find_put]
      split <;> rfl

theorem call_put_error (res : c.put taskId neededPages = (base, .error msg)) : c.call (.put taskId neededPages load) = base := by
  have thrown : c.putThrows taskId neededPages = some .runtimeError := by rw [putThrows, res]
  simp [LoraCache.call, thrown, res]

end

-- What put has before it claims pages for a task that is not in the cache.
structure Evicted (c : LoraCache) (taskId : TaskId) (neededPages : Nat) (kept evicted : List TaskId) (base : LoraCache) :
    Prop where
  listed : c.doneTasks = kept ++ evicted
  done : base.doneTasks = kept
  running : base.inProgressTasks = taskId :: c.inProgressTasks
  free : base.freePageIds.Perm (evicted.flatMap (pagesOf c.cacheMap) ++ c.freePageIds)
  found : ∀ other, other ≠ taskId → Table.find other base.cacheMap =
    if other ∈ evicted then none else Table.find other c.cacheMap
  busy : ∀ other ∈ c.inProgressTasks, other ≠ taskId ∧ Table.find other base.cacheMap = Table.find other c.cacheMap
  room : neededPages ≤ base.freePageIds.length ∨ kept = []
  shortest : ∀ first rest, evicted = first :: rest → c.freePageIds.length + c.pageCount rest < neededPages

theorem put_evicted (neededPages : Nat) (sound : CacheSound total c) (missing : Table.find taskId c.cacheMap = none) :
    ∃ kept evicted base msg, Evicted c taskId neededPages kept evicted base ∧
      c.put taskId neededPages = if neededPages ≤ base.freePageIds.length
        then ({ base with
          freePageIds := base.freePageIds.drop neededPages
          cacheMap := Table.put taskId ⟨base.freePageIds.take neededPages, true, false, false, false⟩ base.cacheMap },
            .ok ())
        else ({ base with
          inProgressTasks := base.inProgressTasks.erase taskId
          cacheMap := Table.clear taskId base.cacheMap }, .error msg) := by
  have entered := enter_sound missing sound
  have pages := enter_pages missing
  obtain ⟨newer, oldest_first, room, shortest⟩ :=
    @evictees_spec (enter c taskId) c.doneTasks.reverse (neededPages - c.freePageIds.length)
  obtain ⟨msg, res⟩ := put_eq missing (@rfl _ (evict _ _))
  generalize evictees _ _ _ = oldest at oldest_first room shortest res
  have listed : c.doneTasks = newer.reverse ++ oldest.reverse := by rw [← reverse_append, ← oldest_first, reverse_reverse]
  have free := evict_free entered listed
  simp only [pageCount, pages] at free room shortest
  refine ⟨newer.reverse, oldest.reverse, (enter c taskId).evict oldest, msg, ⟨listed, evict_done listed, rfl, ?_,
    fun other apart => ?_, fun other busy => ?_, room.imp (fun room => ?_) fun none_kept => ?_, fun first rest ends => ?_⟩, res⟩
  · exact free.trans ((oldest.reverse_perm.symm.flatMap_right _).append_right _)
  · simp [evict, releasePages, Table.find_foldl_clear, enter, Table.find_put, apart]
  · have apart : other ≠ taskId := by
      rintro rfl
      exact count_eq_zero.mp (by rw [sound.running, missing]; rfl) busy
    have kept := evict_keeps entered listed (mem_cons_of_mem _ busy)
    rw [enter, Table.find_put, if_neg apart] at kept
    exact ⟨apart, kept⟩
  · rw [free.length_eq, length_append, show (enter c taskId).freePageIds = c.freePageIds from rfl]
    omega
  · rw [none_kept, reverse_nil]
  · have ends := shortest rest.reverse first (by rw [← reverse_cons, ← ends, reverse_reverse])
    rw [← page_count_reverse, pageCount]
    omega

section
variable {neededPages : Nat} {kept evicted : List TaskId} {base : LoraCache}
    (made : Evicted c taskId neededPages kept evicted base)

include made

theorem Evicted.size : base.freePageIds.length = c.freePageIds.length + c.pageCount evicted := by
  rw [made.free.length_eq, length_append, Nat.add_comm, pageCount]

theorem Evicted.enough :
    neededPages ≤ base.freePageIds.length ↔ neededPages ≤ c.freePageIds.length + c.pageCount c.doneTasks := by
  rw [made.size, made.listed, page_count_append]
  refine ⟨fun fits => by omega, fun fits => ?_⟩
  rcases made.room with room | none_kept
  · rwa [made.size] at room
  · rwa [none_kept, pageCount, flatMap_nil, length_nil, Nat.zero_add] at fits

theorem Evicted.stored (load : Bool) (fits : neededPages ≤ base.freePageIds.length) {cacheMap : Table TaskId TaskValue}
    (entries : ∀ other, Table.find other cacheMap = if other = taskId
      then some ⟨base.freePageIds.take neededPages, true, load, false, false⟩ else Table.find other base.cacheMap) :
    Stored c { base with freePageIds := base.freePageIds.drop neededPages, cacheMap } taskId neededPages load := by
  refine ⟨kept, evicted, _, made.listed, made.size ▸ fits, made.shortest, made.done, made.running,
    (entries taskId).trans (if_pos rfl), ?_, ?_, fun other apart => ?_⟩
  · rw [length_take, Nat.min_eq_left fits]
  · rw [take_append_drop]
    exact made.free
  · exact ((entries other).trans (if_neg apart)).trans (made.found other apart)

theorem Evicted.unchanged_iff (missing : Table.find taskId c.cacheMap = none)
    (short : ¬neededPages ≤ base.freePageIds.length) :
    Unchanged c { base with
      inProgressTasks := base.inProgressTasks.erase taskId
      cacheMap := Table.clear taskId base.cacheMap } ↔ c.doneTasks = [] := by
  have none_kept := made.room.resolve_left short
  refine ⟨fun unchanged => unchanged.1.symm.trans (made.done.trans none_kept), fun none_done => ?_⟩
  have none_evicted : evicted = [] := by simpa [none_kept, none_done] using made.listed
  have free := made.free
  have found := made.found
  rw [none_evicted] at free found
  refine ⟨made.done.trans (none_kept.trans none_done.symm), ?_, free, fun other => ?_⟩
  · dsimp only
    rw [made.running, erase_cons_head]
  · refine (Table.find_clear ..).trans ?_
    split
    · next same => rw [same, missing]
    · next apart => exact (found other apart).trans (if_neg not_mem_nil)

end

-- But for the exception's class, a put that fails is clean where no task is done.
theorem put_clean_iff (total : Nat) (c : LoraCache) (taskId : TaskId) (neededPages : Nat) (load : Bool)
    (reached : Reachable (fun c call next => LoraCache.call c call = next) (LoraCache.init total) c) (absent : c.has taskId = false) :
    (PutsCleanly c taskId neededPages load ↔ neededPages ≤ c.freePageIds.length + c.pageCount c.doneTasks) ∧
      (c.freePageIds.length + c.pageCount c.doneTasks < neededPages →
        (Unchanged c (c.call (.put taskId neededPages load)) ↔ c.doneTasks = [])) := by
  have sound := reachable_invariant (CacheSound total) call_sound _ c reached (init_sound total)
  have missing : Table.find taskId c.cacheMap = none :=
    Option.not_isSome_iff_eq_none.mp fun there => Bool.false_ne_true (absent.symm.trans (has_iff.mpr there))
  obtain ⟨kept, evicted, base, msg, made, res⟩ := put_evicted neededPages sound missing
  refine ⟨⟨fun clean => ?_, fun fits => ?_⟩, fun short => ?_⟩
  · by_contra short
    simp only [PutsCleanly, if_neg short, putThrows] at clean
    split at clean
    · cases clean.1
    · cases clean.1
  · rw [if_pos (made.enough.mpr fits)] at res
    obtain ⟨cacheMap, called, entries⟩ := call_put_ok load absent res
    simp only [PutsCleanly, if_pos fits, putThrows, res, called]
    refine ⟨trivial, made.stored load (made.enough.mpr fits) entries, fun other busy => ?_⟩
    obtain ⟨apart, same⟩ := made.busy other busy
    exact ((entries other).trans (if_neg apart)).trans same
  · have tight := mt made.enough.mp (Nat.not_le.mpr short)
    rw [if_neg tight] at res
    rw [call_put_error load res]
    exact made.unchanged_iff missing tight

theorem done_task_evicted : PutsCleanly (((LoraCache.init 2).call (.put 1 1 true)).call (.markTaskDone 1)) 2 2 true :=
  (put_clean_iff 2 _ 2 2 true (.step (.step .refl rfl) rfl) (by decide)).1.mpr (by decide)

-- The one done task cannot make room, and is evicted all the same.
theorem done_task_lost : ∃ c, Reachable (fun c call next => LoraCache.call c call = next) (LoraCache.init 1) c ∧
    c.has 2 = false ∧ c.has 1 = true ∧ c.freePageIds.length + c.pageCount c.doneTasks < 2 ∧ ¬PutsCleanly c 2 2 true ∧
    c.putThrows 2 2 = some .runtimeError ∧ (c.put 2 2).1.has 1 = false := by
  refine ⟨((LoraCache.init 1).call (.put 1 1 true)).call (.markTaskDone 1), .step (.step .refl rfl) rfl, by decide, by decide,
    by decide, fun clean => ?_, by decide, by decide⟩
  simp only [PutsCleanly] at clean
  rw [if_neg (by decide)] at clean
  exact absurd clean.1 (by decide)

theorem lora_cache_sound (total : Nat) (calls : List CacheCall) : CacheSound total (calls.foldl LoraCache.call (init total)) :=
  foldlRecOn calls LoraCache.call (init_sound total) fun c sound call _ => call_sound c call _ sound rfl

end TrtLlm.Peft
