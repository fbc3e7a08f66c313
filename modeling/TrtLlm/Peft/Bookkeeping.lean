import TrtLlm.Peft.CacheSound

set_option autoImplicit false

namespace TrtLlm.Peft
open List
open Lib (Table Trace AllSteps)

inductive Standing where
  | active
  | paused
deriving DecidableEq, Repr

-- The standing of each request with each task is ghost state.
structure Books where
  manager : Manager
  standing : TaskId × ReqId → Option Standing

def initBooks (totalNumPages : Nat) : Books := ⟨initManager totalNumPages, fun _ => none⟩

def note (llmRequest : LlmRequest) (now : Option Standing) (standing : TaskId × ReqId → Option Standing)
    (pair : TaskId × ReqId) : Option Standing :=
  if llmRequest.loraTaskId = some pair.1 ∧ llmRequest.requestId = pair.2 then now else standing pair

def settle (llmRequest : LlmRequest) (standing : TaskId × ReqId → Option Standing) : Manager × Except String Unit → Books
  | (m, .ok _) => ⟨m, note llmRequest (some .active) standing⟩
  | (m, .error _) => ⟨m, standing⟩

inductive Action where
  | addRequestPeft (llmRequest : LlmRequest)
  | markRequestDone (llmReq : LlmRequest) (pause : Bool)
  | ensureBatch (requests : List LlmRequest)
  | resetDeviceCache
  | beginLoad (taskId : TaskId)
  | loadFails (taskId : TaskId)
  | endLoad (taskId : TaskId)
  | readDone (taskId : TaskId)
  | endMark (taskId : TaskId)
deriving DecidableEq, Repr

-- Between the calls the workers take the locked sections of their loads. The device cache holds copies only.
inductive Step : Books → Action → Books → Prop
  | addRequestPeft {b : Books} (llmRequest : LlmRequest) :
      Step b (.addRequestPeft llmRequest) (settle llmRequest b.standing (addRequestPeft llmRequest b.manager))
  | markRequestDone {b : Books} (llmReq : LlmRequest) (pause : Bool) : Step b (.markRequestDone llmReq pause)
        ⟨markRequestDone llmReq pause b.manager, note llmReq (if pause then some .paused else none) b.standing⟩
  | ensureBatch {b : Books} (requests : List LlmRequest) :
      Step b (.ensureBatch requests) { b with manager := ensureBatch requests b.manager }
  | resetDeviceCache {b : Books} : Step b .resetDeviceCache b
  | beginLoad {b : Books} (taskId : TaskId) : ⟨taskId, .queued⟩ ∈ b.manager.jobs →
      Step b (.beginLoad taskId) { b with manager := beginLoad taskId b.manager }
  | loadFails {b : Books} (taskId : TaskId) : ⟨taskId, .copying⟩ ∈ b.manager.jobs →
      Step b (.loadFails taskId) { b with manager := dropJob ⟨taskId, .copying⟩ b.manager }
  | endLoad {b : Books} (taskId : TaskId) : ⟨taskId, .copying⟩ ∈ b.manager.jobs →
      Step b (.endLoad taskId) { b with manager := endLoad taskId b.manager }
  | readDone {b : Books} (taskId : TaskId) : ⟨taskId, .reading⟩ ∈ b.manager.jobs →
      Step b (.readDone taskId) { b with manager := readDone taskId b.manager }
  | endMark {b : Books} (taskId : TaskId) : ⟨taskId, .marking⟩ ∈ b.manager.jobs →
      Step b (.endMark taskId) { b with manager := endMark taskId b.manager }

-- Only an active or paused request is paused, and none is added for a task whose done mark a worker has read, or
-- can only find set, and has not acted on.
def Guard (b : Books) : Action → Prop
  | .addRequestPeft llmRequest => ∀ taskId, llmRequest.loraTaskId = some taskId → ⟨taskId, .marking⟩ ∉ b.manager.jobs
  | .markRequestDone llmReq true =>
    ∀ taskId, llmReq.loraTaskId = some taskId → (b.standing (taskId, llmReq.requestId)).isSome = true
  | _ => True

def Tallied (b : Books) : Prop :=
  ∀ pair, (pair ∈ b.manager.taskIdToReqIds ↔ b.standing pair = some .active) ∧
    (pair ∈ b.manager.taskIdToPausedReqIds ↔ b.standing pair = some .paused)

def Stands (standing : TaskId × ReqId → Option Standing) (taskId : TaskId) : Prop := ∃ reqId, standing (taskId, reqId) ≠ none

structure Kempt (total : Nat) (b : Books) : Prop where
  tallied : Tallied b
  cache : CacheSound total b.manager.host
  busy : ∀ taskId, Stands b.standing taskId → Busy b.manager.host taskId
  futures : ∀ taskId ∈ b.manager.putFutures, Stands b.standing taskId
  -- A worker that has read the done mark may still act on it.
  marking : ∀ taskId, ⟨taskId, .marking⟩ ∈ b.manager.jobs → ¬Stands b.standing taskId

variable {total : Nat} {m : Manager} {standing : TaskId × ReqId → Option Standing} {llmRequest : LlmRequest}
variable {taskId : TaskId} {reqId : ReqId} {loraWeights : Option Nat}

theorem note_task (now : Option Standing) (given : llmRequest.loraTaskId = some taskId) (pair : TaskId × ReqId) :
    note llmRequest now standing pair = if pair = (taskId, llmRequest.requestId) then now else standing pair := by
  unfold note
  rw [given]
  by_cases same : pair = (taskId, llmRequest.requestId)
  · rw [if_pos same, if_pos (by simp [same])]
  · rw [if_neg same, if_neg fun equal => same (Prod.ext (Option.some.inj equal.1).symm equal.2.symm)]

theorem note_free (now : Option Standing) (free : llmRequest.loraTaskId = none) : note llmRequest now standing = standing := by
  funext pair
  rw [note, free]
  exact if_neg fun same => nomatch same.1

section
variable (now : Option Standing) (given : llmRequest.loraTaskId = some taskId) (other : TaskId)

include given

theorem stands_before
    (stands : Stands (note llmRequest now standing) other) : Stands standing other ∨ other = taskId ∧ now ≠ none := by
  obtain ⟨reqId, some⟩ := stands
  rw [note_task now given] at some
  split at some
  · rename_i same
    exact .inr ⟨congrArg Prod.fst same, some⟩
  · exact .inl ⟨reqId, some⟩

theorem stands_after (stands : Stands standing other ∧ (other ≠ taskId ∨ now ≠ none) ∨ other = taskId ∧ now ≠ none) :
    Stands (note llmRequest now standing) other := by
  rcases stands with ⟨⟨reqId, some⟩, aside⟩ | ⟨rfl, some⟩
  · refine ⟨reqId, ?_⟩
    rw [note_task now given]
    split
    · rename_i same
      exact aside.resolve_left fun apart => apart (congrArg Prod.fst same)
    · exact some
  · exact ⟨llmRequest.requestId, by rw [note_task now given, if_pos rfl]; exact some⟩

end

theorem counts_iff (pairs : List (TaskId × ReqId)) : counts pairs taskId = true ↔ ∃ reqId, (taskId, reqId) ∈ pairs := by
  simp [counts]

theorem release_kempt (tallied : Tallied ⟨m, standing⟩) (cache : CacheSound total m.host)
    (busy : ∀ other, Stands standing other → Busy m.host other)
    (futures : ∀ other ∈ m.putFutures, other ≠ taskId → Stands standing other)
    (marking : ∀ other, ⟨other, .marking⟩ ∈ m.jobs → ¬Stands standing other) : Kempt total ⟨releaseTask taskId m, standing⟩ := by
  have needed : counts m.taskIdToReqIds taskId ∨ counts m.taskIdToPausedReqIds taskId ↔ Stands standing taskId := by
    rw [counts_iff, counts_iff, ← exists_or]
    refine exists_congr fun reqId => ?_
    obtain ⟨active, paused⟩ := tallied (taskId, reqId)
    dsimp only at active paused
    rw [active, paused]
    rcases standing (taskId, reqId) with _ | ⟨_ | _⟩ <;> simp
  unfold releaseTask
  split
  · rename_i some
    refine ⟨tallied, cache, busy, fun other waiting => ?_, marking⟩
    by_cases same : other = taskId
    · exact same ▸ needed.mp some
    · exact futures other waiting same
  rename_i none
  refine ⟨tallied, mark_sound cache, fun other stands => ?_, fun other waiting => ?_, marking⟩
  · have apart : other ≠ taskId := by
      rintro rfl
      exact none (needed.mpr stands)
    exact mark_keeps other apart (busy other stands)
  · obtain ⟨waiting, apart⟩ := mem_filter.mp waiting
    exact futures other waiting (of_decide_eq_true apart)

variable (kempt : Kempt total ⟨m, standing⟩)

include kempt

theorem terminate_kempt {pause : Bool} (given : llmRequest.loraTaskId = some taskId)
    (known : pause = true → Stands standing taskId) : Kempt total ⟨terminateRequest taskId llmRequest.requestId pause m,
      note llmRequest (if pause then some .paused else none) standing⟩ := by
  have before : ∀ other, Stands (note llmRequest (if pause then some .paused else none) standing) other →
      Stands standing other := by
    intro other stands
    rcases stands_before _ given other stands with stands | ⟨rfl, some⟩
    · exact stands
    · cases pause with
      | true => exact known rfl
      | false => exact absurd rfl some
  refine release_kempt (fun pair => ?_) kempt.cache (fun other stands => kempt.busy other (before other stands))
    (fun other waiting apart => stands_after _ given other (.inl ⟨kempt.futures other waiting, .inl apart⟩))
    (fun other job stands => kempt.marking other job (before other stands))
  obtain ⟨active, paused⟩ := kempt.tallied pair
  dsimp only at active paused ⊢
  rw [note_task _ given]
  cases pause <;> by_cases same : pair = (taskId, llmRequest.requestId) <;> simp [same, active, paused]

theorem register_kempt {host : LoraCache} {putFutures : List TaskId} {jobs : List Job}
    (given : llmRequest.loraTaskId = some taskId) (carries : Carries total m.host host) (mine : Busy host taskId)
    (futures : ∀ other ∈ putFutures, other = taskId ∨ other ∈ m.putFutures)
    (marking : ∀ other, ⟨other, .marking⟩ ∈ jobs → ¬Stands standing other ∧ other ≠ taskId) :
    Kempt total ⟨{ registerRequest taskId llmRequest.requestId m with host, putFutures, jobs },
      note llmRequest (some .active) standing⟩ := by
  refine ⟨fun pair => ?_, carries.1, fun other stands => ?_, fun other waiting => ?_, fun other job stands => ?_⟩
  · obtain ⟨active, paused⟩ := kempt.tallied pair
    dsimp only [registerRequest] at active paused ⊢
    rw [note_task _ given, mem_insert_iff, mem_filter, active, paused]
    by_cases same : pair = (taskId, llmRequest.requestId) <;> simp [same]
  · rcases stands_before _ given other stands with before | ⟨rfl, _⟩
    · exact carries.2 other (kempt.busy other before)
    · exact mine
  · refine stands_after _ given other ?_
    rcases futures other waiting with same | waiting
    · exact .inr ⟨same, nofun⟩
    · exact .inl ⟨kempt.futures other waiting, .inr nofun⟩
  · obtain ⟨idle, apart⟩ := marking other job
    exact idle ((stands_before _ given other stands).resolve_right fun mine => apart mine.1)

theorem withdraw_kempt {host : LoraCache} {jobs : List Job} (carries : Carries total m.host host) (idle : ¬Stands standing taskId)
    (marking : ∀ other, ⟨other, .marking⟩ ∈ jobs → ¬Stands standing other) :
    Kempt total ⟨terminateRequest taskId reqId false { registerRequest taskId reqId m with host, jobs }, standing⟩ := by
  refine release_kempt (fun pair => ?_) carries.1 (fun other stands => carries.2 other (kempt.busy other stands))
    (fun other waiting _ => kempt.futures other waiting) marking
  obtain ⟨active, paused⟩ := kempt.tallied pair
  dsimp only [registerRequest] at active paused ⊢
  rw [← active, ← paused]
  by_cases same : pair = (taskId, reqId)
  · have none : standing pair = none := Classical.not_not.mp fun some => idle ⟨reqId, same ▸ some⟩
    rw [none] at active paused
    simp [same, same ▸ active, same ▸ paused]
  · simp [same]

omit kempt

theorem rehost_kempt (host : LoraCache) (putFutures : List TaskId) (jobs : List Job) (kempt : Kempt total ⟨m, standing⟩)
    (cache : CacheSound total host) (busy : ∀ other, Stands standing other → Busy host other)
    (futures : ∀ other ∈ putFutures, other ∈ m.putFutures)
    (marking : ∀ other, ⟨other, .marking⟩ ∈ jobs → ⟨other, .marking⟩ ∈ m.jobs ∨ ¬Stands standing other) :
    Kempt total ⟨{ m with host, putFutures, jobs }, standing⟩ :=
  ⟨kempt.tallied, cache, busy, fun other waiting => kempt.futures other (futures other waiting),
    fun other job => (marking other job).elim (kempt.marking other) id⟩

theorem copies_carry (taskIds : List TaskId) (c : LoraCache) (sound : CacheSound total c) :
    Carries total c (taskIds.foldl (fun host taskId => (host.copyTask taskId).1) c) := by
  induction taskIds generalizing c with
  | nil => exact ⟨sound, fun _ => id⟩
  | cons taskId rest ih =>
    have first := copy_carries taskId sound
    have later := ih _ first.1
    exact ⟨later.1, fun other busy => later.2 other (first.2 other busy)⟩

section
variable (kempt : Kempt total ⟨m, standing⟩)

include kempt

theorem begin_load_kempt : Kempt total ⟨beginLoad taskId m, standing⟩ := by
  have carries := begin_load_carries taskId kempt.cache
  have busy := fun other stands => carries.2 other (kempt.busy other stands)
  unfold beginLoad
  generalize m.host.beginLoad taskId = result at carries busy
  obtain ⟨host, out⟩ := result
  have quiet : ∀ other, (⟨other, .marking⟩ : Job) ∉ [⟨taskId, .copying⟩] := by simp
  have left := rehost_kempt host m.putFutures (m.jobs.erase ⟨taskId, .queued⟩) kempt carries.1 busy (fun _ => id)
    fun _ mem => .inl (mem_of_mem_erase mem)
  match out with
  | .ok true =>
    exact rehost_kempt host m.putFutures (m.jobs.erase ⟨taskId, .queued⟩ ++ [⟨taskId, .copying⟩]) kempt carries.1 busy
      (fun _ => id) fun other mem => .inl (mem_of_mem_erase ((mem_append.mp mem).resolve_right (quiet other)))
  | .ok false => exact left
  | .error _ => exact left

theorem end_load_kempt : Kempt total ⟨endLoad taskId m, standing⟩ := by
  have carries := end_load_carries taskId kempt.cache
  refine rehost_kempt _ m.putFutures _ kempt carries.1 (fun other stands => carries.2 other (kempt.busy other stands)) (fun _ => id)
    fun other mem => .inl ?_
  exact mem_of_mem_erase ((mem_append.mp mem).resolve_right (by simp))

theorem read_done_kempt : Kempt total ⟨readDone taskId m, standing⟩ := by
  have left := rehost_kempt m.host m.putFutures (m.jobs.erase ⟨taskId, .reading⟩) kempt kempt.cache kempt.busy (fun _ => id)
    fun _ mem => .inl (mem_of_mem_erase mem)
  unfold readDone
  split_ifs with done
  · refine rehost_kempt _ _ _ left left.cache left.busy (fun _ => id) fun other mem => ?_
    rcases mem_append.mp mem with before | here
    · exact .inl before
    · cases mem_singleton.mp here
      refine .inr fun stands => ?_
      obtain ⟨val, found, _, unmarked⟩ := kempt.busy taskId stands
      simp [LoraCache.isDone, found, unmarked] at done
  · exact left

-- A job becomes a marking one by the eviction of its task, which no request needs.
theorem evicted_idle {host : LoraCache} {other : TaskId} (carries : Carries total m.host host)
    (mem : ⟨other, .marking⟩ ∈ m.jobs.map (evictedJob host)) :
    ¬Stands standing other ∧ (⟨other, .marking⟩ ∈ m.jobs ∨ host.has other = false) := by
  obtain ⟨job, listed, same⟩ := mem_map.mp mem
  unfold evictedJob at same
  split_ifs at same with gone
  · cases same
    refine ⟨fun stands => ?_, .inr gone.2⟩
    obtain ⟨val, found, _⟩ := carries.2 job.taskId (kempt.busy job.taskId stands)
    exact Bool.false_ne_true (gone.2.symm.trans (has_iff.mpr (found ▸ rfl)))
  · subst same
    exact ⟨kempt.marking other listed, .inl listed⟩

theorem end_mark_kempt (job : ⟨taskId, .marking⟩ ∈ m.jobs) : Kempt total ⟨endMark taskId m, standing⟩ := by
  refine rehost_kempt (m := m) _ m.putFutures (m.jobs.erase ⟨taskId, .marking⟩) kempt (mark_sound kempt.cache)
    (fun other stands => ?_)
    (fun _ => id) fun _ mem => .inl (mem_of_mem_erase mem)
  have apart : other ≠ taskId := by
    rintro rfl
    exact kempt.marking other job stands
  exact mark_keeps other apart (kempt.busy other stands)

theorem add_kempt (given : llmRequest.loraTaskId = some taskId) (clear : ⟨taskId, .marking⟩ ∉ m.jobs) :
    Kempt total (settle llmRequest standing (addTaskRequest taskId llmRequest.requestId loraWeights m)) := by
  have marking : ∀ other, (⟨other, .marking⟩ : Job) ∈ m.jobs → ¬Stands standing other ∧ other ≠ taskId :=
    fun other mem => ⟨kempt.marking other mem, fun same => clear (same ▸ mem)⟩
  have pushed : ∀ other ∈ m.putFutures.insert taskId, other = taskId ∨ other ∈ m.putFutures := fun other => mem_insert_iff.mp
  unfold addTaskRequest
  by_cases unknown : loraWeights = none ∧ m.host.has taskId = false
  · rw [if_pos unknown]
    exact kempt
  rw [if_neg unknown]
  by_cases waiting : taskId ∈ (updateTaskState taskId llmRequest.requestId false false m).putFutures
  · rw [if_pos waiting]
    exact register_kempt kempt given ⟨kempt.cache, fun _ => id⟩
      (kempt.busy taskId (kempt.futures taskId waiting)) (fun _ => .inr) marking
  rw [if_neg waiting]
  cases loraWeights with
  | none =>
    have present : m.host.has taskId = true := eq_true_of_ne_false fun absent => unknown ⟨rfl, absent⟩
    exact register_kempt kempt given (bump_carries kempt.cache) (bump_busy (.inl ⟨rfl, present⟩)) pushed
      marking
  | some needed =>
    obtain ⟨carries, out⟩ := put_carries taskId needed kempt.cache
    dsimp only [storeTask]
    rw [show (updateTaskState taskId llmRequest.requestId false false m).host = m.host from rfl]
    generalize m.host.put taskId needed = res at carries out
    match res with
    | (host, .ok _) =>
      refine register_kempt kempt given carries out pushed fun other mem => ?_
      obtain ⟨idle, before | gone⟩ := evicted_idle kempt carries ((mem_append.mp mem).resolve_right (by simp))
      · exact marking other before
      · refine ⟨idle, ?_⟩
        rintro rfl
        obtain ⟨val, found, _⟩ := out
        exact Bool.false_ne_true (gone.symm.trans (has_iff.mpr (found ▸ rfl)))
    | (host, .error msg) =>
      exact withdraw_kempt kempt carries (fun stands => out (kempt.busy taskId stands))
        fun other mem => (evicted_idle kempt carries mem).1

end

theorem step_kempt (b next : Books) (action : Action) (kempt : Kempt total b) (guarded : Guard b action)
    (step : Step b action next) : Kempt total next := by
  cases step with
  | addRequestPeft llmRequest =>
    unfold addRequestPeft
    split
    · rename_i free _
      rw [settle, note_free _ free]
      exact kempt
    · exact kempt
    · exact kempt
    · rename_i given _
      exact add_kempt kempt given (guarded _ given)
  | markRequestDone llmReq pause =>
    unfold markRequestDone
    cases given : llmReq.loraTaskId with
    | none =>
      rw [note_free _ given]
      exact kempt
    | some taskId =>
      refine terminate_kempt kempt given fun paused => ?_
      subst paused
      exact ⟨_, Option.isSome_iff_ne_none.mp (guarded taskId given)⟩
  | ensureBatch reqs =>
    have carries := copies_carry (reqs.filterMap LlmRequest.loraTaskId).dedup _ kempt.cache
    exact rehost_kempt _ _ _ kempt carries.1 (fun other stands => carries.2 other (kempt.busy other stands))
      (fun _ waiting => (mem_filter.mp waiting).1) fun _ => .inl
  | resetDeviceCache => exact kempt
  | beginLoad taskId _ => exact begin_load_kempt kempt
  | loadFails taskId _ =>
    exact rehost_kempt _ _ _ kempt kempt.cache kempt.busy (fun _ => id) fun _ mem => .inl (mem_of_mem_erase mem)
  | endLoad taskId _ => exact end_load_kempt kempt
  | readDone taskId _ => exact read_done_kempt kempt
  | endMark taskId job => exact end_mark_kempt kempt job

theorem kempt_init (total : Nat) : Kempt total (initBooks total) := by
  refine ⟨fun _ => ⟨?_, ?_⟩, init_sound total, ?_, nofun, nofun⟩
  · exact iff_of_false not_mem_nil nofun
  · exact iff_of_false not_mem_nil nofun
  · rintro taskId ⟨_, some⟩
    exact absurd rfl some

def Needed (m : Manager) (taskId : TaskId) : Prop := Active m taskId ∨ Paused m taskId

-- A task with a request is in progress and outlives any put; a page is free or has exactly one owner.
structure Truthful (total : Nat) (b : Books) : Prop where
  sets : Tallied b
  held : ∀ taskId, Needed b.manager taskId →
    (∃ value, Table.find taskId b.manager.host.cacheMap = some value ∧ value.inProgress = true) ∧
      taskId ∈ b.manager.host.inProgressTasks ∧ taskId ∉ b.manager.host.doneTasks
  outlives : ∀ taskId, Needed b.manager taskId → ∀ other neededPages, (b.manager.host.put other neededPages).1.has taskId = true
  pages : ∀ page, b.manager.host.freePageIds.count page + owners page b.manager.host.cacheMap = if page < total then 1 else 0

theorem books_truthful_of_guarded (total : Nat) (run : List (Action × Books)) (trace : Trace Step (initBooks total) run)
    (guarded : AllSteps Guard (initBooks total) run) : ∀ entry ∈ run, Truthful total entry.2 := by
  intro entry mem
  have kempt := Lib.trace_invariant Guard (Kempt total)
    (fun b action next inv met step => step_kempt b next action inv met step) _ run trace guarded (kempt_init total) entry mem
  have stands : ∀ taskId, Needed entry.2.manager taskId → Stands entry.2.standing taskId := by
    rintro taskId (⟨reqId, mem⟩ | ⟨reqId, mem⟩)
    · exact ⟨reqId, by rw [(kempt.tallied _).1.mp mem]; nofun⟩
    · exact ⟨reqId, by rw [(kempt.tallied _).2.mp mem]; nofun⟩
  refine ⟨kempt.tallied, fun taskId needed => ?_, fun taskId needed other neededPages => ?_, kempt.cache.pages⟩
  · obtain ⟨val, found, running, _⟩ := kempt.busy taskId (stands taskId needed)
    obtain ⟨runs, ends⟩ := kempt.cache.run_iff found
    exact ⟨⟨val, found, running⟩, runs.mpr running, fun done => Bool.false_ne_true ((ends.mp done).symm.trans running)⟩
  · obtain ⟨val, found, _⟩ := (put_carries other neededPages kempt.cache).1.2 taskId (kempt.busy taskId (stands taskId needed))
    exact has_iff.mpr (found ▸ rfl)

theorem paused_task_outlives_put : ∃ run, Trace Step (initBooks 2) run ∧ run.length = 7 ∧ ∀ entry ∈ run, Truthful 2 entry.2 := by
  have trace : Trace Step (initBooks 2) _ :=
    .cons (.addRequestPeft ⟨1, some 7, some 1, none⟩) (.cons (.beginLoad 7 (by decide)) (.cons (.endLoad 7 (by decide))
      (.cons (.readDone 7 (by decide)) (.cons (.markRequestDone ⟨1, some 7, some 1, none⟩ true)
        (.cons (.addRequestPeft ⟨2, some 8, some 2, none⟩) (.cons (.ensureBatch [⟨1, some 7, none, none⟩]) (.nil _)))))))
  refine ⟨_, trace, rfl, fun entry mem => ?_⟩
  refine books_truthful_of_guarded 2 _ trace ⟨?_, trivial, trivial, trivial, ?_, ?_, trivial, trivial⟩ entry mem
  · exact fun _ _ => not_mem_nil
  · rintro taskId ⟨⟩
    rfl
  · exact fun _ _ => not_mem_nil

-- A request added between a worker's reading of its task's done mark and acting on it loses its task to the next
-- put; pausing a request never added makes its task needed without caching it.
theorem needed_task_uncached : (∃ run, Trace Step (initBooks 1) run ∧ ∃ entry ∈ run,
      Active entry.2.manager 7 ∧ Table.find 7 entry.2.manager.host.cacheMap = none) ∧
    ∃ run, Trace Step (initBooks 1) run ∧ ∃ entry ∈ run,
      Paused entry.2.manager 7 ∧ Table.find 7 entry.2.manager.host.cacheMap = none := by
  constructor
  · refine ⟨_, .cons (.addRequestPeft ⟨1, some 7, some 1, none⟩) (.cons (.beginLoad 7 (by decide))
      (.cons (.markRequestDone ⟨1, some 7, none, none⟩ false) (.cons (.endLoad 7 (by decide))
      (.cons (.readDone 7 (by decide)) (.cons (.addRequestPeft ⟨2, some 7, none, none⟩) (.cons (.endMark 7 (by decide))
      (.cons (.addRequestPeft ⟨3, some 8, some 1, none⟩) (.nil _)))))))), _, mem_of_getLast? rfl, ⟨2, ?_⟩, ?_⟩
    · decide
    · decide
  · refine ⟨_, .cons (.markRequestDone ⟨1, some 7, none, none⟩ true) (.nil _), _, mem_cons_self, ⟨1, ?_⟩, rfl⟩
    decide

end TrtLlm.Peft
