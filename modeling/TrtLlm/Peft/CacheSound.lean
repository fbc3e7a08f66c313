import TrtLlm.Peft.PeftCacheManager

set_option autoImplicit false

namespace TrtLlm.Peft
open List LoraCache
open Lib (Table)

def owners (page : Nat) (cacheMap : Table TaskId TaskValue) : Nat :=
  Table.total (fun value => value.pageIds.count page) cacheMap

-- The in-progress list holds the tasks so flagged, the done list the other cached ones; a page is free or has one
-- owner.
structure CacheSound (total : Nat) (c : LoraCache) : Prop where
  keys : (c.cacheMap.map Prod.fst).Nodup
  running : ∀ taskId,
    c.inProgressTasks.count taskId = if (Table.find taskId c.cacheMap).any TaskValue.inProgress then 1 else 0
  finished : ∀ taskId,
    c.doneTasks.count taskId = if (Table.find taskId c.cacheMap).any fun value => !value.inProgress then 1 else 0
  pages : ∀ page, c.freePageIds.count page + owners page c.cacheMap = if page < total then 1 else 0

variable {total : Nat} {c : LoraCache} {taskId : TaskId} {value : TaskValue}

theorem init_sound (total : Nat) : CacheSound total (init total) :=
  ⟨nodup_nil, fun _ => rfl, fun _ => rfl, fun _ => (Nat.add_zero _).trans count_range⟩

def ownPages (c : LoraCache) (taskId : TaskId) (page : Nat) : Nat :=
  ((Table.find taskId c.cacheMap).map fun value => value.pageIds.count page).getD 0

theorem CacheSound.write (sound : CacheSound total c) (taskId : TaskId) (new : TaskValue) (running finished free : List Nat)
    (runs : ∀ other, running.count other =
      if other = taskId then (if new.inProgress then 1 else 0) else c.inProgressTasks.count other)
    (ends : ∀ other, finished.count other = if other = taskId then (if new.inProgress then 0 else 1) else c.doneTasks.count other)
    (pages : ∀ page, free.count page + new.pageIds.count page = c.freePageIds.count page + ownPages c taskId page) :
    CacheSound total ⟨Table.put taskId new c.cacheMap, running, finished, free⟩ := by
  refine ⟨Table.nodup_put taskId c.cacheMap new sound.keys, fun other => ?_, fun other => ?_, fun page => ?_⟩
  · rw [runs, Table.find_put]
    split
    · rfl
    · exact sound.running other
  · rw [ends, Table.find_put]
    split
    · cases running : new.inProgress <;> simp [running]
    · exact sound.finished other
  · have grown := Table.total_put taskId c.cacheMap (fun value => value.pageIds.count page) new
    have kept := sound.pages page
    have split := pages page
    unfold ownPages at split
    unfold owners at kept ⊢
    dsimp only
    omega

theorem CacheSound.erase (sound : CacheSound total c) (taskId : TaskId) (running finished free : List Nat)
    (runs : ∀ other, running.count other = if other = taskId then 0 else c.inProgressTasks.count other)
    (ends : ∀ other, finished.count other = if other = taskId then 0 else c.doneTasks.count other)
    (pages : ∀ page, free.count page = c.freePageIds.count page + ownPages c taskId page) :
    CacheSound total ⟨Table.clear taskId c.cacheMap, running, finished, free⟩ := by
  refine ⟨sound.keys.sublist (filter_sublist.map _), fun other => ?_, fun other => ?_, fun page => ?_⟩
  · rw [runs, Table.find_clear]
    split
    · rfl
    · exact sound.running other
  · rw [ends, Table.find_clear]
    split
    · rfl
    · exact sound.finished other
  · have shrunk := Table.total_clear taskId c.cacheMap (fun value => value.pageIds.count page) sound.keys
    have kept := sound.pages page
    have split := pages page
    unfold ownPages at split
    unfold owners at kept ⊢
    dsimp only
    omega

theorem own_found (found : Table.find taskId c.cacheMap = some value) (page : Nat) :
    ownPages c taskId page = value.pageIds.count page := by
  rw [ownPages, found]
  rfl

section
variable (sound : CacheSound total c) (found : Table.find taskId c.cacheMap = some value)

include sound found

theorem CacheSound.run_count : c.inProgressTasks.count taskId = (if value.inProgress then 1 else 0) ∧
    c.doneTasks.count taskId = if value.inProgress then 0 else 1 := by
  have runs := sound.running taskId
  have ends := sound.finished taskId
  rw [found] at runs ends
  refine ⟨runs, ends.trans ?_⟩
  cases running : value.inProgress <;> simp [running]

theorem CacheSound.run_iff :
    (taskId ∈ c.inProgressTasks ↔ value.inProgress = true) ∧ (taskId ∈ c.doneTasks ↔ value.inProgress = false) := by
  obtain ⟨runs, ends⟩ := sound.run_count found
  rw [← count_pos_iff, ← count_pos_iff, runs, ends]
  cases value.inProgress <;> decide

end

theorem count_moved (tasks : List TaskId) (other : TaskId) :
    (tasks.erase taskId).count other = if other = taskId then tasks.count taskId - 1 else tasks.count other := by
  split
  · next same =>
    rw [same, count_erase_self]
  · next same =>
    rw [count_erase_of_ne same]

theorem count_pushed (tasks : List TaskId) (other : TaskId) :
    (taskId :: tasks).count other = if other = taskId then tasks.count taskId + 1 else tasks.count other := by
  split
  · next same =>
    rw [same, count_cons_self]
  · next same =>
    rw [count_cons_of_ne (Ne.symm same)]

theorem bump_sound (sound : CacheSound total c) : CacheSound total (c.bumpTaskInProgress taskId) := by
  unfold bumpTaskInProgress
  cases found : Table.find taskId c.cacheMap with
  | none => exact sound
  | some value =>
    obtain ⟨runs, ends⟩ := sound.run_count found
    refine sound.write taskId { value with inProgress := true, done := false } _ _ _ (fun other => ?_) (fun other => ?_)
      fun page => by rw [own_found found]
    · by_cases running : value.inProgress = true <;> by_cases same : other = taskId <;>
        simp_all [count_pushed]
    · by_cases running : value.inProgress = true <;> by_cases same : other = taskId <;> simp_all

theorem mark_sound (sound : CacheSound total c) : CacheSound total (c.markTaskDone taskId) := by
  unfold markTaskDone
  cases found : Table.find taskId c.cacheMap with
  | none => exact sound
  | some value =>
    obtain ⟨runs, ends⟩ := sound.run_count found
    dsimp only
    split
    · refine sound.write taskId { value with inProgress := false, done := true } _ _ _ (fun other => ?_) (fun other => ?_)
        fun page => by rw [own_found found]
      · by_cases same : other = taskId <;> simp_all
      · by_cases same : other = taskId <;> simp_all [count_pushed]
    · refine sound.write taskId { value with done := true } _ _ _ (fun other => ?_) (fun other => ?_)
        fun page => by rw [own_found found]
      · by_cases same : other = taskId <;> simp_all
      · by_cases same : other = taskId <;> simp_all

theorem reload_sound (loading loaded : Bool) (sound : CacheSound total c) (found : Table.find taskId c.cacheMap = some value) :
    CacheSound total { c with
      cacheMap := Table.put taskId { value with loadInProgress := loading, loaded := loaded } c.cacheMap } := by
  obtain ⟨runs, ends⟩ := sound.run_count found
  refine sound.write taskId { value with loadInProgress := loading, loaded := loaded } _ _ _ (fun other => ?_) (fun other => ?_)
    fun page => by rw [own_found found]
  · by_cases same : other = taskId <;> simp_all
  · by_cases same : other = taskId <;> simp_all

theorem release_count (pageIds : List Nat) (page : Nat) (apart : ∀ page, (pageIds ++ c.freePageIds).count page ≤ 1) :
    (c.releasePages pageIds).freePageIds.count page = (pageIds ++ c.freePageIds).count page := by
  induction pageIds generalizing c with
  | nil => rfl
  | cons pageId rest ih =>
    have absent : pageId ∉ c.freePageIds := by
      have once := apart pageId
      rw [cons_append, count_cons_self, count_append] at once
      exact count_eq_zero.mp (by omega)
    have pushed := @ih { c with freePageIds := pageId :: c.freePageIds } fun other => by
      have once := apart other
      simp only [cons_append, count_cons, count_append] at once ⊢
      omega
    unfold releasePages at pushed ⊢
    rw [foldl_cons, if_neg absent, pushed]
    simp only [cons_append, count_cons, count_append]
    omega

def pagesOf (cacheMap : Table TaskId TaskValue) (taskId : TaskId) : List Nat :=
  ((Table.find taskId cacheMap).map TaskValue.pageIds).getD []

def LoraCache.pageCount (c : LoraCache) (taskIds : List TaskId) : Nat := (taskIds.flatMap (pagesOf c.cacheMap)).length

-- What is evicted makes room, if anything does, and not without its last task.
theorem evictees_spec (oldest : List TaskId) (needed : Int) : ∃ newer, oldest = evictees c.cacheMap oldest needed ++ newer ∧
    (needed ≤ c.pageCount (evictees c.cacheMap oldest needed) ∨ newer = []) ∧
    ∀ rest last, evictees c.cacheMap oldest needed = rest ++ [last] → c.pageCount rest < needed := by
  induction oldest generalizing needed with
  | nil => exact ⟨[], rfl, .inr rfl, by simp [evictees]⟩
  | cons head tail ih =>
    have pages : ((Table.find head c.cacheMap).map fun value => value.pageIds.length).getD 0 = (pagesOf c.cacheMap head).length := by
      unfold pagesOf
      cases Table.find head c.cacheMap <;> rfl
    obtain ⟨newer, listed, reached, shortest⟩ := ih (needed - (pagesOf c.cacheMap head).length)
    unfold evictees
    rw [pages]
    split
    · refine ⟨newer, congrArg (head :: ·) listed, reached.imp_left fun _ => ?_, fun rest last ends => ?_⟩
      · simp only [pageCount, flatMap_cons, length_append] at *
        omega
      · cases rest with
        | nil => simpa [pageCount]
        | cons first rest =>
          cases (cons.inj ends).1
          have := shortest rest last (cons.inj ends).2
          simp only [pageCount, flatMap_cons, length_append] at *
          omega
    · exact ⟨head :: tail, rfl, .inl (by simp only [pageCount, flatMap_nil, length_nil]; omega), by simp⟩

theorem count_pages (page : Nat) : (pagesOf c.cacheMap taskId).count page = ownPages c taskId page := by
  unfold pagesOf ownPages
  cases Table.find taskId c.cacheMap <;> rfl

theorem evicted_sound {taskIds newer : List TaskId} (sound : CacheSound total c) (listed : c.doneTasks.Perm (taskIds ++ newer)) :
    CacheSound total { c with
      doneTasks := newer
      cacheMap := taskIds.foldl (fun cacheMap taskId => Table.clear taskId cacheMap) c.cacheMap
      freePageIds := taskIds.flatMap (pagesOf c.cacheMap) ++ c.freePageIds } := by
  induction taskIds generalizing c with
  | nil => exact ⟨sound.keys, sound.running, fun other => listed.count_eq other ▸ sound.finished other, sound.pages⟩
  | cons taskId rest ih =>
    have once : c.doneTasks.count taskId ≤ 1 := by
      rw [sound.finished]
      split <;> omega
    have single : (rest ++ newer).count taskId = 0 := by
      rw [listed.count_eq, cons_append, count_cons_self] at once
      omega
    have idle : c.inProgressTasks.count taskId = 0 := by
      have done : taskId ∈ c.doneTasks := listed.mem_iff.mpr mem_cons_self
      rcases Option.eq_none_or_eq_some (Table.find taskId c.cacheMap) with missing | ⟨value, found⟩
      · rw [sound.running, missing]
        rfl
      · rw [(sound.run_count found).1, (sound.run_iff found).2.mp done]
        rfl
    have first := sound.erase taskId c.inProgressTasks (rest ++ newer) (pagesOf c.cacheMap taskId ++ c.freePageIds)
      (fun other => by split <;> simp_all)
      (fun other => by
        have listed := listed.count_eq other
        rw [cons_append, count_pushed] at listed
        split <;> simp_all)
      (fun page => by rw [count_append, count_pages, Nat.add_comm])
    have done := ih first (Perm.refl _)
    have unchanged : rest.flatMap (pagesOf (Table.clear taskId c.cacheMap)) = rest.flatMap (pagesOf c.cacheMap) := by
      apply flatMap_congr
      intro other mem
      have apart : other ≠ taskId := by
        rintro rfl
        exact count_eq_zero.mp single (mem_append_left _ mem)
      rw [pagesOf, Table.find_clear, if_neg apart]
      rfl
    refine ⟨done.keys, done.running, done.finished, fun page => ?_⟩
    have counted := done.pages page
    rw [unchanged] at counted
    simp only [foldl_cons, flatMap_cons, count_append] at counted ⊢
    omega

section
variable {taskIds newer : List TaskId} (sound : CacheSound total c) (listed : c.doneTasks = newer ++ taskIds.reverse)

include listed

theorem evict_done : (c.evict taskIds).doneTasks = newer := by
  change c.doneTasks.take (c.doneTasks.length - taskIds.length) = newer
  rw [listed, length_append, length_reverse, Nat.add_sub_cancel, take_left']
  rfl

include sound

theorem evict_free : (c.evict taskIds).freePageIds.Perm (taskIds.flatMap (pagesOf c.cacheMap) ++ c.freePageIds) := by
  have collected := evicted_sound sound
    (listed ▸ perm_append_comm.trans (taskIds.reverse_perm.append_right newer))
  have apart : ∀ page, (taskIds.flatMap (pagesOf c.cacheMap) ++ c.freePageIds).count page ≤ 1 := by
    intro page
    have counted := collected.pages page
    dsimp only at counted
    split at counted <;> omega
  exact perm_iff_count.mpr fun page => release_count _ page apart

theorem evict_sound : CacheSound total (c.evict taskIds) := by
  have collected := evicted_sound sound
    (listed ▸ perm_append_comm.trans (taskIds.reverse_perm.append_right newer))
  refine ⟨collected.keys, collected.running, fun other => ?_, fun page => ?_⟩
  · exact (congrArg (count other) (evict_done listed)).trans (collected.finished other)
  · rw [(evict_free sound listed).count_eq]
    exact collected.pages page

theorem evict_keeps {taskId : TaskId} (running : taskId ∈ c.inProgressTasks) :
    Table.find taskId (c.evict taskIds).cacheMap = Table.find taskId c.cacheMap := by
  refine (Table.find_foldl_clear taskIds).trans (if_neg fun gone => ?_)
  have done : taskId ∈ c.doneTasks := listed ▸ mem_append_right _ (mem_reverse.mpr gone)
  rcases Option.eq_none_or_eq_some (Table.find taskId c.cacheMap) with missing | ⟨value, found⟩
  · have counted := sound.running taskId
    rw [missing] at counted
    exact count_eq_zero.mp counted running
  · obtain ⟨runs, ends⟩ := sound.run_iff found
    cases (runs.mp running).symm.trans (ends.mp done)

end

-- Where nothing has to or can be evicted, base is the cache itself.
theorem claim_eq {base : LoraCache} (numPages : Nat)
    (evicted : base = c.evict (evictees c.cacheMap c.doneTasks.reverse (numPages - c.freePageIds.length))) :
    ∃ msg, c.claimPagesWithEvict numPages = if numPages ≤ base.freePageIds.length
      then ({ base with freePageIds := base.freePageIds.drop numPages }, .ok (base.freePageIds.take numPages))
      else (base, .error msg) := by
  have idle : c.evict [] = c := by simp [evict, releasePages]
  unfold claimPagesWithEvict claimPages
  by_cases enough : numPages ≤ c.freePageIds.length
  · have none_needed : evictees c.cacheMap c.doneTasks.reverse (numPages - c.freePageIds.length) = [] := by
      cases c.doneTasks.reverse with
      | nil => rfl
      | cons => exact if_neg (by omega)
    rw [none_needed, idle] at evicted
    exact ⟨"", by rw [evicted, if_pos enough, if_pos enough]⟩
  rw [if_neg enough]
  by_cases none_done : c.doneTasks = []
  · rw [none_done, reverse_nil, evictees, idle] at evicted
    exact ⟨_, (if_pos none_done).trans (by rw [evicted, if_neg enough])⟩
  · refine ⟨"Assertion failed: pageIds.has_value()", (if_neg none_done).trans ?_⟩
    dsimp only
    rw [← evicted]
    by_cases now : numPages ≤ base.freePageIds.length
    · rw [if_pos now, if_pos now]
    · rw [if_neg now, if_neg now]

def Busy (c : LoraCache) (taskId : TaskId) : Prop :=
  ∃ value, Table.find taskId c.cacheMap = some value ∧ value.inProgress = true ∧ value.done = false

theorem has_iff : c.has taskId = true ↔ (Table.find taskId c.cacheMap).isSome = true := by
  unfold has getStatus
  cases found : Table.find taskId c.cacheMap with
  | none => simp
  | some value => cases loaded : value.loaded <;> simp [loaded]

theorem write_keeps {new : TaskValue} {other : TaskId} {cacheMap : Table TaskId TaskValue} {c : LoraCache}
    (stored : c.cacheMap = Table.put taskId new cacheMap) (mine : other = taskId → new.inProgress = true ∧ new.done = false)
    (before : other ≠ taskId → ∃ value, Table.find other cacheMap = some value ∧ value.inProgress = true ∧ value.done = false) :
    Busy c other := by
  unfold Busy
  rw [stored]
  by_cases here : other = taskId
  · exact ⟨new, (Table.find_put ..).trans (if_pos here), mine here⟩
  · obtain ⟨value, found, flags⟩ := before here
    exact ⟨value, ((Table.find_put ..).trans (if_neg here)).trans found, flags⟩

theorem bump_busy {other : TaskId} (use : other = taskId ∧ c.has taskId = true ∨ Busy c other) :
    Busy (c.bumpTaskInProgress taskId) other := by
  unfold bumpTaskInProgress
  cases found : Table.find taskId c.cacheMap with
  | none =>
    rw [has_iff, found] at use
    exact use.resolve_left fun mine => Bool.false_ne_true mine.2
  | some value => exact write_keeps rfl (fun _ => ⟨rfl, rfl⟩) fun apart => use.resolve_left fun mine => apart mine.1

theorem mark_keeps (other : TaskId) (apart : other ≠ taskId) (busy : Busy c other) : Busy (c.markTaskDone taskId) other := by
  unfold markTaskDone
  cases found : Table.find taskId c.cacheMap with
  | none => exact busy
  | some value =>
    dsimp only
    split
    · exact write_keeps rfl (fun same => absurd same apart) fun _ => busy
    · exact write_keeps rfl (fun same => absurd same apart) fun _ => busy

theorem reload_keeps (loading loaded : Bool) {other : TaskId} (found : Table.find taskId c.cacheMap = some value)
    (busy : Busy c other) : Busy { c with
      cacheMap := Table.put taskId { value with loadInProgress := loading, loaded := loaded } c.cacheMap } other := by
  refine write_keeps rfl (fun same => ?_) fun _ => busy
  obtain ⟨now, at_other, flags⟩ := busy
  subst same
  cases found.symm.trans at_other
  exact flags

def Carries (total : Nat) (c next : LoraCache) : Prop :=
  CacheSound total next ∧ ∀ other, Busy c other → Busy next other

theorem bump_carries (sound : CacheSound total c) : Carries total c (c.bumpTaskInProgress taskId) :=
  ⟨bump_sound sound, fun _ busy => bump_busy (.inr busy)⟩

section
variable (taskId : TaskId) (sound : CacheSound total c)

include sound

theorem copy_carries : Carries total c (c.copyTask taskId).1 := by
  unfold copyTask
  split
  · exact ⟨sound, fun _ => id⟩
  · exact ⟨sound, fun _ => id⟩
  · exact bump_carries sound

theorem begin_load_carries : Carries total c (c.beginLoad taskId).1 := by
  unfold LoraCache.beginLoad
  cases found : Table.find taskId c.cacheMap with
  | none => exact ⟨sound, fun _ => id⟩
  | some value =>
    dsimp only
    split
    · exact ⟨sound, fun _ => id⟩
    · exact ⟨reload_sound true value.loaded sound found, fun other => reload_keeps true value.loaded found⟩

theorem end_load_carries : Carries total c (c.endLoad taskId) := by
  unfold LoraCache.endLoad
  cases found : Table.find taskId c.cacheMap with
  | none => exact ⟨sound, fun _ => id⟩
  | some value => exact ⟨reload_sound false true sound found, fun other => reload_keeps false true found⟩

end

def enter (c : LoraCache) (taskId : TaskId) : LoraCache :=
  { c with
    inProgressTasks := taskId :: c.inProgressTasks
    cacheMap := Table.put taskId ⟨[], true, false, false, true⟩ c.cacheMap }

section
variable (missing : Table.find taskId c.cacheMap = none)

include missing

theorem enter_sound (sound : CacheSound total c) : CacheSound total (enter c taskId) := by
  have idle := sound.running taskId
  have ended := sound.finished taskId
  rw [missing] at idle ended
  exact sound.write taskId ⟨[], true, false, false, true⟩ (taskId :: c.inProgressTasks) c.doneTasks
    c.freePageIds (fun other => by rw [count_pushed, idle]; rfl) (fun other => by split <;> simp_all)
    (fun page => by rw [ownPages, missing]; rfl)

theorem put_eq {base : LoraCache} {needed : Nat} (evicted : base =
      (enter c taskId).evict (evictees (enter c taskId).cacheMap c.doneTasks.reverse (needed - c.freePageIds.length))) :
    ∃ msg, c.put taskId needed = if needed ≤ base.freePageIds.length
      then ({ base with
        freePageIds := base.freePageIds.drop needed
        cacheMap := Table.put taskId ⟨base.freePageIds.take needed, true, false, false, false⟩ base.cacheMap }, .ok ())
      else ({ base with
        inProgressTasks := base.inProgressTasks.erase taskId
        cacheMap := Table.clear taskId base.cacheMap }, .error msg) := by
  have absent : ¬c.has taskId = true := fun present => by simp [has_iff, missing] at present
  obtain ⟨msg, claim⟩ := claim_eq needed evicted
  refine ⟨msg, (if_neg absent).trans ?_⟩
  rw [enter] at claim
  dsimp only
  rw [claim]
  by_cases enough : needed ≤ base.freePageIds.length
  · rw [if_pos enough, if_pos enough]
  · rw [if_neg enough, if_neg enough]

end

theorem put_carries (taskId : TaskId) (needed : Nat) (sound : CacheSound total c) :
    Carries total c (c.put taskId needed).1 ∧ match (c.put taskId needed).2 with
      | .ok _ => Busy (c.put taskId needed).1 taskId
      | .error _ => ¬Busy c taskId := by
  by_cases present : c.has taskId = true
  · rw [put, if_pos present]
    exact ⟨bump_carries sound, bump_busy (.inl ⟨rfl, present⟩)⟩
  have missing : Table.find taskId c.cacheMap = none := Option.not_isSome_iff_eq_none.mp fun there => present (has_iff.mpr there)
  have entered := enter_sound missing sound
  obtain ⟨newer, listed, _⟩ := @evictees_spec (enter c taskId) c.doneTasks.reverse (needed - c.freePageIds.length)
  have listed := (reverse_reverse _).symm.trans ((congrArg reverse listed).trans reverse_append)
  have baseSound := evict_sound entered listed
  have same : ∀ other ∈ (enter c taskId).inProgressTasks, _ := fun _ => evict_keeps entered listed
  obtain ⟨msg, res⟩ := put_eq missing (@rfl _ (evict _ _))
  generalize evict _ _ = base at baseSound same res
  have found := (same taskId mem_cons_self).trans ((Table.find_put ..).trans (if_pos rfl))
  obtain ⟨runs, ends⟩ := baseSound.run_count found
  have none_own : ∀ page, ownPages base taskId page = 0 := fun page => own_found found page
  have others : ∀ other, Busy c other → other ≠ taskId ∧ Busy base other := by
    rintro other ⟨value, at_other, flags⟩
    have apart : other ≠ taskId := by
      rintro rfl
      rw [missing] at at_other
      cases at_other
    have running := (sound.run_iff at_other).1.mpr flags.1
    refine ⟨apart, value, (same other (mem_cons_of_mem _ running)).trans ?_, flags⟩
    exact ((Table.find_put ..).trans (if_neg apart)).trans at_other
  rw [res]
  split
  · refine ⟨⟨baseSound.write taskId _ _ _ _ (fun other => ?_) (fun other => ?_) fun page => ?_, fun other busy => ?_⟩,
      ⟨_, (Table.find_put ..).trans (if_pos rfl), rfl, rfl⟩⟩
    · split
      · next equal => exact equal ▸ runs
      · rfl
    · split
      · next equal => exact equal ▸ ends
      · rfl
    · rw [none_own, Nat.add_zero, Nat.add_comm, ← count_append, take_append_drop]
    · obtain ⟨apart, busy⟩ := others other busy
      exact write_keeps rfl (fun equal => absurd equal apart) fun _ => busy
  · refine ⟨⟨baseSound.erase taskId _ _ _ (fun other => ?_) (fun other => ?_) fun page => ?_, fun other busy => ?_⟩,
      fun busy => ?_⟩
    · rw [count_moved, runs]
      rfl
    · split
      · next equal => exact equal ▸ ends
      · rfl
    · rw [none_own]
      rfl
    · obtain ⟨apart, value, at_other, flags⟩ := others other busy
      exact ⟨value, ((Table.find_clear ..).trans (if_neg apart)).trans at_other, flags⟩
    · exact (others taskId busy).1 rfl

end TrtLlm.Peft
