import TrtLlm.Kv.EvictionPolicy

set_option autoImplicit false

namespace TrtLlm.Kv
open List Pool

namespace Pool
variable {n : Nat} (pool : Pool n)

def freeLength (level : CacheLevel) : Nat := ∑ priority, (pool.freeQueues level priority).length

structure Accounted (held : Fin n → Prop) : Prop where
  absent : ∀ block, held block → ∀ level priority, block ∉ pool.freeQueues level priority
  present : ∀ block, ¬held block → (pool.freeQueues (pool.level block) (pool.priority block)).count block = 1
  placed : ∀ level priority, ∀ block ∈ pool.freeQueues level priority,
    pool.level block = level ∧ pool.priority block = priority
  flagged : ∀ block, pool.queued block = true ↔ ¬held block
  counted : ∀ level, pool.numFreeBlocks level = pool.freeLength level
  expires : ∀ entry ∈ pool.expiring, ¬held entry.2 ∧ (pool.blocks entry.2).expirationTime = some entry.1

section Fields
variable {pool} {id other : Fin n} {change : Block → Block}

@[simp] theorem modify_here : (pool.modify id change).blocks id = change (pool.blocks id) := by
  simp [modify]

@[simp] theorem modify_other (ne : other ≠ id) : (pool.modify id change).blocks other = pool.blocks other := by
  simp [modify, ne]

variable (level at_ : CacheLevel)

theorem set_queue_at (priority rank : RetentionPriority) (queue : List (Fin n)) :
    (pool.setQueue level priority queue).freeQueues at_ rank =
      if at_ = level ∧ rank = priority then queue else pool.freeQueues at_ rank := by
  by_cases same : at_ = level
  · subst same
    by_cases own : rank = priority <;> simp [setQueue, own]
  · simp [setQueue, same]

theorem add_free_count (amount : Int) :
    (pool.addFree level amount).numFreeBlocks at_ = pool.numFreeBlocks at_ + (if at_ = level then amount else 0) := by
  by_cases same : at_ = level
  · simp [addFree, same]
  · simp [addFree, same]

variable (pool)

theorem set_queue_length (level : CacheLevel) (priority : RetentionPriority) (queue : List (Fin n)) :
    (pool.setQueue level priority queue).freeLength level + (pool.freeQueues level priority).length =
      pool.freeLength level + queue.length := by
  have lengths : (fun rank => ((pool.setQueue level priority queue).freeQueues level rank).length) =
      Function.update (fun rank => (pool.freeQueues level rank).length) priority queue.length := by
    funext rank
    by_cases same : rank = priority <;> simp [set_queue_at, same]
  rw [freeLength, lengths, Finset.sum_update_of_mem (Finset.mem_univ _), freeLength,
    ← Finset.sum_sdiff (Finset.subset_univ {priority}), Finset.sum_singleton]
  omega

theorem set_queue_length_other (priority : RetentionPriority) (queue : List (Fin n))
    (ne : at_ ≠ level) : (pool.setQueue level priority queue).freeLength at_ = pool.freeLength at_ := by
  refine Finset.sum_congr rfl fun rank _ => ?_
  rw [set_queue_at, if_neg fun both => ne both.1]

end Fields

variable {pool} {held : Fin n → Prop}

namespace Accounted

theorem congr {kept : Fin n → Prop} (books : pool.Accounted held) (same : ∀ block, held block ↔ kept block) :
    pool.Accounted kept := by
  have equal : held = kept := funext fun block => propext (same block)
  rw [← equal]
  exact books

theorem released_again {id : Fin n} (settled : ¬held id) (block : Fin n) :
    (held block ∨ block = id) ∧ block ≠ id ↔ held block := by
  by_cases same : block = id
  · simp [same, settled]
  · simp [same]

theorem modify_held (books : pool.Accounted held) (id : Fin n) (change : Block → Block) (out : held id) :
    (pool.modify id change).Accounted held where
  absent := books.absent
  present := by
    intro block free
    have ne : block ≠ id := fun equal => free (equal ▸ out)
    rw [Pool.level, Pool.priority, modify_other ne]
    exact books.present block free
  placed := by
    intro level priority block mem
    have ne : block ≠ id := fun equal => books.absent id out level priority (equal ▸ mem)
    rw [Pool.level, Pool.priority, modify_other ne]
    exact books.placed level priority block mem
  flagged := books.flagged
  counted := books.counted
  expires := by
    intro entry mem
    obtain ⟨free, time⟩ := books.expires entry mem
    have ne : entry.2 ≠ id := fun equal => free (equal ▸ out)
    exact ⟨free, by rw [modify_other ne, time]⟩

section
variable (books : pool.Accounted held) (id : Fin n) (change : Block → Block)
  (level : (change (pool.blocks id)).cacheLevel = (pool.blocks id).cacheLevel)
  (priority : (change (pool.blocks id)).priority = (pool.blocks id).priority)

include books level priority

theorem relabel (left : List (Nat × Fin n))
    (expires : ∀ entry ∈ left, ¬held entry.2 ∧ ((pool.modify id change).blocks entry.2).expirationTime = some entry.1) :
    Accounted { pool.modify id change with expiring := left } held := by
  have labels : ∀ block, (pool.modify id change).level block = pool.level block ∧
      (pool.modify id change).priority block = pool.priority block := by
    intro block
    by_cases same : block = id
    · simp [same, Pool.level, Pool.priority, level, priority]
    · simp [same, Pool.level, Pool.priority]
  exact { books with
    present := by
      intro block free
      change (pool.freeQueues ((pool.modify id change).level block) ((pool.modify id change).priority block)).count block = 1
      rw [(labels block).1, (labels block).2]
      exact books.present block free
    placed := by
      intro at_ rank block mem
      obtain ⟨level, priority⟩ := books.placed at_ rank block mem
      exact ⟨(labels block).1.trans level, (labels block).2.trans priority⟩
    expires := expires }

theorem modify_label (time : (change (pool.blocks id)).expirationTime = (pool.blocks id).expirationTime) :
    (pool.modify id change).Accounted held := by
  refine books.relabel id change level priority pool.expiring fun entry mem => ?_
  have due := books.expires entry mem
  by_cases same : entry.2 = id
  · rw [same, modify_here, time, ← same]
    exact due
  · rwa [modify_other same]

end

section Moves
variable (books : pool.Accounted held) (id : Fin n)

include books

theorem erased_absent (level : CacheLevel) (priority : RetentionPriority) (free : ¬held id) :
    id ∉ (pool.unqueue id).freeQueues level priority := by
  rw [unqueue, set_queue_at]
  split
  next own =>
    have none_left := count_erase_self (a := id) (l := pool.freeQueues (pool.level id) (pool.priority id))
    rw [books.present id free] at none_left
    exact count_eq_zero.mp none_left
  next own =>
    intro mem
    obtain ⟨atLevel, atPriority⟩ := books.placed level priority id mem
    exact own ⟨atLevel.symm, atPriority.symm⟩

omit books in
theorem erased_member {level : CacheLevel} {priority : RetentionPriority} {block : Fin n}
    (mem : block ∈ (pool.unqueue id).freeQueues level priority) : block ∈ pool.freeQueues level priority := by
  rw [unqueue, set_queue_at] at mem
  split at mem
  next own =>
    rw [own.1, own.2]
    exact mem_of_mem_erase mem
  · exact mem

omit books in
theorem erased_count (level : CacheLevel) (priority : RetentionPriority) (block : Fin n) (ne : block ≠ id) :
    ((pool.unqueue id).freeQueues level priority).count block = (pool.freeQueues level priority).count block := by
  rw [unqueue, set_queue_at]
  split
  next own => rw [own.1, own.2, count_erase_of_ne ne]
  · rfl

theorem erased_length (level : CacheLevel) (free : ¬held id) : ((pool.unqueue id).freeLength level : Int) =
      pool.freeLength level + (if level = pool.level id then -1 else 0) := by
  by_cases own : level = pool.level id
  · have once := books.present id free
    have mem : id ∈ pool.freeQueues (pool.level id) (pool.priority id) := by
      rw [← count_pos_iff, once]
      exact Nat.one_pos
    have shorter := length_erase_of_mem mem
    have some_there := length_pos_of_mem mem
    have total := set_queue_length pool (pool.level id) (pool.priority id)
      ((pool.freeQueues (pool.level id) (pool.priority id)).erase id)
    rw [if_pos own, own, unqueue]
    omega
  · rw [if_neg own, unqueue, set_queue_length_other pool _ _ _ _ own]
    omega

theorem take_out (left : List (Nat × Fin n)) (free : ¬held id) (fewer : left ⊆ pool.expiring)
    (gone : ∀ entry ∈ left, entry.2 ≠ id) :
    Accounted { (((pool.unqueue id).addFree (pool.level id) (-1)).setQueued id false) with expiring := left }
      (fun block => held block ∨ block = id) where
  absent := by
    intro block out level priority mem
    rcases out with out | rfl
    · exact books.absent block out level priority (erased_member id mem)
    · exact books.erased_absent block level priority free mem
  present := by
    intro block inside
    have ne : block ≠ id := fun equal => inside (.inr equal)
    exact (erased_count id _ _ block ne).trans (books.present block fun out => inside (.inl out))
  placed := fun level priority block mem =>
    books.placed level priority block (erased_member id mem)
  flagged := by
    intro block
    by_cases same : block = id
    · simp [setQueued, same]
    · have flag := books.flagged block
      simp only [setQueued, addFree, unqueue, setQueue, Function.update_of_ne same, same, or_false]
      exact flag
  counted := by
    intro level
    have length := books.erased_length id level free
    have count := books.counted level
    change ((pool.unqueue id).addFree (pool.level id) (-1)).numFreeBlocks level = (pool.unqueue id).freeLength level
    rw [add_free_count, length, ← count]
    rfl
  expires := by
    intro entry mem
    obtain ⟨inside, time⟩ := books.expires entry (fewer mem)
    exact ⟨fun out => out.elim inside (gone entry mem), time⟩

omit books in
theorem joined_member {queue : List (Fin n)} (grown : queue.Perm (id :: pool.freeQueues (pool.level id) (pool.priority id)))
    {level : CacheLevel} {priority : RetentionPriority} {block : Fin n}
    (mem : block ∈ (pool.setQueue (pool.level id) (pool.priority id) queue).freeQueues level priority) :
    (block = id ∧ level = pool.level id ∧ priority = pool.priority id) ∨ block ∈ pool.freeQueues level priority := by
  rw [set_queue_at] at mem
  split at mem
  next own =>
    rcases mem_cons.mp (grown.mem_iff.mp mem) with same | old
    · exact .inl ⟨same, own⟩
    · exact .inr (by rwa [own.1, own.2])
  · exact .inr mem

theorem put_back (queue : List (Fin n)) (out : held id)
    (grown : queue.Perm (id :: pool.freeQueues (pool.level id) (pool.priority id))) :
    Accounted (((pool.setQueue (pool.level id) (pool.priority id) queue).setQueued id true).addFree (pool.level id) 1)
      (fun block => held block ∧ block ≠ id) where
  absent := by
    intro block outside level priority mem
    rcases joined_member id grown mem with ⟨same, _⟩ | old
    · exact outside.2 same
    · exact books.absent block outside.1 _ _ old
  present := by
    intro block inside
    change ((pool.setQueue _ _ _).freeQueues (pool.level block) (pool.priority block)).count block = 1
    by_cases same : block = id
    · rw [same, set_queue_at, if_pos ⟨rfl, rfl⟩, grown.count_eq, count_cons_self,
        count_eq_zero.mpr (books.absent id out _ _)]
    have free : ¬held block := fun outside => inside ⟨outside, same⟩
    have once := books.present block free
    rw [set_queue_at]
    split
    next own =>
      rw [own.1, own.2] at once
      rw [grown.count_eq, count_cons_of_ne (fun equal => same equal.symm), once]
    · exact once
  placed := by
    intro level priority block mem
    rcases joined_member id grown mem with ⟨rfl, own⟩ | old
    · exact ⟨own.1.symm, own.2.symm⟩
    · exact books.placed _ _ block old
  flagged := by
    intro block
    by_cases same : block = id
    · simp [setQueued, addFree, same]
    · have flag := books.flagged block
      simp only [setQueued, addFree, setQueue, Function.update_of_ne same, ne_eq, same, not_false_eq_true, and_true]
      exact flag
  counted := by
    intro level
    have count := books.counted level
    rw [add_free_count]
    change pool.numFreeBlocks level + _ = ((pool.setQueue _ _ _).freeLength level : Int)
    by_cases own : level = pool.level id
    · have total := set_queue_length pool (pool.level id) (pool.priority id) queue
      have longer := grown.length_eq
      rw [length_cons] at longer
      rw [if_pos own]
      rw [own] at count ⊢
      omega
    · rw [if_neg own, set_queue_length_other pool _ _ _ _ own]
      omega
  expires := by
    intro entry mem
    obtain ⟨inside, time⟩ := books.expires entry mem
    exact ⟨fun outside => inside outside.1, time⟩

end Moves
end Accounted
end Pool

namespace Pool
variable {n : Nat} (pool : Pool n) (id other : Fin n)

section Blocks
variable (priority : Option RetentionPriority) (durationMs : Option Nat) (toFront : Bool)

structure SameBlock (first second : Block) : Prop where
  isPlaceholder : first.isPlaceholder = second.isPlaceholder
  memoryPoolBlockIndex : first.memoryPoolBlockIndex = second.memoryPoolBlockIndex
  refCount : first.refCount = second.refCount
  blockKey : first.blockKey = second.blockKey
  isFull : first.isFull = second.isFull
  lookupNode : first.lookupNode = second.lookupNode

theorem same_block_refl (block : Block) : SameBlock block block := ⟨rfl, rfl, rfl, rfl, rfl, rfl⟩

theorem SameBlock.trans {first second third : Block} (left : SameBlock first second) (right : SameBlock second third) :
    SameBlock first third :=
  ⟨left.isPlaceholder.trans right.isPlaceholder, left.memoryPoolBlockIndex.trans right.memoryPoolBlockIndex,
    left.refCount.trans right.refCount, left.blockKey.trans right.blockKey, left.isFull.trans right.isFull,
    left.lookupNode.trans right.lookupNode⟩

theorem SameBlock.level {first second : Block} (same : SameBlock first second) : first.cacheLevel = second.cacheLevel := by
  simp only [Block.cacheLevel, same.isPlaceholder, same.memoryPoolBlockIndex]

theorem claim_same : SameBlock ((pool.claimBlock id priority durationMs).blocks other) (pool.blocks other) := by
  by_cases same : other = id
  · subst same
    constructor <;> (unfold claimBlock; split <;> simp [setQueued, addFree, unqueue, setQueue])
  · constructor <;> (unfold claimBlock; split <;> simp [setQueued, addFree, unqueue, setQueue, same])

theorem expire_same : SameBlock ((pool.expire id).blocks other) (pool.blocks other) := by
  unfold expire
  split
  · exact same_block_refl _
  split
  · exact same_block_refl _
  by_cases same : other = id
  · simp only [same, modify_here]
    exact ⟨rfl, rfl, rfl, rfl, rfl, rfl⟩
  · simp only [modify_other same]
    exact same_block_refl _

theorem release_same : SameBlock ((pool.releaseBlock id toFront).blocks other) (pool.blocks other) :=
  expire_same _ id other

theorem refresh_entry_same (entry : Nat × Fin n) : SameBlock ((pool.refreshEntry entry).blocks other) (pool.blocks other) := by
  unfold refreshEntry
  by_cases same : other = entry.2
  · rw [same, modify_here]
    split <;> exact ⟨rfl, rfl, rfl, rfl, rfl, rfl⟩
  · rw [modify_other same]
    split <;> exact same_block_refl _

theorem refresh_same : SameBlock (pool.refresh.blocks other) (pool.blocks other) := by
  unfold refresh
  generalize pool.expiring.length = rounds
  induction rounds generalizing pool with
  | zero => exact same_block_refl _
  | succ rounds ih =>
    unfold refreshRounds
    split
    · exact same_block_refl _
    · split
      · exact (ih _).trans (refresh_entry_same pool other _)
      · exact same_block_refl _

end Blocks

namespace Accounted
variable {pool} {held : Fin n → Prop}

theorem get_free (books : pool.Accounted held) (level : CacheLevel) (canOffload : Bool)
    (found : pool.getFreeBlock level = some (id, canOffload)) : ¬held id ∧ pool.level id = level := by
  obtain ⟨priority, _, front⟩ := exists_of_findSome?_eq_some found
  have mem : id ∈ pool.freeQueues level priority := by
    cases queue : pool.freeQueues level priority with
    | nil => rw [queue] at front; cases front
    | cons head rest =>
      rw [queue] at front
      cases front
      exact mem_cons_self
  exact ⟨fun out => books.absent id out level priority mem, (books.placed level priority id mem).1⟩

theorem fewer_expiring (books : pool.Accounted held) (left : List (Nat × Fin n)) (fewer : left ⊆ pool.expiring) :
    Accounted { pool with expiring := left } held :=
  { books with expires := fun entry mem => books.expires entry (fewer mem) }

section
variable (books : pool.Accounted held)

include books

theorem claim (priority : Option RetentionPriority) (durationMs : Option Nat) :
    (pool.claimBlock id priority durationMs).Accounted (fun block => held block ∨ block = id) := by
  have fewer : ∀ left : List (Nat × Fin n), (left.filter fun entry =>
      !decide (some entry.1 = (pool.blocks id).expirationTime ∧ entry.2 = id)) ⊆ left :=
    fun _ => filter_sublist.subset
  unfold claimBlock
  cases flag : pool.queued id with
  | false =>
    have out : held id := by
      by_contra free
      rw [(books.flagged id).mpr free] at flag
      cases flag
    simp only [Bool.false_eq_true, if_false]
    rw [setQueued, ← flag, Function.update_eq_self]
    refine ((books.fewer_expiring _ (fewer _)).modify_held id _ out).congr fun block => ?_
    exact ⟨.inl, fun either => either.elim (fun h => h) (fun same => same ▸ out)⟩
  | true =>
    have free : ¬held id := (books.flagged id).mp flag
    refine (books.take_out id _ free (fewer _) ?_).modify_held id _ (.inr rfl)
    intro entry mem same
    have kept := mem_filter.mp mem
    obtain ⟨_, time⟩ := books.expires entry kept.1
    rw [same] at time
    simp [time, same] at kept

theorem expire (free : ¬held id) (fresh : ∀ entry ∈ pool.expiring, entry.2 ≠ id) : (pool.expire id).Accounted held := by
  unfold Pool.expire
  cases (pool.blocks id).durationMs with
  | none => exact books
  | some duration =>
    dsimp only
    split
    · exact books
    refine books.relabel id _ rfl rfl _ fun entry mem => ?_
    rcases mem_cons.mp mem with rfl | old
    · exact ⟨free, by simp⟩
    · rw [modify_other (fresh entry old)]
      exact books.expires entry old

theorem release (toFront : Bool) (out : held id) :
    (pool.releaseBlock id toFront).Accounted (fun block => held block ∧ block ≠ id) := by
  refine expire id (books.put_back id _ out ?_) (fun outside => outside.2 rfl) ?_
  · split
    · exact Perm.refl _
    · exact perm_append_singleton _ _
  · intro entry mem same
    exact (books.expires entry mem).1 (same ▸ out)

theorem swap (left right : Fin n) (first : held left) (second : held right) :
    (pool.swapMemoryPoolBlockOffset left right).Accounted held := by
  unfold swapMemoryPoolBlockOffset
  exact (books.modify_held left _ first).modify_held right _ second

theorem put_back_at (level : CacheLevel) (priority : RetentionPriority)
    (queue : List (Fin n)) (out : held id) (atLevel : pool.level id = level) (atPriority : pool.priority id = priority)
    (grown : queue.Perm (id :: pool.freeQueues level priority)) :
    Accounted (((pool.setQueue level priority queue).setQueued id true).addFree level 1)
      (fun block => held block ∧ block ≠ id) := by
  subst atLevel atPriority
  exact books.put_back id queue out grown

theorem refresh_entry (entry : Nat × Fin n) (mem : entry ∈ pool.expiring) : (pool.refreshEntry entry).Accounted held := by
  obtain ⟨free, time⟩ := books.expires entry mem
  have flag : pool.queued entry.2 = true := (books.flagged entry.2).mpr free
  have outside := (books.take_out entry.2 [] free (nil_subset _) (by simp)).modify_held entry.2
    (fun block => { block with priority := defaultRetentionPriority }) (.inr rfl)
  have moved := outside.put_back_at entry.2 (pool.level entry.2) defaultRetentionPriority
    ((pool.unqueue entry.2).freeQueues (pool.level entry.2) defaultRetentionPriority ++ [entry.2]) (.inr rfl)
    (by simp [level, Block.cacheLevel, setQueued, addFree, unqueue, setQueue]) (by simp [priority])
    (perm_append_singleton _ _)
  have back := moved.congr (released_again free)
  unfold refreshEntry
  simp only [flag, if_true]
  exact {
    absent := back.absent
    present := back.present
    placed := back.placed
    flagged := books.flagged
    counted := by
      intro level
      have count := back.counted level
      rw [add_free_count] at count
      refine Eq.trans ?_ count
      change pool.numFreeBlocks level = ((pool.unqueue entry.2).addFree (pool.level entry.2) (-1)).numFreeBlocks level + _
      rw [add_free_count]
      change pool.numFreeBlocks level = pool.numFreeBlocks level + _ + _
      split <;> omega
    expires := by
      intro later still
      obtain ⟨inside, due⟩ := books.expires later (mem_of_mem_erase still)
      refine ⟨inside, Eq.trans ?_ due⟩
      by_cases same : later.2 = entry.2
      · rw [same, modify_here]
        rfl
      · rw [modify_other same]
        rfl }

end

theorem earliest_member (entries : List (Nat × Fin n)) (entry : Nat × Fin n)
    (found : earliest entries = some entry) : entry ∈ entries := by
  induction entries generalizing entry with
  | nil => cases found
  | cons head rest ih =>
    unfold earliest at found
    split at found
    · cases found
      exact mem_cons_self
    next best later =>
    split at found
    · cases found
      exact mem_cons_self
    · cases found
      exact mem_cons_of_mem _ (ih _ later)

theorem refresh_rounds (rounds : Nat) (books : pool.Accounted held) : (refreshRounds rounds pool).Accounted held := by
  induction rounds generalizing pool with
  | zero => exact books
  | succ rounds ih =>
    unfold refreshRounds
    cases found : earliest pool.expiring with
    | none => exact books
    | some entry =>
      dsimp only
      split
      · exact ih (books.refresh_entry entry (earliest_member _ entry found))
      · exact books

theorem refresh (books : pool.Accounted held) : pool.refresh.Accounted held :=
  books.refresh_rounds _

theorem initial (numPrimary numSecondary : Nat) (minPriority : Option RetentionPriority) :
    (Pool.initial numPrimary numSecondary minPriority : Pool n).Accounted (fun _ => False) := by
  have ranked : ∀ block : Fin n, (initialBlock numPrimary numSecondary block).priority = defaultRetentionPriority := by
    intro block
    unfold initialBlock
    split
    · rfl
    · split <;> rfl
  exact {
    absent := fun _ out => out.elim
    present := by
      intro block _
      simp only [Pool.initial, Pool.level, Pool.priority, ranked, if_true]
      rw [count_filter (by simp)]
      exact count_eq_one_of_mem (nodup_finRange n) (mem_finRange block)
    placed := by
      intro level priority block mem
      by_cases own : priority = defaultRetentionPriority
      · simp only [Pool.initial, own, if_true, mem_filter, decide_eq_true_eq] at mem
        exact ⟨mem.2, by rw [own]; exact ranked block⟩
      · simp only [Pool.initial, own, if_false] at mem
        cases mem
    flagged := fun _ => by simp [Pool.initial]
    counted := by
      intro level
      simp only [Pool.initial, freeLength]
      rw [Finset.sum_eq_single defaultRetentionPriority]
      · simp
      · intro rank _ different
        simp [different]
      · intro missing
        exact absurd (Finset.mem_univ _) missing
    expires := fun _ mem => by cases mem }

end Accounted
end Pool

end TrtLlm.Kv
