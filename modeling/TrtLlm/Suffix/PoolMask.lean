import TrtLlm.Suffix.PoolContents

set_option autoImplicit false

namespace TrtLlm.Suffix

open List Lib.Table

open Lib (Table)

variable {Rid Automaton : Type}
variable (config : PoolConfig) (build : List Int → Automaton) (zeroed : Automaton)
variable (dummy : Rid → Bool)

def Used (m : Manager Rid Automaton) (slot : Nat) : Prop :=
  slot ∈ m.activeSlots ∨ slot ∈ m.retainedSlots.map Prod.fst

instance Used.decidable (m : Manager Rid Automaton) (slot : Nat) : Decidable (Used m slot) :=
  inferInstanceAs (Decidable (_ ∨ _))

def plannedMask (m : Manager Rid Automaton) (slot : Nat) : Nat :=
  (Table.find slot m.pendingMaskUpdates).getD (((m.gpuActiveSlotMask.getD [])[slot]?).getD 0)

structure Masked (spare : List Nat) (m : Manager Rid Automaton) : Prop where
  planned : config.enableGlobalPool = true → ∀ slot ≤ config.poolSize, slot ∉ spare →
    plannedMask m slot = if Used m slot then 1 else 0
  sized : ∀ mask, m.gpuActiveSlotMask = some mask → mask.length = config.poolSize + 1
  present : config.enableGlobalPool = true → m.gpuActiveSlotMask.isSome = m.gpuSlots.isSome
  updates : (m.pendingMaskUpdates.map Prod.fst).Nodup

variable {config dummy} {spare : List Nat} {m : Manager Rid Automaton} {rid : Rid} {slot : Nat}

theorem Masked.congr (masked : Masked config spare m) (fewer : List Nat) (next : Manager Rid Automaton)
    (queue : next.pendingMaskUpdates = m.pendingMaskUpdates) (mask : next.gpuActiveSlotMask = m.gpuActiveSlotMask)
    (device : next.gpuSlots.isSome = m.gpuSlots.isSome)
    (same : ∀ slot ≤ config.poolSize, slot ∉ fewer → slot ∉ spare ∧ (Used next slot ↔ Used m slot)) :
    Masked config fewer next := by
  refine ⟨?_, by rw [mask]; exact masked.sized, by rw [mask, device]; exact masked.present, by rw [queue]; exact masked.updates⟩
  intro pooled slot inside apart
  obtain ⟨before, use⟩ := same slot inside apart
  rw [plannedMask, queue, mask]
  refine (masked.planned pooled slot inside before).trans ?_
  split
  · next used =>
    rw [if_pos (use.mpr used)]
  · next used =>
    rw [if_neg fun now => used (use.mp now)]

section
variable (masked : Masked config spare m) (val : Nat) (fewer : List Nat)
  (settled : slot ∉ fewer → val = if Used m slot then 1 else 0)
  (others : ∀ other, other ∉ fewer → other ≠ slot → other ∉ spare)

include masked settled others

theorem Masked.queue : Masked config fewer { m with pendingMaskUpdates := put slot val m.pendingMaskUpdates } := by
  refine ⟨?_, masked.sized, masked.present, nodup_put slot _ val masked.updates⟩
  intro pooled other inside apart
  rw [plannedMask, find_put]
  by_cases same : other = slot
  · subst same
    rw [if_pos rfl]
    exact settled apart
  · rw [if_neg same]
    exact masked.planned pooled other inside (others other apart same)

theorem Masked.queue_update : Masked config fewer (queueMaskUpdate config slot val m) := by
  unfold queueMaskUpdate
  split
  · exact masked.queue val fewer settled others
  · next pooled =>
    exact { masked with planned := fun on => absurd on pooled }

end

theorem allocate_masked (next : Manager Rid Automaton) (masked : Masked config [] m)
    (done : allocateSlot config zeroed m = .ok (slot, next)) : Masked config [slot] next := by
  rcases allocate_cases zeroed done with ⟨split, rfl⟩ | ⟨old, newer, empty, kept, rfl⟩
  · exact masked.congr [slot] _ rfl rfl rfl fun _ _ _ => ⟨not_mem_nil, Iff.rfl⟩
  have evicted : Masked config [slot] (clearSlot zeroed slot { m with retainedSlots := newer }) := by
    refine masked.congr [slot] _ rfl rfl (Option.isSome_map ..) fun other _ apart => ⟨not_mem_nil, ?_⟩
    have ne : other ≠ slot := fun same => apart (mem_singleton.mpr same)
    show other ∈ m.activeSlots ∨ other ∈ newer.map Prod.fst ↔ other ∈ m.activeSlots ∨ other ∈ m.retainedSlots.map Prod.fst
    rw [kept, map_cons, mem_cons, or_iff_right ne]
  exact evicted.queue 0 [slot] (fun absent => absurd (mem_singleton.mpr rfl) absent) fun other apart _ => apart

theorem occupy_masked [DecidableEq Rid] (rid : Rid) (tokens : List Int) (masked : Masked config [slot] m)
    (placed : Placed config dummy [slot] m) :
    Masked config [] (queueMaskUpdate config slot 1 (buildState build rid tokens (occupySlot rid slot m))) := by
  have active : (occupySlot rid slot m).activeSlots = slot :: m.activeSlots := insert_of_not_mem placed.spare_apart.2.1
  have occupied : Masked config [slot] (buildState build rid tokens (occupySlot rid slot m)) := by
    refine masked.congr [slot] _ rfl rfl rfl fun other _ apart => ⟨apart, ?_⟩
    have ne : other ≠ slot := fun same => apart (mem_singleton.mpr same)
    show other ∈ (occupySlot rid slot m).activeSlots ∨ _ ↔ _
    rw [active, mem_cons, or_iff_right ne]
    exact Iff.rfl
  apply occupied.queue_update 1 []
  · intro _
    have used : Used (buildState build rid tokens (occupySlot rid slot m)) slot :=
      Or.inl (show slot ∈ (occupySlot rid slot m).activeSlots from active ▸ mem_cons_self)
    rw [if_pos used]
  · intro other _ apart mem
    exact apart (mem_singleton.mp mem)

theorem free_masked [DecidableEq Rid] (masked : Masked config [slot] m) (placed : Placed config dummy [slot] m) :
    Masked config [] (freeSlot config zeroed slot m) := by
  have queued : Masked config [] (queueMaskUpdate config slot 0 m) := by
    apply masked.queue_update 0 []
    · intro _
      have unused : ¬Used m slot := not_or.mpr placed.spare_apart.2
      rw [if_neg unused]
    · intro other _ apart mem
      exact apart (mem_singleton.mp mem)
  exact queued.congr [] _ rfl rfl (Option.isSome_map ..) fun _ _ _ => ⟨not_mem_nil, Iff.rfl⟩

theorem workspace_masked (masked : Masked config [] m) : Masked config [] (ensureWorkspace config zeroed m) := by
  unfold ensureWorkspace
  cases allocated : m.gpuSlots with
  | some slots => exact masked
  | none =>
    by_cases pooled : config.enableGlobalPool = true
    · have absent : m.gpuActiveSlotMask = none := by
        have there := masked.present pooled
        rw [allocated] at there
        exact Option.not_isSome_iff_eq_none.mp (by rw [there]; exact Bool.false_ne_true)
      rw [if_pos pooled]
      refine ⟨?_, ?_, fun _ => rfl, masked.updates⟩
      · intro _ slot inside apart
        have before := masked.planned pooled slot inside apart
        rw [plannedMask, absent] at before
        have zero : (List.replicate (config.poolSize + 1) 0)[slot]? = some 0 :=
          getElem?_replicate_of_lt (Nat.lt_succ_of_le inside)
        rw [plannedMask, Option.getD_some, zero]
        exact before
      · intro mask fresh
        cases fresh
        exact length_replicate
    · rw [if_neg pooled]
      exact ⟨fun on => absurd on pooled, masked.sized, fun on => absurd on pooled, masked.updates⟩

theorem foldl_set {updates : Table Nat Nat} (values : List Nat) (nodup : (updates.map Prod.fst).Nodup) :
    (updates.foldl (fun values update => values.set update.1 update.2) values).length = values.length ∧
    ∀ slot < values.length, (updates.foldl (fun values update => values.set update.1 update.2) values)[slot]? =
      some ((find slot updates).getD (values[slot]?.getD 0)) := by
  induction updates generalizing values with
  | nil =>
    refine ⟨rfl, fun slot inside => ?_⟩
    simp [find, inside]
  | cons update rest ih =>
    rw [map_cons, nodup_cons] at nodup
    obtain ⟨length, read⟩ := ih (values.set update.1 update.2) nodup.2
    rw [length_set] at length read
    refine ⟨length, fun slot inside => ?_⟩
    rw [foldl_cons, read slot inside, find_cons]
    by_cases here : update.1 = slot
    · have once := find_none (here ▸ nodup.1)
      rw [if_pos here, once, ← here, getElem?_set_self (here ▸ inside)]
      rfl
    · rw [if_neg here, getElem?_set_ne here]

theorem flush_mask (mask : List Nat) (masked : Masked config [] m) (pooled : config.enableGlobalPool = true)
    (there : m.gpuActiveSlotMask = some mask) :
    ∃ flushed, (flushMaskUpdates m).gpuActiveSlotMask = some flushed ∧ flushed.length = config.poolSize + 1 ∧
      ∀ slot ≤ config.poolSize, flushed[slot]? = some (if Used m slot then 1 else 0) := by
  obtain ⟨length, read⟩ := foldl_set mask masked.updates
  have size := masked.sized mask there
  refine ⟨_, by rw [flushMaskUpdates, there], length.trans size, ?_⟩
  intro slot inside
  have planned := masked.planned pooled slot inside not_mem_nil
  rw [plannedMask, there, Option.getD_some] at planned
  rw [read slot (by omega), planned]

theorem flush_masked (masked : Masked config [] m) : Masked config [] (flushMaskUpdates m) := by
  cases there : m.gpuActiveSlotMask with
  | none =>
    rw [flushMaskUpdates, there]
    exact masked
  | some mask =>
    obtain ⟨length, _⟩ := foldl_set mask masked.updates
    rw [flushMaskUpdates, there]
    refine ⟨?_, ?_, fun pooled => (congrArg Option.isSome there).symm.trans (masked.present pooled), nodup_nil⟩
    · intro pooled slot inside _
      obtain ⟨flushed, now, _, read⟩ := flush_mask mask masked pooled there
      rw [flushMaskUpdates, there] at now
      cases now
      show ((_)[slot]?).getD 0 = _
      rw [Option.getD_some, read slot inside]
      rfl
    · intro flushed now
      cases now
      exact length.trans (masked.sized mask there)

end TrtLlm.Suffix
