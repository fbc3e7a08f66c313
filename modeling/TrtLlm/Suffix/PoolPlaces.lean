import TrtLlm.Lib.Runs
import TrtLlm.Lib.Table

set_option autoImplicit false

namespace TrtLlm.Suffix
open List Lib.Table
open Lib (Table)

def defaultPoolSize : Nat := 64

structure SaConfig where
  maxSlots : Nat := 256
  enableGlobalPool : Bool := false
  globalPoolSize : Option Nat := none
deriving DecidableEq, Repr

def SaConfig.effectivePoolSize (config : SaConfig) : Nat :=
  match config.globalPoolSize with
  | some size => size
  | none => if config.enableGlobalPool then max defaultPoolSize config.maxSlots else config.maxSlots

structure PoolConfig where
  maxNumRequests : Nat
  enableGlobalPool : Bool
  poolSize : Nat
  roomy : maxNumRequests ≤ poolSize

def poolConfig (config : SaConfig) (maxNumRequests : Nat) : Except String PoolConfig :=
  if small : config.effectivePoolSize < maxNumRequests then
    .error s!"global_pool_size ({config.effectivePoolSize}) must be >= max_batch_size ({maxNumRequests})"
  else
    .ok ⟨maxNumRequests, config.enableGlobalPool, config.effectivePoolSize, Nat.le_of_not_lt small⟩

def PoolConfig.dummySlotIndex (config : PoolConfig) : Nat := config.poolSize

variable {Rid Automaton : Type} [DecidableEq Rid]

-- Sets as lists in which nothing is added twice.
structure Manager (Rid Automaton : Type) where
  requestToSlot : Table Rid Nat
  freeSlots : List Nat
  hostStates : Table Rid Automaton
  pendingCopies : List Rid
  pendingMaskUpdates : Table Nat Nat
  dummyRequestIds : List Rid
  retainedSlots : Table Nat Rid
  activeSlots : List Nat
  -- None until the first prepare allocates the workspace.
  gpuSlots : Option (List Automaton)
  gpuActiveSlotMask : Option (List Nat)
  gpuBatchIndices : List Nat
  gpuNondummyMask : List Nat

def initManager (config : PoolConfig) : Manager Rid Automaton where
  requestToSlot := []
  freeSlots := List.range config.poolSize
  hostStates := []
  pendingCopies := []
  pendingMaskUpdates := []
  dummyRequestIds := []
  retainedSlots := []
  activeSlots := []
  gpuSlots := none
  gpuActiveSlotMask := none
  gpuBatchIndices := []
  gpuNondummyMask := []

variable (config : PoolConfig) (build : List Int → Automaton) (zeroed : Automaton)

def ensureWorkspace (m : Manager Rid Automaton) : Manager Rid Automaton :=
  match m.gpuSlots with
  | some _ => m
  | none =>
    { m with
      gpuBatchIndices := List.replicate config.maxNumRequests 0
      gpuNondummyMask := List.replicate config.maxNumRequests 1
      gpuSlots := some (List.replicate (config.poolSize + 1) zeroed)
      gpuActiveSlotMask :=
        if config.enableGlobalPool then some (List.replicate (config.poolSize + 1) 0) else m.gpuActiveSlotMask }

def clearSlot (slot : Nat) (m : Manager Rid Automaton) : Manager Rid Automaton :=
  { m with gpuSlots := m.gpuSlots.map fun slots => slots.set slot zeroed }

def allocateSlot (m : Manager Rid Automaton) : Except String (Nat × Manager Rid Automaton) :=
  match m.freeSlots.getLast? with
  | some slot => .ok (slot, { m with freeSlots := m.freeSlots.dropLast })
  | none =>
    match m.retainedSlots with
    | (slot, _) :: newer =>
      let evicted := clearSlot zeroed slot { m with retainedSlots := newer }
      .ok (slot, { evicted with pendingMaskUpdates := Table.put slot 0 evicted.pendingMaskUpdates })
    | [] => .error s!"No free or retained slots available. pool_size={config.poolSize}, active={m.activeSlots.length}"

variable (rid : Rid)

def buildState (contextTokens : List Int) (m : Manager Rid Automaton) : Manager Rid Automaton :=
  { m with
    hostStates := Table.put rid (build contextTokens) m.hostStates
    pendingCopies := m.pendingCopies.insert rid }

def occupySlot (slot : Nat) (m : Manager Rid Automaton) : Manager Rid Automaton :=
  { m with
    requestToSlot := Table.put rid slot m.requestToSlot
    activeSlots := m.activeSlots.insert slot }

def queueMaskUpdate (slot value : Nat) (m : Manager Rid Automaton) : Manager Rid Automaton :=
  if config.enableGlobalPool then { m with pendingMaskUpdates := Table.put slot value m.pendingMaskUpdates } else m

def addRequest (contextTokens : List Int) (m : Manager Rid Automaton) : Except String (Manager Rid Automaton) :=
  match Table.find rid m.requestToSlot with
  | some _ => .ok (buildState build rid contextTokens m)
  | none =>
    (allocateSlot config zeroed m).map fun allocated =>
      queueMaskUpdate config allocated.1 1 (buildState build rid contextTokens (occupySlot rid allocated.1 allocated.2))

def forgetRequest (m : Manager Rid Automaton) : Manager Rid Automaton :=
  { m with
    hostStates := Table.clear rid m.hostStates
    pendingCopies := m.pendingCopies.filter fun other => other ≠ rid }

def freeSlot (slot : Nat) (m : Manager Rid Automaton) : Manager Rid Automaton :=
  let queued := queueMaskUpdate config slot 0 m
  clearSlot zeroed slot { queued with freeSlots := queued.freeSlots ++ [slot] }

def removeRequest (m : Manager Rid Automaton) : Manager Rid Automaton :=
  match Table.find rid m.requestToSlot with
  | none => m
  | some slot =>
    let popped := { m with requestToSlot := Table.remove rid m.requestToSlot }
    if rid ∈ m.dummyRequestIds then
      { popped with dummyRequestIds := m.dummyRequestIds.filter fun other => other ≠ rid }
    else
      let idle := { popped with activeSlots := m.activeSlots.erase slot }
      if config.enableGlobalPool ∧ config.poolSize > config.maxNumRequests ∧ rid ∉ m.pendingCopies then
        forgetRequest rid { idle with retainedSlots := Table.put slot rid m.retainedSlots }
      else
        forgetRequest rid (freeSlot config zeroed slot idle)

def addDummyRequest (m : Manager Rid Automaton) : Manager Rid Automaton :=
  match Table.find rid m.requestToSlot with
  | some _ => m
  | none =>
    { m with
      requestToSlot := Table.put rid config.dummySlotIndex m.requestToSlot
      dummyRequestIds := m.dummyRequestIds.insert rid }

def addDummyRequests (rids : List Rid) (m : Manager Rid Automaton) : Manager Rid Automaton :=
  rids.foldl (fun state rid => addDummyRequest config rid state) m

def copyState (m : Manager Rid Automaton) : Manager Rid Automaton :=
  match Table.find rid m.hostStates, Table.find rid m.requestToSlot with
  | some state, some slot => { m with gpuSlots := m.gpuSlots.map fun slots => slots.set slot state }
  | _, _ => m

-- The pending copies are walked in any order.
def copyPending (order : List Rid) (m : Manager Rid Automaton) : Manager Rid Automaton :=
  { order.foldl (fun state rid => copyState rid state) m with pendingCopies := [] }

def flushMaskUpdates (m : Manager Rid Automaton) : Manager Rid Automaton :=
  match m.gpuActiveSlotMask with
  | none => m
  | some mask =>
    { m with
      gpuActiveSlotMask := some (m.pendingMaskUpdates.foldl (fun values update => values.set update.1 update.2) mask)
      pendingMaskUpdates := [] }

def overwrite {α : Type} (new old : List α) : List α := new ++ old.drop new.length

-- Ids beyond the staging buffers raise before the batch reaches the device; the flag says whether it was written.
def writeBatch (requestIds : List Rid) (m : Manager Rid Automaton) : Manager Rid Automaton × Bool :=
  let slots := requestIds.map fun rid => (Table.find rid m.requestToSlot).getD config.dummySlotIndex
  if requestIds.length ≤ config.maxNumRequests then
    ({ m with
       gpuBatchIndices := overwrite slots m.gpuBatchIndices
       gpuNondummyMask := overwrite (slots.map fun slot => if slot = config.dummySlotIndex then 0 else 1) m.gpuNondummyMask },
     true)
  else (m, false)

def prepare (order requestIds : List Rid) (m : Manager Rid Automaton) : Manager Rid Automaton × Bool :=
  writeBatch config requestIds (flushMaskUpdates (copyPending order (ensureWorkspace config zeroed m)))

variable (dummy : Rid → Bool)

-- The padding ids are fixed for the whole run.
def liveReal (m : Manager Rid Automaton) : Table Rid Nat := m.requestToSlot.filter fun entry => !dummy entry.1

-- Every slot is in one place. A spare one is taken out of one container and not yet put into the next.
structure Placed (spare : List Nat) (m : Manager Rid Automaton) : Prop where
  partition : (spare ++ (m.freeSlots ++ (m.activeSlots ++ m.retainedSlots.map Prod.fst))).Perm (List.range config.poolSize)
  keys : (m.requestToSlot.map Prod.fst).Nodup
  owned : ((liveReal dummy m).map Prod.snd).Perm m.activeSlots
  dummies : ∀ rid, rid ∈ m.dummyRequestIds ↔ (Table.find rid m.requestToSlot).isSome ∧ dummy rid = true
  retaining : m.retainedSlots ≠ [] → config.enableGlobalPool = true

variable {config dummy} {spare : List Nat} {m : Manager Rid Automaton} {rid : Rid} {slot : Nat}

section

variable (placed : Placed config dummy spare m)

include placed

theorem Placed.nodup : (spare ++ (m.freeSlots ++ (m.activeSlots ++ m.retainedSlots.map Prod.fst))).Nodup :=
  placed.partition.nodup_iff.mpr nodup_range

theorem Placed.active_nodup : m.activeSlots.Nodup :=
  placed.nodup.of_append_right.of_append_right.of_append_left

theorem Placed.in_pool (used : slot ∈ m.activeSlots ∨ slot ∈ m.retainedSlots.map Prod.fst) : slot < config.poolSize := by
  apply mem_range.mp
  apply placed.partition.subset
  simp only [mem_append]
  exact .inr (.inr used)

theorem Placed.active_not_retained (active : slot ∈ m.activeSlots) : slot ∉ m.retainedSlots.map Prod.fst := fun retained =>
  disjoint_of_nodup_append placed.nodup.of_append_right.of_append_right active retained

end

theorem Placed.spare_apart (placed : Placed config dummy [slot] m) :
    slot ∉ m.freeSlots ∧ slot ∉ m.activeSlots ∧ slot ∉ m.retainedSlots.map Prod.fst := by
  have apart : slot ∉ m.freeSlots ++ (m.activeSlots ++ m.retainedSlots.map Prod.fst) := (nodup_cons.mp placed.nodup).1
  rw [mem_append, mem_append, not_or, not_or] at apart
  exact apart

section
variable (real : dummy rid = false) (found : Table.find rid m.requestToSlot = some slot)

include real found

theorem mem_live : (rid, slot) ∈ liveReal dummy m :=
  mem_filter.mpr ⟨mem_of_find slot found, by simp [real]⟩

theorem Placed.active_of_live (placed : Placed config dummy spare m) : slot ∈ m.activeSlots :=
  placed.owned.subset (mem_map.mpr ⟨(rid, slot), mem_live real found, rfl⟩)

theorem Placed.live_unique (placed : Placed config dummy spare m) (other : Rid) (realOther : dummy other = false)
    (foundOther : find other m.requestToSlot = some slot) : rid = other := by
  have nodup : ((liveReal dummy m).map Prod.snd).Nodup := placed.owned.nodup_iff.mpr placed.active_nodup
  have same := inj_on_of_nodup_map nodup (mem_live real found) (mem_live realOther foundOther) rfl
  exact congrArg Prod.fst same

end

omit [DecidableEq Rid] in
theorem allocate_cases {next : Manager Rid Automaton} (done : allocateSlot config zeroed m = .ok (slot, next)) :
    (m.freeSlots = m.freeSlots.dropLast ++ [slot] ∧ next = { m with freeSlots := m.freeSlots.dropLast }) ∨
    ∃ old newer, m.freeSlots = [] ∧ m.retainedSlots = (slot, old) :: newer ∧
      next = { clearSlot zeroed slot { m with retainedSlots := newer } with
        pendingMaskUpdates := put slot 0 m.pendingMaskUpdates } := by
  unfold allocateSlot at done
  split at done
  · next top last =>
    cases done
    exact .inl ⟨(dropLast_append_getLast? _ last).symm, rfl⟩
  next last =>
  cases kept : m.retainedSlots with
  | nil =>
    rw [kept] at done
    cases done
  | cons oldest newer =>
    rw [kept] at done
    cases done
    exact .inr ⟨oldest.2, newer, getLast?_eq_none_iff.mp last, rfl, rfl⟩

theorem allocate_room (placed : Placed config dummy [] m) (room : (liveReal dummy m).length < config.maxNumRequests) :
    ∃ slot next, allocateSlot config zeroed m = .ok (slot, next) := by
  unfold allocateSlot
  cases last : m.freeSlots.getLast? with
  | some top => exact ⟨_, _, rfl⟩
  | none =>
    cases kept : m.retainedSlots with
    | cons oldest newer => exact ⟨_, _, rfl⟩
    | nil =>
      have all := placed.partition.length_eq
      have active := placed.owned.length_eq
      rw [getLast?_eq_none_iff.mp last, kept] at all
      simp only [nil_append, map_nil, append_nil, length_range] at all
      rw [length_map] at active
      have roomy := config.roomy
      omega

theorem allocate_placed (next : Manager Rid Automaton) (placed : Placed config dummy [] m)
    (done : allocateSlot config zeroed m = .ok (slot, next)) : Placed config dummy [slot] next := by
  rcases allocate_cases zeroed done with ⟨split, rfl⟩ | ⟨old, newer, empty, kept, rfl⟩
  · refine { placed with partition := ?_ }
    refine Perm.trans ?_ placed.partition
    rw [split, dropLast_concat, append_assoc]
    exact perm_append_comm_assoc [slot] _ _
  · refine { placed with partition := ?_, retaining := fun _ => placed.retaining (by rw [kept]; nofun) }
    refine Perm.trans ?_ placed.partition
    rw [kept]
    exact (perm_append_comm_assoc [slot] m.freeSlots _).trans
      ((perm_append_comm_assoc [slot] m.activeSlots _).append_left _)

theorem live_put (keys : find rid m.requestToSlot = none) (real : dummy rid = false) :
    liveReal dummy (occupySlot rid slot m) = liveReal dummy m ++ [(rid, slot)] := by
  unfold liveReal occupySlot
  rw [put_missing slot keys, filter_append]
  simp [real]

theorem occupy_placed (placed : Placed config dummy [slot] m) (real : dummy rid = false)
    (missing : find rid m.requestToSlot = none) : Placed config dummy [] (occupySlot rid slot m) := by
  have apart := placed.spare_apart
  have active : (occupySlot rid slot m).activeSlots = slot :: m.activeSlots := insert_of_not_mem apart.2.1
  refine ⟨?_, nodup_put rid _ slot placed.keys, ?_, ?_, placed.retaining⟩
  · rw [active]
    exact perm_middle.trans placed.partition
  · rw [live_put missing real, active, map_append]
    exact perm_append_singleton slot _ |>.trans (placed.owned.cons slot)
  intro other
  rw [show (occupySlot rid slot m).dummyRequestIds = m.dummyRequestIds from rfl, placed.dummies,
    show (occupySlot rid slot m).requestToSlot = put rid slot m.requestToSlot from rfl, find_put]
  by_cases same : other = rid
  · simp [same, real]
  · rw [if_neg same]

theorem live_remove (dummy : Rid → Bool) (found : find rid m.requestToSlot = some slot) :
    ((if dummy rid then [] else [(rid, slot)]) ++
      (remove rid m.requestToSlot).filter fun entry => !dummy entry.1).Perm (liveReal dummy m) := by
  have taken := (remove_perm slot found).filter fun entry => !dummy entry.1
  cases padding : dummy rid <;> simpa [padding, liveReal] using taken

theorem idle_placed (placed : Placed config dummy [] m) (found : find rid m.requestToSlot = some slot)
    (real : dummy rid = false) : Placed config dummy [slot]
      { m with requestToSlot := remove rid m.requestToSlot, activeSlots := m.activeSlots.erase slot } := by
  have active := placed.active_of_live real found
  have erased := perm_cons_erase active
  refine ⟨?_, placed.keys.sublist (keys_remove), ?_, ?_, placed.retaining⟩
  · refine Perm.trans ?_ placed.partition
    refine (perm_append_comm_assoc [slot] m.freeSlots _).trans (Perm.append_left _ ?_)
    exact erased.symm.append_right _
  · have rest := (live_remove dummy found).map Prod.snd
    rw [real] at rest
    exact (rest.trans (placed.owned.trans erased)).cons_inv
  · intro other
    rw [placed.dummies]
    rw [find_remove other placed.keys]
    by_cases same : other = rid
    · simp [same, real]
    · rw [if_neg same]

theorem retain_placed (rid : Rid) (placed : Placed config dummy [slot] m) (pooled : config.enableGlobalPool = true) :
    Placed config dummy [] { m with retainedSlots := put slot rid m.retainedSlots } := by
  have missing := find_none placed.spare_apart.2.2
  refine { placed with partition := ?_, retaining := fun _ => pooled }
  refine Perm.trans ?_ placed.partition
  rw [show put slot rid m.retainedSlots = _ from put_missing rid missing, map_append,
    ← append_assoc, ← append_assoc, ← append_assoc]
  simp only [nil_append, append_assoc]
  rw [← append_assoc m.activeSlots, ← append_assoc m.freeSlots]
  exact (perm_append_singleton slot _).trans (by simp)

theorem free_placed (placed : Placed config dummy [slot] m) :
    Placed config dummy [] { m with freeSlots := m.freeSlots ++ [slot] } := by
  refine { placed with partition := ?_ }
  refine Perm.trans ?_ placed.partition
  rw [nil_append, append_assoc]
  exact perm_middle

theorem dummy_add_placed (placed : Placed config dummy [] m) (padding : dummy rid = true) :
    Placed config dummy [] (addDummyRequest config rid m) := by
  unfold addDummyRequest
  cases found : find rid m.requestToSlot with
  | some slot => exact placed
  | none =>
    refine ⟨placed.partition, nodup_put rid _ _ placed.keys, ?_, ?_, placed.retaining⟩
    · show (((put rid config.dummySlotIndex m.requestToSlot).filter _).map _).Perm _
      rw [put_missing _ found, filter_append]
      simpa [padding, liveReal] using placed.owned
    intro other
    rw [find_put, mem_insert_iff, placed.dummies]
    by_cases same : other = rid
    · simp [same, padding]
    · simp [same]

end TrtLlm.Suffix
