import TrtLlm.Suffix.PoolMask

set_option autoImplicit false

namespace TrtLlm.Suffix
open Lib.Table

open Lib (Table Trace AllSteps)

variable {Rid Automaton : Type} [DecidableEq Rid]
variable (config : PoolConfig) (build : List Int → Automaton) (zeroed : Automaton)
variable (dummy : Rid → Bool)

structure Pool (Rid Automaton : Type) where
  manager : Manager Rid Automaton
  record : Record Rid

inductive Call (Rid : Type) where
  | addRequest (rid : Rid) (contextTokens : List Int)
  | addRequestRaises (rid : Rid) (contextTokens : List Int) (message : String)
  | removeRequest (rid : Rid)
  | addDummyRequests (rids : List Rid)
  | prepare (requestIds : List Rid)

inductive Step : Pool Rid Automaton → Call Rid → Pool Rid Automaton → Prop
  | addRequest {s : Pool Rid Automaton} (rid : Rid) (contextTokens : List Int) {next : Manager Rid Automaton} :
      addRequest config build zeroed rid contextTokens s.manager = .ok next →
      Step s (.addRequest rid contextTokens) ⟨next, recordRequest rid contextTokens next s.record⟩
  | addRequestRaises {s : Pool Rid Automaton} (rid : Rid) (contextTokens : List Int) (message : String) :
      addRequest config build zeroed rid contextTokens s.manager = .error message →
      Step s (.addRequestRaises rid contextTokens message) s
  | removeRequest {s : Pool Rid Automaton} (rid : Rid) :
      Step s (.removeRequest rid) ⟨removeRequest config zeroed rid s.manager, s.record⟩
  | addDummyRequests {s : Pool Rid Automaton} (rids : List Rid) :
      Step s (.addDummyRequests rids) ⟨addDummyRequests config rids s.manager, s.record⟩
  | prepare {s : Pool Rid Automaton} (order requestIds : List Rid) :
      order.Perm s.manager.pendingCopies →
      Step s (.prepare requestIds) ⟨(prepare config zeroed order requestIds s.manager).1, s.record⟩

-- A real request is added only below the limit, or to rebuild a live one; padding ids are never real.
def Guard (s : Pool Rid Automaton) : Call Rid → Prop
  | .addRequest rid _ | .addRequestRaises rid _ _ =>
    dummy rid = false ∧ ((Table.find rid s.manager.requestToSlot).isSome = true ∨
      (liveReal dummy s.manager).length < config.maxNumRequests)
  | .addDummyRequests rids => ∀ rid ∈ rids, dummy rid = true
  | .removeRequest _ | .prepare _ => True

structure Sound (s : Pool Rid Automaton) : Prop where
  placed : Placed config dummy [] s.manager
  held : Held config build dummy s.record s.manager.pendingCopies s.manager
  masked : Masked config [] s.manager

-- The mask is 1 exactly for the slots in use, each with the automaton of its request.
structure Published (s : Pool Rid Automaton) : Prop where
  mask : ∃ mask, s.manager.gpuActiveSlotMask = some mask ∧ mask.length = config.poolSize + 1 ∧
    ∀ slot ≤ config.poolSize, mask[slot]? = some (if Used s.manager slot then 1 else 0)
  active : ∀ rid slot, dummy rid = false → Table.find rid s.manager.requestToSlot = some slot →
    ∃ tokens, s.record slot = some (rid, tokens) ∧ OnDevice s.manager slot (build tokens)
  retained : ∀ slot rid, Table.find slot s.manager.retainedSlots = some rid →
    ∃ tokens, s.record slot = some (rid, tokens) ∧ OnDevice s.manager slot (build tokens)

variable {config build zeroed dummy} {m : Manager Rid Automaton} {rid : Rid} {slot : Nat} {record : Record Rid}

theorem sound_initial : Sound config build dummy (⟨initManager config, fun _ => none⟩ : Pool Rid Automaton) := by
  refine ⟨⟨?_, List.nodup_nil, List.Perm.refl _, ?_, fun some => absurd rfl some⟩, ⟨nofun, nofun, nofun, nofun⟩,
    ⟨?_, nofun, fun _ => rfl, List.nodup_nil⟩⟩
  · simp [initManager]
  · intro rid
    simp [initManager, find]
  · intro _ slot _ _
    simp [plannedMask, initManager, find, Used]

omit [DecidableEq Rid] in
theorem queue_frame (config : PoolConfig) (slot : Nat) (m : Manager Rid Automaton) (val : Nat) :
    ∃ updates, queueMaskUpdate config slot val m = { m with pendingMaskUpdates := updates } := by
  unfold queueMaskUpdate
  split
  · exact ⟨_, rfl⟩
  · exact ⟨m.pendingMaskUpdates, rfl⟩

theorem add_sound (tokens : List Int) (next : Manager Rid Automaton) (sound : Sound config build dummy ⟨m, record⟩)
    (real : dummy rid = false) (done : addRequest config build zeroed rid tokens m = .ok next) :
    Sound config build dummy ⟨next, recordRequest rid tokens next record⟩ := by
  obtain ⟨placed, held, masked⟩ := sound
  unfold addRequest at done
  split at done
  · next slot found =>
    cases done
    refine ⟨{ placed with }, build_held held tokens m.requestToSlot m.activeSlots real found (fun _ _ => rfl) ?_
      (placed.active_not_retained (placed.active_of_live real found)) _ rfl, { masked with }⟩
    rintro other own apart realOther foundOther rfl
    exact apart (placed.live_unique realOther foundOther rid real found)
  next found =>
  cases got : allocateSlot config zeroed m with
  | error msg =>
    rw [got] at done
    cases done
  | ok allocated =>
    obtain ⟨slot, taken⟩ := allocated
    rw [got] at done
    have spare := allocate_placed zeroed taken placed got
    have stillMissing : find rid taken.requestToSlot = none := by
      rcases allocate_cases zeroed got with ⟨_, rfl⟩ | ⟨_, _, _, _, rfl⟩ <;> exact found
    have stillWaiting : taken.pendingCopies = m.pendingCopies := by
      rcases allocate_cases zeroed got with ⟨_, rfl⟩ | ⟨_, _, _, _, rfl⟩ <;> rfl
    have heldTaken := allocate_held zeroed held taken placed got
    rw [← stillWaiting] at heldTaken
    have full := occupy_placed spare real stillMissing
    have built := occupy_held heldTaken tokens spare real
    have shown := occupy_masked build rid tokens (allocate_masked zeroed taken masked got) spare
    obtain ⟨updates, queued⟩ := queue_frame config slot (buildState build rid tokens (occupySlot rid slot taken)) 1
    rw [queued] at shown
    have res : next = { buildState build rid tokens (occupySlot rid slot taken) with
        pendingMaskUpdates := updates } := (Except.ok.inj done).symm.trans queued
    subst res
    exact ⟨{ full with },
      { built with }, shown⟩

section

variable (sound : Sound config build dummy ⟨m, record⟩) (found : Table.find rid m.requestToSlot = some slot)
    (real : dummy rid = false)

include sound found real

theorem retain_sound (pooled : config.enableGlobalPool = true) (flushed : rid ∉ m.pendingCopies) (next : Manager Rid Automaton)
    (kept : next = forgetRequest rid
      { m with
        requestToSlot := remove rid m.requestToSlot
        activeSlots := m.activeSlots.erase slot
        retainedSlots := put slot rid m.retainedSlots }) : Sound config build dummy ⟨next, record⟩ := by
  obtain ⟨placed, held, masked⟩ := sound
  have places := retain_placed rid (idle_placed placed found real) pooled
  have active := placed.active_of_live real found
  have contents := idle_held held rid placed (put slot rid m.retainedSlots) (m.activeSlots.erase slot) ?_ next kept
  · subst kept
    refine ⟨{ places with }, contents, masked.congr [] _ rfl rfl rfl fun other _ _ => ⟨List.not_mem_nil, ?_⟩⟩
    show other ∈ m.activeSlots.erase slot ∨ other ∈ (put slot rid m.retainedSlots).map Prod.fst ↔
      other ∈ m.activeSlots ∨ other ∈ m.retainedSlots.map Prod.fst
    rw [placed.active_nodup.mem_erase_iff, mem_keys_put]
    by_cases same : other = slot
    · subst same
      simp [active]
    · simp [same]
  intro own keeper entry
  rw [find_put] at entry
  by_cases same : own = slot
  · subst same
    rw [if_pos rfl] at entry
    cases entry
    obtain ⟨tokens, recorded, _, device⟩ := held.live rid own found real
    exact ⟨tokens, recorded, device flushed⟩
  · rw [if_neg same] at entry
    exact held.kept own keeper entry

theorem free_sound (next : Manager Rid Automaton) (freed : next = forgetRequest rid (freeSlot config zeroed slot
      { m with requestToSlot := remove rid m.requestToSlot, activeSlots := m.activeSlots.erase slot })) :
    Sound config build dummy ⟨next, record⟩ := by
  obtain ⟨placed, held, masked⟩ := sound
  have spare := idle_placed placed found real
  have places := free_placed spare
  have idle : Masked config [slot] { m with
      requestToSlot := remove rid m.requestToSlot, activeSlots := m.activeSlots.erase slot } := by
    refine masked.congr [slot] _ rfl rfl rfl fun other _ apart => ⟨List.not_mem_nil, ?_⟩
    have ne : other ≠ slot := fun same => apart (List.mem_singleton.mpr same)
    show other ∈ m.activeSlots.erase slot ∨ _ ↔ _
    rw [placed.active_nodup.mem_erase_iff, and_iff_right ne]
    exact Iff.rfl
  have shown := free_masked zeroed idle spare
  have dropped := idle_held held rid placed m.retainedSlots (m.activeSlots.erase slot) held.kept _ rfl
  have contents := dropped.set_unused
    { spare with } slot zeroed
    spare.spare_apart.2.1 spare.spare_apart.2.2
  obtain ⟨updates, queued⟩ := queue_frame config slot
    { m with requestToSlot := remove rid m.requestToSlot, activeSlots := m.activeSlots.erase slot } 0
  unfold freeSlot at freed shown
  rw [queued] at freed shown
  subst freed
  exact ⟨{ places with },
    { contents with },
    { shown with }⟩

end

theorem remove_sound (sound : Sound config build dummy ⟨m, record⟩) :
    Sound config build dummy ⟨removeRequest config zeroed rid m, record⟩ := by
  have placed := sound.placed
  unfold removeRequest
  cases found : find rid m.requestToSlot with
  | none => exact sound
  | some slot =>
    have listed : rid ∈ m.dummyRequestIds ↔ dummy rid = true := by
      rw [placed.dummies rid, show find rid m.requestToSlot = some slot from found]
      simp
    by_cases padding : dummy rid = true
    · simp only [if_pos (listed.mpr padding)]
      have masked := sound.masked
      refine ⟨⟨placed.partition, placed.keys.sublist keys_remove, ?_, fun other => ?_, placed.retaining⟩,
        dummy_remove_held sound.held placed padding _, { masked with }⟩
      · have rest := (live_remove dummy found).map Prod.snd
        rw [padding] at rest
        exact rest.trans placed.owned
      · dsimp only
        rw [List.mem_filter, placed.dummies, find_remove other placed.keys]
        by_cases same : other = rid <;> simp [same]
    have real : dummy rid = false := Bool.eq_false_iff.mpr padding
    simp only [if_neg fun mem => padding (listed.mp mem)]
    split
    · rename_i keeps
      exact retain_sound sound found real keeps.1 keeps.2.2 _ rfl
    · exact free_sound sound found real _ rfl

theorem Held.reorder {waiting order : List Rid} (held : Held config build dummy record waiting m)
    (same : order.Perm waiting) : Held config build dummy record order m := by
  refine ⟨fun rid mem => held.waiters rid (same.subset mem), ?_, held.kept, held.sized⟩
  intro rid slot found real
  obtain ⟨tokens, recorded, host, device⟩ := held.live rid slot found real
  exact ⟨tokens, recorded, fun mem => host (same.subset mem),
    fun absent => device fun mem => absent (same.symm.subset mem)⟩

omit [DecidableEq Rid] in
theorem flush_frame (m : Manager Rid Automaton) :
    ∃ mask updates, flushMaskUpdates m = { m with gpuActiveSlotMask := mask, pendingMaskUpdates := updates } := by
  unfold flushMaskUpdates
  split
  · exact ⟨_, _, rfl⟩
  · exact ⟨_, _, rfl⟩

theorem prepare_sound (order requestIds : List Rid) (sound : Sound config build dummy ⟨m, record⟩)
    (walk : order.Perm m.pendingCopies) : Sound config build dummy ⟨(prepare config zeroed order requestIds m).1, record⟩ ∧
      (config.enableGlobalPool = true → Published config build dummy ⟨(prepare config zeroed order requestIds m).1, record⟩) := by
  obtain ⟨placed, held, masked⟩ := sound
  have opened := (workspace_held zeroed held).reorder walk
  have maskOpened := workspace_masked zeroed masked
  obtain ⟨slots, mask, batch, nondummy, frame⟩ := workspace_frame zeroed config m
  have places : Placed config dummy [] (ensureWorkspace config zeroed m) := by
    rw [frame]
    exact { placed with }
  rw [frame] at opened maskOpened places
  obtain ⟨written, folded, settled⟩ := copies_held order slots opened places rfl
  have copied : Masked config [] (copyPending order (ensureWorkspace config zeroed m)) := by
    rw [frame, copyPending, folded]
    exact maskOpened.congr [] _ rfl rfl rfl fun _ _ _ => ⟨List.not_mem_nil, Iff.rfl⟩
  have flushed := flush_masked copied
  obtain ⟨newMask, updates, flushFrame⟩ := flush_frame (copyPending order (ensureWorkspace config zeroed m))
  obtain ⟨newBatch, newNondummy, batchFrame⟩ : ∃ batch nondummy, (writeBatch config requestIds
      (flushMaskUpdates (copyPending order (ensureWorkspace config zeroed m)))).1 = { flushMaskUpdates (copyPending order
        (ensureWorkspace config zeroed m)) with gpuBatchIndices := batch, gpuNondummyMask := nondummy } := by
    unfold writeBatch
    split
    · exact ⟨_, _, rfl⟩
    · exact ⟨_, _, rfl⟩
  have published : config.enableGlobalPool = true → ∃ mask, newMask = some mask ∧
      mask.length = config.poolSize + 1 ∧ ∀ slot ≤ config.poolSize, mask[slot]? = some (if Used m slot then 1 else 0) := by
    intro pooled
    have there := copied.present pooled
    rw [frame, copyPending, folded] at there
    obtain ⟨held, has⟩ := Option.isSome_iff_exists.mp (there.trans rfl)
    have queued : (copyPending order (ensureWorkspace config zeroed m)).gpuActiveSlotMask = some held := by
      rw [frame, copyPending, folded]
      exact has
    obtain ⟨flat, now, length, read⟩ := flush_mask held copied pooled queued
    rw [flushFrame] at now
    refine ⟨flat, now, length, fun slot inside => (read slot inside).trans ?_⟩
    rw [frame, copyPending, folded]
    rfl
  rw [flushFrame, frame, copyPending, folded] at flushed
  rw [prepare, batchFrame, flushFrame, frame, copyPending, folded]
  refine ⟨⟨{ placed with },
    { settled with },
    { flushed with }⟩, fun pooled => ⟨published pooled, ?_, settled.kept⟩⟩
  intro rid slot real found
  obtain ⟨tokens, recorded, _, device⟩ := settled.live rid slot found real
  exact ⟨tokens, recorded, device List.not_mem_nil⟩

def Call.raises : Call Rid → Bool
  | .addRequestRaises .. => true
  | _ => false

def Call.prepares : Call Rid → Bool
  | .prepare _ => true
  | _ => false

theorem dummies_add_sound (rids : List Rid) (sound : Sound config build dummy ⟨m, record⟩)
    (padding : ∀ rid ∈ rids, dummy rid = true) : Sound config build dummy ⟨addDummyRequests config rids m, record⟩ := by
  induction rids generalizing m with
  | nil => exact sound
  | cons rid rest ih =>
    have here := padding rid List.mem_cons_self
    refine ih ⟨dummy_add_placed sound.placed here, dummy_add_held sound.held here, ?_⟩ (List.forall_mem_cons.mp padding).2
    change Masked config [] (addDummyRequest config rid m)
    unfold addDummyRequest
    split
    · exact sound.masked
    · exact { sound.masked with }

theorem step_sound (s next : Pool Rid Automaton) (call : Call Rid) (sound : Sound config build dummy s)
    (guarded : Guard config dummy s call) (step : Step config build zeroed s call next) :
    Sound config build dummy next ∧ call.raises = false ∧
      (call.prepares = true → config.enableGlobalPool = true → Published config build dummy next) := by
  cases step with
  | addRequest rid tokens done => exact ⟨add_sound tokens _ sound guarded.1 done, rfl, nofun⟩
  | addRequestRaises rid tokens msg failed =>
    unfold addRequest at failed
    split at failed
    · cases failed
    next found =>
    obtain ⟨slot, next, done⟩ := allocate_room zeroed sound.placed (guarded.2.resolve_left (by rw [found]; nofun))
    rw [done] at failed
    cases failed
  | removeRequest rid => exact ⟨remove_sound sound, rfl, nofun⟩
  | addDummyRequests rids => exact ⟨dummies_add_sound rids sound guarded, rfl, nofun⟩
  | prepare order requestIds walk =>
    obtain ⟨next, published⟩ := prepare_sound order requestIds sound walk
    exact ⟨next, rfl, fun _ => published⟩

theorem pool_stays_sound (start : Pool Rid Automaton) (run : List (Call Rid × Pool Rid Automaton))
    (sound : Sound config build dummy start) (trace : Trace (Step config build zeroed) start run)
    (guarded : AllSteps (Guard config dummy) start run) :
    ∀ entry ∈ run, Sound config build dummy entry.2 ∧ entry.1.raises = false ∧
      (entry.1.prepares = true → config.enableGlobalPool = true → Published config build dummy entry.2) := by
  induction trace with
  | nil st => nofun
  | @cons st next call rest step _ ih =>
    have now := step_sound st next call sound guarded.1 step
    intro entry mem
    rcases List.mem_cons.mp mem with rfl | later
    · exact now
    · exact ih now.1 guarded.2 entry later

def pairConfig : PoolConfig := ⟨1, true, 2, by decide⟩

end TrtLlm.Suffix
