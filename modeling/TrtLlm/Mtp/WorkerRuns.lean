import TrtLlm.Mtp.WorkerCapacity

set_option autoImplicit false

namespace TrtLlm.Mtp
open List Lib.Table
open Lib (Table)

theorem insert_request_perm (id : Nat) (st : RequestState) (reqs : Table Nat RequestState) :
    (insertRequest id st reqs).Perm ((id, st) :: reqs) := by
  induction reqs with
  | nil => exact Perm.refl _
  | cons entry rest ih =>
    rw [insertRequest]
    split
    · rfl
    · exact (ih.cons entry).trans (Perm.swap (id, st) entry rest)

theorem find_insert_request (id other : Nat) (st : RequestState) (reqs : Table Nat RequestState)
    (missing : id ∉ reqs.map Prod.fst) :
    find other (insertRequest id st reqs) = if other = id then some st else find other reqs := by
  induction reqs with
  | nil => simp [insertRequest, find, eq_comm]
  | cons entry rest ih =>
    rw [map_cons, mem_cons, not_or] at missing
    rw [insertRequest]
    split
    · simp only [find_cons, eq_comm]
    · rw [find_cons, find_cons, ih missing.2]
      by_cases here : entry.1 = other
      · rw [if_pos here, if_neg (fun same => missing.1 (same.symm.trans here.symm)), if_pos here]
      · rw [if_neg here, if_neg here]

namespace Qwen35MtpWorker

def heldSlots (w : Qwen35MtpWorker) : List Nat := w.requests.filterMap fun entry => entry.2.slot

structure Sound (w : Qwen35MtpWorker) : Prop where
  distinct : (w.requests.map Prod.fst).Nodup
  drafting : ∀ entry ∈ w.requests, 1 ≤ entry.2.draftLength
  fits : ∀ entry ∈ w.requests, w.Fits entry.2
  holding : w.pagedKv = true → ∀ entry ∈ w.requests, entry.2.slot.isSome = true
  slots : w.pagedKv = true → (w.freeSlots ++ w.heldSlots).Perm (List.range w.maxBatchSize)

def SameConfig (start w : Qwen35MtpWorker) : Prop :=
  w.maxSequenceLength = start.maxSequenceLength ∧ w.maxBatchSize = start.maxBatchSize ∧
    w.maxDraftLength = start.maxDraftLength ∧ w.mergeDraftBatches = start.mergeDraftBatches ∧ w.pagedKv = start.pagedKv

variable (w : Qwen35MtpWorker) (requestId : Nat) (context : Bool) (hiddenStates : Option Nat)
    (rotaryCache : Bool) (positionDelta : Int)

section
variable (sound : w.Sound)

include sound

theorem sound_release : (w.release requestId).Sound := by
  rw [release]
  cases found : w.requests.find requestId with
  | none => exact sound
  | some st =>
    have old : ∀ entry ∈ w.requests.remove requestId, entry ∈ w.requests := mem_remove
    refine ⟨(keys_remove).nodup sound.distinct, ?_, ?_, ?_, ?_⟩
    · exact fun entry mem => sound.drafting entry (old entry mem)
    · exact fun entry mem => sound.fits entry (old entry mem)
    · exact fun paged entry mem => sound.holding paged entry (old entry mem)
    intro paged
    have mem := mem_of_find st found
    obtain ⟨slot, slotEq⟩ : ∃ slot, st.slot = some slot := Option.isSome_iff_exists.mp (sound.holding paged _ mem)
    have held := (remove_perm st found).filterMap fun entry => entry.2.slot
    rw [filterMap_cons] at held
    simp only [slotEq] at held
    have freed : ((slot :: w.freeSlots) ++ (w.requests.remove requestId).filterMap fun entry => entry.2.slot).Perm
        (w.freeSlots ++ w.heldSlots) :=
      perm_middle.symm.trans (held.append_left w.freeSlots)
    have free : (if w.pagedKv = true then st.slot.toList ++ w.freeSlots else w.freeSlots) =
        slot :: w.freeSlots := by
      rw [if_pos paged, slotEq]
      rfl
    dsimp only [heldSlots]
    rw [free]
    exact freed.trans (sound.slots paged)

theorem release_missing : requestId ∉ (w.release requestId).requests.map Prod.fst := by
  apply not_mem_keys
  rw [release]
  cases found : w.requests.find requestId with
  | none => exact found
  | some st =>
    refine (find_remove requestId sound.distinct).trans ?_
    rw [if_pos rfl]

theorem sound_insert {st : RequestState} {free : List Nat}
    (missing : requestId ∉ w.requests.map Prod.fst) (fresh : st.draftLength = 1 ∧ st.tokens = [])
    (taken : w.pagedKv = true → ∃ slot, st.slot = some slot ∧ w.freeSlots = slot :: free) :
    Sound { w with freeSlots := free, requests := insertRequest requestId st w.requests } := by
  have perm := insert_request_perm requestId st w.requests
  have either : ∀ entry ∈ insertRequest requestId st w.requests, entry = (requestId, st) ∨ entry ∈ w.requests :=
    fun entry mem => mem_cons.mp (perm.mem_iff.mp mem)
  refine ⟨?_, ?_, ?_, ?_, ?_⟩
  · exact (perm.map Prod.fst).nodup_iff.mpr (nodup_cons.mpr ⟨missing, sound.distinct⟩)
  · intro entry mem
    rcases either entry mem with rfl | old
    · exact le_of_eq fresh.1.symm
    · exact sound.drafting entry old
  · intro entry mem
    rcases either entry mem with rfl | old
    · refine .inr ?_
      rw [fresh.2]
      exact Nat.zero_le _
    · exact sound.fits entry old
  · intro paged entry mem
    rcases either entry mem with rfl | old
    · obtain ⟨slot, slotEq, _⟩ := taken paged
      rw [slotEq]
      rfl
    · exact sound.holding paged entry old
  · intro paged
    obtain ⟨slot, slotEq, freeEq⟩ := taken paged
    have held := perm.filterMap fun entry => entry.2.slot
    rw [filterMap_cons] at held
    simp only [slotEq] at held
    have before := sound.slots paged
    rw [freeEq] at before
    exact ((held.append_left free).trans perm_middle).trans before

theorem sound_start_context : (w.startContext requestId).1.Sound := by
  have released := w.sound_release requestId sound
  have missing := w.release_missing requestId sound
  simp only [startContext]
  split
  · cases free : (w.release requestId).freeSlots with
    | nil => exact released
    | cons slot rest =>
      exact sound_insert _ requestId released missing ⟨rfl, rfl⟩ fun _ => ⟨slot, rfl, free⟩
  · next paged =>
    exact sound_insert _ requestId released missing ⟨rfl, rfl⟩ fun paged' => absurd paged' paged

theorem sound_update (change : RequestState → RequestState) (slot : ∀ st, (change st).slot = st.slot)
    (fits : ∀ st, w.requests.find requestId = some st → w.Fits (change st))
    (drafting : ∀ st, w.requests.find requestId = some st → 1 ≤ (change st).draftLength) :
    Sound { w with requests := w.requests.update requestId change } := by
  have either := mem_update requestId w.requests change
  refine ⟨?_, ?_, ?_, ?_, ?_⟩
  · rw [keys_update]
    exact sound.distinct
  · intro entry mem
    rcases either entry mem with old | ⟨st, found, rfl⟩
    · exact sound.drafting entry old
    · exact drafting st found
  · intro entry mem
    rcases either entry mem with old | ⟨st, found, rfl⟩
    · exact sound.fits entry old
    · exact fits st found
  · intro paged entry mem
    rcases either entry mem with old | ⟨st, found, rfl⟩
    · exact sound.holding paged entry old
    · rw [slot]
      exact sound.holding paged _ (mem_of_find st found)
  · intro paged
    dsimp only [heldSlots]
    rw [filter_map_update RequestState.slot change slot]
    exact sound.slots paged

theorem sound_retain : (w.retain requestId context hiddenStates rotaryCache positionDelta).1.Sound := by
  rw [retain]
  cases found : w.requests.find requestId with
  | none => exact sound
  | some st =>
    dsimp only
    split
    · exact sound
    next refused =>
    refine sound_update w requestId sound _ ?_ ?_ ?_
    · exact fun _ => rfl
    · intro other foundOther
      rw [found] at foundOther
      cases foundOther
      refine .inr ?_
      simp only [Bool.or_eq_true, Bool.not_eq_true', not_or, Bool.not_eq_false, List.isEmpty_iff] at refused
      rw [refused.2]
      exact Nat.zero_le _
    · intro other foundOther
      exact sound.drafting _ (mem_of_find other foundOther)

end

theorem capture_rule {P : Qwen35MtpWorker → Prop} (here : P w) (started : P (w.startContext requestId).1)
    (retained : ∀ v : Qwen35MtpWorker, P v → P (v.retain requestId context hiddenStates rotaryCache positionDelta).1) :
    P (w.capture requestId context hiddenStates rotaryCache positionDelta).1 := by
  rw [capture]
  split
  · split
    · next stage => rwa [stage] at started
    · next stage =>
      rw [stage] at started
      exact retained _ started
  · exact retained w here

theorem sound_capture (sound : w.Sound) : (w.capture requestId context hiddenStates rotaryCache positionDelta).1.Sound :=
  w.capture_rule _ _ _ _ _ sound (w.sound_start_context requestId sound) fun v => v.sound_retain _ _ _ _ _

theorem sound_queue (tokens : List Nat) (draftLength : Nat) (sound : w.Sound) :
    (w.queue requestId tokens draftLength).1.Sound := by
  rw [queue]
  cases found : w.requests.find requestId with
  | none => exact sound
  | some st =>
    dsimp only
    by_cases busy : (!st.tokens.isEmpty) = true
    · rw [if_pos busy]
      exact sound
    rw [if_neg busy]
    by_cases wide : (tokens.isEmpty || !st.context && decide (w.maxDraftLength + 1 < tokens.length)) = true
    · rw [if_pos wide]
      exact sound
    rw [if_neg wide]
    by_cases long : draftLength = 0 ∨ w.maxDraftLength < draftLength
    · rw [if_pos long]
      exact sound
    rw [if_neg long]
    refine sound_update w requestId sound _ ?_ ?_ ?_
    · exact fun _ => rfl
    · intro other foundOther
      rw [found] at foundOther
      cases foundOther
      cases kind : st.context with
      | true => exact .inl rfl
      | false =>
        rw [kind] at wide
        simp only [Bool.not_false, Bool.true_and, Bool.or_eq_true, decide_eq_true_eq, not_or, not_lt] at wide
        exact .inr wide.2
    · intro _ _
      exact Nat.one_le_iff_ne_zero.mpr fun zero => long (.inl zero)

theorem draft_device_passed : w.Passed w.merges (range (w.maxDraftLength + 2)) w.requests []
      (w.draftDevice.1.requests, w.draftDevice.2.1, w.draftDevice.2.2) :=
  w.draft_groups_passed w.merges (range (w.maxDraftLength + 2)) w.requests []

theorem sound_draft_device (sound : w.Sound) : w.draftDevice.1.Sound := by
  obtain ⟨change, keeps, changed⟩ := w.draft_device_passed.kept
  have requestsEq : w.draftDevice.1.requests = w.requests.map fun entry => (entry.1, change entry.2) := changed
  have from_old : ∀ entry ∈ w.draftDevice.1.requests, ∃ old ∈ w.requests, entry.2 = change old.2 := by
    intro entry mem
    rw [requestsEq] at mem
    obtain ⟨old, oldMem, rfl⟩ := mem_map.mp mem
    exact ⟨old, oldMem, rfl⟩
  refine ⟨?_, ?_, ?_, ?_, ?_⟩
  · rw [requestsEq, map_map]
    exact sound.distinct
  · intro entry mem
    obtain ⟨old, oldMem, same⟩ := from_old entry mem
    rw [same, (keeps old.2).draftLength]
    exact sound.drafting old oldMem
  · intro entry mem
    obtain ⟨old, oldMem, same⟩ := from_old entry mem
    rw [same]
    exact (keeps old.2).fits (sound.fits old oldMem)
  · intro paged entry mem
    obtain ⟨old, oldMem, same⟩ := from_old entry mem
    rw [same, (keeps old.2).slot]
    exact sound.holding paged old oldMem
  · intro paged
    have held : w.draftDevice.1.heldSlots = w.heldSlots := by
      rw [heldSlots, requestsEq, filterMap_map, heldSlots]
      apply filterMap_congr
      intro entry _
      exact (keeps entry.2).slot
    rw [held]
    exact sound.slots paged

theorem sound_call (call : Call) (sound : w.Sound) : (call.apply w).Sound := by
  cases call with
  | capture requestId context hiddenStates rotaryCache positionDelta =>
    exact w.sound_capture requestId context hiddenStates rotaryCache positionDelta sound
  | queue requestId tokens draftLength => exact w.sound_queue requestId tokens draftLength sound
  | draftDevice => exact w.sound_draft_device sound
  | release requestId => exact w.sound_release requestId sound

theorem release_config : SameConfig w (w.release requestId) := by
  rw [release]
  cases w.requests.find requestId with
  | none | some st => exact ⟨rfl, rfl, rfl, rfl, rfl⟩

theorem config_trans {first second third : Qwen35MtpWorker} (left : SameConfig first second)
    (right : SameConfig second third) : SameConfig first third :=
  ⟨right.1.trans left.1, right.2.1.trans left.2.1, right.2.2.1.trans left.2.2.1, right.2.2.2.1.trans left.2.2.2.1,
    right.2.2.2.2.trans left.2.2.2.2⟩

theorem start_context_config : SameConfig w (w.startContext requestId).1 := by
  have released := w.release_config requestId
  simp only [startContext]
  split
  · cases (w.release requestId).freeSlots with
    | nil => exact released
    | cons slot rest => exact released
  · exact released

theorem retain_config : SameConfig w (w.retain requestId context hiddenStates rotaryCache positionDelta).1 := by
  rw [retain]
  cases w.requests.find requestId with
  | none => exact ⟨rfl, rfl, rfl, rfl, rfl⟩
  | some st =>
    dsimp only
    split
    · exact ⟨rfl, rfl, rfl, rfl, rfl⟩
    · exact ⟨rfl, rfl, rfl, rfl, rfl⟩

theorem capture_config : SameConfig w (w.capture requestId context hiddenStates rotaryCache positionDelta).1 :=
  w.capture_rule _ _ _ _ _ (P := SameConfig w) ⟨rfl, rfl, rfl, rfl, rfl⟩ (w.start_context_config requestId)
    fun v same => config_trans same (v.retain_config _ _ _ _ _)

theorem queue_config (tokens : List Nat) (draftLength : Nat) : SameConfig w (w.queue requestId tokens draftLength).1 := by
  rw [queue]
  cases w.requests.find requestId with
  | none => exact ⟨rfl, rfl, rfl, rfl, rfl⟩
  | some st =>
    repeat' split
    all_goals exact ⟨rfl, rfl, rfl, rfl, rfl⟩

theorem call_config (call : Call) : SameConfig w (call.apply w) := by
  cases call with
  | capture requestId context hiddenStates rotaryCache positionDelta =>
    exact w.capture_config requestId context hiddenStates rotaryCache positionDelta
  | queue requestId tokens draftLength => exact w.queue_config requestId tokens draftLength
  | draftDevice => exact ⟨rfl, rfl, rfl, rfl, rfl⟩
  | release requestId => exact w.release_config requestId

theorem retain_capacity : (w.retain requestId context hiddenStates rotaryCache positionDelta).2 ≠ some .capacity := by
  rw [retain]
  cases w.requests.find requestId with
  | none => exact fun failed => by cases failed
  | some st =>
    dsimp only
    split
    · exact fun failed => by cases failed
    · exact fun failed => by cases failed

variable (sound : w.Sound)

include sound

theorem held_length (paged : w.pagedKv = true) : w.heldSlots.length = w.requests.length := by
  have holding := sound.holding paged
  rw [heldSlots]
  generalize w.requests = reqs at holding
  induction reqs with
  | nil => rfl
  | cons entry rest ih =>
    obtain ⟨slot, slotEq⟩ := Option.isSome_iff_exists.mp (holding entry mem_cons_self)
    have later := ih (forall_mem_cons.mp holding).2
    simp only [filterMap_cons, slotEq, length_cons, later]

theorem slots_length (paged : w.pagedKv = true) : w.freeSlots.length + w.requests.length = w.maxBatchSize := by
  have whole := (sound.slots paged).length_eq
  rwa [length_append, length_range, w.held_length sound paged] at whole

theorem release_exhausted (paged : w.pagedKv = true) : (w.release requestId).freeSlots = [] ↔
      w.requests.find requestId = none ∧ w.requests.length = w.maxBatchSize := by
  have whole := w.slots_length sound paged
  rw [release]
  cases found : w.requests.find requestId with
  | none =>
    rw [← length_eq_zero_iff]
    constructor
    · intro empty
      exact ⟨rfl, by dsimp only at empty; omega⟩
    · rintro ⟨_, full⟩
      dsimp only
      omega
  | some st =>
    have mem := mem_of_find st found
    obtain ⟨slot, slotEq⟩ : ∃ slot, st.slot = some slot := Option.isSome_iff_exists.mp (sound.holding paged _ mem)
    dsimp only
    rw [if_pos paged, slotEq]
    constructor
    · intro empty
      cases empty
    · rintro ⟨missing, _⟩
      cases missing

theorem start_context_capacity : (w.startContext requestId).2 = some .capacity ↔
      w.pagedKv = true ∧ w.requests.find requestId = none ∧ w.requests.length = w.maxBatchSize := by
  have cfg : (w.release requestId).pagedKv = w.pagedKv := (w.release_config requestId).2.2.2.2
  simp only [startContext]
  by_cases paged : w.pagedKv = true
  · have exhausted := w.release_exhausted requestId sound paged
    rw [if_pos (cfg.trans paged)]
    cases free : (w.release requestId).freeSlots with
    | nil =>
      have full := exhausted.mp free
      exact ⟨fun _ => ⟨paged, full⟩, fun _ => rfl⟩
    | cons slot rest =>
      constructor
      · intro failed
        cases failed
      · rintro ⟨_, full⟩
        rw [exhausted.mpr full] at free
        cases free
  · rw [cfg, if_neg paged]
    constructor
    · intro failed
      cases failed
    · exact fun full => absurd full.1 paged

theorem capture_capacity : (w.capture requestId context hiddenStates rotaryCache positionDelta).2 = some .capacity ↔
      context = true ∧ w.pagedKv = true ∧ w.requests.find requestId = none ∧ w.requests.length = w.maxBatchSize := by
  rw [capture]
  cases context with
  | false =>
    constructor
    · intro failed
      exact absurd failed (w.retain_capacity requestId false hiddenStates rotaryCache positionDelta)
    · rintro ⟨wrong, _⟩
      cases wrong
  | true =>
    have first := w.start_context_capacity requestId sound
    cases stage : w.startContext requestId with
    | mk next error =>
      rw [stage] at first
      cases error with
      | some error => exact first.trans ⟨fun full => ⟨rfl, full⟩, fun full => full.2⟩
      | none =>
        constructor
        · intro failed
          exact absurd failed (next.retain_capacity requestId true hiddenStates rotaryCache positionDelta)
        · intro full
          cases first.mpr full.2

omit sound

theorem reached_all (merge : Bool) (st : RequestState) (fits : w.Fits st) :
    reached merge (range (w.maxDraftLength + 2)) st = st.queued := by
  have within : groupOf merge st < w.maxDraftLength + 2 := by
    rw [groupOf]
    rcases fits with context | few
    · rw [if_pos context]
      exact Nat.succ_pos _
    split
    · exact Nat.succ_pos _
    · split
      · exact Nat.succ_lt_succ (Nat.succ_pos _)
      · exact Nat.lt_succ_of_le few
  rw [reached, decide_eq_true (mem_range.mpr within), Bool.and_true]

structure DraftsOnce (w : Qwen35MtpWorker) : Prop where
  ids : w.draftDevice.2.1.Perm ((w.requests.filter fun entry => entry.2.queued).map Prod.fst)
  distinct : w.draftDevice.2.1.Nodup
  length : ∀ id state, w.requests.find id = some state → ∃ next, w.draftDevice.1.requests.find id = some next ∧
    next.tokens = [] ∧ next.length = state.length + state.tokens.length
  others : ∀ id state, w.requests.find id = some state → state.queued = false → w.draftDevice.1.requests.find id = some state

theorem draft_device_find (fine : w.draftDevice.2.2 = none) (id : Nat) : w.draftDevice.1.requests.find id =
    (w.requests.find id).map (w.drafts w.merges (range (w.maxDraftLength + 2))) := by
  have exactly : w.draftDevice.1.requests = _ := w.draft_device_passed.exactly fine
  rw [exactly, find_map]

theorem drafts_once (sound : w.Sound) (fine : w.draftDevice.2.2 = none) : w.DraftsOnce := by
  have after := w.draft_device_find fine
  have all : ∀ entry ∈ w.requests, reached w.merges (range (w.maxDraftLength + 2)) entry.2 = entry.2.queued :=
    fun entry mem => w.reached_all w.merges entry.2 (sound.fits entry mem)
  have once : w.draftDevice.2.1.Perm ((w.requests.filter fun entry => entry.2.queued).map Prod.fst) := by
    have perm := w.draft_device_passed.once fine
    rwa [filter_congr all, nil_append] at perm
  have idle : ∀ id state, w.requests.find id = some state → state.queued = false →
      w.draftDevice.1.requests.find id = some state := by
    intro id state found waiting
    have skipped := (all _ (mem_of_find state found)).trans waiting
    rw [after, found, Option.map_some, drafts, if_neg (Bool.eq_false_iff.mp skipped)]
  refine ⟨once, ?_, ?_, idle⟩
  · exact once.nodup_iff.mpr ((filter_sublist.map Prod.fst).nodup sound.distinct)
  intro id state found
  cases queued : state.queued with
  | false =>
    rw [RequestState.queued, Bool.not_eq_false', List.isEmpty_iff] at queued
    refine ⟨state, idle id state found ?_, queued, ?_⟩
    · rw [RequestState.queued, queued]
      rfl
    · rw [queued]
      rfl
  | true =>
    have chosen := (all _ (mem_of_find state found)).trans queued
    refine ⟨w.outcome state, ?_, w.outcome_tokens state, rfl⟩
    rw [after, found, Option.map_some, drafts, if_pos chosen]

end Qwen35MtpWorker

-- The worker with the number of tokens queued for each request since its context was captured, and whether a
-- draftDevice call has thrown.
structure Run where
  worker : Qwen35MtpWorker
  ledger : Nat → Nat := fun _ => 0
  thrown : Bool := false

def Run.step (r : Run) (call : Call) : Run where
  worker := call.apply r.worker
  ledger := match call with
    | .capture requestId true _ _ _ => Function.update r.ledger requestId 0
    | .queue requestId tokens draftLength =>
      if (r.worker.queue requestId tokens draftLength).2 = none then
        Function.update r.ledger requestId (r.ledger requestId + tokens.length)
      else r.ledger
    | _ => r.ledger
  thrown := r.thrown || (decide (call = .draftDevice) && r.worker.draftDevice.2.2.isSome)

namespace Qwen35MtpWorker

-- What a request has committed and what waits for it make up what was queued: no speculative row is among it.
def Booked (w : Qwen35MtpWorker) (ledger : Nat → Nat) : Prop :=
  ∀ id state, w.requests.find id = some state → state.length + state.tokens.length = ledger id

section
variable {w : Qwen35MtpWorker} {ledger : Nat → Nat} (booked : w.Booked ledger)

include booked

theorem Booked.release (requestId : Nat) (sound : w.Sound) : (w.release requestId).Booked ledger := by
  unfold Qwen35MtpWorker.release
  split
  · exact booked
  · intro id state found
    rw [find_remove id sound.distinct] at found
    split at found
    · cases found
    · exact booked id state found

theorem Booked.retain (requestId : Nat) (context : Bool) (hiddenStates : Option Nat) (rotaryCache : Bool)
    (positionDelta : Int) : (w.retain requestId context hiddenStates rotaryCache positionDelta).1.Booked ledger := by
  unfold Qwen35MtpWorker.retain
  split
  · exact booked
  split
  · exact booked
  · intro id state found
    rw [find_update] at found
    split at found
    · obtain ⟨old, known, rfl⟩ := Option.map_eq_some_iff.mp found
      rename_i same
      exact booked id old (same ▸ known)
    · exact booked id state found

theorem Booked.start_context (requestId : Nat) (sound : w.Sound) :
    (w.startContext requestId).1.Booked (Function.update ledger requestId 0) := by
  have released := booked.release requestId sound
  have missing := w.release_missing requestId sound
  have gone : (w.release requestId).requests.find requestId = none := find_none missing
  have kept : ∀ fresh : RequestState, fresh.length = 0 → fresh.tokens = [] → ∀ id state,
      find id (insertRequest requestId fresh (w.release requestId).requests) = some state →
        state.length + state.tokens.length = Function.update ledger requestId 0 id := by
    intro fresh empty idle id state found
    rw [find_insert_request _ _ _ _ missing] at found
    split at found
    · rename_i same
      cases found
      rw [same, Function.update_self, empty, idle]
      rfl
    · rename_i other
      rw [Function.update_of_ne other]
      exact released id state found
  unfold startContext
  dsimp only
  split
  · split
    · intro id state found
      have other : id ≠ requestId := fun same => by
        rw [same, gone] at found
        cases found
      rw [Function.update_of_ne other]
      exact released id state found
    · exact kept _ rfl rfl
  · exact kept _ rfl rfl

theorem Booked.queue (requestId : Nat) (tokens : List Nat) (draftLength : Nat) :
    (w.queue requestId tokens draftLength).1.Booked
      (if (w.queue requestId tokens draftLength).2 = none then
        Function.update ledger requestId (ledger requestId + tokens.length) else ledger) := by
  unfold Qwen35MtpWorker.queue
  split
  · exact booked
  rename_i st known
  split
  · exact booked
  rename_i idle
  split
  · exact booked
  split
  · exact booked
  · intro id state found
    have empty : st.tokens = [] := by simpa using idle
    have before := booked requestId st known
    rw [find_update] at found
    rw [if_pos rfl]
    split at found
    · rename_i same
      rw [known] at found
      cases found
      rw [same, Function.update_self, ← before, empty]
      rfl
    · rename_i other
      rw [Function.update_of_ne other]
      exact booked id state found

theorem Booked.draft_device (sound : w.Sound) (fine : w.draftDevice.2.2 = none) : w.draftDevice.1.Booked ledger := by
  intro id state found
  have before := found
  rw [w.draft_device_find fine] at before
  obtain ⟨old, known, -⟩ := Option.map_eq_some_iff.mp before
  obtain ⟨next, again, idle, grown⟩ := (w.drafts_once sound fine).length id old known
  cases found.symm.trans again
  rw [idle, grown]
  exact booked id old known

end

theorem Booked.step (r : Run) (call : Call) (booked : r.worker.Booked r.ledger) (sound : r.worker.Sound)
    (fine : (r.step call).thrown = false) : (r.step call).worker.Booked (r.step call).ledger := by
  cases call with
  | capture requestId context hiddenStates rotaryCache positionDelta =>
    change (r.worker.capture requestId context hiddenStates rotaryCache positionDelta).1.Booked _
    unfold capture
    cases context with
    | false => exact booked.retain _ _ _ _ _
    | true =>
      have started := booked.start_context requestId sound
      rw [if_pos rfl]
      split
      · rename_i stage
        rwa [stage] at started
      · rename_i stage
        rw [stage] at started
        exact started.retain _ _ _ _ _
  | queue requestId tokens draftLength => exact booked.queue requestId tokens draftLength
  | draftDevice =>
    refine booked.draft_device sound ?_
    have quiet : r.worker.draftDevice.2.2.isSome = false := by simpa [Run.step] using (Bool.or_eq_false_iff.mp fine).2
    exact Option.isNone_iff_eq_none.mp (by simpa using quiet)
  | release requestId => exact booked.release requestId sound

theorem run_kept (calls : List Call) (r : Run) (sound : r.worker.Sound)
    (booked : r.thrown = false → r.worker.Booked r.ledger) :
    (calls.foldl Run.step r).worker.Sound ∧ SameConfig r.worker (calls.foldl Run.step r).worker ∧
      ((calls.foldl Run.step r).thrown = false → (calls.foldl Run.step r).worker.Booked (calls.foldl Run.step r).ledger) := by
  induction calls generalizing r with
  | nil => exact ⟨sound, ⟨rfl, rfl, rfl, rfl, rfl⟩, booked⟩
  | cons call rest ih =>
    have next := ih (r.step call) (r.worker.sound_call call sound) fun fine =>
      Booked.step r call (booked (Bool.or_eq_false_iff.mp fine).1) sound fine
    exact ⟨next.1, config_trans (r.worker.call_config call) next.2.1, next.2.2⟩

theorem worker_keeps_requests (maxSequenceLength maxBatchSize maxDraftLength : Nat) (mergeDraftBatches pagedKv : Bool)
    (start : Qwen35MtpWorker) (calls : List Call) (r : Run)
    (created : create maxSequenceLength maxBatchSize maxDraftLength mergeDraftBatches pagedKv = .ok start)
    (ran : calls.foldl Run.step { worker := start } = r) :
    (pagedKv = true → (r.worker.freeSlots ++ r.worker.heldSlots).Perm (List.range maxBatchSize) ∧
      ∀ entry ∈ r.worker.requests, entry.2.slot.isSome = true) ∧
    (r.worker.draftDevice.2.2 = none → r.worker.DraftsOnce) ∧ (r.thrown = false → r.worker.Booked r.ledger) ∧
    ((pagedKv = true ∨ r.worker.requests.length ≤ maxBatchSize) → (∀ entry ∈ r.worker.requests, entry.2.queued = true →
        entry.2.length + entry.2.tokens.length + entry.2.draftLength - 1 ≤ maxSequenceLength) →
      r.worker.draftDevice.2.2 ≠ some .capacity) ∧ ∀ requestId context hiddenStates rotaryCache positionDelta,
      (r.worker.capture requestId context hiddenStates rotaryCache positionDelta).2 = some .capacity ↔
        context = true ∧ pagedKv = true ∧ r.worker.requests.find requestId = none ∧
          r.worker.requests.length = maxBatchSize := by
  have ⟨fields, startSound, empty⟩ : (start.maxSequenceLength = maxSequenceLength ∧ start.maxBatchSize = maxBatchSize ∧
      start.pagedKv = pagedKv) ∧ start.Sound ∧ start.requests = [] := by
    rw [create] at created
    split at created
    · cases created
    cases created
    refine ⟨⟨rfl, rfl, rfl⟩, ⟨nodup_nil, nofun, nofun, nofun, fun paged => ?_⟩, rfl⟩
    have paged' : pagedKv = true := paged
    rw [heldSlots, filterMap_nil, append_nil]
    rw [if_pos paged']
  obtain ⟨sound, cfg, booked⟩ := run_kept calls { worker := start } startSound fun _ id state found => by
    rw [empty] at found
    cases found
  rw [ran] at sound cfg booked
  obtain ⟨sequences, batch, _, _, paging⟩ := cfg
  rw [← fields.1, ← fields.2.1, ← fields.2.2, ← sequences, ← batch, ← paging]
  refine ⟨fun paged => ⟨sound.slots paged, sound.holding paged⟩, r.worker.drafts_once sound, booked, ?_, ?_⟩
  · intro few roomy
    have small : r.worker.requests.length ≤ r.worker.maxBatchSize := by
      rcases few with paged | small
      · have whole := r.worker.slots_length sound paged
        omega
      · exact small
    exact r.worker.draft_device_capacity small fun entry mem queued =>
      ⟨sound.drafting entry mem, roomy entry mem queued⟩
  · exact fun requestId context hiddenStates rotaryCache positionDelta =>
      r.worker.capture_capacity requestId context hiddenStates rotaryCache positionDelta sound

def exampleCalls : List Call :=
  [.capture 7 true (some 4) true 0, .queue 7 [11, 12, 13] 2, .capture 9 true (some 4) true 0, .queue 9 [21] 3,
    .draftDevice, .capture 7 false (some 2) true 0, .queue 7 [14, 15] 1, .capture 9 false (some 2) true 0,
    .queue 9 [22] 2]

theorem merged_prompts_drafted_once : ∃ start r, create 8 2 3 true true = .ok start ∧
    exampleCalls.foldl Run.step { worker := start } = r ∧ r.worker.merges = true ∧ r.worker.draftDevice.2 = ([7, 9], none) ∧
    r.worker.DraftsOnce ∧ r.ledger 7 = 5 ∧ r.worker.Booked r.ledger ∧
    (r.worker.freeSlots ++ r.worker.heldSlots).Perm (List.range 2) := by
  have kept := worker_keeps_requests 8 2 3 true true ⟨8, 2, 3, true, true, [0, 1], []⟩ exampleCalls _ rfl rfl
  exact ⟨_, _, rfl, rfl, by decide, by decide, kept.2.1 (by decide), by decide, kept.2.2.1 (by decide), (kept.1 rfl).1⟩

-- The second prompt has no room for its last speculative row, so that draftDevice throws half way.
def throwingCalls : List Call :=
  [.capture 1 true (some 3) true 0, .queue 1 [11, 12, 13] 3, .capture 2 true (some 7) true 0,
    .queue 2 [21, 22, 23, 24, 25, 26, 27] 3, .draftDevice, .release 2, .draftDevice]

-- After the throw speculative rows are committed: three tokens were queued, the length is five. Apart from that, a second
-- prompt on a worker of one slot stops at a capacity check however short, and without a paged cache there are no slots.
theorem speculative_rows_committed :
    (∃ start r, create 8 2 3 true true = .ok start ∧ throwingCalls.foldl Run.step { worker := start } = r ∧
      (r.worker.requests.find 1).map (·.length) = some 5 ∧ r.ledger 1 = 3) ∧
    (∃ start r, create 8 1 1 true true = .ok start ∧
      [Call.capture 1 true (some 1) true 0].foldl Run.step { worker := start } = r ∧
      (∀ entry ∈ r.worker.requests, entry.2.length + entry.2.tokens.length + entry.2.draftLength - 1 ≤ 8) ∧
      (r.worker.capture 2 true (some 1) true 0).2 = some .capacity) ∧
    ∃ start, create 8 1 1 true false = .ok start ∧ ¬(start.freeSlots ++ start.heldSlots).Perm (List.range 1) := by
  refine ⟨⟨_, _, rfl, rfl, by decide, by decide⟩, ⟨_, _, rfl, rfl, by decide, by decide⟩, _, rfl, by decide⟩

end Qwen35MtpWorker
end TrtLlm.Mtp
