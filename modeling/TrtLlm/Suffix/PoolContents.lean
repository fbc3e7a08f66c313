import TrtLlm.Suffix.PoolPlaces

set_option autoImplicit false

namespace TrtLlm.Suffix

open List Lib.Table

open Lib (Table)

variable {Rid Automaton : Type} [DecidableEq Rid]
variable (config : PoolConfig) (build : List Int → Automaton) (zeroed : Automaton)
variable (dummy : Rid → Bool)

def OnDevice (m : Manager Rid Automaton) (slot : Nat) (state : Automaton) : Prop :=
  ∃ slots, m.gpuSlots = some slots ∧ slots[slot]? = some state

-- For each slot the request it was last given to and the context that was last added with. This is ghost state.
abbrev Record (Rid : Type) := Nat → Option (Rid × List Int)

-- Requests of the list wait for their copy; all other and the retained slots hold on the device what the record
-- says.
structure Held (record : Record Rid) (waiting : List Rid) (m : Manager Rid Automaton) : Prop where
  waiters : ∀ rid ∈ waiting, dummy rid = false ∧ (Table.find rid m.requestToSlot).isSome
  live : ∀ rid slot, Table.find rid m.requestToSlot = some slot → dummy rid = false → ∃ tokens, record slot = some (rid, tokens) ∧
      (rid ∈ waiting → Table.find rid m.hostStates = some (build tokens)) ∧
      (rid ∉ waiting → OnDevice m slot (build tokens))
  kept : ∀ slot rid, Table.find slot m.retainedSlots = some rid →
    ∃ tokens, record slot = some (rid, tokens) ∧ OnDevice m slot (build tokens)
  sized : ∀ slots, m.gpuSlots = some slots → slots.length = config.poolSize + 1

variable {config build dummy} {spare : List Nat} {m : Manager Rid Automaton} {rid : Rid} {slot : Nat}
variable {record : Record Rid} {waiting : List Rid}

omit [DecidableEq Rid] in
theorem on_device_set (state other : Automaton) (target : Nat) (apart : slot ≠ target) (there : OnDevice m slot state) :
    OnDevice { m with gpuSlots := m.gpuSlots.map fun slots => slots.set target other } slot state := by
  obtain ⟨slots, held, read⟩ := there
  refine ⟨slots.set target other, by rw [held]; rfl, ?_⟩
  rw [getElem?_set_ne (Ne.symm apart)]
  exact read

section
variable (held : Held config build dummy record waiting m)

include held

theorem Held.sized_set (target : Nat) (other : Automaton) :
    ∀ slots, (m.gpuSlots.map fun slots => slots.set target other) = some slots → slots.length = config.poolSize + 1 := by
  intro slots written
  obtain ⟨before, there, rfl⟩ := Option.map_eq_some_iff.mp written
  rw [length_set]
  exact held.sized before there

theorem Held.set_unused (placed : Placed config dummy spare m)
    (target : Nat) (other : Automaton) (idle : target ∉ m.activeSlots) (loose : target ∉ m.retainedSlots.map Prod.fst) :
    Held config build dummy record waiting { m with gpuSlots := m.gpuSlots.map fun slots => slots.set target other } := by
  refine ⟨held.waiters, ?_, ?_, held.sized_set target other⟩
  · intro rid slot found real
    obtain ⟨tokens, recorded, host, device⟩ := held.live rid slot found real
    have apart : slot ≠ target := fun same => idle (same ▸ placed.active_of_live real found)
    exact ⟨tokens, recorded, host, fun done => on_device_set _ _ target apart (device done)⟩
  · intro slot rid found
    obtain ⟨tokens, recorded, device⟩ := held.kept slot rid found
    have apart : slot ≠ target := fun same => loose (same ▸ mem_keys slot _ rid found)
    exact ⟨tokens, recorded, on_device_set _ _ target apart device⟩

theorem allocate_held (next : Manager Rid Automaton)
    (placed : Placed config dummy [] m) (done : allocateSlot config zeroed m = .ok (slot, next)) :
    Held config build dummy record waiting next := by
  have after := allocate_placed zeroed next placed done
  rcases allocate_cases zeroed done with ⟨split, rfl⟩ | ⟨old, newer, empty, kept, rfl⟩
  · exact { held with }
  -- Forgetting the oldest retained slot leaves the entries behind it.
  have fewer : Held config build dummy record waiting { m with retainedSlots := newer } := by
    refine { held with kept := ?_ }
    intro other owner found
    apply held.kept other owner
    have apart : slot ≠ other := fun same => after.spare_apart.2.2 (same ▸ mem_keys other newer owner found)
    rw [kept, find_cons, if_neg apart]
    exact found
  have places : Placed config dummy [slot] { m with retainedSlots := newer } := { after with }
  have cleared := fewer.set_unused places slot zeroed after.spare_apart.2.1 after.spare_apart.2.2
  exact { cleared with }

end

def recordRequest (rid : Rid) (tokens : List Int) (m : Manager Rid Automaton) (record : Record Rid) : Record Rid :=
  fun slot => if Table.find rid m.requestToSlot = some slot then some (rid, tokens) else record slot

section
variable (held : Held config build dummy record m.pendingCopies m)

include held

theorem build_held (tokens : List Int) (table : Table Rid Nat) (active : List Nat) (real : dummy rid = false)
    (owner : find rid table = some slot)
    (others : ∀ other, other ≠ rid → find other table = find other m.requestToSlot)
    (alone : ∀ other own, other ≠ rid → dummy other = false → find other m.requestToSlot = some own → slot ≠ own)
    (loose : slot ∉ m.retainedSlots.map Prod.fst) (next : Manager Rid Automaton)
    (built : next = buildState build rid tokens { m with requestToSlot := table, activeSlots := active }) :
    Held config build dummy (recordRequest rid tokens next record) next.pendingCopies next := by
  subst built
  have waits : ∀ other, other ∈ m.pendingCopies.insert rid ↔ other = rid ∨ other ∈ m.pendingCopies := fun other => mem_insert_iff
  have unrecorded : ∀ own, slot ≠ own → ¬find rid table = some own := by
    intro own apart shared
    rw [owner] at shared
    exact apart (Option.some.inj shared)
  refine ⟨?_, ?_, ?_, held.sized⟩
  · intro other mem
    by_cases same : other = rid
    · subst same
      exact ⟨real, Option.isSome_iff_exists.mpr ⟨slot, owner⟩⟩
    · have before := held.waiters other (((waits other).mp mem).resolve_left same)
      exact ⟨before.1, (others other same).symm ▸ before.2⟩
  · intro other own found realOther
    by_cases same : other = rid
    · subst same
      refine ⟨tokens, if_pos found, fun _ => ?_, fun absent => absurd ((waits other).mpr (.inl rfl)) absent⟩
      exact (find_put other _ _ other).trans (if_pos rfl)
    have foundBefore := (others other same).symm.trans found
    obtain ⟨ctx, recorded, host, device⟩ := held.live other own foundBefore realOther
    have away := unrecorded own (alone other own same realOther foundBefore)
    refine ⟨ctx, (if_neg away).trans recorded, fun mem => ?_, fun absent => device fun before => ?_⟩
    · have before := ((waits other).mp mem).resolve_left same
      exact (find_put rid _ _ other).trans ((if_neg same).trans (host before))
    · exact absent ((waits other).mpr (.inr before))
  · intro other keeper kept
    obtain ⟨ctx, recorded, device⟩ := held.kept other keeper kept
    have away := unrecorded other fun same => loose (same ▸ mem_keys other _ keeper kept)
    exact ⟨ctx, (if_neg away).trans recorded, device⟩

theorem occupy_held (tokens : List Int) (placed : Placed config dummy [slot] m) (real : dummy rid = false) :
    let built := buildState build rid tokens (occupySlot rid slot m)
    Held config build dummy (recordRequest rid tokens built record) built.pendingCopies built := by
  have lookup : ∀ other, find other (put rid slot m.requestToSlot) =
      if other = rid then some slot else find other m.requestToSlot := find_put rid _ slot
  refine build_held held tokens (put rid slot m.requestToSlot) (m.activeSlots.insert slot) real
    ((lookup rid).trans (if_pos rfl)) (fun other apart => (lookup other).trans (if_neg apart)) ?_
    placed.spare_apart.2.2 _ rfl
  rintro other own _ realOther foundOther rfl
  exact placed.spare_apart.2.1 (placed.active_of_live realOther foundOther)

theorem idle_held (rid : Rid) (placed : Placed config dummy [] m) (retained : Table Nat Rid) (active : List Nat)
    (kept : ∀ slot keeper, find slot retained = some keeper →
      ∃ tokens, record slot = some (keeper, tokens) ∧ OnDevice m slot (build tokens)) (next : Manager Rid Automaton)
    (dropped : next = forgetRequest rid
      { m with requestToSlot := remove rid m.requestToSlot, activeSlots := active, retainedSlots := retained }) :
    Held config build dummy record next.pendingCopies next := by
  subst dropped
  have lookup : ∀ other, find other (remove rid m.requestToSlot) =
      if other = rid then none else find other m.requestToSlot :=
    fun other => find_remove other placed.keys
  have waits : ∀ other, other ∈ m.pendingCopies.filter (fun other => other ≠ rid) ↔
      other ∈ m.pendingCopies ∧ other ≠ rid := by simp
  refine ⟨?_, ?_, kept, held.sized⟩
  · intro other mem
    obtain ⟨before, apart⟩ := (waits other).mp mem
    refine ⟨(held.waiters other before).1, ?_⟩
    show (find other (remove rid m.requestToSlot)).isSome
    rw [lookup, if_neg apart]
    exact (held.waiters other before).2
  intro other own found realOther
  have foundNow : find other (remove rid m.requestToSlot) = some own := found
  rw [lookup] at foundNow
  split at foundNow
  · cases foundNow
  next same =>
  obtain ⟨ctx, recorded, host, device⟩ := held.live other own foundNow realOther
  refine ⟨ctx, recorded, fun mem => ?_, fun absent => device fun before => absent ?_⟩
  · show find other (clear rid m.hostStates) = _
    rw [find_clear, if_neg same]
    exact host ((waits other).mp mem).1
  · exact (waits other).mpr ⟨before, same⟩

theorem dummy_add_held (padding : dummy rid = true) :
    Held config build dummy record (addDummyRequest config rid m).pendingCopies (addDummyRequest config rid m) := by
  unfold addDummyRequest
  cases missing : find rid m.requestToSlot with
  | some slot => exact held
  | none =>
    have lookup := find_put rid m.requestToSlot config.dummySlotIndex
    refine ⟨?_, ?_, held.kept, held.sized⟩
    · intro other mem
      obtain ⟨real, there⟩ := held.waiters other mem
      refine ⟨real, ?_⟩
      rw [lookup]
      split
      · rfl
      · exact there
    · intro other own found real
      have apart : other ≠ rid := by
        rintro rfl
        rw [padding] at real
        cases real
      exact held.live other own (((lookup other).trans (if_neg apart)).symm.trans found) real

theorem dummy_remove_held (placed : Placed config dummy [] m) (padding : dummy rid = true) (ids : List Rid) :
    Held config build dummy record m.pendingCopies
      { m with requestToSlot := remove rid m.requestToSlot, dummyRequestIds := ids } := by
  have apart : ∀ other, dummy other = false → other ≠ rid := by
    rintro other real rfl
    rw [padding] at real
    cases real
  have lookup : ∀ other, dummy other = false →
      find other (remove rid m.requestToSlot) = find other m.requestToSlot := fun other real =>
    (find_remove other placed.keys).trans (if_neg (apart other real))
  refine ⟨?_, ?_, held.kept, held.sized⟩
  · intro other mem
    obtain ⟨real, there⟩ := held.waiters other mem
    exact ⟨real, (lookup other real).symm ▸ there⟩
  · intro other own found real
    exact held.live other own ((lookup other real).symm.trans found) real

theorem workspace_held : Held config build dummy record m.pendingCopies (ensureWorkspace config zeroed m) := by
  unfold ensureWorkspace
  cases allocated : m.gpuSlots with
  | some slots => exact held
  | none =>
    -- Before the first prepare nothing is on the device.
    have nothing : ∀ slot state, ¬OnDevice m slot state := by
      rintro slot state ⟨slots, there, _⟩
      rw [allocated] at there
      cases there
    refine ⟨held.waiters, ?_, ?_, ?_⟩
    · intro rid slot found real
      obtain ⟨tokens, recorded, host, device⟩ := held.live rid slot found real
      exact ⟨tokens, recorded, host, fun absent => absurd (device absent) (nothing _ _)⟩
    · intro slot rid found
      obtain ⟨tokens, _, device⟩ := held.kept slot rid found
      exact absurd device (nothing _ _)
    · intro slots fresh
      cases fresh
      exact length_replicate

end

theorem copy_held (rest : List Rid) (held : Held config build dummy record (rid :: rest) m)
    (placed : Placed config dummy spare m) (allocated : m.gpuSlots.isSome) :
    Held config build dummy record rest (copyState rid m) := by
  obtain ⟨real, there⟩ := held.waiters rid mem_cons_self
  obtain ⟨slot, found⟩ := Option.isSome_iff_exists.mp there
  obtain ⟨tokens, recorded, host, _⟩ := held.live rid slot found real
  have copied : copyState rid m = { m with gpuSlots := m.gpuSlots.map fun slots => slots.set slot (build tokens) } := by
    unfold copyState
    rw [host mem_cons_self, found]
  have active := placed.active_of_live real found
  rw [copied]
  refine ⟨(forall_mem_cons.mp held.waiters).2, ?_, ?_, held.sized_set slot _⟩
  · intro other own foundOther realOther
    by_cases same : other = rid
    · subst same
      cases found.symm.trans foundOther
      refine ⟨tokens, recorded, fun _ => host mem_cons_self, fun _ => ?_⟩
      obtain ⟨slots, before⟩ := Option.isSome_iff_exists.mp allocated
      have inside : slot < slots.length := by
        have pool := placed.in_pool (.inl active)
        have size := held.sized slots before
        omega
      exact ⟨slots.set slot (build tokens), by rw [before]; rfl, getElem?_set_self inside⟩
    · obtain ⟨ctx, recordedOther, hostOther, device⟩ := held.live other own foundOther realOther
      have apart : own ≠ slot := fun shared =>
        same (placed.live_unique realOther (shared ▸ foundOther) rid real found)
      refine ⟨ctx, recordedOther, fun mem => hostOther (mem_cons_of_mem _ mem), fun absent => ?_⟩
      apply on_device_set _ _ slot apart
      apply device
      intro mem
      exact (mem_cons.mp mem).elim same absent
  · intro other keeper kept
    obtain ⟨ctx, recordedOther, device⟩ := held.kept other keeper kept
    have apart : other ≠ slot := fun shared =>
      placed.active_not_retained active (shared ▸ mem_keys other _ keeper kept)
    exact ⟨ctx, recordedOther, on_device_set _ _ slot apart device⟩

omit [DecidableEq Rid] in
theorem workspace_frame (config : PoolConfig) (m : Manager Rid Automaton) :
    ∃ slots mask batch nondummy, ensureWorkspace config zeroed m =
      { m with gpuSlots := some slots, gpuActiveSlotMask := mask, gpuBatchIndices := batch, gpuNondummyMask := nondummy } := by
  unfold ensureWorkspace
  cases allocated : m.gpuSlots with
  | some slots =>
    refine ⟨slots, m.gpuActiveSlotMask, m.gpuBatchIndices, m.gpuNondummyMask, ?_⟩
    cases m
    cases allocated
    rfl
  | none => exact ⟨_, _, _, _, rfl⟩

theorem copy_frame (slots : List Automaton) (allocated : m.gpuSlots = some slots) :
    ∃ written, copyState rid m = { m with gpuSlots := some written } := by
  unfold copyState
  split
  · exact ⟨_, by rw [allocated]; rfl⟩
  · exact ⟨slots, by rw [← allocated]⟩

theorem copies_held (order : List Rid) (slots : List Automaton) (held : Held config build dummy record order m)
    (placed : Placed config dummy spare m) (allocated : m.gpuSlots = some slots) :
    ∃ written, order.foldl (fun st rid => copyState rid st) m = { m with gpuSlots := some written } ∧
      Held config build dummy record [] { m with gpuSlots := some written } := by
  induction order generalizing m slots with
  | nil => exact ⟨slots, by rw [← allocated]; rfl, by rw [← allocated]; exact held⟩
  | cons rid rest ih =>
    obtain ⟨written, copied⟩ := copy_frame slots allocated
    have now := copy_held rest held placed (by rw [allocated]; rfl)
    rw [copied] at now
    rw [foldl_cons, copied]
    exact ih written now { placed with } rfl

end TrtLlm.Suffix
