import TrtLlm.Kv.ClaimSteps
import TrtLlm.Kv.ReleaseSteps

set_option autoImplicit false

namespace TrtLlm.Kv
open List Sequence

namespace Manager
variable {n : Nat} {config : WindowConfig} {start : Fin n → KVCacheIndex} {m next : Manager n} {pending : Fin n → Prop}
  {requestId : Nat}

structure Grows (m next : Manager n) : Prop where
  refs : ∀ id, next.refs id + m.listed id = m.refs id + next.listed id
  more : ∀ id, m.refs id ≤ next.refs id
  widths : ∀ requestId, (next.getSequence requestId).map Sequence.beamWidth = (m.getSequence requestId).map Sequence.beamWidth

theorem Grows.refl (m : Manager n) : Grows m m := ⟨fun _ => rfl, fun _ => le_rfl, fun _ => rfl⟩

theorem Grows.trans {first second third : Manager n} (left : Grows first second) (right : Grows second third) :
    Grows first third where
  refs := by
    intro id
    have one := left.refs id
    have two := right.refs id
    omega
  more := fun id => (left.more id).trans (right.more id)
  widths := fun requestId => (right.widths requestId).trans (left.widths requestId)

theorem Steady.grows (steady : Steady m next) : Grows m next where
  refs := steady.balanced.refs
  more := fun id => le_of_eq (steady.refs id).symm
  widths := fun requestId => by rw [getSequence, steady.sequences, getSequence]

theorem widths_modify (m : Manager n) (requestId other : Nat) {change : Sequence n → Sequence n}
    (kept : ∀ seq, (change seq).beamWidth = seq.beamWidth) :
    ((m.modifySequence requestId change).getSequence other).map beamWidth = (m.getSequence other).map beamWidth := by
  rw [found_modify]
  split
  · next same =>
    rw [same]
    cases m.getSequence requestId with
    | none => rfl
    | some seq => exact congrArg some (kept seq)
  · rfl

theorem add_grows {m : Manager n} (slot : Slot n) (requestId beamIdx : Nat)
    (known : (m.getSequence requestId).isSome = true) : Grows m (m.addBlockToBeam slot requestId beamIdx) where
  refs := (add_balanced slot requestId m beamIdx known).refs
  more := by
    intro id
    rw [add_refs]
    exact Nat.le_add_right _ _
  widths := by
    intro other
    rw [getSequence, add_sequences]
    exact widths_modify m requestId other fun _ => rfl

theorem Grows.present (grows : Grows m next) (known : (m.getSequence requestId).isSome = true) :
    (next.getSequence requestId).isSome = true := by
  have widths := congrArg Option.isSome (grows.widths requestId)
  rw [Option.isSome_map, Option.isSome_map] at widths
  rw [widths]
  exact known

theorem add_beams_grows (slot : Slot n) (beams : List Nat) : ∀ {m : Manager n}, (m.getSequence requestId).isSome = true →
      Grows m (addBlockToBeams slot requestId beams m) := by
  induction beams with
  | nil => exact fun _ => Grows.refl _
  | cons beamIdx rest ih =>
    intro m known
    have first := add_grows slot requestId beamIdx known
    exact first.trans (ih (first.present known))

theorem set_key_when (sound : Sound config start m pending) (id : Fin n) (key : Option BlockKey) :
    Sound config start (m.setKeyWhen config id key) pending ∧ Steady m (m.setKeyWhen config id key) := by
  cases key with
  | none => exact ⟨sound, Steady.refl m⟩
  | some key => exact sound.set_key id key _

theorem add_row (sound : Sound config start m pending) (shaped : Shaped config m) (seq : Sequence n)
    (found : m.getSequence requestId = some seq) (slot : Slot n)
    (out : ∀ id, slot = .block id → 0 < m.refs id ∨ pending id) :
    let next := m.addBlockToAllBeams slot requestId seq.beamWidth
    Sound config start next pending ∧ Shaped config next ∧ Grows m next ∧ ∀ id, slot = .block id → 0 < next.refs id := by
  have known : (m.getSequence requestId).isSome = true := by rw [found]; rfl
  obtain ⟨kept, _, counts⟩ := sound.add_all slot requestId seq.beamWidth out known
  refine ⟨kept, shaped.add_all slot requestId seq found, add_beams_grows slot _ known, fun id same => ?_⟩
  have pos := shaped.wide requestId seq found
  rw [counts, if_pos same]
  omega

section Claims
variable {claimed : ClaimedBlock n} {todo : List (ClaimedBlock n)} {id : Fin n}

theorem wanted_cons (claimed : ClaimedBlock n) (todo : List (ClaimedBlock n)) (id : Fin n) :
    Wanted (claimed :: todo) id ↔ (claimed.block = some id ∧ claimed.takes = true) ∨ Wanted todo id := by
  unfold Wanted claimsOf
  simp only [mem_filter, mem_cons, decide_eq_true_eq]
  constructor
  · rintro ⟨other, ⟨rfl | mem, same⟩, takes⟩
    · exact .inl ⟨same, takes⟩
    · exact .inr ⟨other, ⟨mem, same⟩, takes⟩
  · rintro (⟨same, takes⟩ | ⟨other, ⟨mem, same⟩, takes⟩)
    · exact ⟨claimed, ⟨.inl rfl, same⟩, takes⟩
    · exact ⟨other, ⟨.inr mem, same⟩, takes⟩

theorem exclusive_tail (exclusive : Exclusive (claimed :: todo) id) : Exclusive todo id := by
  have sublist : (claimsOf id todo).Sublist (claimsOf id (claimed :: todo)) := (sublist_cons_self _ _).filter _
  rcases exclusive with unreleased | single
  · exact .inl fun other mem => unreleased other (sublist.subset mem)
  · exact .inr ((sublist.countP_le).trans single)

theorem exclusive_last (exclusive : Exclusive (claimed :: todo) id) (same : claimed.block = some id)
    (releases : claimed.releases = true) : ¬Wanted todo id := by
  have own : claimsOf id (claimed :: todo) = claimed :: claimsOf id todo := by simp [claimsOf, same]
  have takes : claimed.takes = true := by
    by_contra idle
    rw [ClaimState.released_takes (by simpa using idle)] at releases
    cases releases
  rintro ⟨other, mem, wants⟩
  rcases exclusive with unreleased | single
  · rw [unreleased claimed (by rw [own]; exact mem_cons_self)] at releases
    cases releases
  · rw [takers, own, countP_cons, if_pos takes] at single
    have pos := countP_pos_iff.mpr ⟨other, mem, wants⟩
    omega

structure Settling (config : WindowConfig) (start : Fin n → KVCacheIndex) (m : Manager n)
    (todo : List (ClaimedBlock n)) : Prop where
  sound : Sound config start m (Wanted todo)
  shaped : Shaped config m
  exclusive : ∀ id, m.refs id = 0 → Exclusive todo id

section
variable (settling : Settling config start m (claimed :: todo))

include settling

theorem Settling.tail_exclusive (grows : Grows m next) (id : Fin n) (idle : next.refs id = 0) : Exclusive todo id := by
  have more := grows.more id
  exact exclusive_tail (settling.exclusive id (by omega))

theorem Settling.copy (same : claimed.block = some id)
    (copies : (claimed.isPartialMatch && claimed.needsCopy) = true) (key : Option BlockKey) (block : Fin n)
    (done : m.settleClaim config claimed id key = some (block, next)) :
    Sound config start next (fun other => Wanted todo other ∨ other = block) ∧ Steady m next := by
  unfold settleClaim at done
  rw [if_pos copies] at done
  split at done
  · cases done
  rename_i fresh acquired got
  cases done
  have given := settling.sound.get_free _ _ _ block acquired got
  split
  · next gives =>
    rw [Bool.and_eq_true, Bool.not_eq_true'] at gives
    have idle : acquired.refs id = 0 := by simpa [Block.hasRefs, refs] using gives.2
    have idle_before : m.refs id = 0 := (given.steady.refs id).symm.trans idle
    have releases : claimed.releases = true := by
      rw [ClaimedBlock.releases, copies, gives.1]
      rfl
    have takes : claimed.takes = true := by simp [ClaimedBlock.takes, gives.1]
    have wanted : Wanted (claimed :: todo) id := (wanted_cons claimed todo id).mpr (.inl ⟨same, takes⟩)
    have last := exclusive_last (settling.exclusive id idle_before) same releases
    have released := given.sound.release id false idle (.inl wanted)
    have steady := given.steady.trans (Steady.release acquired id false)
    have waits : Sound config start (acquired.releaseBlock id false) fun other => Wanted todo other ∨ other = block := by
      refine released.repend fun other => ?_
      rw [wanted_cons, same]
      by_cases here : other = id
      · subst here
        have apart : ¬other = block := fun equal => given.settled (equal ▸ wanted)
        simp [last, apart]
      · have flipped : ¬id = other := fun equal => here equal.symm
        simp [here, flipped]
    obtain ⟨kept, keyed⟩ := set_key_when waits block key
    exact ⟨kept, steady.trans keyed⟩
  · next gives =>
    have waits : Sound config start acquired fun other => Wanted todo other ∨ other = block := by
      refine given.sound.repend fun other => ?_
      rw [wanted_cons, same]
      by_cases here : id = other
      · subst here
        cases release : claimed.shouldReleaseCopySource with
        | false => simp [ClaimedBlock.takes, copies, release]
        | true =>
          have used : 0 < acquired.refs id := by
            rw [release, Bool.true_and, Bool.not_eq_true', Bool.not_eq_false] at gives
            simpa [Block.hasRefs, refs] using gives
          simp [used]
      · simp [here]
    obtain ⟨kept, keyed⟩ := set_key_when waits block key
    exact ⟨kept, given.steady.trans keyed⟩

theorem Settling.keep (same : claimed.block = some id)
    (keeps : ¬(claimed.isPartialMatch && claimed.needsCopy) = true) (key : Option BlockKey) (block : Fin n)
    (done : m.settleClaim config claimed id key = some (block, next)) :
    Sound config start next (fun other => Wanted todo other ∨ other = block) ∧ Steady m next := by
  have takes : claimed.takes = true := by
    rw [Bool.not_eq_true] at keeps
    rw [ClaimedBlock.takes, keeps]
    rfl
  have sound : Sound config start m fun other => Wanted todo other ∨ other = id := by
    refine settling.sound.repend fun other => ?_
    rw [wanted_cons, same]
    by_cases here : other = id
    · simp [here, takes]
    · have flipped : ¬id = other := fun equal => here equal.symm
      simp [here, flipped]
  unfold settleClaim at done
  rw [if_neg keeps] at done
  split at done
  · obtain ⟨freed, leaf, rest⟩ := Option.map_eq_some_iff.mp done
    cases rest
    unfold freeLeafBlock at leaf
    split at leaf
    · obtain ⟨kept, steady, _⟩ := sound.detach id next leaf
      exact ⟨kept, steady⟩
    · cases leaf
  · cases done
    exact ⟨sound, Steady.refl _⟩

theorem Settling.one_claim (seq : Sequence n) (found : m.getSequence requestId = some seq) (key : Option BlockKey)
    (done : m.onboardClaim config requestId seq.beamWidth claimed key = some next) :
    Settling config start next todo ∧ Grows m next := by
  unfold onboardClaim at done
  split at done
  · next same =>
    cases done
    have sound : Sound config start m (Wanted todo) := by
      refine settling.sound.repend fun other => ?_
      rw [wanted_cons, same]
      simp
    obtain ⟨kept, shaped, grows, _⟩ := add_row sound settling.shaped seq found (.sentinel seq.beamWidth)
      fun id impossible => by cases impossible
    exact ⟨⟨kept, shaped, settling.tail_exclusive grows⟩, grows⟩
  · next id same =>
    split at done
    · cases done
    rename_i block settled settle
    split at done
    · cases done
    rename_i onboarded onboard
    cases done
    have held : Sound config start settled (fun other => Wanted todo other ∨ other = block) ∧ Steady m settled := by
      by_cases copies : (claimed.isPartialMatch && claimed.needsCopy) = true
      · exact settling.copy same copies key block settle
      · exact settling.keep same copies key block settle
    obtain ⟨sound, steady⟩ := held
    obtain ⟨moved, later⟩ := sound.onboard block onboarded (.inr (.inr rfl)) onboard
    have both := steady.trans later
    obtain ⟨kept, shaped, grows, used⟩ := add_row moved (settling.shaped.same_sequences both.sequences) seq
      (found_same both.sequences found) (.block block) fun other equal => .inr (.inr (Slot.block.inj equal).symm)
    have whole := both.grows.trans grows
    exact ⟨⟨kept.settle (used block rfl), shaped, settling.tail_exclusive whole⟩, whole⟩

end
end Claims

section Allocate
variable {todo : List (ClaimedBlock n)} {width : Nat}

theorem width_found {width : Nat} (placed : (m.getSequence requestId).map beamWidth = some width) :
    ∃ seq, m.getSequence requestId = some seq ∧ seq.beamWidth = width :=
  Option.map_eq_some_iff.mp placed

theorem Settling.same_claims (settling : Settling config start m todo) (sound : Sound config start next (Wanted todo))
    (shaped : Shaped config next) (grows : Grows m next) : Settling config start next todo := by
  refine ⟨sound, shaped, fun id idle => settling.exclusive id ?_⟩
  have more := grows.more id
  omega

theorem Settling.claims (keys : List BlockKey) (claims : List (ClaimedBlock n)) :
    ∀ {m : Manager n} (idx : Nat), Settling config start m (claims ++ todo) →
      (m.getSequence requestId).map beamWidth = some width →
      onboardClaims config requestId width keys claims idx m = some next →
      Settling config start next todo ∧ Grows m next := by
  induction claims with
  | nil =>
    intro m idx settling _ done
    cases done
    exact ⟨settling, Grows.refl _⟩
  | cons claimed rest ih =>
    intro m idx settling placed done
    obtain ⟨seq, found, rfl⟩ := width_found placed
    unfold onboardClaims at done
    split at done
    · cases done
    next onboarded one =>
    obtain ⟨kept, grows⟩ := settling.one_claim seq found _ one
    obtain ⟨last, more⟩ := ih _ kept ((grows.widths requestId).trans placed) done
    exact ⟨last, grows.trans more⟩

theorem Settling.shared_blocks (isEnableBlockReuse : Bool) (add : AddRequest) (res : ClaimResult n)
    (boundaries : List Nat) (blocks : List Nat) : ∀ {m : Manager n}, Settling config start m todo →
      (m.getSequence add.requestId).map beamWidth = some add.beamWidth →
      allocateShared config isEnableBlockReuse add res boundaries blocks m = some next →
      Settling config start next todo ∧ Grows m next := by
  induction blocks with
  | nil =>
    intro m settling _ done
    cases done
    exact ⟨settling, Grows.refl _⟩
  | cons idx rest ih =>
    intro m settling placed done
    obtain ⟨seq, found, wide⟩ := width_found placed
    unfold allocateShared at done
    dsimp only at done
    split at done
    · cases done
    rename_i id acquired got
    have given := settling.sound.get_free _ _ _ id acquired got
    rw [← wide] at done
    obtain ⟨added, shaped, grows, used⟩ := add_row given.sound
      (settling.shaped.same_sequences given.steady.sequences) seq (found_same given.steady.sequences found)
      (.block id) given.out
    obtain ⟨keyed, same⟩ := set_key_when (added.settle (used id rfl)) id res.blockKeys[idx]?
    have whole := (given.steady.grows.trans grows).trans same.grows
    obtain ⟨last, more⟩ := ih (settling.same_claims keyed (shaped.same_sequences same.sequences) whole)
      ((whole.widths add.requestId).trans placed) done
    exact ⟨last, whole.trans more⟩

theorem unshared_blocks (add : AddRequest) (res : ClaimResult n) (idx : Nat) (left : Nat) :
    ∀ {m : Manager n} {part : List (Slot n)}, Sound config start m pending →
      Growing config m add.requestId width part → part.length + left = width →
      allocatePerBeam config add res idx (List.range' part.length left) m = some next →
      Sound config start next pending ∧ Grows m next ∧
        ∃ full, full.length = width ∧ Growing config next add.requestId width full := by
  induction left with
  | zero =>
    intro m part sound growing total done
    cases done
    exact ⟨sound, Grows.refl _, part, total, growing⟩
  | succ left ih =>
    intro m part sound growing total done
    rw [range'_succ] at done
    unfold allocatePerBeam at done
    dsimp only at done
    split at done
    · cases done
    rename_i id acquired got
    have given := sound.get_free _ _ _ id acquired got
    obtain ⟨settled, grown, _⟩ := given.add growing
    obtain ⟨keyed, same⟩ := set_key_when settled id res.blockKeys[idx + part.length]?
    have step := (given.steady.grows.trans (add_grows (.block id) add.requestId part.length
      (growing.same_sequences given.steady.sequences).present)).trans same.grows
    have length : (part ++ [Slot.block id]).length = part.length + 1 := by rw [length_append, length_singleton]
    obtain ⟨last, more, full⟩ := ih keyed (grown.same_sequences same.sequences)
      (by rw [length]; omega) (by rw [length]; exact done)
    exact ⟨last, step.trans more, full⟩

theorem Settling.unshared (settling : Settling config start m todo) (add : AddRequest) (res : ClaimResult n)
    (placed : (m.getSequence add.requestId).map beamWidth = some add.beamWidth)
    (done : m.allocateUnshared config add res = some next) : Settling config start next todo ∧ Grows m next := by
  unfold allocateUnshared at done
  split at done
  · obtain ⟨seq, found, wide⟩ := width_found placed
    rw [range_eq_range', ← wide] at done
    obtain ⟨sound, grows, full, length, growing⟩ := unshared_blocks add res _ _ settling.sound
      (settling.shaped.grow found) (zero_add _) done
    exact ⟨settling.same_claims sound (growing.finish (settling.shaped.wide _ seq found) length) grows, grows⟩
  · cases done
    exact ⟨settling, Grows.refl _⟩

theorem Settling.prepopulated (settling : Settling config start m todo) (length : Nat)
    (done : m.setCurrentPrepopulatedPromptLen requestId length = some next) : Settling config start next todo ∧ Grows m next := by
  unfold setCurrentPrepopulatedPromptLen at done
  split at done
  · cases done
  rename_i seq found
  split at done
  · cases done
    have moved := fun id => listed_modify m requestId
      (fun seq => { seq with currentPrepopulatedPromptLen := some length }) id found
    have grows : Grows m (m.modifySequence requestId fun seq =>
        { seq with currentPrepopulatedPromptLen := some length }) := by
      refine ⟨fun id => ?_, fun _ => le_rfl, fun other => widths_modify m requestId other fun _ => rfl⟩
      have one := Nat.add_right_cancel (moved id)
      rw [one]
      rfl
    have shaped : Shaped config (m.modifySequence requestId fun seq =>
        { seq with currentPrepopulatedPromptLen := some length }) := by
      refine settling.shaped.modify _ (fun _ => rfl) fun recurrent old known => ?_
      obtain ⟨rows, filled⟩ := settling.shaped.aligned requestId old known recurrent
      exact ⟨rows, filled.flat, filled.wide, filled.columns⟩
    exact ⟨settling.same_claims (settling.sound.with_sequences _) shaped grows, grows⟩
  · cases done

theorem Settling.one_request {isEnableBlockReuse : Bool} {add : AddRequest} {res : ClaimResult n}
    (settling : Settling config start m (res.claimedBlocks ++ todo))
    (placed : (m.getSequence add.requestId).map beamWidth = some add.beamWidth)
    (done : m.onboardAndAllocateBlocks config isEnableBlockReuse add res = some next) :
    Settling config start next todo ∧ Grows m next := by
  unfold onboardAndAllocateBlocks at done
  split at done
  · cases done
  split at done
  · cases done
  rename_i onboarded onboard
  obtain ⟨first, one⟩ := Settling.claims _ _ _ settling placed onboard
  split at done
  · cases done
  rename_i shared share
  obtain ⟨second, two⟩ := Settling.shared_blocks isEnableBlockReuse add res _ _ first
    ((one.widths _).trans placed) share
  split at done
  · cases done
  rename_i allocated allocate
  obtain ⟨third, three⟩ := second.unshared add res (((one.trans two).widths _).trans placed) allocate
  obtain ⟨last, four⟩ := third.prepopulated _ done
  exact ⟨last, ((one.trans two).trans three).trans four⟩

end Allocate

theorem Settling.batch (isEnableBlockReuse : Bool) (pairs : List (AddRequest × ClaimResult n)) :
    ∀ {m : Manager n}, Settling config start m (pairs.flatMap fun pair => pair.2.claimedBlocks) →
      (∀ pair ∈ pairs, (m.getSequence pair.1.requestId).map beamWidth = some pair.1.beamWidth) →
      allocateBatch config isEnableBlockReuse pairs m = some next → Settling config start next [] ∧ Grows m next := by
  induction pairs with
  | nil =>
    intro m settling _ done
    cases done
    exact ⟨settling, Grows.refl _⟩
  | cons pair rest ih =>
    intro m settling placed done
    obtain ⟨add, res⟩ := pair
    unfold allocateBatch at done
    split at done
    · cases done
    rename_i allocated allocate
    obtain ⟨kept, grows⟩ := settling.one_request
      (placed (add, res) mem_cons_self) allocate
    obtain ⟨last, more⟩ := ih kept
      (fun pair mem => (grows.widths _).trans (placed pair (mem_cons_of_mem _ mem))) done
    exact ⟨last, grows.trans more⟩

theorem no_claims (id : Fin n) : ¬Wanted ([] : List (ClaimedBlock n)) id := by
  rintro ⟨claimed, mem, _⟩
  exact not_mem_nil mem

theorem Ready.add_batch {pins : List (Fin n)} (ready : Ready config start m pins) (isEnableBlockReuse : Bool)
    (adds : List AddRequest) (done : m.addSequenceBatch config isEnableBlockReuse adds = some next) :
    Ready config start next pins := by
  unfold addSequenceBatch at done
  split at done
  · cases done
  rename_i claimed results claiming
  have begin_ : Batching config start m m [] [] [] := by
    refine ⟨⟨ready.sound.repend fun id => ?_, fun id _ => rfl, fun _ _ found => by cases found⟩, ready.shaped,
      fun _ => rfl, fun _ => rfl, fun _ mem => (not_mem_nil mem).elim, rfl⟩
    exact or_congr_right ⟨False.elim, fun wanted => no_claims id wanted⟩
  obtain ⟨tracked, batching⟩ := Batching.claim_batch isEnableBlockReuse results adds begin_ claiming
  have claims : ((adds.zip results).flatMap fun pair => pair.2.claimedBlocks) =
      (results.map ClaimResult.claimedBlocks).flatten := by
    have whole : results.length ≤ adds.length := le_of_eq batching.length
    rw [← flatMap_map Prod.snd, map_snd_zip whole, flatMap_def]
  have sound : Sound config start claimed (Wanted (results.map ClaimResult.claimedBlocks).flatten) := by
    have kept := batching.claiming.sound
    simp only [ClaimState.claims, ClaimState.rows, flatten_append, flatten_singleton, append_nil] at kept
    exact kept
  obtain ⟨last, grows⟩ := Settling.batch isEnableBlockReuse (adds.zip results)
    (by rw [claims]; exact ⟨sound, batching.shaped, batching.exclusive⟩)
    (fun pair mem => batching.placed pair.1 (of_mem_zip mem).1) done
  refine ⟨last.sound.repend fun id => or_congr_right ⟨no_claims id, False.elim⟩, last.shaped, fun id => ?_⟩
  have balance := grows.refs id
  have counted := ready.counted id
  rw [batching.refs, batching.listed] at balance
  omega

end Manager
end TrtLlm.Kv
