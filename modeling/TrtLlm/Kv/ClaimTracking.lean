import TrtLlm.Kv.AddSequence
import TrtLlm.Kv.References

set_option autoImplicit false

namespace TrtLlm.Kv
open List Option ClaimedBlock ClaimResult

variable {n : Nat}

def matchedBlocks (found : List (ReuseMatch n)) : List (Fin n) := found.filterMap ReuseMatch.block

namespace Manager
variable {config : WindowConfig} {start : Fin n → KVCacheIndex} {m : Manager n} {pending : Fin n → Prop}

structure Climbing (m : Manager n) (node : Nat) (state : MatchState n) : Prop where
  distinct : (matchedBlocks state.candidates).Nodup
  below : ∀ id ∈ matchedBlocks state.candidates, ∃ at_, (m.block id).lookupNode = some at_ ∧ at_ ≤ node
  safe : (matchedBlocks state.safe.found).Nodup

theorem Climbing.push {node child : Nat} {state : MatchState n} (climbing : Climbing m node state)
    (found : ReuseMatch n) (down : node < child) (hangs : ∀ id, found.block = some id → (m.block id).lookupNode = some child) :
    Climbing m child (state.push config found) := by
  have more : matchedBlocks (state.push config found).candidates =
      matchedBlocks state.candidates ++ found.block.toList := by
    change matchedBlocks (state.candidates ++ [found]) = _
    rw [matchedBlocks, filterMap_append, matchedBlocks]
    cases taken : found.block with
    | none => simp [taken]
    | some id => simp [taken]
  have nodup : (matchedBlocks (state.push config found).candidates).Nodup := by
    rw [more]
    refine Nodup.append climbing.distinct (by cases found.block <;> simp) fun id old new => ?_
    obtain ⟨at_, linked, bound⟩ := climbing.below id old
    rw [hangs id (mem_toList.mp new)] at linked
    cases linked
    omega
  refine ⟨nodup, fun id mem => ?_, ?_⟩
  · rw [more] at mem
    rcases mem_append.mp mem with old | new
    · obtain ⟨at_, linked, bound⟩ := climbing.below id old
      exact ⟨at_, linked, by omega⟩
    · exact ⟨child, hangs id (mem_toList.mp new), Nat.le_refl _⟩
  · have choice : (state.push config found).safe = ⟨_, (state.push config found).candidateMatchedTokens⟩ ∨
        (state.push config found).safe = state.safe := ite_eq_or_eq _ _ _
    rcases choice with all | old
    · rw [all]
      exact nodup
    · rw [old]
      exact climbing.safe

variable (sound : Sound config start m pending)

include sound

theorem partial_child (copyOnPartialReuse : Bool) (node : Nat) (key : BlockKey) (id : Fin n) (matched : Nat)
    (found : (LookupTree.findPartiallyMatchingNodes config.sortMatches m.tree node key).findSome?
      (m.partialBlock config copyOnPartialReuse) = some (id, matched)) :
    ∃ child, node < child ∧ (m.block id).lookupNode = some child := by
  obtain ⟨child, mem, taken⟩ := exists_of_findSome?_eq_some found
  obtain ⟨edge, inside, same⟩ := LookupTree.partial_match_child mem
  refine ⟨child.node, same ▸ (sound.ordered node edge inside).1, ?_⟩
  unfold partialBlock at taken
  cases stored : m.blockAt config child.node with
  | none => simp only [stored] at taken; cases taken
  | some other =>
    simp only [stored] at taken
    split at taken
    · cases taken
      exact sound.stored child.node id stored
    · cases taken

theorem match_from_climbing (enablePartialReuse copyOnPartialReuse : Bool)
    (maxMatchedTokens : Option Nat) (keys : List BlockKey) : ∀ (node : Nat) (state : MatchState n), Climbing m node state →
      (matchedBlocks (m.matchFrom config enablePartialReuse copyOnPartialReuse maxMatchedTokens node keys state).safe.found).Nodup := by
  induction keys with
  | nil =>
    intro node state climbing
    exact climbing.safe
  | cons key rest ih =>
    intro node state climbing
    unfold matchFrom
    split
    · exact climbing.safe
    cases walked : m.tree.findMatchingNode node key with
    | some child =>
      have down := (Lib.Trie.child_bounds sound.ordered walked).1
      dsimp only
      split
      · exact climbing.safe
      cases stored : m.blockAt config child with
      | some id =>
        refine ih child _ (climbing.push _ down fun other same => ?_)
        cases same
        exact sound.stored child id stored
      | none =>
        dsimp only
        split
        · exact ih child _ (climbing.push _ down fun other same => by cases same)
        · exact climbing.safe
    | none =>
      dsimp only
      split
      · unfold pushPartial
        split
        · exact climbing.safe
        rename_i id matched found
        obtain ⟨child, down, linked⟩ := partial_child sound copyOnPartialReuse node key id matched found
        split
        · exact (climbing.push _ down fun other same => by cases same; exact linked).safe
        · exact climbing.safe
      · exact climbing.safe

end Manager

variable {n : Nat}

namespace ClaimedBlock

def releases (claimed : ClaimedBlock n) : Bool :=
  claimed.isPartialMatch && claimed.needsCopy && claimed.shouldReleaseCopySource

def takes (claimed : ClaimedBlock n) : Bool :=
  !(claimed.isPartialMatch && claimed.needsCopy) || claimed.shouldReleaseCopySource

end ClaimedBlock

section Claims

def claimsOf (id : Fin n) (claims : List (ClaimedBlock n)) : List (ClaimedBlock n) :=
  claims.filter fun claimed => decide (claimed.block = some id)

variable (claims : List (ClaimedBlock n))

def Wanted (id : Fin n) : Prop := ∃ claimed ∈ claimsOf id claims, claimed.takes = true

def Unreleased (id : Fin n) : Prop :=
  ∀ claimed ∈ claimsOf id claims, claimed.releases = false

def takers (id : Fin n) : Nat := (claimsOf id claims).countP ClaimedBlock.takes

-- A source that will be given back is in nobody's way.
def Exclusive (id : Fin n) : Prop := Unreleased claims id ∨ takers claims id ≤ 1

theorem claims_of_append_other {id : Fin n} (claims : List (ClaimedBlock n)) {claimed : ClaimedBlock n}
    (ne : claimed.block ≠ some id) : claimsOf id (claims ++ [claimed]) = claimsOf id claims := by
  simp [claimsOf, filter_append, ne]

theorem flatten_modify {α : Type} (change : α → α) (entry : α) (row : Nat) :
    ∀ (rows : List (List α)) (col : Nat), (rows[row]?).bind (·[col]?) = some entry →
      ∃ before after, rows.flatten = before ++ entry :: after ∧
        (rows.modify row fun entries => entries.modify col change).flatten = before ++ change entry :: after := by
  induction row with
  | zero =>
    intro rows col found
    cases rows with
    | nil => cases found
    | cons first rest =>
      have inside : first[col]? = some entry := by simpa using found
      obtain ⟨bound, same⟩ := List.getElem?_eq_some_iff.mp inside
      refine ⟨first.take col, first.drop (col + 1) ++ rest.flatten, ?_, ?_⟩
      · conv => lhs; rw [← take_append_drop col first, drop_eq_getElem_cons bound, same]
        simp
      · rw [modify_zero_cons, flatten_cons, modify_eq_take_cons_drop bound, same]
        simp
  | succ row ih =>
    intro rows col found
    cases rows with
    | nil => cases found
    | cons first rest =>
      obtain ⟨before, after, whole, changed⟩ := ih rest col (by simpa using found)
      refine ⟨first ++ before, after, ?_, ?_⟩
      · rw [flatten_cons, whole, append_assoc]
      · rw [modify_succ_cons, flatten_cons, changed, append_assoc]

end Claims

namespace ClaimState

def rows (state : ClaimState n) : List (List (ClaimedBlock n)) :=
  state.results.map ClaimResult.claimedBlocks ++ [state.claimed]

def claims (state : ClaimState n) : List (ClaimedBlock n) := state.rows.flatten

def claimAt (state : ClaimState n) (entry : PartialClaim) : Option (ClaimedBlock n) :=
  (state.rows[entry.requestIdx]?).bind (·[entry.claimedIdx]?)

structure Apart (id : Fin n) (state next : ClaimState n) : Prop where
  refs : ∀ other, next.manager.refs other = state.manager.refs other
  kind : ∀ other, (next.manager.block other).isPlaceholder = (state.manager.block other).isPlaceholder
  leaf : ∀ other, next.manager.isLeaf other = state.manager.isLeaf other
  sequences : next.manager.sequences = state.manager.sequences
  find : ∀ other, other ≠ id → next.tracker.find other = state.tracker.find other
  own : ∀ other, other ≠ id → claimsOf other next.claims = claimsOf other state.claims
  place : ∀ other entry claimed, other ≠ id → state.claimAt entry = some claimed → claimed.block = some other →
    next.claimAt entry = some claimed
  length : next.results.length = state.results.length

namespace Apart
variable {id : Fin n} {state : ClaimState n}

theorem trans {second third : ClaimState n} (left : Apart id state second) (right : Apart id second third) :
    Apart id state third where
  refs := fun other => (right.refs other).trans (left.refs other)
  kind := fun other => (right.kind other).trans (left.kind other)
  leaf := fun other => (right.leaf other).trans (left.leaf other)
  sequences := right.sequences.trans left.sequences
  find := fun other ne => (right.find other ne).trans (left.find other ne)
  own := fun other ne => (right.own other ne).trans (left.own other ne)
  place := fun other entry claimed ne found same =>
    right.place other entry claimed ne (left.place other entry claimed ne found same) same
  length := right.length.trans left.length

section
variable (state : ClaimState n)

theorem claim (id : Fin n) (retention : RetentionPriorityAndDuration) : Apart id state (state.claim id retention) where
  refs := (Manager.Steady.claim state.manager id retention.retentionPriority retention.durationMs).refs
  kind := (Manager.Steady.claim state.manager id retention.retentionPriority retention.durationMs).placeholder
  leaf := by
    intro other
    have same := (Pool.claim_same state.manager.pool id other retention.retentionPriority retention.durationMs).lookupNode
    rw [ClaimState.claim, Manager.isLeaf, Manager.block, Manager.claimBlock, same]
    rfl
  sequences := rfl
  find := fun _ _ => rfl
  own := fun _ _ => rfl
  place := fun _ _ _ _ found _ => found
  length := rfl

theorem track (id : Fin n) (entry : PartialClaim) : Apart id state { state with tracker := (id, entry) :: state.tracker } where
  refs := fun _ => rfl
  kind := fun _ => rfl
  leaf := fun _ => rfl
  sequences := rfl
  find := by
    intro other ne
    rw [Lib.Table.find_cons, if_neg fun same => ne same.symm]
  own := fun _ _ => rfl
  place := fun _ _ _ _ found _ => found
  length := rfl

variable (claimed : ClaimedBlock n)

theorem push_claims : (state.push claimed).claims = state.claims ++ [claimed] := by
  simp [claims, rows, push]

theorem push_place {entry : PartialClaim} {old : ClaimedBlock n}
    (found : state.claimAt entry = some old) : (state.push claimed).claimAt entry = some old := by
  unfold claimAt rows at found
  change ((state.results.map claimedBlocks ++ [state.claimed ++ [claimed]])[entry.requestIdx]?).bind
    (·[entry.claimedIdx]?) = some old
  rcases Nat.lt_trichotomy entry.requestIdx (state.results.map claimedBlocks).length with before | here | after
  · rw [getElem?_append_left before] at found ⊢
    exact found
  · rw [here, getElem?_concat_length] at found ⊢
    obtain ⟨bound, _⟩ := List.getElem?_eq_some_iff.mp found
    exact (List.getElem?_append_left bound).trans found
  · rw [List.getElem?_eq_none (by rw [length_append, length_singleton]; omega)] at found
    cases found

theorem push (same : claimed.block = some id) : Apart id state (state.push claimed) where
  refs := fun _ => rfl
  kind := fun _ => rfl
  leaf := fun _ => rfl
  sequences := rfl
  find := fun _ _ => rfl
  own := by
    intro other ne
    rw [push_claims]
    refine claims_of_append_other state.claims fun equal => ne ?_
    rw [same] at equal
    exact (some.inj equal).symm
  place := fun _ entry old _ found _ => push_place state claimed found
  length := rfl

theorem change_rows (entry : PartialClaim) (change : ClaimedBlock n → ClaimedBlock n)
    (earlier : entry.requestIdx < state.results.length) : (state.changeClaim entry change).rows =
      state.rows.modify entry.requestIdx fun claimed => claimed.modify entry.claimedIdx change := by
  apply ext_getElem?
  intro row
  rw [getElem?_modify]
  change (((state.results.modify entry.requestIdx _).map claimedBlocks) ++ [state.claimed])[row]? =
    _ <$> (state.results.map claimedBlocks ++ [state.claimed])[row]?
  by_cases inside : row < state.results.length
  · rw [getElem?_append_left (by simpa using inside), getElem?_append_left (by simpa using inside),
      getElem?_map, getElem?_map, getElem?_modify]
    by_cases here : entry.requestIdx = row
    · cases state.results[row]? <;> simp [here]
    · cases state.results[row]? <;> simp [here]
  · have apart : ¬entry.requestIdx = row := by omega
    simp only [if_neg apart]
    rw [getElem?_append_right (by simpa using inside), getElem?_append_right (by simpa using inside)]
    simp

end

section
variable {entry : PartialClaim} {old : ClaimedBlock n} (edit : ClaimedBlock n → ClaimedBlock n)
  (earlier : entry.requestIdx < state.results.length) (found : state.claimAt entry = some old)

include earlier found

theorem change_claims : ∃ before after, state.claims = before ++ old :: after ∧
      (state.changeClaim entry edit).claims = before ++ edit old :: after := by
  unfold claims
  rw [change_rows state entry edit earlier]
  exact flatten_modify edit old entry.requestIdx state.rows entry.claimedIdx found

theorem change (same : old.block = some id) (kept : (edit old).block = some id) : Apart id state (state.changeClaim entry edit) where
  refs := fun _ => rfl
  kind := fun _ => rfl
  leaf := fun _ => rfl
  sequences := rfl
  find := fun _ _ => rfl
  own := by
    intro other ne
    obtain ⟨before, after, whole, changed⟩ := change_claims edit earlier found
    have apart : ¬some id = some other := fun equal => ne (some.inj equal).symm
    rw [whole, changed]
    simp [claimsOf, filter_append, same, kept, apart]
  place := by
    intro other at_ claimed ne known own
    unfold claimAt at known found ⊢
    rw [change_rows state entry edit earlier, getElem?_modify]
    cases row : state.rows[at_.requestIdx]? with
    | none => rw [row] at known; cases known
    | some entries =>
      rw [row, bind_some] at known
      rw [Option.map_eq_map, map_some, bind_some]
      split
      · next here =>
        rw [getElem?_modify]
        by_cases col : entry.claimedIdx = at_.claimedIdx
        · rw [here, row, bind_some, col, known] at found
          cases found
          rw [own] at same
          exact absurd (some.inj same) ne
        · rw [known]
          simp [col]
      · exact known
  length := length_modify _ _ _

end
end Apart

-- The tracker points at the one claim that takes an unreferenced block, while nobody matched it completely.
structure Lone (state : ClaimState n) (id : Fin n) (entry : PartialClaim) : Prop where
  single : takers state.claims id = 1
  at_ : ∃ claimed, state.claimAt entry = some claimed ∧ claimed.block = some id ∧ claimed.takes = true ∧
    claimed.isPartialMatch = true ∧
    (state.manager.isLeaf id = true → claimed.shouldReleaseCopySource = false) ∧
    (state.manager.isLeaf id = false → claimed.needsCopy = true)

def Tracking (state : ClaimState n) (id : Fin n) : Option PartialClaim → Prop
  | none => claimsOf id state.claims = []
  | some entry => if entry.fullyMatched = true then Wanted state.claims id ∧ Unreleased state.claims id else Lone state id entry

section
variable {id : Fin n} (state : ClaimState n)

theorem tracking_full {entry : PartialClaim} (full : entry.fullyMatched = true) :
    Tracking state id (some entry) ↔ Wanted state.claims id ∧ Unreleased state.claims id := by
  simp only [Tracking, if_pos full]

theorem tracking_lone {entry : PartialClaim} (apart : ¬entry.fullyMatched = true) :
    Tracking state id (some entry) ↔ Lone state id entry := by
  simp only [Tracking, if_neg apart]

theorem tracking_congr {next : ClaimState n} (entry : Option PartialClaim)
    (own : claimsOf id next.claims = claimsOf id state.claims)
    (place : ∀ entry claimed, state.claimAt entry = some claimed → claimed.block = some id → next.claimAt entry = some claimed)
    (leaf : next.manager.isLeaf id = state.manager.isLeaf id) (tracking : Tracking state id entry) : Tracking next id entry := by
  cases entry with
  | none => exact own.trans tracking
  | some entry =>
    by_cases full : entry.fullyMatched = true
    · rw [tracking_full _ full, Wanted, Unreleased] at tracking ⊢
      rw [own]
      exact tracking
    · rw [tracking_lone _ full] at tracking ⊢
      obtain ⟨single, claimed, at_, same, rest⟩ := tracking
      exact ⟨by rw [takers, own]; exact single, claimed, place entry claimed at_ same, same, by rw [leaf]; exact rest⟩

end

structure Claiming (config : WindowConfig) (start : Fin n → KVCacheIndex) (state : ClaimState n) : Prop where
  sound : Manager.Sound config start state.manager (Wanted state.claims)
  tracked : ∀ id, state.manager.refs id = 0 → Tracking state id (state.tracker.find id)
  used : ∀ id entry, state.tracker.find id = some entry → 0 < state.manager.refs id → entry.fullyMatched = true

structure Matched (state next : ClaimState n) (block : Option (Fin n)) : Prop where
  blocks : next.claimed.map ClaimedBlock.block = state.claimed.map ClaimedBlock.block ++ [block]
  length : next.results.length = state.results.length
  steady : Manager.Steady state.manager next.manager

variable {config : WindowConfig} {start : Fin n → KVCacheIndex} {state next : ClaimState n} {id : Fin n}

theorem Claiming.step (claiming : Claiming config start state) (apart : Apart id state next)
    (sound : Manager.Sound config start next.manager fun other => Wanted state.claims other ∨ other = id)
    (tracked : state.manager.refs id = 0 → Tracking next id (next.tracker.find id) ∧ Wanted next.claims id)
    (used : ∀ entry, next.tracker.find id = some entry → 0 < state.manager.refs id → entry.fullyMatched = true)
    (pushed : next.claimed.map block = state.claimed.map block ++ [some id]) :
    Claiming config start next ∧ Matched state next (some id) := by
  refine ⟨?_, pushed, apart.length, apart.refs, apart.sequences, apart.kind⟩
  exact {
    sound := by
      refine sound.repend fun other => ?_
      rw [apart.refs]
      by_cases same : other = id
      · subst same
        rcases Nat.eq_zero_or_pos (state.manager.refs other) with idle | used
        · exact ⟨fun _ => .inr (tracked idle).2, fun _ => .inr (.inr rfl)⟩
        · exact ⟨fun _ => .inl used, fun _ => .inl used⟩
      · have own : Wanted next.claims other ↔ Wanted state.claims other := by rw [Wanted, apart.own other same, Wanted]
        rw [own]
        simp [same]
    tracked := by
      intro other idle
      rw [apart.refs] at idle
      by_cases same : other = id
      · subst same
        exact (tracked idle).1
      · rw [apart.find other same]
        exact tracking_congr state _ (apart.own other same) (fun at_ claimed => apart.place other at_ claimed same)
          (apart.leaf other) (claiming.tracked other idle)
    used := by
      intro other entry found referenced
      rw [apart.refs] at referenced
      by_cases same : other = id
      · subst same
        exact used entry found referenced
      · rw [apart.find other same] at found
        exact claiming.used other entry found referenced }

section Own

theorem released_takes {claimed : ClaimedBlock n} (idle : claimed.takes = false) : claimed.releases = false := by
  unfold takes at idle
  unfold releases
  cases claimed.isPartialMatch <;> cases claimed.needsCopy <;> simp_all

theorem unreleased_of_no_takers (claims : List (ClaimedBlock n)) (none_takes : takers claims id = 0) : Unreleased claims id := by
  intro claimed mem
  have idle := countP_eq_zero.mp none_takes claimed mem
  exact released_takes (by simpa using idle)

theorem Lone.before {entry : PartialClaim} (lone : Lone state id entry)
    (unseen : some id ∉ state.claimed.map block) : entry.requestIdx < state.results.length := by
  obtain ⟨claimed, found, same, _⟩ := lone.at_
  unfold claimAt rows at found
  rcases Nat.lt_trichotomy entry.requestIdx (state.results.map claimedBlocks).length with before | here | after
  · rw [length_map] at before
    exact before
  · rw [here, getElem?_concat_length, bind_some] at found
    exact absurd (mem_map.mpr ⟨claimed, mem_of_getElem? found, same⟩) unseen
  · rw [getElem?_eq_none (by rw [length_append, length_singleton]; omega)] at found
    cases found

theorem Lone.retire {entry : PartialClaim} (lone : Lone state id entry) (change : ClaimedBlock n → ClaimedBlock n)
    (earlier : entry.requestIdx < state.results.length) (kept : ∀ claimed, (change claimed).block = claimed.block)
    (quiet : ∀ claimed : ClaimedBlock n, claimed.isPartialMatch = true →
      (state.manager.isLeaf id = true → claimed.shouldReleaseCopySource = false) →
      (state.manager.isLeaf id = false → claimed.needsCopy = true) → (change claimed).takes = false) :
    Apart id state (state.changeClaim entry change) ∧ takers (state.changeClaim entry change).claims id = 0 := by
  obtain ⟨old, found, same, takes, isPartial, leaf, inner⟩ := lone.at_
  refine ⟨Apart.change change earlier found same ((kept old).trans same), ?_⟩
  obtain ⟨before, after, whole, changed⟩ := Apart.change_claims change earlier found
  have single := lone.single
  have stops := quiet old isPartial leaf inner
  have still : (change old).block = some id := (kept old).trans same
  rw [whole] at single
  rw [changed]
  unfold takers claimsOf at single ⊢
  simp only [filter_append, filter_cons, same, still, decide_true, if_true, countP_append,
    countP_cons, takes, stops, Bool.false_eq_true, if_false] at single ⊢
  omega

section
variable (state : ClaimState n) (claimed : ClaimedBlock n)
variable (same : claimed.block = some id)

include same

theorem push_own : claimsOf id (state.push claimed).claims = claimsOf id state.claims ++ [claimed] := by
  rw [Apart.push_claims]
  simp [claimsOf, filter_append, same]

theorem push_wanted (takes : claimed.takes = true) : Wanted (state.push claimed).claims id := by
  rw [Wanted, push_own state claimed same]
  exact ⟨claimed, mem_append_right _ (mem_singleton_self _), takes⟩

theorem push_unreleased
    (kept : claimed.releases = false) (rest : Unreleased state.claims id) : Unreleased (state.push claimed).claims id := by
  rw [Unreleased, push_own state claimed same]
  exact forall_mem_append.mpr ⟨rest, forall_mem_singleton.mpr kept⟩

theorem push_still_wanted (wanted : Wanted state.claims id) : Wanted (state.push claimed).claims id := by
  obtain ⟨other, mem, takes⟩ := wanted
  rw [Wanted, push_own state claimed same]
  exact ⟨other, mem_append_left _ mem, takes⟩

omit same

theorem push_here (fullyMatched : Bool) :
    (state.push claimed).claimAt ⟨state.results.length, state.claimed.length, fullyMatched⟩ = some claimed := by
  have length : state.results.length = (state.results.map claimedBlocks).length := (length_map _).symm
  change ((state.results.map claimedBlocks ++ [state.claimed ++ [claimed]])[state.results.length]?).bind
    (·[state.claimed.length]?) = some claimed
  rw [length, getElem?_concat_length, bind_some, getElem?_concat_length]

end
end Own
end ClaimState

end TrtLlm.Kv
