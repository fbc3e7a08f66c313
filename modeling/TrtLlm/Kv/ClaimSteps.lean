import TrtLlm.Kv.ClaimTracking
import TrtLlm.Kv.AllocateSteps

set_option autoImplicit false

namespace TrtLlm.Kv
open List ClaimedBlock ClaimState
variable {n : Nat}

namespace ClaimState
variable {config : WindowConfig} {start : Fin n → KVCacheIndex} {st next : ClaimState n} {id : Fin n}

section Matches
variable (matched : Nat) (retention : RetentionPriorityAndDuration)

theorem Claiming.claimed_sound (claiming : Claiming config start st) (id : Fin n) :
    Manager.Sound config start (st.claim id retention).manager fun other => Wanted st.claims other ∨ other = id :=
  claiming.sound.claim id retention.retentionPriority retention.durationMs

theorem Claiming.idle_tracking (claiming : Claiming config start st) (idle : st.manager.refs id = 0)
    {entry : Option PartialClaim} (found : st.tracker.find id = entry) : Tracking st id entry := by
  rw [← found]
  exact claiming.tracked id idle

theorem pushed_blocks (st : ClaimState n) {claimed : ClaimedBlock n} (same : claimed.block = some id) :
    (st.push claimed).claimed.map block = st.claimed.map block ++ [some id] := by
  change (st.claimed ++ [claimed]).map block = _
  rw [map_append, map_singleton, same]

section
variable (st : ClaimState n) (reqIdx : Nat) (claimed : ClaimedBlock n)

theorem track_found (full : Bool) :
    ((st.track reqIdx id full).push claimed).tracker.find id = some ⟨reqIdx, st.claimed.length, full⟩ :=
  if_pos rfl

theorem tracked_lone (current : reqIdx = st.results.length) (same : claimed.block = some id)
    (alone : takers st.claims id = 0) (takes : claimed.takes = true) (isPartial : claimed.isPartialMatch = true)
    (leaf : st.manager.isLeaf id = true → claimed.shouldReleaseCopySource = false)
    (inner : st.manager.isLeaf id = false → claimed.needsCopy = true) :
    let pushed := (st.track reqIdx id false).push claimed
    Tracking pushed id (pushed.tracker.find id) ∧ Wanted pushed.claims id := by
  subst current
  refine ⟨?_, push_wanted (st.track st.results.length id false) claimed same takes⟩
  rw [track_found]
  refine ⟨?_, claimed, push_here (st.track st.results.length id false) claimed false, same, takes, isPartial, leaf, inner⟩
  change countP ClaimedBlock.takes (claimsOf id st.claims) = 0 at alone
  change countP ClaimedBlock.takes (claimsOf id ((st.track _ id false).push claimed).claims) = 1
  rw [push_own _ claimed same, countP_append]
  change countP _ (claimsOf id st.claims) + _ = 1
  rw [alone]
  simp [takes]

end

variable {entry : PartialClaim}

theorem Lone.claim (lone : Lone st id entry) : Lone (st.claim id retention) id entry := by
  obtain ⟨single, claimed, at_, rest⟩ := lone
  exact ⟨single, claimed, at_, by rw [(Apart.claim st id retention).leaf]; exact rest⟩

section
variable (claiming : Claiming config start st) (reqIdx : Nat) (current : reqIdx = st.results.length)
    (unseen : some id ∉ st.claimed.map ClaimedBlock.block)

include claiming current unseen

theorem Claiming.copy_source (kind : (st.manager.block id).hasRefs = true ∨ st.manager.isLeaf id = false) :
    Claiming config start (st.claimCopySource reqIdx id matched retention) ∧
      Matched st (st.claimCopySource reqIdx id matched retention) (some id) := by
  unfold claimCopySource
  dsimp only
  split
  · next referenced =>
    have used : 0 < st.manager.refs id := by simpa [Block.hasRefs, Manager.refs] using referenced
    refine claiming.step (Apart.push st _ rfl) ?_ (fun idle => by omega) (claiming.used id) (pushed_blocks st rfl)
    exact claiming.sound.repend fun other => (Manager.Sound.used_settles used other).symm
  next referenced =>
  have idle : st.manager.refs id = 0 := by simpa [Block.hasRefs, Manager.refs] using referenced
  have inner : (st.claim id retention).manager.isLeaf id = false :=
    ((Apart.claim st id retention).leaf id).trans (kind.resolve_left referenced)
  have sound := claiming.claimed_sound retention id
  have apart := Apart.claim st id retention
  cases found : (st.claim id retention).tracker.find id with
  | none =>
    have bare : claimsOf id st.claims = [] := claiming.idle_tracking idle found
    refine claiming.step ((apart.trans (Apart.track _ id _)).trans (Apart.push _ _ rfl)) sound
      (fun _ => ?_) (fun _ _ used => by omega) (pushed_blocks _ rfl)
    exact tracked_lone (st.claim id retention) reqIdx _ current rfl
      (by change (claimsOf id st.claims).countP _ = 0; rw [bare]; rfl) rfl rfl
      (fun leaf => absurd leaf (by rw [inner]; exact Bool.false_ne_true)) (fun _ => rfl)
  | some entry =>
    dsimp only
    have tracking := claiming.idle_tracking idle found
    split
    · next full =>
      obtain ⟨wanted, unreleased⟩ := (tracking_full st full).mp tracking
      refine claiming.step ((apart.trans (Apart.track _ id _)).trans (Apart.push _ _ rfl)) sound
        (fun _ => ?_) (fun _ _ used => by omega) (pushed_blocks _ rfl)
      have still := push_still_wanted ((st.claim id retention).track reqIdx id true)
        ⟨some id, matched, true, true, false⟩ rfl wanted
      refine ⟨?_, still⟩
      rw [track_found, tracking_full _ rfl]
      exact ⟨still, push_unreleased _ _ rfl rfl unreleased⟩
    · next full =>
      have lone := ((tracking_lone st full).mp tracking).claim retention
      obtain ⟨changed, alone⟩ := lone.retire (fun block => { block with shouldReleaseCopySource := false })
        (lone.before unseen) (fun _ => rfl) fun claimed isPartial _ copies => by simp [takes, isPartial, copies inner]
      refine claiming.step (((apart.trans changed).trans (Apart.track _ id _)).trans (Apart.push _ _ rfl)) sound
        (fun _ => ?_) (fun _ _ used => by omega) (pushed_blocks _ rfl)
      exact tracked_lone _ reqIdx _ (current.trans changed.length.symm) rfl alone rfl rfl
        (fun leaf => absurd leaf (by rw [changed.leaf, inner]; exact Bool.false_ne_true)) (fun _ => rfl)

theorem Claiming.leaf (idle : st.manager.refs id = 0) (leaf : st.manager.isLeaf id = true) :
    Claiming config start (st.claimLeaf reqIdx id matched retention) ∧
      Matched st (st.claimLeaf reqIdx id matched retention) (some id) := by
  unfold claimLeaf
  have sound := claiming.claimed_sound retention id
  cases found : st.tracker.find id with
  | none =>
    have bare : claimsOf id st.claims = [] := claiming.idle_tracking idle found
    refine claiming.step (((Apart.track st id _).trans (Apart.push _ _ rfl)).trans (Apart.claim _ id retention)) sound
      (fun _ => ?_) (fun _ _ used => by omega) (pushed_blocks st rfl)
    exact tracked_lone (st.claim id retention) reqIdx _ current rfl
      (by change (claimsOf id st.claims).countP _ = 0; rw [bare]; rfl) rfl rfl (fun _ => rfl)
      (fun inner => absurd leaf (by rw [← (Apart.claim st id retention).leaf, inner]; exact Bool.false_ne_true))
  | some entry =>
    dsimp only
    have tracking := claiming.idle_tracking idle found
    split
    · next full =>
      obtain ⟨wanted, unreleased⟩ := (tracking_full st full).mp tracking
      refine claiming.step ((Apart.push st _ rfl).trans (Apart.claim _ id retention)) sound
        (fun _ => ?_) (fun _ _ used => by omega) (pushed_blocks st rfl)
      have still := push_still_wanted st ⟨some id, matched, true, true, false⟩ rfl wanted
      refine ⟨?_, still⟩
      change Tracking _ id (st.tracker.find id)
      rw [found, tracking_full _ full]
      exact ⟨still, push_unreleased st _ rfl rfl unreleased⟩
    · next full =>
      have lone := (tracking_lone st full).mp tracking
      obtain ⟨changed, alone⟩ := lone.retire (fun block => { block with needsCopy := true })
        (lone.before unseen) (fun _ => rfl) fun claimed isPartial keeps _ => by simp [takes, isPartial, keeps leaf]
      refine claiming.step (((changed.trans (Apart.track _ id _)).trans (Apart.push _ _ rfl)).trans
        (Apart.claim _ id retention)) sound (fun _ => ?_) (fun _ _ used => by omega) (pushed_blocks _ rfl)
      exact tracked_lone ((st.changeClaim entry fun block => { block with needsCopy := true }).claim id retention) reqIdx
        _ (current.trans changed.length.symm) rfl alone rfl rfl (fun _ => rfl)
        (fun inner => absurd leaf (by
          rw [← changed.leaf, ← (Apart.claim _ id retention).leaf, inner]
          exact Bool.false_ne_true))

end

theorem tracked_full {st : ClaimState n} (matched : Nat) (full : entry.fullyMatched = true)
    (unreleased : Unreleased st.claims id) :
    let pushed := ({ st with tracker := (id, entry) :: st.tracker } : ClaimState n).push
      ⟨some id, matched, false, false, false⟩
    Tracking pushed id (some entry) ∧ Wanted pushed.claims id := by
  intro pushed
  have wanted : Wanted pushed.claims id := push_wanted _ _ rfl rfl
  rw [tracking_full _ full]
  exact ⟨⟨wanted, push_unreleased _ _ rfl rfl unreleased⟩, wanted⟩

theorem Claiming.full_match (claiming : Claiming config start st) (reqIdx : Nat)
    (unseen : some id ∉ st.claimed.map block) : Claiming config start (st.claimFull reqIdx id matched retention) ∧
      Matched st (st.claimFull reqIdx id matched retention) (some id) := by
  unfold claimFull
  dsimp only
  have sound := claiming.claimed_sound retention id
  have apart := Apart.claim st id retention
  cases found : (st.claim id retention).tracker.find id with
  | none =>
    refine claiming.step ((apart.trans (Apart.track _ id _)).trans (Apart.push _ _ rfl)) sound (fun idle => ?_)
      (fun entry here _ => ?_) (pushed_blocks _ rfl)
    · have bare : claimsOf id st.claims = [] := claiming.idle_tracking idle found
      have unreleased : Unreleased st.claims id := by
        rw [Unreleased, bare]
        exact fun _ mem => (not_mem_nil mem).elim
      rw [track_found]
      exact tracked_full matched rfl unreleased
    · have known : some _ = some entry := (if_pos rfl).symm.trans here
      cases known
      rfl
  | some entry =>
    dsimp only
    split
    · next full =>
      refine claiming.step ((apart.trans (Apart.track _ id _)).trans (Apart.push _ _ rfl)) sound (fun idle => ?_)
        (fun other here _ => ?_) (pushed_blocks _ rfl)
      · obtain ⟨_, unreleased⟩ := (tracking_full st full).mp (claiming.idle_tracking idle found)
        rw [track_found]
        exact tracked_full matched rfl unreleased
      · have known : some _ = some other := (if_pos rfl).symm.trans here
        cases known
        rfl
    · next full =>
      have idle : st.manager.refs id = 0 := by
        rcases Nat.eq_zero_or_pos (st.manager.refs id) with idle | used
        · exact idle
        · exact absurd (claiming.used id entry found used) full
      have lone := ((tracking_lone st full).mp (claiming.idle_tracking idle found)).claim retention
      obtain ⟨changed, alone⟩ := lone.retire
        (fun block => { block with needsCopy := true, shouldReleaseCopySource := false })
        (lone.before unseen) (fun _ => rfl) fun claimed isPartial _ _ => by simp [takes, isPartial]
      refine claiming.step (((apart.trans changed).trans (Apart.track _ id _)).trans (Apart.push _ _ rfl)) sound
        (fun _ => ?_) (fun other here used => by omega) (pushed_blocks _ rfl)
      have here : Lib.Table.find id ((id, { entry with fullyMatched := true }) :: (st.claim id retention).tracker) =
          some { entry with fullyMatched := true } := if_pos rfl
      change Tracking _ id (Lib.Table.find id
        ((id, { entry with fullyMatched := true }) :: (st.claim id retention).tracker)) ∧ _
      rw [here]
      exact tracked_full matched rfl
        (unreleased_of_no_takers _ alone)

theorem Claiming.sentinel (claiming : Claiming config start st) :
    Claiming config start (st.push ⟨none, matched, false, false, false⟩) ∧
      Matched st (st.push ⟨none, matched, false, false, false⟩) none := by
  have own : ∀ id, claimsOf id (st.push ⟨none, matched, false, false, false⟩).claims = claimsOf id st.claims := by
    intro id
    rw [Apart.push_claims]
    exact claims_of_append_other st.claims fun same => by cases same
  refine ⟨⟨claiming.sound.repend fun id => ?_, fun id idle => ?_, claiming.used⟩, map_append, rfl, Manager.Steady.refl _⟩
  · rw [Wanted, Wanted, own]
  · exact tracking_congr st _ (own id) (fun at_ old found _ => Apart.push_place st _ found) rfl (claiming.tracked id idle)

end Matches

theorem Claiming.note (claiming : Claiming config start st) (latest : Option Nat) :
    Claiming config start { st with latestNonPlaceholder := latest } := by
  refine ⟨claiming.sound, fun id idle => ?_, claiming.used⟩
  exact tracking_congr st _ rfl (fun _ _ found _ => found) rfl (claiming.tracked id idle)

theorem Claiming.one_match (claiming : Claiming config start st) {idx : Nat} {found : ReuseMatch n}
    {retention : RetentionPriorityAndDuration} (unseen : ∀ id, found.block = some id → some id ∉ st.claimed.map block)
    (done : st.claimMatch st.results.length config idx found retention = some next) :
    Claiming config start next ∧ Matched st next found.block := by
  unfold claimMatch at done
  split at done
  · cases done
  cases block : found.block with
  | none =>
    rw [block] at done
    cases done
    exact claiming.sentinel found.numMatchedTokens
  | some id =>
    rw [block] at done
    dsimp only at done
    obtain ⟨latest, named⟩ : ∃ latest, (if (st.manager.block id).isPlaceholder = true then st
        else { st with latestNonPlaceholder := some idx }) = { st with latestNonPlaceholder := latest } := by
      split
      · exact ⟨st.latestNonPlaceholder, rfl⟩
      · exact ⟨some idx, rfl⟩
    rw [named] at done
    have noted := claiming.note latest
    have same : Matched { st with latestNonPlaceholder := latest } next (some id) →
        Matched st next (some id) := fun matched => ⟨matched.blocks, matched.length, matched.steady⟩
    split at done
    · split at done
      · rename_i blocked
        cases done
        rw [Bool.or_eq_true, Bool.not_eq_true'] at blocked
        exact (noted.copy_source found.numMatchedTokens retention _ rfl (unseen id block) blocked).imp_right same
      · rename_i open_
        cases done
        rw [Bool.not_eq_true, Bool.or_eq_false_iff, Bool.not_eq_false'] at open_
        exact (noted.leaf found.numMatchedTokens retention _ rfl (unseen id block)
          (by simpa [Block.hasRefs, Manager.refs] using open_.1) open_.2).imp_right same
    · cases done
      exact (noted.full_match found.numMatchedTokens retention _ (unseen id block)).imp_right same

theorem Claiming.all_matches (shared : List (ReuseMatch n × RetentionPriorityAndDuration)) :
    ∀ {st : ClaimState n} (reqIdx idx : Nat), reqIdx = st.results.length → Claiming config start st →
      (st.claimed.filterMap block ++ matchedBlocks (shared.map Prod.fst)).Nodup →
      claimMatches reqIdx config shared idx st = some next →
      Claiming config start next ∧ next.results.length = st.results.length ∧ Manager.Steady st.manager next.manager := by
  induction shared with
  | nil =>
    intro st reqIdx idx _ claiming _ done
    cases done
    exact ⟨claiming, rfl, Manager.Steady.refl _⟩
  | cons pair rest ih =>
    intro st reqIdx idx current claiming nodup done
    obtain ⟨found, retention⟩ := pair
    subst current
    unfold claimMatches at done
    split at done
    · cases done
    next mid one =>
    have unseen : ∀ id, found.block = some id → some id ∉ st.claimed.map block := by
      intro id block mem
      obtain ⟨claimed, inside, same⟩ := mem_map.mp mem
      refine disjoint_of_nodup_append nodup (mem_filterMap.mpr ⟨claimed, inside, same⟩) ?_
      exact mem_filterMap.mpr ⟨found, mem_cons_self, block⟩
    obtain ⟨kept, matched⟩ := claiming.one_match unseen one
    have blocks : mid.claimed.filterMap block =
        st.claimed.filterMap block ++ found.block.toList := by
      have mapped := congrArg (filterMap fun block => block) matched.blocks
      rw [filterMap_map, filterMap_append, filterMap_map] at mapped
      refine mapped.trans ?_
      cases found.block <;> rfl
    have next_distinct : (mid.claimed.filterMap block ++ matchedBlocks (rest.map Prod.fst)).Nodup := by
      rw [blocks, append_assoc]
      cases block : found.block <;> simpa [matchedBlocks, block] using nodup
    obtain ⟨last, length, steady⟩ := ih _ _ matched.length.symm kept next_distinct done
    exact ⟨last, length.trans matched.length, matched.steady.trans steady⟩

theorem Claiming.file (claiming : Claiming config start st) (res : ClaimResult n)
    (filed : res.claimedBlocks = st.claimed) (latest : Option Nat) :
    Claiming config start ⟨st.manager, st.tracker, st.results ++ [res], [], latest⟩ := by
  have rows : rows (⟨st.manager, st.tracker, st.results ++ [res], [], latest⟩ : ClaimState n) =
      st.rows ++ [[]] := by
    simp [rows, filed]
  have claims : claims (⟨st.manager, st.tracker, st.results ++ [res], [], latest⟩ : ClaimState n) =
      st.claims := by
    rw [claims, rows, flatten_append]
    simp [claims]
  refine ⟨by rw [claims]; exact claiming.sound, fun id idle => ?_, claiming.used⟩
  refine tracking_congr st _ (by rw [claims]) (fun entry claimed found _ => ?_) rfl (claiming.tracked id idle)
  unfold claimAt at found ⊢
  rw [rows]
  cases row : st.rows[entry.requestIdx]? with
  | none => rw [row] at found; cases found
  | some entries =>
    obtain ⟨inside, _⟩ := List.getElem?_eq_some_iff.mp row
    rw [List.getElem?_append_left inside]
    exact found

theorem Claiming.with_sequences (claiming : Claiming config start st) (seqs : Lib.Table Nat (Sequence n)) :
    Claiming config start { st with manager := { st.manager with sequences := seqs } } := by
  refine ⟨claiming.sound.with_sequences seqs, fun id idle => ?_, claiming.used⟩
  exact tracking_congr st _ rfl (fun _ _ found _ => found) rfl (claiming.tracked id idle)

end ClaimState

theorem zip_fst_sublist {α β : Type} (left : List α) : ∀ right : List β, ((left.zip right).map Prod.fst).Sublist left := by
  induction left with
  | nil => exact fun _ => Sublist.refl _
  | cons head rest ih =>
    intro right
    cases right with
    | nil => exact nil_sublist _
    | cons other more => exact (ih more).cons_cons head

namespace Manager
variable {config : WindowConfig} {start : Fin n → KVCacheIndex} {base m next : Manager n}
variable {add : AddRequest}

theorem Shaped.emplace (shaped : Shaped config m) (add : AddRequest) (absent : m.getSequence add.requestId = none) :
    Shaped config { m with sequences := (add.requestId, newSequence add) :: m.sequences } := by
  have finds : ∀ other, ({ m with sequences := (add.requestId, newSequence add) :: m.sequences } : Manager n).getSequence
      other = if add.requestId = other then some (newSequence add) else m.getSequence other :=
    fun other => Lib.Table.find_cons m.sequences (add.requestId, newSequence add) other
  refine ⟨?_, fun other seq known => ?_, fun other seq known recurrent => ?_⟩
  · exact nodup_cons.mpr ⟨Lib.Table.not_mem_keys absent, shaped.distinct⟩
  · rw [finds] at known
    split at known
    · cases known
      exact add.beam_pos
    · exact shaped.wide other seq known
  · rw [finds] at known
    split at known
    · cases known
      exact ⟨[], rfl, fun _ mem => (not_mem_nil mem).elim, by simp [newSequence]⟩
    · exact shaped.aligned other seq known recurrent

structure Batching (config : WindowConfig) (start : Fin n → KVCacheIndex) (base m : Manager n)
    (tracker : PartialClaimTracker n) (results : List (ClaimResult n)) (adds : List AddRequest) : Prop where
  claiming : ClaimState.Claiming config start ⟨m, tracker, results, [], none⟩
  shaped : Shaped config m
  refs : ∀ id, m.refs id = base.refs id
  listed : ∀ id, m.listed id = base.listed id
  placed : ∀ add ∈ adds, (m.getSequence add.requestId).map Sequence.beamWidth = some add.beamWidth
  length : results.length = adds.length

variable {tracker : PartialClaimTracker n} {results : List (ClaimResult n)} {adds : List AddRequest}
variable (batching : Batching config start base m tracker results adds)

include batching

theorem Batching.emplace (add : AddRequest) (done : m.emplaceSequence add = some next) :
    Claiming config start ⟨next, tracker, results, [], none⟩ ∧ Shaped config next ∧
      (∀ id, next.refs id = base.refs id) ∧ (∀ id, next.listed id = base.listed id) ∧
      ∀ other ∈ adds ++ [add], (next.getSequence other.requestId).map Sequence.beamWidth = some other.beamWidth := by
  unfold emplaceSequence at done
  split at done
  · cases done
  next absent =>
  cases done
  refine ⟨batching.claiming.with_sequences _, batching.shaped.emplace add absent, batching.refs, fun id => ?_,
    fun other mem => ?_⟩
  · rw [← batching.listed id]
    exact zero_add _
  have finds := Lib.Table.find_cons m.sequences (add.requestId, newSequence add) other.requestId
  rw [getSequence, finds]
  rcases mem_append.mp mem with old | new
  · have known := batching.placed other old
    split
    · rename_i same
      rw [← same, absent] at known
      cases known
    · exact known
  · rw [mem_singleton.mp new, if_pos rfl]
    rfl

theorem Batching.claim_matching {tracked : PartialClaimTracker n} {extended : List (ClaimResult n)}
    (done : m.claimMatchingBlocks config add tracker results = some (next, tracked, extended)) :
    Batching config start base next tracked extended (adds ++ [add]) := by
  unfold claimMatchingBlocks at done
  split at done
  · cases done
  split at done
  · rename_i emplaced res placed built
    obtain ⟨claiming, shaped, refs, listed, widths⟩ := batching.emplace add placed
    dsimp only at done
    split at done
    · cases done
    rename_i claims matching
    cases done
    have nodup : (matchedBlocks ((((emplaced.findReusableBlockMatches config res.blockKeys
        config.enablePartialReuse config.copyOnPartialReuse add.currentPrepopulatedPromptLen).found.take
        res.numSharedContextBlocks).zip res.perBlockRetentions).map Prod.fst)).Nodup :=
      (match_from_climbing claiming.sound _ _ _ _ 0 .start ⟨nodup_nil, nofun, nodup_nil⟩).sublist
        (Sublist.filterMap _ ((zip_fst_sublist _ _).trans (take_sublist _ _)))
    obtain ⟨kept, length, steady⟩ := claiming.all_matches _ _ _ rfl nodup matching
    refine ⟨kept.file _ rfl none, shaped.same_sequences steady.sequences, fun id => ?_, fun id => ?_, fun other mem => ?_, ?_⟩
    · exact (steady.refs id).trans (refs id)
    · exact (listed_same steady.sequences id).trans (listed id)
    · rw [← widths other mem, getSequence, steady.sequences, getSequence]
    · rw [length_append, length_append, length, batching.length, length_singleton, length_singleton]
  · cases done

theorem Batching.skip_matching {res : ClaimResult n}
    (placed : m.emplaceSequence add = some next) (built : buildClaimResultMetadata config add = some res) :
    Batching config start base next tracker (results ++ [res]) (adds ++ [add]) := by
  obtain ⟨claiming, shaped, refs, listed, widths⟩ := batching.emplace add placed
  have bare : res.claimedBlocks = [] := by
    unfold buildClaimResultMetadata at built
    split at built
    · cases built
    dsimp only at built
    split at built
    · cases built
      rfl
    · cases built
  refine ⟨claiming.file res bare none, shaped, refs, listed, widths, ?_⟩
  rw [length_append, length_append, batching.length, length_singleton, length_singleton]

omit batching

theorem Batching.claim_batch (isEnableBlockReuse : Bool) (final : List (ClaimResult n)) (rest : List AddRequest) :
    ∀ {m : Manager n} {tracker : PartialClaimTracker n} {results : List (ClaimResult n)} {adds : List AddRequest},
      Batching config start base m tracker results adds →
      claimBatch config isEnableBlockReuse rest m tracker results = some (next, final) →
      ∃ tracked, Batching config start base next tracked final (adds ++ rest) := by
  induction rest with
  | nil =>
    intro m tracker results adds batching done
    cases done
    rw [append_nil]
    exact ⟨tracker, batching⟩
  | cons add rest ih =>
    intro m tracker results adds batching done
    unfold claimBatch at done
    rw [append_cons]
    split at done
    · split at done
      · cases done
      · rename_i claimed tracked extended claiming
        exact ih (batching.claim_matching claiming) done
    · split at done
      · rename_i emplaced res placed built
        exact ih (batching.skip_matching placed built) done
      · cases done

theorem Batching.exclusive (batching : Batching config start base m tracker results adds) (id : Fin n) (idle : m.refs id = 0) :
    Exclusive (results.map ClaimResult.claimedBlocks).flatten id := by
  have claims : ClaimState.claims (⟨m, tracker, results, [], none⟩ : ClaimState n) =
      (results.map ClaimResult.claimedBlocks).flatten := by
    simp [ClaimState.claims, rows]
  have tracking := batching.claiming.tracked id idle
  rw [← claims]
  cases found : ClaimState.tracker (⟨m, tracker, results, [], none⟩ : ClaimState n) |>.find id with
  | none =>
    rw [found] at tracking
    have bare : claimsOf id (ClaimState.claims (⟨m, tracker, results, [], none⟩ : ClaimState n)) = [] := tracking
    refine .inl fun claimed mem => ?_
    rw [bare] at mem
    exact (not_mem_nil mem).elim
  | some entry =>
    rw [found] at tracking
    by_cases full : entry.fullyMatched = true
    · exact .inl ((tracking_full _ full).mp tracking).2
    · exact .inr (le_of_eq ((tracking_lone _ full).mp tracking).single)

end Manager
end TrtLlm.Kv
