import TrtLlm.Transceiver.CacheSender

set_option autoImplicit false

namespace TrtLlm.Transceiver
open List Sender Pc Lib.Table
open Lib (Table)

section Peers
variable (received : List (RequestId × Nat)) (id : RequestId) (bound : Nat)

def peersOf : List Nat := (received.filter fun info => info.1 = id).map Prod.snd

variable {received id bound}

theorem mem_peersOf (peer : Nat) : peer ∈ peersOf received id ↔ (id, peer) ∈ received := by
  simp [peersOf]

theorem peersOf_length : (peersOf received id).length = (received.map Prod.fst).count id := by
  induction received with
  | nil => rfl
  | cons info rest ih =>
    by_cases same : info.1 = id <;> simp_all [peersOf]

theorem peersOf_nodup (distinct : received.Nodup) : (peersOf received id).Nodup := by
  apply Nodup.map_on
  · intro left first right second same
    have own := (mem_filter.mp first).2
    have other := (mem_filter.mp second).2
    simp only [decide_eq_true_eq] at own other
    exact Prod.ext (own.trans other.symm) same
  · exact distinct.filter _

theorem received_ge (all : ∀ peer < bound, (id, peer) ∈ received) : bound ≤ (received.map Prod.fst).count id := by
  have inside : (range bound).Subperm (peersOf received id) := by
    apply nodup_range.subperm
    intro peer mem
    exact (mem_peersOf peer).mpr (all peer (mem_range.mp mem))
  have count := inside.length_le
  rwa [peersOf_length, length_range] at count

variable (distinct : received.Nodup) (expected : ∀ info ∈ received, info.1 = id → info.2 < bound)

include distinct expected

variable (received id bound)

theorem peersOf_subperm : (peersOf received id).Subperm (range bound) := by
  apply (peersOf_nodup distinct).subperm
  intro peer mem
  exact mem_range.mpr (expected _ ((mem_peersOf peer).mp mem) rfl)

theorem received_le : (received.map Prod.fst).count id ≤ bound := by
  have count := (peersOf_subperm received id bound distinct expected).length_le
  rwa [peersOf_length, length_range] at count

theorem received_all (full : bound ≤ (received.map Prod.fst).count id) (peer : Nat) (below : peer < bound) :
    (id, peer) ∈ received := by
  have same : (peersOf received id).Perm (range bound) :=
    (peersOf_subperm received id bound distinct expected).perm_of_length_le (by rw [peersOf_length, length_range]; exact full)
  exact (mem_peersOf peer).mp (same.mem_iff.mpr (mem_range.mpr below))

end Peers

def Sender.uncounted (s : Sender) : Option RequestId :=
  match s.pc with
  | .receivedTest id => some id
  | .setCurrent id => some id
  | .countInit id => some id
  | .lookup => s.currentRequest
  | .lookupAgain => s.currentRequest
  | .innerWait => s.currentRequest
  | .innerTerminateTest => s.currentRequest
  | .foundTest => s.currentRequest
  | .respond => s.currentRequest
  | _ => none

def Sender.Working (s : Sender) (id : RequestId) : Prop :=
  id ∈ s.sendQueue ∨ id ∈ s.jobs.map Prod.fst ∨ s.pc = .handOver id ∨ ∃ stage, s.pc = .job id stage

def Sender.PlaceSound (counterparts : RequestId → Nat) (s : Sender) : Prop :=
  match s.pc with
  | .countInit id => s.currentRequest = some id
  | .lookup => ∃ id, s.currentRequest = some id ∧ Table.find id s.remainSendCount ≠ none
  | .lookupAgain => ∃ id, s.currentRequest = some id ∧ Table.find id s.remainSendCount ≠ none
  | .innerWait => ∃ id, s.currentRequest = some id ∧ Table.find id s.remainSendCount ≠ none
  | .innerTerminateTest => ∃ id, s.currentRequest = some id ∧ Table.find id s.remainSendCount ≠ none
  | .foundTest => ∃ id, s.currentRequest = some id ∧ Table.find id s.remainSendCount ≠ none ∧ id ∈ s.readyResponses
  | .respond => ∃ id, s.currentRequest = some id ∧ Table.find id s.remainSendCount ≠ none ∧ id ∈ s.readyResponses
  | .cancelCheck id => s.currentRequest = some id ∧ id ∈ s.readyResponses ∧ s.counted.count id = counterparts id ∧
      0 < counterparts id ∧ id ∉ s.signals.map Prod.fst
  | .signal id _ => s.currentRequest = some id ∧ id ∈ s.readyResponses ∧ s.counted.count id = counterparts id ∧
      0 < counterparts id ∧ id ∉ s.signals.map Prod.fst
  | .handOver id => s.currentRequest = some id ∧ id ∈ s.readyResponses
  | .job id _ => s.currentRequest = some id ∧ id ∈ s.readyResponses
  | .removeResponse id => s.currentRequest = some id ∧ id ∈ s.readyResponses
  | .removeCancelled id => s.currentRequest = some id ∧ id ∈ s.readyResponses ∧ id ∈ s.signals.map Prod.fst
  | .died => False
  | _ => True

structure Booked (counterparts : RequestId → Nat) (s : Sender) : Prop where
  infos : (s.inbox ++ s.received).Nodup
  expected : ∀ info ∈ s.inbox ++ s.received, info.2 < counterparts info.1
  tally : ∀ id, s.counted.count id + (if s.uncounted = some id then 1 else 0) ≤ (s.received.map Prod.fst).count id
  remaining : ∀ id count, Table.find id s.remainSendCount = some count → 0 < count ∧ count + s.counted.count id = counterparts id
  settled : ∀ id, Table.find id s.remainSendCount = none → s.counted.count id = 0 ∨ s.counted.count id = counterparts id
  sessions : ∀ id ∉ s.released, ∀ peer, (id, peer) ∈ s.received →
    ∃ peers, Table.find id s.requestToSession = some peers ∧ peer ∈ peers
  signalled : ∀ id ∈ s.signals.map Prod.fst, s.counted.count id = counterparts id
  working : ∀ id, s.Working id → id ∈ s.signals.map Prod.fst
  released : ∀ id ∈ s.released, id ∈ s.signals.map Prod.fst
  place : s.PlaceSound counterparts

variable {counterparts : RequestId → Nat} {isAgent : Bool} {s next : Sender}

section
variable (booked : Booked counterparts s)

include booked

theorem Booked.received_le (id : RequestId) : (s.received.map Prod.fst).count id ≤ counterparts id := by
  apply Transceiver.received_le s.received id (counterparts id) booked.infos.of_append_right
  intro info mem same
  exact same ▸ booked.expected info (mem_append_right _ mem)

theorem Booked.uncounted_fresh {id : RequestId} (held : s.uncounted = some id) :
    s.counted.count id < counterparts id ∧ id ∉ s.signals.map Prod.fst ∧ id ∉ s.released := by
  have tally := booked.tally id
  rw [if_pos held] at tally
  have bound := booked.received_le id
  have below : s.counted.count id < counterparts id := by omega
  have quiet : id ∉ s.signals.map Prod.fst := by
    intro mem
    have full := booked.signalled id mem
    omega
  exact ⟨below, quiet, fun mem => quiet (booked.released id mem)⟩

theorem Booked.all_received {id : RequestId} (full : s.counted.count id = counterparts id) (peer : Nat)
    (below : peer < counterparts id) : (id, peer) ∈ s.received := by
  have tally := booked.tally id
  apply received_all s.received id (counterparts id) booked.infos.of_append_right _ (by omega) peer below
  exact fun info mem same => same ▸ booked.expected info (mem_append_right _ mem)

theorem Booked.connected (id : RequestId) (full : s.counted.count id = counterparts id)
    (quiet : id ∉ s.signals.map Prod.fst) (some_counterpart : 0 < counterparts id) : s.connected counterparts id := by
  have unreleased : id ∉ s.released := fun mem => quiet (booked.released id mem)
  have all := booked.all_received full
  obtain ⟨peers, found, _⟩ := booked.sessions id unreleased 0 (all 0 some_counterpart)
  refine ⟨peers, found, fun peer below => ?_⟩
  obtain ⟨others, same, mem⟩ := booked.sessions id unreleased peer (all peer below)
  rw [found] at same
  exact Option.some.inj same ▸ mem

theorem Booked.jump (pc : Pc) (counting : uncounted { s with pc } = s.uncounted ∨ uncounted { s with pc } = none)
    (work : ∀ id, Working { s with pc } id → s.Working id) (place : PlaceSound counterparts { s with pc }) :
    Booked counterparts { s with pc } := by
  refine { booked with tally := ?_, working := fun id busy => booked.working id (work id busy), place := place }
  intro id
  have tally := booked.tally id
  rcases counting with same | none_left
  · rw [same]
    exact tally
  rw [none_left]
  change s.counted.count id + 0 ≤ (s.received.map Prod.fst).count id
  omega

theorem Booked.rest (pc : Pc) (currentRequest : Option RequestId)
    (readyResponses : List RequestId) (anyReady : Bool) (resolved : List (RequestId × Bool))
    (counting : uncounted { s with pc, currentRequest } = s.uncounted)
    (work : ∀ id, Working { s with pc } id → s.Working id)
    (place : PlaceSound counterparts { s with pc, currentRequest, readyResponses, anyReady, resolved }) :
    Booked counterparts { s with pc, currentRequest, readyResponses, anyReady, resolved } := by
  refine { booked with tally := fun id => ?_, working := fun id busy => booked.working id (work id busy), place := place }
  show _ + (if uncounted { s with pc, currentRequest } = some id then 1 else 0) ≤ _
  rw [counting]
  exact booked.tally id

theorem Booked.control (flags : FlagSound s) (pc : Pc) (moved : s.control = some pc) : Booked counterparts { s with pc } := by
  have place := booked.place
  have serving := flags.serving
  cases here : s.pc with
  | emptyTest =>
    simp only [Sender.control, here, if_neg (serving here), Option.some.injEq] at moved
    subst moved
    exact booked.jump _ (.inr rfl)
      (fun id busy => by simpa [Working] using busy.imp_right (Or.imp_right fun never => by simp at never)) trivial
  | died => simp [Sender.control, here] at moved
  | _ =>
    simp only [PlaceSound, here] at place
    refine booked.jump pc ?_ ?_ ?_ <;>
      simp only [Sender.control, here, uncounted, Working, PlaceSound] at moved ⊢ <;> grind

end

theorem find_addPeer (peer : Nat) (id other : RequestId) (sessions : Table RequestId (List Nat)) :
    find other (addPeer peer id sessions) =
      if other = id then some ((find id sessions).getD [] ++ [peer]) else find other sessions := by
  unfold addPeer
  cases found : find id sessions with
  | none =>
    rw [find_cons]
    by_cases same : other = id
    · rw [if_pos same.symm, if_pos same]
      rfl
    · rw [if_neg fun equal => same equal.symm, if_neg same]
  | some peers =>
    rw [find_update, found]
    rfl

theorem count_push (ids : List RequestId) (id other : RequestId) :
    (ids ++ [id]).count other = ids.count other + if other = id then 1 else 0 := by
  by_cases same : other = id
  · simp [same]
  · rw [count_append, count_singleton, if_neg same]
    simpa using fun equal => same (Eq.symm equal)

section
variable (booked : Booked counterparts s) (id : RequestId)

include booked

theorem Booked.receive (peer : Nat) (rest : List (RequestId × Nat))
    (here : s.pc = .receive) (arrived : s.inbox = (id, peer) :: rest) :
    Booked counterparts { s with
      inbox := rest
      received := s.received ++ [(id, peer)]
      requestToSession := addPeer peer id s.requestToSession
      pc := .receivedTest id } := by
  have moved : (rest ++ (s.received ++ [(id, peer)])).Perm (s.inbox ++ s.received) := by
    rw [arrived, ← append_assoc]
    exact perm_append_singleton _ _
  refine ⟨moved.nodup_iff.mpr booked.infos, fun info mem => booked.expected info (moved.mem_iff.mp mem), ?_,
    booked.remaining, booked.settled, ?_, booked.signalled, ?_, booked.released, trivial⟩
  · intro other
    have tally := booked.tally other
    simp only [uncounted, map_append, map_cons, map_nil, count_push, Option.some.injEq]
    by_cases same : other = id
    · rw [if_pos same.symm, if_pos same]
      omega
    · rw [if_neg fun equal => same equal.symm, if_neg same]
      omega
  · intro other kept from_peer mem
    simp only [find_addPeer]
    split
    · next same =>
      refine ⟨_, rfl, ?_⟩
      rcases mem_append.mp mem with old | new
      · obtain ⟨peers, found, listed⟩ := booked.sessions other kept from_peer old
        rw [← same, found]
        exact mem_append_left _ listed
      · rw [mem_singleton, Prod.mk.injEq] at new
        rw [new.2]
        exact mem_append_right _ mem_cons_self
    · next same =>
      rcases mem_append.mp mem with old | new
      · exact booked.sessions other kept from_peer old
      · rw [mem_singleton, Prod.mk.injEq] at new
        exact absurd new.1 same
  · intro other busy
    apply booked.working other
    simpa [Working, here] using busy

theorem Booked.count_init (here : s.pc = .countInit id) (first : find id s.remainSendCount = none) :
    Booked counterparts { s with remainSendCount := (id, counterparts id) :: s.remainSendCount, pc := .lookup } := by
  have place : s.currentRequest = some id := by simpa [PlaceSound, here] using booked.place
  have fresh := booked.uncounted_fresh (show s.uncounted = some id by simp [uncounted, here])
  have untouched : s.counted.count id = 0 := by
    rcases booked.settled id first with none_yet | full
    · exact none_yet
    · omega
  refine { booked with tally := ?_, remaining := ?_, settled := ?_, working := ?_, place := ?_ }
  · intro other
    have tally := booked.tally other
    simp only [uncounted, here] at tally
    simp only [uncounted, place]
    exact tally
  · intro other count found
    rw [find_cons] at found
    split at found
    · next same =>
      rw [Option.some.injEq] at found
      subst same
      exact ⟨by omega, by dsimp only; omega⟩
    · exact booked.remaining other count found
  · intro other found
    rw [find_cons] at found
    split_ifs at found with same
    exact booked.settled other found
  · intro other busy
    apply booked.working other
    simpa [Working, here] using busy
  · exact ⟨id, place, by simp [find_cons]⟩

theorem Booked.respond (left : Nat) (remain : Table RequestId Nat) (pc : Pc)
    (here : s.pc = .respond) (cur : s.currentRequest = some id) (found : find id s.remainSendCount = some (left + 1))
    (others : ∀ other ≠ id, find other remain = find other s.remainSendCount)
    (own : find id remain = if left = 0 then none else some left)
    (idle : uncounted { s with pc } = none) (work : ∀ other, Working { s with pc } other → s.Working other)
    (place : PlaceSound counterparts { s with remainSendCount := remain, counted := s.counted ++ [id], pc }) :
    Booked counterparts { s with remainSendCount := remain, counted := s.counted ++ [id], pc } := by
  have held : s.uncounted = some id := by simp [uncounted, here, cur]
  have fresh := booked.uncounted_fresh held
  have balance := booked.remaining id (left + 1) found
  have silent : uncounted { s with remainSendCount := remain, counted := s.counted ++ [id], pc } = none := idle
  refine ⟨booked.infos, booked.expected, ?_, ?_, ?_, booked.sessions, ?_, fun other busy => booked.working other (work other busy),
    booked.released, place⟩
  · intro other
    have tally := booked.tally other
    rw [held] at tally
    rw [silent]
    simp only [count_push, reduceCtorEq, if_false, Option.some.injEq] at tally ⊢
    by_cases same : other = id
    · rw [if_pos same.symm] at tally
      rw [if_pos same]
      omega
    · rw [if_neg same]
      omega
  · intro other count known
    rw [count_push]
    by_cases same : other = id
    · subst same
      rw [own] at known
      split_ifs at known with last
      cases known
      rw [if_pos rfl]
      omega
    · rw [others other same] at known
      rw [if_neg same]
      exact booked.remaining other count known
  · intro other known
    rw [count_push]
    by_cases same : other = id
    · subst same
      rw [own] at known
      split_ifs at known with last
      rw [if_pos rfl]
      omega
    · rw [others other same] at known
      rw [if_neg same]
      exact booked.settled other known
  · intro other mem
    have apart : ¬other = id := fun equal => fresh.2.1 (equal ▸ mem)
    rw [count_push, if_neg apart]
    exact booked.signalled other mem

end

theorem JobStep.sessions {id : RequestId} {stage : JobStage} {later : Option JobStage} {after : Sender}
    (step : JobStep s id stage later after) : (after.requestToSession = s.requestToSession ∧ after.released = s.released) ∨
      (after.requestToSession = clear id s.requestToSession ∧ after.released = s.released ++ [id]) := by
  cases step with
  | release session => exact .inr ⟨rfl, rfl⟩
  | _ => exact .inl ⟨rfl, rfl⟩

theorem Booked.job (booked : Booked counterparts s) {id : RequestId} {stage : JobStage} {later : Option JobStage}
    {after : Sender} (signalled : id ∈ s.signals.map Prod.fst) (step : JobStep s id stage later after) :
    (∀ other ∉ after.released, ∀ peer, (other, peer) ∈ s.received →
      ∃ peers, find other after.requestToSession = some peers ∧ peer ∈ peers) ∧
    ∀ other ∈ after.released, other ∈ s.signals.map Prod.fst := by
  rcases step.sessions with ⟨same, kept⟩ | ⟨cleared, grown⟩
  · rw [same, kept]
    exact ⟨booked.sessions, booked.released⟩
  rw [cleared, grown]
  constructor
  · intro other kept peer mem
    rw [mem_append, not_or, mem_singleton] at kept
    rw [find_clear, if_neg kept.2]
    exact booked.sessions other kept.1 peer mem
  · exact forall_mem_append.mpr ⟨booked.released, forall_mem_singleton.mpr signalled⟩

section
variable (booked : Booked counterparts s) (id : RequestId)

include booked

theorem Booked.session_known (here : s.pc = .countInit id) : find id s.requestToSession ≠ none := by
  have held : s.uncounted = some id := by simp [uncounted, here]
  have fresh := booked.uncounted_fresh held
  have tally := booked.tally id
  rw [if_pos held] at tally
  obtain ⟨info, mem, same⟩ := mem_map.mp (count_pos_iff.mp (Nat.lt_of_lt_of_le (Nat.succ_pos _) tally))
  obtain ⟨peers, found, _⟩ := booked.sessions id fresh.2.2 info.2 (same ▸ mem)
  simp [found]

theorem Booked.respond_last (here : s.pc = .respond) (cur : s.currentRequest = some id)
    (found : find id s.remainSendCount = some 1) :
    Booked counterparts { s with
      remainSendCount := clear id s.remainSendCount
      counted := s.counted ++ [id]
      pc := .cancelCheck id } := by
  have balance := booked.remaining id 1 found
  have fresh := booked.uncounted_fresh (show s.uncounted = some id by simp [uncounted, here, cur])
  have place := booked.place
  apply booked.respond id 0 _ (.cancelCheck id) here cur found
  · intro other apart
    rw [find_clear, if_neg apart]
  · rw [find_clear, if_pos rfl, if_pos rfl]
  · rfl
  · simp [Working, here]
  · simp only [PlaceSound, here] at place ⊢
    obtain ⟨own, named, _, held⟩ := place
    cases cur.symm.trans named
    refine ⟨cur, held, ?_, by omega, fresh.2.1⟩
    rw [count_push, if_pos rfl]
    omega

theorem Booked.signal_working (isReady : Bool) (here : s.pc = .signal id isReady) (other : RequestId)
    (busy : Working { s with pc := if isReady then .handOver id else .removeCancelled id } other) :
    other ∈ s.signals.map Prod.fst ∨ other = id := by
  cases isReady with
  | true =>
    rcases busy with queued | running | here_now | ⟨stage, never⟩
    · exact .inl (booked.working other (.inl queued))
    · exact .inl (booked.working other (.inr (.inl running)))
    · simp only [if_true, handOver.injEq] at here_now
      exact .inr here_now.symm
    · simp at never
  | false =>
    refine .inl (booked.working other ?_)
    simpa [Working, here] using busy

theorem Booked.signal (isReady : Bool) (here : s.pc = .signal id isReady) :
    Booked counterparts { s with
      signals := s.signals ++ [(id, isReady)]
      readySignals := s.readySignals ++ toCounterparts counterparts (id, isReady)
      pc := if isReady then .handOver id else .removeCancelled id } := by
  have place := booked.place
  simp only [PlaceSound, here] at place
  refine { booked with tally := ?_, signalled := ?_, working := ?_, released := ?_, place := ?_ }
  · intro other
    have tally := booked.tally other
    simp only [uncounted, here] at tally
    cases isReady <;> simpa [uncounted] using tally
  · intro other mem
    simp only [map_append, map_cons, map_nil, mem_append, mem_singleton] at mem
    rcases mem with old | rfl
    · exact booked.signalled other old
    · exact place.2.2.1
  · intro other busy
    rw [map_append, mem_append]
    exact (booked.signal_working id isReady here other busy).imp_right fun same => by simp [same]
  · intro other mem
    rw [map_append]
    exact mem_append_left _ (booked.released other mem)
  · cases isReady with
    | true => exact ⟨place.1, place.2.1⟩
    | false => exact ⟨place.1, place.2.1, by simp⟩

theorem Booked.hand_over (here : s.pc = .handOver id) :
    Booked counterparts { s with sendQueue := s.sendQueue ++ [id], pc := .removeResponse id } := by
  have place := booked.place
  simp only [PlaceSound, here] at place
  refine { booked with tally := ?_, working := ?_, place := place }
  · simpa [uncounted, here] using booked.tally
  intro req busy
  apply booked.working req
  simp only [Working, mem_append, mem_singleton, here, reduceCtorEq, exists_false, or_false,
    handOver.injEq] at busy ⊢
  rcases busy with (queued | rfl) | running
  · exact .inl queued
  · exact .inr (.inr rfl)
  · exact .inr (.inl running)

theorem Booked.start_job (here : s.pc = .handOver id) : Booked counterparts { s with pc := .job id .sending } := by
  have place := booked.place
  simp only [PlaceSound, here] at place
  refine booked.jump (.job id .sending) (.inr rfl) ?_ place
  intro other busy
  rcases busy with queued | running | never | ⟨stage, same⟩
  · exact .inl queued
  · exact .inr (.inl running)
  · cases never
  · cases same
    exact .inr (.inr (.inl here))

theorem Booked.own_job {stage : JobStage} {later : Option JobStage} {after : Sender} (here : s.pc = .job id stage)
    (step : JobStep s id stage later after) :
    Booked counterparts { after with pc := (later.map (Pc.job id)).getD (.removeResponse id) } := by
  have place := booked.place
  simp only [PlaceSound, here] at place
  have signalled := booked.working id (.inr (.inr (.inr ⟨stage, here⟩)))
  have kept := booked.job signalled step
  obtain ⟨_, _, _, _, rfl⟩ := step.written
  refine { booked with tally := ?_, sessions := kept.1, working := ?_, released := kept.2, place := ?_ }
  · intro other
    have tally := booked.tally other
    simp only [uncounted, here] at tally ⊢
    cases later <;> simpa using tally
  · intro other busy
    rcases busy with queued | running | never | ⟨other_stage, same⟩
    · exact booked.working other (.inl queued)
    · exact booked.working other (.inr (.inl running))
    · cases later <;> simp at never
    · cases later with
      | none => simp at same
      | some later =>
        simp only [Option.map_some, Option.getD_some, job.injEq] at same
        exact same.1 ▸ signalled
  · cases later <;> simpa [PlaceSound] using place

theorem Booked.remove_cancelled (here : s.pc = .removeCancelled id) :
    Booked counterparts { s with
      cancelledRequests := s.cancelledRequests.filter fun other => other ≠ id
      readyResponses := s.readyResponses.erase id
      remainSendCount := clear id s.remainSendCount
      pc := .resolveCancelled id } := by
  have place := booked.place
  simp only [PlaceSound, here] at place
  refine { booked with tally := ?_, remaining := ?_, settled := ?_, working := ?_, place := trivial }
  · simpa [uncounted, here] using booked.tally
  · intro other count known
    rw [find_clear] at known
    split_ifs at known with same
    exact booked.remaining other count known
  · intro other known
    rw [find_clear] at known
    by_cases same : other = id
    · exact .inr (booked.signalled other (same ▸ place.2.2))
    · rw [if_neg same] at known
      exact booked.settled other known
  · intro other busy
    apply booked.working other
    simpa [Working, here] using busy

end

theorem Booked.response (booked : Booked counterparts s) (flags : FlagSound s)
    (step : ResponseStep counterparts isAgent s next) : Booked counterparts next := by
  have place := booked.place
  cases step with
  | control pc moved => exact booked.control flags pc moved
  | receive id peer rest here arrived => exact booked.receive id peer rest here arrived
  | setCurrent id here =>
    exact booked.rest _ _ _ _ _ (by simp [uncounted, here]) (by simp [Working, here]) rfl
  | countKnown id here known =>
    simp only [PlaceSound, here] at place
    refine booked.jump .lookup (.inl ?_) ?_ ⟨id, place, known⟩
    · simp [uncounted, here, place]
    · simp [Working, here]
  | countInit id here first session => exact booked.count_init id here first
  | countUnknown id here first unknown => exact absurd unknown (booked.session_known id here)
  | respondMore id count here cur found =>
    apply booked.respond id (count + 1) _ .reset here cur found
    · intro other apart
      rw [find_update, if_neg apart]
    · rw [find_update, if_pos rfl, found]
      rfl
    · rfl
    · simp [Working, here]
    · trivial
  | respondLast id here cur found => exact booked.respond_last id here cur found
  | respondUnknown here unknown =>
    simp only [PlaceSound, here] at place
    obtain ⟨id, cur, known, _⟩ := place
    obtain ⟨count, found⟩ := Option.ne_none_iff_exists'.mp known
    have balance := booked.remaining id count found
    have zero := unknown id cur count found
    omega
  | signal id isReady here connected => exact booked.signal id isReady here
  | signalUnknown id isReady here unknown =>
    simp only [PlaceSound, here] at place
    exact absurd (booked.connected id place.2.2.1 place.2.2.2.2 place.2.2.2.1) unknown
  | handOver id here other => exact booked.hand_over id here
  | startJob id here agent => exact booked.start_job id here
  | job id stage later after here step => exact booked.own_job id here step
  | removeResponse id here | resolveCancelled id here | clearReady here | reset here =>
    exact booked.rest _ _ _ _ _ (by simp [uncounted, here]) (by simp [Working, here]) trivial
  | removeCancelled id here held => exact booked.remove_cancelled id here
  | removeUnknown id here absent =>
    simp only [PlaceSound, here] at place
    exact absurd place.2.1 absent

theorem Booked.step {action : Action} (booked : Booked counterparts s) (flags : FlagSound s)
    (step : Step counterparts isAgent s action next) : Booked counterparts next := by
  cases step with
  | insert id fresh =>
    have place := booked.place
    refine { booked with place := ?_ }
    unfold PlaceSound at place ⊢
    cases here : s.pc <;> simp only [here] at place ⊢ <;> grind
  | flag id begun | cancel id held idle | shutdown =>
    exact { booked with }
  | refuse id busy => exact booked
  | arrive id peer expected first =>
    have moved : (s.inbox ++ [(id, peer)] ++ s.received).Perm ((id, peer) :: (s.inbox ++ s.received)) := by
      rw [append_assoc, singleton_append]
      exact perm_middle
    refine { booked with infos := moved.nodup_iff.mpr (nodup_cons.mpr ⟨first, booked.infos⟩), expected := ?_ }
    intro info mem
    rcases mem_cons.mp (moved.mem_iff.mp mem) with rfl | old
    · exact expected
    · exact booked.expected info old
  | response _ step => exact booked.response flags step
  | take id rest queued =>
    refine { booked with working := ?_ }
    intro other busy
    apply booked.working other
    simp only [Working, map_append, map_cons, map_nil, mem_append, queued, mem_cons] at busy ⊢
    tauto
  | work id stage later before after done running step =>
    have listed : id ∈ s.jobs.map Prod.fst := by simp [running]
    have kept := booked.job (booked.working id (.inr (.inl listed))) step
    obtain ⟨_, _, _, _, rfl⟩ := step.written
    refine { booked with sessions := kept.1, working := ?_, released := kept.2 }
    intro other busy
    apply booked.working other
    simp only [Working, running, map_append, mem_append, map_cons, mem_cons] at busy ⊢
    cases later with
    | none =>
      tauto
    | some later =>
      simp only [Option.map_some, Option.toList_some, map_cons, map_nil, mem_singleton] at busy
      tauto

theorem booked_start : Booked counterparts {} := by
  constructor <;> simp [find, uncounted, Working, PlaceSound]

end TrtLlm.Transceiver
