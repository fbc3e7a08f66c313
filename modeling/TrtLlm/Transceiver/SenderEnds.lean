import TrtLlm.Transceiver.SenderLedger

set_option autoImplicit false

namespace TrtLlm.Transceiver
open List Pc
open Lib (Table Trace AllSteps Reachable trace_invariant)

def Pc.Holds (pc : Pc) (id : RequestId) : Prop :=
  pc = .handOver id ∨ (∃ stage, pc = .job id stage) ∨ pc = .removeResponse id ∨ pc = .removeCancelled id

def Pc.Deciding (pc : Pc) (id : RequestId) : Prop := pc = .cancelCheck id ∨ ∃ isReady, pc = .signal id isReady

structure Marked (counterparts : RequestId → Nat) (s : Sender) : Prop where
  ledger : Ledger s.signals s.stages s.sent s.released s.resolved s.pc.dropping
  truth : ∀ id isReady, (id, isReady) ∈ s.signals → isReady = decide (id ∉ s.cancelReturned)
  checked : ∀ id isReady, s.pc = .signal id isReady → isReady = decide (id ∉ s.cancelledRequests)
  marks : ∀ id ∉ s.signals.map Prod.fst, (id ∈ s.cancelledRequests ↔ id ∈ s.cancelReturned)
  cleaned : ∀ id ∈ s.signals.map Prod.fst, id ∈ s.cancelledRequests → s.pc = .removeCancelled id
  held : ∀ id ∈ s.signals.map Prod.fst, id ∈ s.readyResponses → s.pc.Holds id
  readyOnce : s.readyResponses.Nodup
  readyBegun : ∀ id ∈ s.readyResponses, id ∈ s.begun
  signalBegun : ∀ id ∈ s.signals.map Prod.fst, id ∈ s.begun
  kept : ∀ id ∈ s.begun, id ∈ s.readyResponses ∨ id ∈ s.signals.map Prod.fst
  complete : ∀ id, 0 < counterparts id → s.counted.count id = counterparts id → id ∈ s.signals.map Prod.fst ∨ s.pc.Deciding id
  exact_tally : s.pc ≠ .left → ∀ id, (s.received.map Prod.fst).count id ≤
    s.counted.count id + if s.uncounted = some id then 1 else 0
  cleared : ∀ id ∈ s.released, Table.find id s.requestToSession = none
  positive : ∀ id ∈ s.signals.map Prod.fst, 0 < counterparts id
  removing : ∀ id, s.pc = .removeResponse id → id ∈ s.signals.map Prod.fst

variable {counterparts : RequestId → Nat} {isAgent : Bool} {s next : Sender}

theorem Booked.away {id : RequestId} (booked : Booked counterparts s) (idle : s.currentRequest ≠ some id) : ¬s.pc.Holds id := by
  have place := booked.place
  rintro (here | ⟨stage, here⟩ | here | here)
  all_goals
    simp only [Sender.PlaceSound, here] at place
    exact idle place.1

section
variable (marked : Marked counterparts s)

include marked

theorem Marked.unread (anyReady terminate : Bool) (remainSendCount : Table RequestId Nat)
    (inbox : List (RequestId × Nat)) (inserting : List RequestId) :
    Marked counterparts { s with anyReady, terminate, remainSendCount, inbox, inserting } :=
  { marked with }

theorem Marked.jump (pc : Pc) (stages : pc.stages = s.pc.stages) (dropping : pc.dropping = s.pc.dropping)
    (checked : ∀ id isReady, pc = .signal id isReady → isReady = decide (id ∉ s.cancelledRequests))
    (cleaned : ∀ id ∈ s.cancelledRequests, s.pc = .removeCancelled id → pc = .removeCancelled id)
    (held : ∀ id ∈ s.readyResponses, s.pc.Holds id → pc.Holds id)
    (deciding : ∀ id, s.pc.Deciding id → pc.Deciding id)
    (counting : pc ≠ .left → s.pc ≠ .left ∧ Sender.uncounted { s with pc } = s.uncounted)
    (removing : ∀ id, pc ≠ .removeResponse id) :
    Marked counterparts { s with pc } := by
  have same : Sender.stages { s with pc } = s.stages := by simp [Sender.stages, stages]
  refine { marked with ledger := ?_, checked, cleaned := ?_, held := ?_, complete := ?_, exact_tally := ?_, removing := ?_ }
  · have ledger := marked.ledger
    rw [← same, ← dropping] at ledger
    exact ledger
  · exact fun id signalled mem => cleaned id mem (marked.cleaned id signalled mem)
  · exact fun id signalled mem => held id mem (marked.held id signalled mem)
  · exact fun id some_counterpart full => (marked.complete id some_counterpart full).imp_right (deciding id)
  · intro stays id
    obtain ⟨before, uncounted⟩ := counting stays
    rw [uncounted]
    exact marked.exact_tally before id
  · exact fun id here => absurd here (removing id)

theorem Marked.control (flags : FlagSound s) (pc : Pc) (moved : s.control = some pc) : Marked counterparts { s with pc } := by
  have serving := flags.serving
  cases here : s.pc with
  | emptyTest =>
    simp only [Sender.control, here, if_neg (serving here), Option.some.injEq] at moved
    subst moved
    apply marked.jump <;> simp [here, stages, dropping, Holds, Deciding, Sender.uncounted]
  | _ =>
    apply marked.jump <;>
      simp only [Sender.control, here, stages, dropping, Holds, Deciding, Sender.uncounted] at moved ⊢ <;> grind

theorem Marked.cancel (booked : Booked counterparts s) (id : RequestId)
    (ready : id ∈ s.readyResponses) (idle : s.currentRequest ≠ some id) :
    Marked counterparts { s with
      cancelledRequests := id :: s.cancelledRequests
      cancelReturned := s.cancelReturned ++ [id] } := by
  have unsignalled : id ∉ s.signals.map Prod.fst := fun signalled => booked.away idle (marked.held id signalled ready)
  refine { marked with truth := ?_, checked := ?_, marks := ?_, cleaned := ?_ }
  · intro other isReady signal
    have apart : other ≠ id := fun same => unsignalled (same ▸ mem_map.mpr ⟨_, signal, rfl⟩)
    have before := marked.truth other isReady signal
    simpa [apart] using before
  · intro other isReady (here : s.pc = .signal other isReady)
    have place := booked.place
    simp only [Sender.PlaceSound, here] at place
    have apart : other ≠ id := fun same => idle (same ▸ place.1)
    have before := marked.checked other isReady here
    simpa [apart] using before
  · intro other quiet
    have before := marked.marks other quiet
    simp only [mem_cons, mem_append, before, not_mem_nil, or_false]
    tauto
  · intro other signalled mem
    rcases mem_cons.mp mem with same | old
    · exact absurd (same ▸ signalled) unsignalled
    · exact marked.cleaned other signalled old

theorem Marked.insert (id : RequestId) (fresh : id ∉ s.begun) : Marked counterparts { s with
      readyResponses := s.readyResponses ++ [id], inserting := s.inserting ++ [id], begun := s.begun ++ [id] } := by
  refine { marked with held := ?_, readyOnce := ?_, readyBegun := ?_, signalBegun := ?_, kept := ?_ }
  · intro other signalled mem
    rcases mem_append.mp mem with old | new
    · exact marked.held other signalled old
    · rw [mem_singleton.mp new] at signalled
      exact absurd (marked.signalBegun id signalled) fresh
  · refine nodup_append.mpr ⟨marked.readyOnce, by simp, ?_⟩
    intro left listed right single same
    rw [mem_singleton] at single
    exact fresh (marked.readyBegun id (single ▸ same ▸ listed))
  · intro other mem
    rcases mem_append.mp mem with old | new
    · exact mem_append_left _ (marked.readyBegun other old)
    · exact mem_append_right _ new
  · exact fun other signalled => mem_append_left _ (marked.signalBegun other signalled)
  · intro other mem
    rcases mem_append.mp mem with old | new
    · exact (marked.kept other old).imp_left (mem_append_left _)
    · exact .inl (mem_append_right _ new)

end

theorem Booked.released_done (booked : Booked counterparts s) {id : RequestId} {peer : Nat} {rest : List (RequestId × Nat)}
    (arrived : s.inbox = (id, peer) :: rest) : id ∉ s.released := by
  intro mem
  have full := booked.signalled id (booked.released id mem)
  have all := booked.all_received full peer (booked.expected (id, peer) (by simp [arrived]))
  have nodup := booked.infos
  rw [arrived, cons_append, nodup_cons] at nodup
  exact nodup.1 (mem_append_right _ all)

variable (marked : Marked counterparts s)

include marked

theorem Marked.full_signalled {pc : Pc} (undecided : ∀ id, ¬s.pc.Deciding id) (id : RequestId)
    (some_counterpart : 0 < counterparts id)
    (full : s.counted.count id = counterparts id) : id ∈ s.signals.map Prod.fst ∨ pc.Deciding id :=
  .inl ((marked.complete id some_counterpart full).resolve_right (undecided id))

theorem Marked.nothing_cleaned {pc : Pc} (away : ∀ id, s.pc ≠ .removeCancelled id) (id : RequestId)
    (signalled : id ∈ s.signals.map Prod.fst) (mem : id ∈ s.cancelledRequests) : pc = .removeCancelled id :=
  absurd (marked.cleaned id signalled mem) (away id)

theorem Marked.free (pc : Pc) (free : ∀ id, ¬s.pc.Holds id ∧ ¬s.pc.Deciding id) :
    (∀ id ∈ s.signals.map Prod.fst, id ∈ s.cancelledRequests → pc = .removeCancelled id) ∧
      (∀ id ∈ s.signals.map Prod.fst, id ∈ s.readyResponses → pc.Holds id) ∧
      ∀ id, 0 < counterparts id → s.counted.count id = counterparts id → id ∈ s.signals.map Prod.fst ∨ pc.Deciding id := by
  refine ⟨marked.nothing_cleaned fun id here => (free id).1 (.inr (.inr (.inr here))), ?_,
    marked.full_signalled fun id => (free id).2⟩
  exact fun id signalled mem => absurd (marked.held id signalled mem) (free id).1

theorem Marked.receive (booked : Booked counterparts s) (id : RequestId) (peer : Nat)
    (rest : List (RequestId × Nat)) (here : s.pc = .receive) (arrived : s.inbox = (id, peer) :: rest) :
    Marked counterparts { s with
      inbox := rest
      received := s.received ++ [(id, peer)]
      requestToSession := addPeer peer id s.requestToSession
      pc := .receivedTest id } := by
  have idle : s.uncounted = none := by simp [Sender.uncounted, here]
  have waiting := booked.released_done arrived
  obtain ⟨cleaned, held, complete⟩ := marked.free (.receivedTest id) (by simp [here, Holds, Deciding])
  refine { marked with
    ledger := ?_, checked := by simp, cleaned, held, complete, exact_tally := ?_, cleared := ?_, removing := by simp }
  · simpa [Sender.stages, stages, dropping, here] using marked.ledger
  · intro _ other
    have tally := marked.exact_tally (by simp [here]) other
    rw [idle] at tally
    simp only [map_append, map_cons, map_nil, count_push, Sender.uncounted, Option.some.injEq, reduceCtorEq, if_false] at tally ⊢
    split
    · next same =>
      rw [if_pos same.symm]
      omega
    · next same =>
      omega
  · intro other mem
    have apart : ¬other = id := fun same => waiting (same ▸ mem)
    rw [find_addPeer, if_neg apart]
    exact marked.cleared other mem

theorem Marked.respond (id : RequestId) (remain : Table RequestId Nat) (pc : Pc)
    (here : s.pc = .respond) (cur : s.currentRequest = some id) (stages : pc.stages = []) (dropping : pc.dropping = none)
    (idle : Sender.uncounted { s with pc } = none) (unsignalling : ∀ other isReady, pc ≠ .signal other isReady)
    (deciding : s.counted.count id + 1 = counterparts id → pc.Deciding id) (removing : ∀ other, pc ≠ .removeResponse other) :
    Marked counterparts { s with remainSendCount := remain, counted := s.counted ++ [id], pc } := by
  have silent : Sender.uncounted { s with remainSendCount := remain, counted := s.counted ++ [id], pc } = none := idle
  obtain ⟨cleaned, held, complete⟩ := marked.free pc (by simp [here, Holds, Deciding])
  refine { marked with ledger := ?_, checked := ?_, cleaned, held, complete := ?_, exact_tally := ?_, removing := ?_ }
  · have ledger := marked.ledger
    simp only [Sender.stages, here, Pc.stages, Pc.dropping] at ledger
    simpa only [Sender.stages, stages, dropping] using ledger
  · exact fun other isReady there => absurd there (unsignalling other isReady)
  · intro other some_counterpart full
    rw [count_push] at full
    by_cases same : other = id
    · subst same
      rw [if_pos rfl] at full
      exact .inr (deciding full)
    · rw [if_neg same] at full
      exact complete other some_counterpart full
  · intro _ other
    have tally := marked.exact_tally (by simp [here]) other
    rw [silent, count_push]
    simp only [Sender.uncounted, here, cur, Option.some.injEq] at tally
    by_cases same : other = id
    · rw [if_pos same.symm] at tally
      rw [if_pos same]
      exact tally
    · rw [if_neg fun equal => same equal.symm] at tally
      rw [if_neg same]
      exact tally
  · exact fun other there => absurd there (removing other)

theorem Marked.signal (booked : Booked counterparts s) (id : RequestId) (isReady : Bool) (here : s.pc = .signal id isReady) :
    Marked counterparts { s with
      signals := s.signals ++ [(id, isReady)]
      readySignals := s.readySignals ++ toCounterparts counterparts (id, isReady)
      pc := if isReady then .handOver id else .removeCancelled id } := by
  have place := booked.place
  simp only [Sender.PlaceSound, here] at place
  have fresh := place.2.2.2.2
  have answer := marked.checked id isReady here
  have begun := marked.readyBegun id place.2.1
  refine ⟨?_, ?_, ?_, ?_, ?_, ?_, marked.readyOnce, marked.readyBegun, ?_, ?_, ?_, ?_, marked.cleared, ?_, ?_⟩
  · have ledger := marked.ledger
    simp only [Sender.stages, here, stages, dropping, append_nil] at ledger
    have grown := ledger.signal fresh isReady
    cases isReady <;> simpa [Sender.stages, stages, dropping] using grown
  · intro other val mem
    rcases mem_append.mp mem with old | new
    · exact marked.truth other val old
    simp only [mem_singleton, Prod.mk.injEq] at new
    obtain ⟨rfl, rfl⟩ := new
    rw [answer, decide_eq_decide, not_iff_not]
    exact marked.marks other fresh
  · intro other val there
    cases isReady <;> simp at there
  · intro other quiet
    rw [mem_push, not_or] at quiet
    exact marked.marks other quiet.1
  · intro other signalled mem
    rw [mem_push] at signalled
    rcases signalled with old | rfl
    · have there := marked.cleaned other old mem
      simp [here] at there
    · cases isReady with
      | true => simp [mem] at answer
      | false => rfl
  · intro other signalled mem
    rw [mem_push] at signalled
    rcases signalled with old | rfl
    · have there := marked.held other old mem
      simp [Holds, here] at there
    · cases isReady <;> simp [Holds]
  · intro other signalled
    rw [mem_push] at signalled
    rcases signalled with old | rfl
    · exact marked.signalBegun other old
    · exact begun
  · intro other mem
    rw [mem_push]
    exact (marked.kept other mem).imp_right .inl
  · intro other some_counterpart full
    rw [mem_push]
    rcases marked.complete other some_counterpart full with signalled | deciding
    · exact .inl (.inl signalled)
    · simp only [Deciding, here, reduceCtorEq, signal.injEq, exists_and_left, exists_eq', and_true, false_or] at deciding
      exact .inl (.inr deciding.symm)
  · intro _ other
    have tally := marked.exact_tally (by simp [here]) other
    cases isReady <;> simpa [Sender.uncounted, here] using tally
  · intro other signalled
    rw [mem_push] at signalled
    rcases signalled with old | rfl
    · exact marked.positive other old
    · exact place.2.2.2.1
  · intro other there
    cases isReady <;> simp at there

omit marked

theorem Booked.session_open (booked : Booked counterparts s) {id : RequestId} (signalled : id ∈ s.signals.map Prod.fst)
    (some_counterpart : 0 < counterparts id) (unreleased : id ∉ s.released) : Table.find id s.requestToSession ≠ none := by
  have all := booked.all_received (booked.signalled id signalled) 0 some_counterpart
  obtain ⟨peers, found, _⟩ := booked.sessions id unreleased 0 all
  rw [found]
  simp

section
variable (marked : Marked counterparts s)

include marked

theorem Marked.job (booked : Booked counterparts s) {id : RequestId} {stage : JobStage}
    {later : Option JobStage} {after : Sender} {rest : List (RequestId × JobStage)}
    (listed : s.stages.Perm ((id, stage) :: rest)) (step : JobStep s id stage later after) :
    Ledger s.signals ((later.map fun part => (id, part)).toList ++ rest) after.sent after.released after.resolved s.pc.dropping ∧
      ∀ other ∈ after.released, Table.find other after.requestToSession = none := by
  have ledger := marked.ledger.perm listed.symm
  have staged := ledger.staged id stage mem_cons_self
  have signalled : id ∈ s.signals.map Prod.fst := mem_map.mpr ⟨_, staged.1, rfl⟩
  constructor
  · apply ledger.job _ step
    intro unresolving
    exact booked.session_open signalled (marked.positive id signalled) fun mem => unresolving (staged.2.2.2.2.mp mem)
  intro other mem
  rcases step.sessions with ⟨same, kept⟩ | ⟨cleared, grown⟩
  · rw [same]
    exact marked.cleared other (kept ▸ mem)
  rw [cleared, Table.find_clear]
  rw [grown, mem_append, mem_singleton] at mem
  split_ifs with here
  · rfl
  · exact marked.cleared other (mem.resolve_right here)

theorem Marked.plain (anyReady : Bool) (currentRequest : Option RequestId)
    (resolved : List (RequestId × Bool)) (pc : Pc) (plain : ∀ id, ¬s.pc.Holds id ∧ ¬s.pc.Deciding id)
    (ledger : Ledger s.signals (Sender.stages { s with pc }) s.sent s.released resolved pc.dropping)
    (unsignalling : ∀ id isReady, pc ≠ .signal id isReady) (removing : ∀ id, pc ≠ .removeResponse id)
    (stays : s.pc ≠ .left)
    (counting : Sender.uncounted { s with anyReady, currentRequest, resolved, pc } = s.uncounted) :
    Marked counterparts { s with anyReady, currentRequest, resolved, pc } := by
  obtain ⟨cleaned, held, complete⟩ := marked.free pc plain
  refine { marked with ledger, checked := ?_, cleaned, held, complete, exact_tally := ?_, removing := ?_ }
  · exact fun id isReady here => absurd here (unsignalling id isReady)
  · intro _ id
    rw [counting]
    exact marked.exact_tally stays id
  · exact fun id here => absurd here (removing id)

theorem Marked.erase {id : RequestId} (signalled : id ∈ s.signals.map Prod.fst) :
    Marked counterparts { s with readyResponses := s.readyResponses.erase id } := by
  refine { marked with held := ?_, readyOnce := marked.readyOnce.erase id, readyBegun := ?_, kept := ?_ }
  · exact fun other known mem => marked.held other known (mem_of_mem_erase mem)
  · exact fun other mem => marked.readyBegun other (mem_of_mem_erase mem)
  · intro other mem
    by_cases same : other = id
    · exact .inr (same ▸ signalled)
    · exact (marked.kept other mem).imp_left (mem_erase_of_ne same).mpr

theorem Marked.hand_over (id : RequestId) (here : s.pc = .handOver id) :
    Marked counterparts { s with sendQueue := s.sendQueue ++ [id], pc := .removeResponse id } := by
  have staged := marked.ledger.staged id .sending (by simp [Sender.stages, stages, here])
  have moved : (Sender.stages { s with sendQueue := s.sendQueue ++ [id], pc := .removeResponse id }).Perm s.stages := by
    simp only [Sender.stages, stages, here, map_append, map_cons, map_nil, append_nil, append_assoc]
    exact Perm.append_left _ perm_append_comm
  refine { marked with
    ledger := ?_, checked := by simp, cleaned := marked.nothing_cleaned (by simp [here]), held := ?_
    complete := marked.full_signalled (by simp [Deciding, here]), exact_tally := ?_, removing := ?_ }
  · have ledger := marked.ledger.perm moved
    simpa only [dropping, here] using ledger
  · intro req signalled mem
    have there := marked.held req signalled mem
    simp only [Holds, here, handOver.injEq, reduceCtorEq, exists_false, or_false] at there
    simp [Holds, there]
  · intro _ req
    have tally := marked.exact_tally (by simp [here]) req
    simpa [Sender.uncounted, here] using tally
  · intro req there
    cases there
    exact mem_map.mpr ⟨_, staged.1, rfl⟩

theorem Marked.own_job (booked : Booked counterparts s) (id : RequestId) {stage : JobStage} {later : Option JobStage}
    {after : Sender} (here : s.pc = .job id stage) (step : JobStep s id stage later after) :
    Marked counterparts { after with pc := (later.map (Pc.job id)).getD (.removeResponse id) } := by
  have listed : s.stages.Perm ((id, stage) :: (s.sendQueue.map (fun other => (other, JobStage.sending)) ++ s.jobs)) := by
    simp only [Sender.stages, stages, here]
    exact perm_append_singleton _ _
  obtain ⟨ledger, cleared⟩ := marked.job booked listed step
  have staged := marked.ledger.staged id stage (listed.mem_iff.mpr mem_cons_self)
  have signalled : id ∈ s.signals.map Prod.fst := mem_map.mpr ⟨_, staged.1, rfl⟩
  obtain ⟨_, _, _, _, rfl⟩ := step.written
  refine { marked with
    ledger := ?_, checked := ?_, cleaned := marked.nothing_cleaned (by simp [here]), held := ?_
    complete := marked.full_signalled (by simp [Deciding, here]), exact_tally := ?_, cleared, removing := ?_ }
  · have moved := ledger.perm perm_append_comm
    simp only [here, dropping] at moved
    cases later <;> simpa [Sender.stages, stages, dropping] using moved
  · intro req isReady there
    cases later <;> simp at there
  · intro req known mem
    have there := marked.held req known mem
    simp only [Holds, here, reduceCtorEq, job.injEq, exists_and_left, exists_eq', and_true, or_false, false_or] at there
    cases later <;> simp [Holds, there]
  · intro _ req
    have tally := marked.exact_tally (by simp [here]) req
    simp only [Sender.uncounted, here] at tally ⊢
    cases later <;> simpa using tally
  · intro req there
    cases later with
    | none =>
      simp only [Option.map_none, Option.getD_none, removeResponse.injEq] at there
      exact there ▸ signalled
    | some part => simp at there

theorem Marked.gone (id : RequestId) : ∀ other ∈ s.readyResponses.erase id, id ≠ other :=
  fun _ mem same => marked.readyOnce.not_mem_erase (same ▸ mem)

theorem Marked.remove_cancelled (id : RequestId) (here : s.pc = .removeCancelled id) :
    Marked counterparts { s with
      readyResponses := s.readyResponses.erase id
      cancelledRequests := s.cancelledRequests.filter fun other => other ≠ id
      remainSendCount := Table.clear id s.remainSendCount
      pc := .resolveCancelled id } := by
  have gone := marked.gone id
  have refused := (marked.ledger.drops id (by simp [here, dropping])).1
  have signalled : id ∈ s.signals.map Prod.fst := mem_map.mpr ⟨_, refused, rfl⟩
  have forgotten : Marked counterparts { s with cancelledRequests := s.cancelledRequests.filter fun other => other ≠ id } := by
    refine { marked with checked := by simp [here], marks := ?_, cleaned := ?_ }
    · intro req quiet
      have apart : req ≠ id := fun same => quiet (same ▸ signalled)
      simpa [apart] using marked.marks req quiet
    · exact fun req known mem => marked.cleaned req known (mem_filter.mp mem).1
  apply ((forgotten.erase signalled).unread _ _ _ _ _).jump <;>
    simp +contextual [here, gone, @eq_comm _ id, stages, dropping, Holds, Deciding, Sender.uncounted]

theorem Marked.response (booked : Booked counterparts s) (flags : FlagSound s)
    (step : ResponseStep counterparts isAgent s next) : Marked counterparts next := by
  have after_books := booked.response flags step
  have place := booked.place
  cases step with
  | control pc moved => exact marked.control flags pc moved
  | receive id peer rest here arrived => exact marked.receive booked id peer rest here arrived
  | setCurrent id here | clearReady here | reset here =>
    refine marked.plain _ _ _ _ (by simp [here, Holds, Deciding]) ?_ (by simp) (by simp) (by simp [here]) ?_
    · simpa [Sender.stages, stages, dropping, here] using marked.ledger
    · simp [Sender.uncounted, here]
  | countKnown id here known =>
    simp only [Sender.PlaceSound, here] at place
    apply marked.jump <;> simp [here, place, stages, dropping, Holds, Deciding, Sender.uncounted]
  | countInit id here first session =>
    simp only [Sender.PlaceSound, here] at place
    have moved : Marked counterparts { s with pc := .lookup } := by
      apply marked.jump <;> simp [here, place, stages, dropping, Holds, Deciding, Sender.uncounted]
    exact moved.unread _ _ _ _ _
  | countUnknown id here first unknown | respondUnknown here unknown | signalUnknown id isReady here unknown
  | removeUnknown id here absent => exact absurd after_books.place (by simp [Sender.PlaceSound])
  | respondMore id count here cur found =>
    have balance := booked.remaining id _ found
    exact marked.respond id _ .reset here cur rfl rfl rfl (by simp) (fun full => by omega) (by simp)
  | respondLast id here cur found =>
    exact marked.respond id _ (.cancelCheck id) here cur rfl rfl rfl (by simp) (fun _ => .inl rfl) (by simp)
  | signal id isReady here connected => exact marked.signal booked id isReady here
  | handOver id here other => exact marked.hand_over id here
  | startJob id here agent =>
    apply marked.jump <;> simp [here, stages, dropping, Holds, Deciding, Sender.uncounted]
  | job id stage later after here step => exact marked.own_job booked id here step
  | removeResponse id here =>
    apply (marked.erase (marked.removing id here)).jump <;>
      simp +contextual [here, marked.gone id, stages, dropping, Holds, Deciding, Sender.uncounted]
  | removeCancelled id here held => exact marked.remove_cancelled id here
  | resolveCancelled id here =>
    refine marked.plain _ _ _ _ (by simp [here, Holds, Deciding]) ?_ (by simp) (by simp) (by simp [here]) ?_
    · have ledger := marked.ledger
      simp only [Sender.stages, stages, dropping, here] at ledger
      exact ledger.drop
    · simp [Sender.uncounted, here]

end

theorem Marked.step {action : Action} (marked : Marked counterparts s) (booked : Booked counterparts s) (flags : FlagSound s)
    (step : Step counterparts isAgent s action next) : Marked counterparts next := by
  cases step with
  | insert id fresh => exact marked.insert id fresh
  | flag id begun | arrive id peer expected first | shutdown => exact marked.unread _ _ _ _ _
  | cancel id held idle => exact marked.cancel booked id held idle
  | refuse id busy => exact marked
  | response _ step => exact marked.response booked flags step
  | take id rest queued =>
    have moved : (Sender.stages { s with sendQueue := rest, jobs := s.jobs ++ [(id, .sending)] }).Perm s.stages := by
      simp only [Sender.stages, queued, map_cons, cons_append, append_assoc]
      refine (Perm.append_left _ perm_middle).trans ?_
      exact perm_middle
    exact { marked with ledger := marked.ledger.perm moved }
  | work id stage later before after done running step =>
    have listed : s.stages.Perm ((id, stage) :: (s.sendQueue.map (fun other => (other, JobStage.sending)) ++ before ++ after ++
        s.pc.stages)) := by
      simp only [Sender.stages, running, append_assoc, cons_append]
      rw [← append_assoc, ← append_assoc (map _ _)]
      exact perm_middle
    obtain ⟨ledger, cleared⟩ := marked.job booked listed step
    obtain ⟨_, _, _, _, rfl⟩ := step.written
    refine { marked with ledger := ledger.perm ?_, cleared := cleared }
    simp only [Sender.stages, append_assoc]
    rw [← append_assoc, ← append_assoc (map _ _) before]
    exact perm_append_comm_assoc _ _ _

theorem marked_start : Marked counterparts {} := by
  constructor
  case ledger => constructor <;> simp [Sender.stages, stages, dropping]
  case complete =>
    intro id some_counterpart none_counted
    simp only [count_nil] at none_counted
    omega
  all_goals simp [Sender.uncounted]

end TrtLlm.Transceiver
