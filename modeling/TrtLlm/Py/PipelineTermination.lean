import TrtLlm.Lib.Runs

set_option autoImplicit false

namespace TrtLlm.Py
open Finset Function
open Lib (Reachable)

-- The message of the ring: request ids with their votes, and the ids to terminate.
structure TermState where
  ready : Finset (Nat × Nat) := ∅
  term : Finset Nat := ∅

-- A rank's handler, with the messages it has sent and what each call passed to the terminator.
structure DisaggPPTerminationHandler where
  pendingTermination : Finset Nat := ∅
  terminatingIteration : Nat := 0
  sent : List TermState := []
  terminated : List (Finset Nat) := []

namespace DisaggPPTerminationHandler
variable (handler : DisaggPPTerminationHandler)

def terminate (id : Nat) : DisaggPPTerminationHandler := { handler with pendingTermination := insert id handler.pendingTermination }

def terminatePendingRequests (ppSize rank : Nat) (received : Option TermState) : DisaggPPTerminationHandler :=
  let state := received.getD {}
  let pending := handler.pendingTermination \ state.term
  let ready :=
    if rank = 0 then pending.image fun id => (id, 1)
    else state.ready.image fun vote => (vote.1, if vote.1 ∈ pending then vote.2 + 1 else vote.2)
  { pendingTermination := pending
    terminatingIteration := handler.terminatingIteration + 1
    sent := handler.sent ++
      [if rank + 1 = ppSize then { term := (ready.filter fun vote => vote.2 = ppSize).image Prod.fst } else { state with ready }]
    terminated := handler.terminated ++ [state.term ∩ handler.pendingTermination] }

end DisaggPPTerminationHandler

abbrev Ring := Nat → DisaggPPTerminationHandler

-- recv_object waits for the next message of the previous rank. The first call of rank 0 receives nothing.
def recvObject (ppSize : Nat) (ring : Ring) (rank : Nat) : Option (Option TermState) :=
  match rank, (ring rank).terminatingIteration with
  | 0, 0 => some none
  | 0, call + 1 => ((ring (ppSize - 1)).sent[call]?).map some
  | rank + 1, call => ((ring rank).sent[call]?).map some

-- asked rank call: what the rank is told to terminate between its calls call - 1 and call.
structure Pipeline where
  ppSize : Nat
  asked : Nat → Nat → List Nat

namespace Pipeline
variable (p : Pipeline)

def call (ring : Ring) (rank : Nat) (received : Option TermState) : Ring :=
  update ring rank
    (((p.asked rank (ring rank).terminatingIteration).foldl .terminate (ring rank)).terminatePendingRequests p.ppSize rank received)

-- The ranks call in any order that the messages allow.
inductive Step (ring : Ring) : Nat → Ring → Prop
  | call {rank : Nat} {received : Option TermState} (inside : rank < p.ppSize)
      (arrived : recvObject p.ppSize ring rank = some received) : Step ring rank (p.call ring rank received)

def agreed (offers : Nat → Finset Nat) : Finset Nat := (offers 0).filter fun id => ∀ rank < p.ppSize, id ∈ offers rank

-- What the ring is for: a call drops what all ranks had on offer after the call before.
def offered : Nat → Nat → Finset Nat
  | 0, _ => ∅
  | call + 1, rank => (offered call rank ∪ (p.asked rank call).toFinset) \ p.agreed (offered call)

def votes (rank call id : Nat) : Nat := ((range rank).filter fun voter => id ∈ p.offered (call + 1) voter).card

def ready (rank call : Nat) : Finset (Nat × Nat) := (p.offered (call + 1) 0).image fun id => (id, p.votes rank call id)

def message (rank call : Nat) : TermState :=
  if rank + 1 = p.ppSize then { term := p.agreed (p.offered (call + 1)) }
  else ⟨p.ready (rank + 1) call, p.agreed (p.offered call)⟩

def handlerAfter (rank calls : Nat) : DisaggPPTerminationHandler where
  pendingTermination := p.offered calls rank
  terminatingIteration := calls
  sent := (List.range calls).map (p.message rank)
  terminated := (List.range calls).map fun call => p.agreed (p.offered call)

-- Ahead of the ranks behind it, and at most one call ahead of the last.
structure Follows (ring : Ring) : Prop where
  after : ∀ rank < p.ppSize, ring rank = p.handlerAfter rank (ring rank).terminatingIteration
  behind : ∀ rank, rank + 1 < p.ppSize → (ring (rank + 1)).terminatingIteration ≤ (ring rank).terminatingIteration
  ahead : (ring 0).terminatingIteration ≤ (ring (p.ppSize - 1)).terminatingIteration + 1

variable {p} {rank call id : Nat}

theorem agreed_subset {offers : Nat → Finset Nat} (inside : rank < p.ppSize) : p.agreed offers ⊆ offers rank :=
  fun _ chosen => (mem_filter.mp chosen).2 rank inside

theorem votes_succ : p.votes (rank + 1) call id =
    if id ∈ p.offered (call + 1) rank then p.votes rank call id + 1 else p.votes rank call id := by
  unfold votes
  rw [range_add_one, filter_insert]
  split
  · rw [card_insert_of_notMem (by simp)]
  · rfl

theorem all_votes : p.votes p.ppSize call id = p.ppSize ↔ ∀ rank < p.ppSize, id ∈ p.offered (call + 1) rank := by
  have counted := card_filter_eq_iff (s := range p.ppSize) (p := fun voter => id ∈ p.offered (call + 1) voter)
  simpa only [votes, card_range, mem_range] using counted

theorem terminate_all (ids : List Nat) (handler : DisaggPPTerminationHandler) :
    ids.foldl .terminate handler = { handler with pendingTermination := handler.pendingTermination ∪ ids.toFinset } := by
  induction ids generalizing handler with
  | nil => simp
  | cons id ids ih => simp [ih, DisaggPPTerminationHandler.terminate]

theorem call_after {received : Option TermState} (inside : rank < p.ppSize)
    (term : (received.getD {}).term = p.agreed (p.offered call))
    (ready : 0 < rank → (received.getD {}).ready = p.ready rank call) :
    ((p.asked rank call).foldl .terminate (p.handlerAfter rank call)).terminatePendingRequests p.ppSize rank received =
      p.handlerAfter rank (call + 1) := by
  have counted : (if rank = 0 then (p.offered (call + 1) rank).image fun id => (id, 1)
      else (received.getD {}).ready.image fun vote =>
        (vote.1, if vote.1 ∈ p.offered (call + 1) rank then vote.2 + 1 else vote.2)) = p.ready (rank + 1) call := by
    cases rank with
    | zero =>
      refine image_congr fun id offers => ?_
      rw [votes_succ, if_pos (mem_coe.mp offers)]
      rfl
    | succ previous =>
      rw [if_neg (Nat.succ_ne_zero _), ready (Nat.succ_pos _), Pipeline.ready, image_image]
      exact image_congr fun id _ => congrArg (Prod.mk id) votes_succ.symm
  have popped : p.agreed (p.offered call) ∩ (p.offered call rank ∪ (p.asked rank call).toFinset) = p.agreed (p.offered call) :=
    inter_eq_left.mpr ((agreed_subset inside).trans subset_union_left)
  have left : (p.offered call rank ∪ (p.asked rank call).toFinset) \ p.agreed (p.offered call) = p.offered (call + 1) rank := rfl
  simp only [terminate_all, DisaggPPTerminationHandler.terminatePendingRequests, handlerAfter, term, popped, left, counted,
    List.range_succ, List.map_append, List.map_singleton, DisaggPPTerminationHandler.mk.injEq, true_and, and_true,
    List.append_cancel_left_eq, List.cons.injEq]
  unfold message
  split
  case isTrue last =>
    rw [Pipeline.ready, filter_image, image_image, last]
    simp only [all_votes]
    exact congrArg _ image_id
  case isFalse => rfl

variable {ring : Ring}

theorem range_map_at {α : Type} {f : Nat → α} {count : Nat} {a : α} :
    ((List.range count).map f)[call]? = some a ↔ call < count ∧ f call = a := by
  simp [List.getElem?_eq_some_iff]

theorem Follows.sent (follows : p.Follows ring) (inside : rank < p.ppSize) {state : TermState}
    (found : (ring rank).sent[call]? = some state) : call < (ring rank).terminatingIteration ∧ p.message rank call = state := by
  rw [follows.after rank inside] at found
  exact range_map_at.mp found

theorem Follows.step {received : Option TermState} (follows : p.Follows ring) (inside : rank < p.ppSize)
    (arrived : recvObject p.ppSize ring rank = some received) : p.Follows (p.call ring rank received) := by
  obtain ⟨term, ready, first, later⟩ : (received.getD {}).term = p.agreed (p.offered (ring rank).terminatingIteration) ∧
      (0 < rank → (received.getD {}).ready = p.ready rank (ring rank).terminatingIteration) ∧
      (rank = 0 → (ring 0).terminatingIteration ≤ (ring (p.ppSize - 1)).terminatingIteration) ∧
      ∀ previous, rank = previous + 1 → (ring rank).terminatingIteration < (ring previous).terminatingIteration := by
    unfold recvObject at arrived
    split at arrived
    case h_1 first =>
      cases arrived
      rw [first]
      exact ⟨rfl, nofun, by omega, nofun⟩
    case h_2 calls counted =>
      obtain ⟨state, found, rfl⟩ := Option.map_eq_some_iff.mp arrived
      obtain ⟨made, rfl⟩ := follows.sent (by omega) found
      rw [counted, message, if_pos (by omega)]
      exact ⟨rfl, nofun, fun _ => made, nofun⟩
    case h_3 previous =>
      obtain ⟨state, found, rfl⟩ := Option.map_eq_some_iff.mp arrived
      obtain ⟨made, rfl⟩ := follows.sent (by omega) found
      rw [message, if_neg (by omega)]
      refine ⟨rfl, fun _ => rfl, nofun, fun other same => ?_⟩
      cases same
      exact made
  have result := call_after inside term ready
  rw [← follows.after rank inside] at result
  rw [call, result]
  constructor
  · intro other known
    by_cases same : other = rank
    · subst same
      simp [handlerAfter]
    · rw [update_of_ne same]
      exact follows.after other known
  · intro other known
    have order := follows.behind other known
    have own := later other
    simp only [update_apply, handlerAfter]
    grind
  · have gap := follows.ahead
    simp only [update_apply, handlerAfter]
    grind

theorem reachable_follows (reached : Reachable p.Step (fun _ => {}) ring) : p.Follows ring := by
  refine Lib.reachable_invariant p.Follows (fun _ _ _ follows step => ?_) _ ring reached
    ⟨fun _ _ => rfl, fun _ _ => le_rfl, Nat.zero_le _⟩
  cases step with
  | call inside arrived => exact follows.step inside arrived

-- No rank is more than one call ahead of another.
theorem Follows.close (follows : p.Follows ring) {other : Nat} (inside : rank < p.ppSize) (known : other < p.ppSize) :
    (ring rank).terminatingIteration ≤ (ring other).terminatingIteration + 1 := by
  have down : ∀ first last, first ≤ last → last < p.ppSize →
      (ring last).terminatingIteration ≤ (ring first).terminatingIteration := by
    intro first last below bounded
    induction last, below using Nat.le_induction with
    | base => rfl
    | succ last _ ih => exact (follows.behind last bounded).trans (ih (by omega))
  have high := down 0 rank (Nat.zero_le _) inside
  have low := down other (p.ppSize - 1) (by omega) (by omega)
  have gap := follows.ahead
  omega

theorem offered_asked (offers : id ∈ p.offered call rank) : ∃ earlier < call, id ∈ p.asked rank earlier := by
  induction call with
  | zero => cases offers
  | succ call ih =>
    rcases mem_union.mp (mem_sdiff.mp offers).1 with before | new
    · obtain ⟨earlier, below, told⟩ := ih before
      exact ⟨earlier, by omega, told⟩
    · exact ⟨call, by omega, List.mem_toFinset.mp new⟩

theorem asked_offered {earlier : Nat} (told : id ∈ p.asked rank earlier) (below : earlier < call)
    (undecided : ∀ before < call, id ∉ p.agreed (p.offered before)) : id ∈ p.offered call rank := by
  induction call with
  | zero => omega
  | succ call ih =>
    refine mem_sdiff.mpr ⟨mem_union.mpr ?_, undecided call (by omega)⟩
    by_cases last : earlier = call
    · exact .inr (List.mem_toFinset.mpr (last ▸ told))
    · exact .inl (ih (by omega) fun before bound => undecided before (by omega))

theorem agreed_once {later : Nat} (once : ∀ first second, id ∈ p.asked 0 first → id ∈ p.asked 0 second → first = second)
    (chosen : id ∈ p.agreed (p.offered call)) (after : call < later) : id ∉ p.offered later 0 := by
  obtain ⟨earlier, below, told⟩ := offered_asked (mem_filter.mp chosen).1
  induction later, after using Nat.le_induction with
  | base => exact fun offers => (mem_sdiff.mp offers).2 chosen
  | succ later bound ih =>
    intro offers
    rcases mem_union.mp (mem_sdiff.mp offers).1 with before | new
    · exact ih before
    · have same := once earlier later told (List.mem_toFinset.mp new)
      omega

theorem pending_terminate_together (p : Pipeline) (ring : Ring)
    (once : ∀ rank < p.ppSize, ∀ id first second, id ∈ p.asked rank first → id ∈ p.asked rank second → first = second)
    (reached : Reachable p.Step (fun _ => {}) ring) :
    (∀ first < p.ppSize, ∀ second < p.ppSize,
      ∀ call < (ring first).terminatingIteration, call < (ring second).terminatingIteration →
      ∃ ids, (ring first).terminated[call]? = some ids ∧ (ring second).terminated[call]? = some ids) ∧
    (∀ rank < p.ppSize, (ring rank).terminated.Pairwise Disjoint ∧
      ∀ call ids, (ring rank).terminated[call]? = some ids → ∀ id ∈ ids, ∀ other < p.ppSize,
        ∃ earlier < call, earlier < (ring other).terminatingIteration ∧ id ∈ p.asked other earlier) ∧
    ∀ id call, (∀ rank < p.ppSize, ∃ earlier ≤ call, id ∈ p.asked rank earlier) →
      ∀ rank < p.ppSize, call + 1 < (ring rank).terminatingIteration →
        ∃ decided ≤ call + 1, ∃ ids, (ring rank).terminated[decided]? = some ids ∧ id ∈ ids := by
  have follows := reachable_follows reached
  have passed : ∀ {rank} (_ : rank < p.ppSize), (ring rank).terminated =
      (List.range (ring rank).terminatingIteration).map fun call => p.agreed (p.offered call) :=
    fun inside => congrArg DisaggPPTerminationHandler.terminated (follows.after _ inside)
  refine ⟨?same, fun rank inside => ⟨?apart, ?heard⟩, ?soon⟩
  case same =>
    intro first known second inside call made made'
    rw [passed known, passed inside]
    exact ⟨_, range_map_at.mpr ⟨made, rfl⟩, range_map_at.mpr ⟨made', rfl⟩⟩
  case apart =>
    rw [passed inside, List.pairwise_map]
    refine List.pairwise_lt_range.imp fun below => disjoint_left.mpr fun id chosen again => ?_
    exact agreed_once (once 0 (by omega) id) chosen below (mem_filter.mp again).1
  case heard =>
    intro call ids found id chosen other known
    rw [passed inside] at found
    obtain ⟨made, rfl⟩ := range_map_at.mp found
    obtain ⟨earlier, below, told⟩ := offered_asked (agreed_subset known chosen)
    have near := follows.close inside known
    exact ⟨earlier, below, by omega, told⟩
  case soon =>
    intro id call told rank inside made
    rw [passed inside]
    -- Otherwise the id is still on offer everywhere, and the next call decides it.
    by_contra missed
    have undecided : ∀ before ≤ call + 1, id ∉ p.agreed (p.offered before) := fun before bound chosen =>
      missed ⟨before, bound, _, range_map_at.mpr ⟨by omega, rfl⟩, chosen⟩
    have offers : ∀ other < p.ppSize, id ∈ p.offered (call + 1) other := by
      intro other known
      obtain ⟨earlier, below, asks⟩ := told other known
      exact asked_offered asks (by omega) fun before bound => undecided before (by omega)
    exact undecided (call + 1) le_rfl (mem_filter.mpr ⟨offers 0 (by omega), offers⟩)

theorem second_call_terminates :
    ∃ ring, Reachable (Step ⟨2, fun _ call => if call = 0 then [7] else []⟩) (fun _ => {}) ring ∧
    ∃ decided ≤ 1, ∃ ids, (ring 0).terminated[decided]? = some ids ∧ 7 ∈ ids := by
  have second : Reachable (Step ⟨2, fun _ call => if call = 0 then [7] else []⟩) (fun _ => {}) _ :=
    ((Reachable.refl.step (.call (by decide : 0 < 2) rfl)).step (.call (by decide : 1 < 2) rfl)).step (.call (by decide : 0 < 2) rfl)
  refine ⟨_, second, (pending_terminate_together _ _ ?_ second).2.2 7 0
    (fun _ _ => ⟨0, le_rfl, List.mem_singleton_self 7⟩) 0 ?_ ?_⟩
  · intro _ _ id first second told again
    grind
  · decide
  · decide

end Pipeline
end TrtLlm.Py
