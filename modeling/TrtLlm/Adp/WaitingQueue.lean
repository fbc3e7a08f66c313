import TrtLlm.Adp.Router

set_option autoImplicit false

namespace TrtLlm.Adp
open List OrderDual Prod.Lex

inductive WaitingQueuePolicy where
  | fcfs
  | priority

-- The priority may be the default one. The arrival numbers the requests as they first come and is not in the
-- code.
structure Waiting (P : Type) where
  item : RequestQueueItem
  priority : P
  arrival : Nat

structure HeapEntry (P : Type) where
  counter : Int
  waiting : Waiting P

-- The entries in the order heappop takes them.
inductive WaitingQueue (P : Type) where
  | fcfs (items : List (Waiting P))
  | priority (heap : List (HeapEntry P)) (counter prependCounter : Int)

def createWaitingQueue {P : Type} : WaitingQueuePolicy → WaitingQueue P
  | .fcfs => .fcfs []
  | .priority => .priority [] 0 (-1)

structure Limits where
  maxReqCount : Int
  enableAttentionDp : Bool
  maxNumActiveRequests : Nat
  allRanksNumActiveRequests : List Nat

structure PoppedEntries (Entry : Type) where
  items : List Entry := []
  pending : List Entry := []
  left : List Entry
  raised : Option PyError := none

section
variable {Entry : Type} (item : Entry → RequestQueueItem) (limits : Limits)

-- The loop of get_from_waiting_queue over the entries as they are popped.
def popLoop : Nat → List Nat → List Entry → PoppedEntries Entry
  | _, _, [] => { left := [] }
  | reqCount, counts, entry :: rest =>
    let numChildren := (item entry).childReqIds.length
    if limits.maxReqCount ≤ reqCount ∨ limits.maxReqCount < reqCount + 1 + numChildren then { left := entry :: rest }
    else
      match if limits.enableAttentionDp then canProcessAttentionDpRequest (item entry) counts limits.maxNumActiveRequests
        else .ok (true, counts) with
      | .error raised => { left := rest, raised := some raised }
      | .ok (true, counts) =>
        let popped := popLoop (reqCount + 1 + numChildren) counts rest
        { popped with items := entry :: popped.items }
      | .ok (false, counts) =>
        let popped := popLoop reqCount counts rest
        { popped with pending := entry :: popped.pending }

theorem pop_loop_sublists (reqCount : Nat) (counts : List Nat) (entries : List Entry) :
    let popped := popLoop item limits reqCount counts entries
    popped.items.Sublist entries ∧ (popped.pending ++ popped.left).Sublist entries := by
  fun_induction popLoop item limits reqCount counts entries with
  | case1 => exact ⟨.slnil, .slnil⟩
  | case2 => exact ⟨nil_sublist _, Sublist.refl _⟩
  | case3 => exact ⟨nil_sublist _, sublist_cons_self _ _⟩
  | case4 _ _ entry _ _ _ _ _ _ ih => exact ⟨ih.1.cons_cons entry, ih.2.cons entry⟩
  | case5 _ _ entry _ _ _ _ _ _ ih => exact ⟨ih.1.cons entry, ih.2.cons_cons entry⟩

def charge (items : List RequestQueueItem) : Nat := (items.map fun item => 1 + item.childReqIds.length).sum

theorem pop_loop_charged (reqCount : Nat) (counts : List Nat) (entries : List Entry) :
    let popped := popLoop item limits reqCount counts entries
    popped.items = [] ∨ reqCount + charge (popped.items.map item) ≤ limits.maxReqCount := by
  fun_induction popLoop item limits reqCount counts entries with
  | case1 | case2 | case3 => exact .inl rfl
  | case4 _ _ entry _ numChildren room _ _ popped ih =>
    right
    push Not at room
    simp only [map_cons, charge, sum_cons, popped] at ih ⊢
    rcases ih with none_left | charged
    · rw [none_left, map_nil, map_nil, sum_nil]
      omega
    · omega
  | case5 _ _ _ _ _ _ _ _ _ ih => exact ih

end

variable {P : Type} [LinearOrder P] (entry : HeapEntry P)

-- By the negated priority and then by the counter.
def HeapEntry.key : Pᵒᵈ ×ₗ Int := toLex (toDual entry.waiting.priority, entry.counter)

def Waiting.key (waiting : Waiting P) : Pᵒᵈ ×ₗ Nat := toLex (toDual waiting.priority, waiting.arrival)

def heappush (heap : List (HeapEntry P)) : List (HeapEntry P) :=
  heap.orderedInsert (·.key ≤ ·.key) entry

namespace WaitingQueue

def iter : WaitingQueue P → List (Waiting P)
  | fcfs items => items
  | priority heap _ _ => heap.map (·.waiting)

def addRequest (request : Waiting P) : WaitingQueue P → WaitingQueue P
  | fcfs items => fcfs (items ++ [request])
  | priority heap counter prependCounter =>
    priority (heappush ⟨counter, request⟩ heap) (counter + 1) prependCounter

def prependRequest (request : Waiting P) : WaitingQueue P → WaitingQueue P
  | fcfs items => fcfs (request :: items)
  | priority heap counter prependCounter =>
    priority (heappush ⟨prependCounter, request⟩ heap) counter (prependCounter - 1)

-- In reverse, so that the first request ends up in front.
def prependRequests (requests : List (Waiting P)) (queue : WaitingQueue P) : WaitingQueue P :=
  requests.foldr prependRequest queue

def removeByIds (requestIds : List Nat) : WaitingQueue P → WaitingQueue P
  | fcfs items => fcfs (items.filter (·.item.id ∉ requestIds))
  | priority heap counter prependCounter => priority (heap.filter (·.waiting.item.id ∉ requestIds)) counter prependCounter

def getFromWaitingQueue (limits : Limits) : WaitingQueue P → WaitingQueue P × Except PyError (List (Waiting P))
  | fcfs items =>
    let popped := popLoop (·.item) limits 0 limits.allRanksNumActiveRequests items
    match popped.raised with
    | some raised => (fcfs popped.left, .error raised)
    | none => (prependRequests popped.pending (fcfs popped.left), .ok popped.items)
  | priority heap counter prependCounter =>
    let popped := popLoop (·.waiting.item) limits 0 limits.allRanksNumActiveRequests heap
    match popped.raised with
    | some raised => (priority popped.left counter prependCounter, .error raised)
    | none => (prependRequests (popped.pending.map (·.waiting)) (priority popped.left counter prependCounter),
        .ok (popped.items.map (·.waiting)))

-- fillAdmitCap throttles the benchmark fill phase.
def popFromWaitingQueue (maxNumActiveRequests : Nat) (fillAdmitCap : Option Nat) (counts : List Nat)
    (queue : WaitingQueue P) : WaitingQueue P × Except PyError (List (Waiting P)) :=
  let maxNewRequests : Int := counts.length * maxNumActiveRequests - counts.sum
  let maxReqCount := match fillAdmitCap with
    | none => maxNewRequests
    | some cap => min maxNewRequests cap
  queue.getFromWaitingQueue ⟨maxReqCount, true, maxNumActiveRequests, counts⟩

def Precedes : WaitingQueue P → Waiting P → Waiting P → Prop
  | fcfs _, a, b => a.arrival < b.arrival
  | priority _ _ _, a, b => a.key < b.key

end WaitingQueue

inductive QueueCall (P : Type) where
  | addRequest (request : RequestQueueItem × P)
  | addRequests (requests : List (RequestQueueItem × P))
  | getFromWaitingQueue (limits : Limits)
  | removeByIds (requestIds : List Nat)

-- The queue and the number of arrivals so far.
abbrev Arrivals (P : Type) := WaitingQueue P × Nat

def arrive (state : Arrivals P) (request : RequestQueueItem × P) : Arrivals P :=
  (state.1.addRequest ⟨request.1, request.2, state.2⟩, state.2 + 1)

def queueStep (state : Arrivals P) : QueueCall P → Arrivals P
  | .addRequest request => arrive state request
  | .addRequests requests => requests.foldl arrive state
  | .getFromWaitingQueue limits => ((state.1.getFromWaitingQueue limits).1, state.2)
  | .removeByIds requestIds => (state.1.removeByIds requestIds, state.2)

def Ahead (a b : HeapEntry P) : Prop := a.key < b.key ∧ a.waiting.key < b.waiting.key

structure HeapSound (heap : List (HeapEntry P)) (counter prependCounter : Int) (arrivals : Nat) : Prop where
  ahead : heap.Pairwise Ahead
  counters : prependCounter < counter
  bounds : ∀ entry ∈ heap, prependCounter < entry.counter ∧ entry.counter < counter ∧ entry.waiting.arrival < arrivals

def Sound : Arrivals P → Prop
  | (.fcfs items, arrivals) => items.Pairwise (fun a b => a.arrival < b.arrival) ∧ ∀ w ∈ items, w.arrival < arrivals
  | (.priority heap counter prependCounter, arrivals) => HeapSound heap counter prependCounter arrivals

theorem ahead_or_behind (a b : HeapEntry P) (tie : a.waiting.priority = b.waiting.priority →
    a.counter < b.counter ∧ a.waiting.arrival < b.waiting.arrival ∨ b.counter < a.counter ∧ b.waiting.arrival < a.waiting.arrival) :
    Ahead a b ∨ Ahead b a := by
  simp only [Ahead, HeapEntry.key, Waiting.key, toLex_lt_toLex]
  rcases lt_trichotomy a.waiting.priority b.waiting.priority with less | same | more
  · exact .inr ⟨.inl less, .inl less⟩
  · exact (tie same).imp (fun both => ⟨.inr ⟨same, both.1⟩, .inr ⟨same, both.2⟩⟩)
      fun both => ⟨.inr ⟨same.symm, both.1⟩, .inr ⟨same.symm, both.2⟩⟩
  · exact .inl ⟨.inl more, .inl more⟩

theorem heappush_ahead (heap : List (HeapEntry P)) (sorted : heap.Pairwise Ahead)
    (comparable : ∀ other ∈ heap, Ahead entry other ∨ Ahead other entry) :
    (heappush entry heap).Pairwise Ahead := by
  induction heap with
  | nil => exact pairwise_singleton _ _
  | cons other rest ih =>
    obtain ⟨before, later⟩ := pairwise_cons.mp sorted
    obtain ⟨here, others⟩ := forall_mem_cons.mp comparable
    rw [heappush, orderedInsert_cons]
    split
    · rename_i first
      have ahead := here.resolve_right fun back => first.not_gt back.1
      exact pairwise_cons.mpr ⟨forall_mem_cons.mpr ⟨ahead, fun b mem =>
        ⟨ahead.1.trans (before b mem).1, ahead.2.trans (before b mem).2⟩⟩, sorted⟩
    · rename_i last
      have ahead := here.resolve_left fun front => last front.1.le
      refine pairwise_cons.mpr ⟨fun b mem => ?_, ih later others⟩
      rcases (mem_orderedInsert _).mp mem with rfl | mem
      · exact ahead
      · exact before b mem

section
variable {heap : List (HeapEntry P)} {counter prependCounter : Int} {arrivals : Nat}
  (sound : HeapSound heap counter prependCounter arrivals)

include sound

theorem HeapSound.insert (entry : HeapEntry P) (comparable : ∀ other ∈ heap, Ahead entry other ∨ Ahead other entry)
    (above below : Int) (number : Nat) (wider : below ≤ prependCounter ∧ counter ≤ above ∧ arrivals ≤ number)
    (within : below < entry.counter ∧ entry.counter < above ∧ entry.waiting.arrival < number) :
    HeapSound (heappush entry heap) above below number where
  ahead := heappush_ahead entry heap sound.ahead comparable
  counters := by have := sound.counters; omega
  bounds other member := by
    rcases (mem_orderedInsert _).mp member with rfl | member
    · exact within
    · have := sound.bounds other member
      omega

theorem HeapSound.push (req : RequestQueueItem × P) :
    HeapSound (heappush ⟨counter, req.1, req.2, arrivals⟩ heap) (counter + 1) prependCounter (arrivals + 1) := by
  have counters := sound.counters
  refine sound.insert _ (fun other mem => ?_) _ _ _ (by omega) (by simp only; omega)
  exact ahead_or_behind _ _ fun _ => .inr (sound.bounds other mem).2

theorem HeapSound.push_front (req : Waiting P) (early : req.arrival < arrivals)
    (front : ∀ entry ∈ heap, req.key < entry.waiting.key) :
    HeapSound (heappush ⟨prependCounter, req⟩ heap) counter (prependCounter - 1) arrivals := by
  have counters := sound.counters
  refine sound.insert _ (fun other mem => ?_) _ _ _ (by omega) (by simp only; omega)
  exact ahead_or_behind _ _ fun same =>
    .inl ⟨(sound.bounds other mem).1, ((toLex_lt_toLex.mp (front other mem)).resolve_left same.le.not_gt).2⟩

theorem HeapSound.sublist {kept : List (HeapEntry P)} (some : kept.Sublist heap) :
    HeapSound kept counter prependCounter arrivals :=
  ⟨sound.ahead.sublist some, sound.counters, fun entry mem => sound.bounds entry (some.subset mem)⟩

theorem HeapSound.prepend (reqs : List (Waiting P)) (early : ∀ a ∈ reqs, a.arrival < arrivals)
    (sorted : (reqs ++ heap.map (·.waiting)).Pairwise (·.key < ·.key)) : ∃ after below,
      WaitingQueue.prependRequests reqs (.priority heap counter prependCounter) = .priority after counter below ∧
      HeapSound after counter below arrivals ∧ (after.map (·.waiting)).Perm (reqs ++ heap.map (·.waiting)) := by
  induction reqs with
  | nil => exact ⟨heap, prependCounter, rfl, sound, .refl _⟩
  | cons req rest ih =>
    obtain ⟨early, earlier⟩ := forall_mem_cons.mp early
    obtain ⟨before, sorted⟩ := pairwise_cons.mp sorted
    obtain ⟨after, below, same, kept, members⟩ := ih earlier sorted
    refine ⟨_, below - 1, congrArg (WaitingQueue.prependRequest req) same, kept.push_front req early ?_, ?_⟩
    · exact fun entry mem => before _ (members.mem_iff.mp (mem_map_of_mem mem))
    · exact ((perm_orderedInsert _ _ _).map _).trans (members.cons req)

end

variable {queue : WaitingQueue P} {arrivals : Nat} (sound : Sound (queue, arrivals))

theorem get_taken (limits : Limits) (items : List (Waiting P)) (done : (queue.getFromWaitingQueue limits).2 = .ok items) :
    items.Sublist queue.iter ∧ (items = [] ∨ charge (items.map (·.item)) ≤ limits.maxReqCount) := by
  cases queue with
  | fcfs waiting =>
    have taken := (pop_loop_sublists (·.item) limits 0 limits.allRanksNumActiveRequests waiting).1
    have charged := pop_loop_charged (·.item) limits 0 limits.allRanksNumActiveRequests waiting
    simp only [WaitingQueue.getFromWaitingQueue] at done
    split at done
    · cases done
    · cases done
      exact ⟨taken, by simpa using charged⟩
  | priority heap counter prependCounter =>
    have taken := (pop_loop_sublists (·.waiting.item) limits 0 limits.allRanksNumActiveRequests heap).1
    have charged := pop_loop_charged (·.waiting.item) limits 0 limits.allRanksNumActiveRequests heap
    simp only [WaitingQueue.getFromWaitingQueue] at done
    split at done
    · cases done
    · cases done
      exact ⟨taken.map _, by simpa [Function.comp_def] using charged⟩

theorem fcfs_sublist {items kept : List (Waiting P)} (sound : Sound (.fcfs items, arrivals)) (some : kept.Sublist items) :
    Sound (.fcfs kept, arrivals) :=
  ⟨sound.1.sublist some, fun w mem => sound.2 w (some.subset mem)⟩

theorem prepend_fcfs (reqs items : List (Waiting P)) :
    WaitingQueue.prependRequests reqs (.fcfs items) = .fcfs (reqs ++ items) := by
  induction reqs with
  | nil => rfl
  | cons req rest ih => exact congrArg (WaitingQueue.prependRequest req) ih

include sound

theorem arrive_sound (req : RequestQueueItem × P) : Sound (arrive (queue, arrivals) req) := by
  cases queue with
  | fcfs items =>
    obtain ⟨sorted, early⟩ := sound
    refine ⟨pairwise_append.mpr ⟨sorted, pairwise_singleton _ _, by simpa using early⟩, ?_⟩
    simp only [forall_mem_append, forall_mem_singleton]
    exact ⟨fun w mem => (early w mem).trans (Nat.lt_succ_self _), Nat.lt_succ_self _⟩
  | priority heap counter prependCounter => exact sound.push req

theorem get_sound (limits : Limits) : Sound ((queue.getFromWaitingQueue limits).1, arrivals) := by
  cases queue with
  | fcfs items =>
    have kept := (pop_loop_sublists (·.item) limits 0 limits.allRanksNumActiveRequests items).2
    simp only [WaitingQueue.getFromWaitingQueue]
    split
    · exact fcfs_sublist sound ((sublist_append_right _ _).trans kept)
    · rw [prepend_fcfs]
      exact fcfs_sublist sound kept
  | priority heap counter prependCounter =>
    have kept := (pop_loop_sublists (·.waiting.item) limits 0 limits.allRanksNumActiveRequests heap).2
    have left := HeapSound.sublist sound ((sublist_append_right _ _).trans kept)
    simp only [WaitingQueue.getFromWaitingQueue]
    split
    · exact left
    · obtain ⟨after, below, same, again, -⟩ := left.prepend _ (forall_mem_map.mpr fun entry mem =>
        (sound.bounds entry (kept.subset (mem_append_left _ mem))).2.2)
        (by rw [← map_append]; exact pairwise_map.mpr ((sound.ahead.sublist kept).imp And.right))
      rw [same]
      exact again

theorem queue_step_sound (call : QueueCall P) : Sound (queueStep (queue, arrivals) call) := by
  cases call with
  | addRequest req => exact arrive_sound sound req
  | addRequests reqs =>
    exact foldlRecOn reqs arrive sound fun _ sound req _ => arrive_sound sound req
  | getFromWaitingQueue limits => exact get_sound sound limits
  | removeByIds requestIds =>
    cases queue with
    | fcfs items => exact fcfs_sublist sound filter_sublist
    | priority heap counter prependCounter => exact HeapSound.sublist sound filter_sublist

omit sound

end TrtLlm.Adp
