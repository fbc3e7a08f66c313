import TrtLlm.Adp.Balance

set_option autoImplicit false

namespace TrtLlm.Adp
open List Lib DefaultADPRouter

-- The states of a group as the ranks gather them, the i-th from rank i.
structure Gathered (states : List RankState) : Prop where
  nonempty : states ≠ []
  ordered : states.map (·.rank) = ranksOf states.length

theorem strictFirst_perm (items : List RequestQueueItem) : (strictFirst items).Perm items := perm_insertionSort _ _

-- The new requests with their children fit into the places that are left in the whole group.
def Roomy (cap : Nat) (counts : List Nat) (newRequests : List RequestQueueItem) : Prop :=
  newRequests = [] ∨ counts.sum + charge newRequests ≤ counts.length * cap

section FirstPhase
variable {states : List RankState} {newRequests : List RequestQueueItem} {cap : Nat} {final : Books}

def startBooks (states : List RankState) : Books := ⟨states.map (·.numActiveRequests), emptyAssignment states, []⟩

theorem startBooks_covers (gathered : Gathered states) :
    (startBooks states).assigned.Covers (startBooks states).numActive.length := by
  have ordered := gathered.ordered
  have nodup : (states.map (·.rank)).Nodup := by
    rw [ordered]
    exact Nodup.map (fun left right same => Int.ofNat.inj same) nodup_range
  rw [startBooks, Assignment.Covers, emptyAssignment, Nodup.dedup nodup, map_map]
  simpa [Function.comp_def] using ordered

section
variable (placed : Placed cap (startBooks states) (strictFirst newRequests) final)

include placed

theorem placed_requests : (final.assigned.requests ++ final.remaining).Perm newRequests := by
  have moved := placed.requests
  simp only [startBooks, emptyAssignment_requests, append_nil, nil_append] at moved
  exact moved.trans (strictFirst_perm newRequests)

theorem placed_size (gathered : Gathered states) : final.numActive.length = states.length ∧ final.numActive ≠ [] := by
  have size : final.numActive.length = states.length := by simpa [startBooks] using placed.size
  refine ⟨size, fun empty => ?_⟩
  rw [empty] at size
  exact gathered.nonempty (length_eq_zero_iff.mp size.symm)

theorem placed_room (room : Roomy cap (states.map (·.numActiveRequests)) newRequests) (some_left : final.remaining ≠ []) :
    final.numActive.sum + final.remaining.length ≤ final.numActive.length * cap := by
  have total := placed.total
  have size := placed.size
  simp only [startBooks, length_nil, (strictFirst_perm newRequests).length_eq] at total size
  rcases room with none_new | fits
  · have members := (placed_requests placed).length_eq
    rw [none_new, length_append, length_nil] at members
    exact absurd (length_eq_zero_iff.mp (by omega)) some_left
  · have counted := length_le_charge newRequests
    rw [size, total]
    omega

end

end FirstPhase

section
variable {states : List RankState} {newRequests : List RequestQueueItem} {cap : Nat} {placed : Books}

theorem route_of_placed (gathered : Gathered states) (room : Roomy cap (states.map (·.numActiveRequests)) newRequests)
    (ran : placeTargeted cap (strictFirst newRequests) (startBooks states) = .ok placed) :
    ∃ final want, routeRequests states newRequests cap = .ok (final, want) ∧ want ≤ cap ∧
      Balanced states.length want placed.numActive placed.assigned placed.remaining final := by
  have kept := place_targeted_placed _ _ (startBooks_covers gathered) ran
  obtain ⟨size, nonempty⟩ := placed_size kept gathered
  have covers : placed.assigned.Covers placed.numActive.length := by
    rw [kept.size]
    exact kept.covers
  obtain ⟨final, balanced, spec⟩ := balance_across placed.remaining placed.assigned placed.numActive
    (states.map (·.numActiveTokens)) (expectedNumActiveRequests placed.numActive placed.remaining.length cap) covers
    (by rw [length_map, size])
    (fun some_left => share_covers nonempty (le_max_left _ _)
      (placed_room kept room some_left))
  refine ⟨final, expectedNumActiveRequests placed.numActive placed.remaining.length cap, ?_, min_le_right _ _, size ▸ spec⟩
  change (placeTargeted cap (strictFirst newRequests) (startBooks states)).bind _ = _
  rw [ran]
  simp only [Except.bind, if_neg gathered.nonempty, balanced]
  rfl

end

structure LlmRequest where
  id : Nat
  origPromptLen : Nat
deriving DecidableEq, Repr

-- A request becomes active with one child request for each child id.
def mergeRequests (newRequests : List RequestQueueItem) : List LlmRequest :=
  newRequests.flatMap fun item =>
    ⟨item.id, item.tokens.length⟩ :: item.childReqIds.map fun child => ⟨child, item.tokens.length⟩

theorem mergeRequests_length (newRequests : List RequestQueueItem) : (mergeRequests newRequests).length = charge newRequests := by
  induction newRequests with
  | nil => rfl
  | cons item rest ih =>
    simp only [mergeRequests, charge, flatMap_cons, length_append, length_cons, length_map, map_cons, sum_cons] at ih ⊢
    omega

abbrev Group := List (List LlmRequest)

variable (group : Group)

def gatherAllRankStates : List RankState :=
  group.mapIdx fun rank active => ⟨rank, active.length, (active.map (·.origPromptLen)).sum⟩

variable {P : Type} [LinearOrder P]

def fetchNewRequests (maxNumActiveRequests : Nat) (fillAdmitCap : Option Nat) (waitingQueue : WaitingQueue P)
    (group : Group) : Except PyError (Group × WaitingQueue P) :=
  let states := gatherAllRankStates group
  let popped := waitingQueue.popFromWaitingQueue maxNumActiveRequests fillAdmitCap (states.map (·.numActiveRequests))
  popped.2.bind fun newRequests =>
    (routeRequests states (newRequests.map (·.item)) maxNumActiveRequests).map fun routed =>
      (group.mapIdx fun rank active => active ++ mergeRequests (routed.1.ofRank rank), popped.1)

inductive GroupAction (P : Type) where
  | fetch (waitingQueue : WaitingQueue P) (fillAdmitCap : Option Nat)
  | leave

inductive GroupStep (maxNumActiveRequests : Nat) : Group → GroupAction P → Group → Prop where
  | fetch (group next : Group) (waitingQueue left : WaitingQueue P) (fillAdmitCap : Option Nat)
      (done : fetchNewRequests maxNumActiveRequests fillAdmitCap waitingQueue group = .ok (next, left)) :
      GroupStep maxNumActiveRequests group (.fetch waitingQueue fillAdmitCap) next
  | leave (group next : Group) (fewer : List.Forall₂ (fun active rest => rest.Sublist active) group next) :
      GroupStep maxNumActiveRequests group .leave next

theorem gather_length : (gatherAllRankStates group).length = group.length := length_mapIdx

theorem gather_gathered (nonempty : group ≠ []) : Gathered (gatherAllRankStates group) := by
  constructor
  · intro empty
    have none_left := congrArg length empty
    rw [gather_length] at none_left
    exact nonempty (length_eq_zero_iff.mp none_left)
  · apply ext_getElem
    · simp [ranksOf]
    · intro place left right
      simp [gatherAllRankStates, ranksOf]

theorem gather_counts : (gatherAllRankStates group).map (·.numActiveRequests) = group.map length := by
  apply ext_getElem
  · simp [gather_length]
  · intro place left right
    simp [gatherAllRankStates]

variable {queue left : WaitingQueue P} {cap : Nat} {fillAdmitCap : Option Nat}

theorem pop_room {counts : List Nat} {newRequests : List (Waiting P)}
    (done : (queue.popFromWaitingQueue cap fillAdmitCap counts).2 = .ok newRequests) :
    newRequests.Sublist queue.iter ∧ Roomy cap counts (newRequests.map (·.item)) := by
  unfold WaitingQueue.popFromWaitingQueue at done
  extract_lets maxNewRequests maxReqCount at done
  obtain ⟨part, charged⟩ := get_taken _ newRequests done
  have within : maxReqCount ≤ maxNewRequests := by
    cases fillAdmitCap with
    | none => exact le_rfl
    | some limit => exact min_le_left _ _
  refine ⟨part, charged.imp (fun none_new => ?_) fun charged => ?_⟩
  · rw [none_new, map_nil]
  · have fits : (counts.sum + charge (newRequests.map (·.item)) : Int) ≤ counts.length * cap := by
      simp only at charged
      omega
    exact_mod_cast fits

theorem route_capped {states : List RankState} {newRequests : List RequestQueueItem} {want : Nat} {assigned : Assignment}
    (gathered : Gathered states) (room : Roomy cap (states.map (·.numActiveRequests)) newRequests)
    (routed : routeRequests states newRequests cap = .ok (assigned, want)) :
    (assigned.requests).Perm newRequests ∧ ∀ place : Nat, (states.map (·.numActiveRequests)).getD place 0 ≤ cap →
        (states.map (·.numActiveRequests)).getD place 0 + (assigned.ofRank place).length ≤ cap := by
  obtain ⟨placed, ran⟩ : ∃ placed, placeTargeted cap (strictFirst newRequests) (startBooks states) = .ok placed := by
    cases first : placeTargeted cap (strictFirst newRequests) (startBooks states) with
    | ok placed => exact ⟨placed, rfl⟩
    | error raised =>
      change (placeTargeted cap (strictFirst newRequests) (startBooks states)).bind _ = _ at routed
      rw [first] at routed
      cases routed
  have kept := place_targeted_placed _ _ (startBooks_covers gathered) ran
  obtain ⟨final, target, again, below, spec⟩ := route_of_placed gathered room ran
  rw [routed] at again
  cases again
  refine ⟨spec.requests.trans (placed_requests kept), fun place within => ?_⟩
  have ledger := kept.ledger place
  have first := kept.capped place
  have second := spec.capped place
  simp only [startBooks, emptyAssignment_ofRank, length_nil] at ledger first
  omega

-- All requests on a single rank, or requests without children.
def FetchGuard (group : Group) : GroupAction P → Prop
  | .fetch waitingQueue _ => group.length = 1 ∨ ∀ waiting ∈ waitingQueue.iter, waiting.item.childReqIds = []
  | .leave => True

structure Capped (tpSize cap : Nat) (group : Group) : Prop where
  size : group.length = tpSize
  capped : ∀ active ∈ group, active.length ≤ cap

theorem charge_childless (items : List RequestQueueItem) (childless : ∀ item ∈ items, item.childReqIds = []) :
    charge items = items.length := by
  induction items with
  | nil => rfl
  | cons item rest ih =>
    have rest_count := ih (forall_mem_cons.mp childless).2
    simp only [charge, map_cons, sum_cons, childless item mem_cons_self, length_nil, length_cons] at rest_count ⊢
    omega

theorem ofRank_sublist (assigned : Assignment) (rank : Int) : (assigned.ofRank rank).Sublist assigned.requests := by
  rw [Assignment.ofRank]
  cases found : Table.find rank assigned with
  | none => exact nil_sublist _
  | some list => exact sublist_flatten_of_mem (mem_map.mpr ⟨_, Table.mem_of_find list found, rfl⟩)

theorem charge_sublist {few many : List RequestQueueItem} (inside : few.Sublist many) : charge few ≤ charge many := by
  induction inside with
  | slnil => exact le_rfl
  | cons item _ ih | cons_cons item _ ih =>
    simp only [charge, map_cons, sum_cons] at ih ⊢
    omega

theorem charge_perm {left right : List RequestQueueItem} (same : left.Perm right) : charge left = charge right :=
  (same.map _).sum_nat

variable {group : Group}

theorem Capped.fetch {tpSize : Nat} {next : Group}
    (capped : Capped tpSize cap group) (guard : FetchGuard group (.fetch queue fillAdmitCap))
    (done : fetchNewRequests cap fillAdmitCap queue group = .ok (next, left)) : Capped tpSize cap next := by
  unfold fetchNewRequests at done
  obtain ⟨newRequests, popped, done⟩ := except_bind_ok.mp done
  obtain ⟨⟨assigned, want⟩, routed, same⟩ := except_mapped_ok.mp done
  cases same
  refine ⟨by rw [length_mapIdx]; exact capped.size, ?_⟩
  intro active mem
  rw [mem_mapIdx] at mem
  obtain ⟨place, inside, rfl⟩ := mem
  have gathered := gather_gathered group (fun empty => by simp [empty] at inside)
  obtain ⟨part, room⟩ := pop_room popped
  have bounds := route_capped gathered room routed
  have here : ((gatherAllRankStates group).map (·.numActiveRequests)).getD place 0 = (group[place]).length := by
    rw [gather_counts]
    simp [inside]
  have before := capped.capped group[place] (getElem_mem inside)
  rw [length_append, mergeRequests_length]
  rcases guard with single | childless
  · have share := charge_sublist (ofRank_sublist assigned place)
    rw [charge_perm bounds.1] at share
    rcases room with none_new | fits
    · rw [none_new] at share
      simp only [charge, map_nil, sum_nil] at share ⊢
      omega
    obtain ⟨only, rfl⟩ := length_eq_one_iff.mp single
    obtain rfl : place = 0 := by simpa using inside
    rw [gather_counts] at fits
    simp only [map_cons, map_nil, sum_singleton, length_singleton, one_mul] at fits
    simp only [getElem_cons_zero] at before ⊢
    omega
  · have childless : ∀ item ∈ newRequests.map (·.item), item.childReqIds = [] :=
      forall_mem_map.mpr fun waiting mem => childless waiting (part.subset mem)
    have known : ∀ item ∈ assigned.ofRank place, item.childReqIds = [] := by
      intro item listed
      exact childless item (bounds.1.mem_iff.mp ((ofRank_sublist assigned place).subset listed))
    rw [charge_childless _ known]
    have limit := bounds.2 place (by rw [here]; exact before)
    rw [here] at limit
    exact limit

theorem Capped.leave {tpSize : Nat} {next : Group} (capped : Capped tpSize cap group)
    (fewer : Forall₂ (fun active rest => rest.Sublist active) group next) : Capped tpSize cap next := by
  refine ⟨by rw [← fewer.length_eq]; exact capped.size, ?_⟩
  intro active mem
  obtain ⟨before, listed, inside⟩ := forall2_source fewer mem
  exact inside.length_le.trans (capped.capped before listed)

theorem ranks_stay_capped (tpSize cap : Nat) (run : List (GroupAction P × Group))
    (trace : Trace (GroupStep cap) (List.replicate tpSize []) run)
    (guarded : AllSteps FetchGuard (List.replicate tpSize []) run) : ∀ entry ∈ run, ∀ active ∈ entry.2, active.length ≤ cap := by
  have start : Capped tpSize cap (replicate tpSize []) := by
    refine ⟨length_replicate, fun active mem => ?_⟩
    rw [eq_of_mem_replicate mem]
    exact Nat.zero_le _
  have kept := trace_invariant FetchGuard (Capped tpSize cap) ?_ _ run trace guarded start
  · exact fun entry mem => (kept entry mem).capped
  intro group action next capped guard step
  cases step with
  | fetch _ queue left fillAdmitCap done => exact capped.fetch guard done
  | leave _ fewer => exact capped.leave fewer

def promptWithChildren (id : Nat) (children : List Nat) : RequestQueueItem := ⟨id, some ⟨[7], none⟩, children⟩

def queued (prompts : List (Nat × List Nat)) : WaitingQueue Nat :=
  .fcfs (prompts.mapIdx fun arrival prompt => ⟨promptWithChildren prompt.1 prompt.2, 0, arrival⟩)

def active (ids : List Nat) : List LlmRequest := ids.map fun id => ⟨id, 1⟩

-- Two ranks are filled in two rounds, of which the second leaves a prompt waiting.
def fillingRun : List (GroupAction Nat × Group) :=
  [(.fetch (queued [(1, []), (2, []), (3, [])]) none, [active [1, 3], active [2]]),
    (.fetch (queued [(4, []), (5, [])]) none, [active [1, 3], active [2, 4]])]

-- A single rank takes a prompt with its child and refuses the next such pair.
def childRun : List (GroupAction Nat × Group) :=
  [(.fetch (queued [(1, [2])]) none, [active [1, 2]]), (.fetch (queued [(3, [4])]) none, [active [1, 2]])]

theorem childless_round_capped : (∀ entry ∈ fillingRun, ∀ active ∈ entry.2, active.length ≤ 2) ∧
    ∀ entry ∈ childRun, ∀ active ∈ entry.2, active.length ≤ 3 := by
  have filling : Trace (GroupStep 2) (replicate 2 []) fillingRun :=
    .cons (.fetch _ _ _ (queued []) none rfl) (.cons (.fetch _ _ _ (.fcfs [⟨promptWithChildren 5 [], 0, 1⟩]) none rfl) (.nil _))
  have withChild : Trace (GroupStep 3) (replicate 1 []) childRun :=
    .cons (.fetch _ _ _ (queued []) none rfl) (.cons (.fetch _ _ _ (queued [(3, [4])]) none rfl) (.nil _))
  exact ⟨ranks_stay_capped 2 2 _ filling ⟨.inr (by decide), .inr (by decide), trivial⟩,
    ranks_stay_capped 1 3 _ withChild ⟨.inl rfl, .inl rfl, trivial⟩⟩

-- Two ranks with room for two: the prompt that comes last joins the one with a child.
theorem child_exceeds_cap :
    fetchNewRequests 2 none (queued [(1, [4]), (2, []), (3, [])]) [[], []] =
        .ok ([active [1, 4, 3], active [2]], queued []) ∧
      ∃ run : List (GroupAction Nat × Group), Trace (GroupStep 2) (List.replicate 2 []) run ∧
        ∃ entry ∈ run, ∃ active ∈ entry.2, 2 < active.length := by
  refine ⟨?round, _, .cons (.fetch _ _ _ _ _ ?round) (.nil _), _, mem_cons_self, _, mem_cons_self, by decide⟩
  rfl

end TrtLlm.Adp
