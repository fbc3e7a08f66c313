import TrtLlm.Lib.Runs

set_option autoImplicit false

namespace TrtLlm.KvTransfer
open List Function
open Lib (Trace AllSteps trace_exact)

-- Times are in nanoseconds.
def staleReqInfoTtl : Nat := 120 * 10 ^ 9

-- The ranks whose REQUEST_DATA is stored, and when the first came.
structure PeerRequests where
  ranks : List Nat
  timestamp : Nat

inductive Write where
  | kv (rid slice rank : Nat)
  | aux (rid rank : Nat)
deriving DecidableEq, Repr

-- contextInit are the requests in CONTEXT_INIT. kvTasks counts the slices given to a request's session, made with
-- the first one.
structure ContextRank where
  now : Nat := 0
  peerRequests : Nat → Option PeerRequests := fun _ => none
  kvTasks : Nat → Nat := fun _ => 0
  waitReqs : List Nat := []
  contextInit : List Nat := []
  writes : List Write := []

namespace ContextRank
variable (expected : Nat → List Nat) (s : ContextRank)

def heldRanks (rid : Nat) : List Nat := ((s.peerRequests rid).map PeerRequests.ranks).getD []

def addReqInfo (rid rank : Nat) : ContextRank :=
  { s with peerRequests := update s.peerRequests rid (some (match s.peerRequests rid with
      | none => ⟨[rank], s.now⟩
      | some known => { known with ranks := if rank ∈ known.ranks then known.ranks else known.ranks ++ [rank] })) }

-- What the session was given before goes to the new rank, but for the aux data.
def respondWithKv (rid rank : Nat) : ContextRank :=
  { s.addReqInfo rid rank with
    writes := s.writes ++ (List.range (s.kvTasks rid)).map fun slice => .kv rid slice rank }

def stale (held : PeerRequests) : Bool := held.timestamp + staleReqInfoTtl < s.now

def sweepStaleReqInfos : ContextRank :=
  { s with peerRequests := fun rid => (s.peerRequests rid).filter fun held => !(s.stale held && s.kvTasks rid == 0) }

-- expected are the receiver's ranks that overlap with this one.
def hasAllPeerReqInfos (rid : Nat) : Bool :=
  !(s.heldRanks rid).isEmpty && (s.heldRanks rid).length == (expected rid).length

-- others are the requests ready on all other ranks; the consensus is what is ready everywhere.
def prepareContextRequests (requests others : List Nat) : ContextRank :=
  let fresh := requests.filter fun rid => s.kvTasks rid == 0
  let waiting := s.waitReqs ∪ fresh
  let promoted := waiting.filter fun rid => s.hasAllPeerReqInfos expected rid && decide (rid ∈ others)
  { s with
    waitReqs := waiting.filter fun rid => rid ∉ promoted
    contextInit := s.contextInit.filter (fun rid => rid ∉ fresh) ++ promoted }

def respondAndSendAsync (rid : Nat) : ContextRank :=
  { s with
    kvTasks := update s.kvTasks rid (s.kvTasks rid + 1)
    contextInit := s.contextInit.filter fun other => other ≠ rid
    writes := s.writes ++ ((s.heldRanks rid).map (.kv rid (s.kvTasks rid)) ++ (s.heldRanks rid).map (.aux rid)) }

inductive Call where
  | requestData (rid rank : Nat)
  | prepareContextRequests (requests others : List Nat)
  | respondAndSendAsync (rid : Nat)
  | sweepStaleReqInfos
  | advance (now : Nat)

inductive Step (s : ContextRank) : Call → ContextRank → Prop
  | requestData (rid rank : Nat) (peer : rank ∈ expected rid) : Step s (.requestData rid rank) (s.respondWithKv rid rank)
  | prepareContextRequests (requests others : List Nat) :
      Step s (.prepareContextRequests requests others) (s.prepareContextRequests expected requests others)
  | respondAndSendAsync (rid : Nat) : Step s (.respondAndSendAsync rid) (s.respondAndSendAsync rid)
  | sweepStaleReqInfos : Step s .sweepStaleReqInfos s.sweepStaleReqInfos
  | advance (now : Nat) (later : s.now ≤ now) : Step s (.advance now) { s with now }

-- No sweep meets a promoted request that has waited longer than the time to live of its REQUEST_DATA.
def SweepsInTime (s : ContextRank) : Call → Prop
  | .sweepStaleReqInfos => ∀ rid ∈ s.contextInit, s.kvTasks rid = 0 → ∀ held ∈ s.peerRequests rid, s.stale held = false
  | _ => True

-- All its receivers, and one write of the slice and of the aux data to each.
def KeepsReceivers (s : ContextRank) : Prop :=
  ∀ rid ∈ s.contextInit, (s.heldRanks rid).Perm (expected rid) ∧
    ∃ added, (s.respondAndSendAsync rid).writes = s.writes ++ added ∧
      added.Perm ((expected rid).map (.kv rid (s.kvTasks rid)) ++ (expected rid).map (.aux rid))

structure Promised (s : ContextRank) : Prop where
  peers : ∀ rid, (s.heldRanks rid).Nodup ∧ s.heldRanks rid ⊆ expected rid
  needed : ∀ rid ∈ s.contextInit, expected rid ≠ []
  promoted : ∀ rid ∈ s.contextInit, (s.heldRanks rid).Perm (expected rid)

theorem held_request (rid rank other : Nat) : (s.respondWithKv rid rank).heldRanks other =
    if other = rid ∧ rank ∉ s.heldRanks other then s.heldRanks other ++ [rank] else s.heldRanks other := by
  by_cases same : other = rid
  · subst same
    cases known : s.peerRequests other with
    | none => simp [heldRanks, respondWithKv, addReqInfo, known]
    | some held => by_cases old : rank ∈ held.ranks <;> simp [heldRanks, respondWithKv, addReqInfo, known, old]
  · simp [heldRanks, respondWithKv, addReqInfo, same]

theorem held_sweep (rid : Nat) : s.sweepStaleReqInfos.heldRanks rid =
    if s.kvTasks rid = 0 ∧ ∃ held ∈ s.peerRequests rid, s.stale held = true then [] else s.heldRanks rid := by
  cases known : s.peerRequests rid with
  | none => simp [heldRanks, sweepStaleReqInfos, known]
  | some held =>
    by_cases unsent : s.kvTasks rid = 0 <;> cases old : s.stale held <;>
      simp [heldRanks, sweepStaleReqInfos, known, Option.filter_some, unsent, old]

variable {expected s} {call : Call} {next : ContextRank} (promised : s.Promised expected) (step : Step expected s call next)

include promised step

theorem peers_step (rid : Nat) : (next.heldRanks rid).Nodup ∧ next.heldRanks rid ⊆ expected rid := by
  obtain ⟨nodup, inside⟩ := promised.peers rid
  cases step with
  | requestData other rank peer =>
    rw [held_request]
    split
    · next fresh =>
      refine ⟨(perm_append_singleton rank _).nodup_iff.mpr (nodup_cons.mpr ⟨fresh.2, nodup⟩), ?_⟩
      exact append_subset.mpr ⟨inside, cons_subset.mpr ⟨fresh.1 ▸ peer, nil_subset _⟩⟩
    · exact ⟨nodup, inside⟩
  | sweepStaleReqInfos =>
    rw [held_sweep]
    split
    · exact ⟨nodup_nil, nil_subset _⟩
    · exact ⟨nodup, inside⟩
  | _ => exact ⟨nodup, inside⟩

theorem promoted_step : (∀ rid ∈ next.contextInit, expected rid ≠ []) ∧
    ((∀ rid ∈ next.contextInit, (next.heldRanks rid).Perm (expected rid)) ↔ s.SweepsInTime call) := by
  cases step with
  | requestData rid rank peer =>
    refine ⟨promised.needed, iff_of_true (fun other waits => ?_) trivial⟩
    rw [held_request, if_neg]
    · exact promised.promoted other waits
    · rintro ⟨rfl, missing⟩
      exact missing ((promised.promoted other waits).mem_iff.mpr peer)
  | prepareContextRequests reqs others =>
    have ready : ∀ rid ∈ (s.prepareContextRequests expected reqs others).contextInit,
        expected rid ≠ [] ∧ (s.heldRanks rid).Perm (expected rid) := by
      intro rid waits
      rcases mem_append.mp waits with before | now
      · have before := mem_of_mem_filter before
        exact ⟨promised.needed rid before, promised.promoted rid before⟩
      · have ready := (mem_filter.mp now).2
        simp only [hasAllPeerReqInfos, Bool.and_eq_true, Bool.not_eq_true', isEmpty_eq_false_iff, beq_iff_eq] at ready
        have all := (subperm_of_subset (promised.peers rid).1 (promised.peers rid).2).perm_of_length_le
          (Nat.le_of_eq ready.1.2.symm)
        exact ⟨fun none => ready.1.1 (none ▸ all).eq_nil, all⟩
    exact ⟨fun rid waits => (ready rid waits).1, iff_of_true (fun rid waits => (ready rid waits).2) trivial⟩
  | respondAndSendAsync rid =>
    refine ⟨fun other waits => promised.needed other (mem_of_mem_filter waits), iff_of_true (fun other waits => ?_) trivial⟩
    exact promised.promoted other (mem_of_mem_filter waits)
  | sweepStaleReqInfos =>
    refine ⟨promised.needed, fun kept rid waits unsent held known => ?_, fun timely rid waits => ?_⟩
    · cases old : s.stale held with
      | false => rfl
      | true =>
        have all := kept rid waits
        rw [held_sweep, if_pos ⟨unsent, held, known, old⟩] at all
        exact absurd all.nil_eq.symm (promised.needed rid waits)
    · rw [held_sweep, if_neg]
      · exact promised.promoted rid waits
      · rintro ⟨unsent, held, known, old⟩
        exact absurd old (by simp [timely rid waits unsent held known])
  | advance now later => exact ⟨promised.needed, iff_of_true promised.promoted trivial⟩

end ContextRank

open ContextRank

theorem promoted_requests_sent_iff (expected : Nat → List Nat) (run : List (Call × ContextRank))
    (trace : Trace (ContextRank.Step expected) {} run) :
    (∀ entry ∈ run, entry.2.KeepsReceivers expected) ↔ AllSteps SweepsInTime {} run := by
  apply trace_exact SweepsInTime (Promised expected) _ _ _ run trace ⟨fun _ => ⟨nodup_nil, nil_subset _⟩, nofun, nofun⟩
  intro s call next promised step
  obtain ⟨needed, kept⟩ := promoted_step promised step
  rw [← kept]
  refine ⟨⟨Promised.promoted, fun promoted => ⟨peers_step promised step, needed, promoted⟩⟩, ?_, ?_⟩
  · exact fun keeps => ⟨peers_step promised step, needed, fun rid waits => (keeps rid waits).1⟩
  · intro held rid waits
    have all := held.promoted rid waits
    exact ⟨all, _, rfl, (all.map _).append (all.map _)⟩

theorem two_receivers_kept : ∃ s : ContextRank, 1 ∈ s.contextInit ∧ s.KeepsReceivers fun _ => [0, 3] := by
  have trace : Trace (ContextRank.Step fun _ => [0, 3]) {} _ := .cons (.requestData 1 3 (by decide))
    (.cons .sweepStaleReqInfos (.cons (.requestData 1 0 (by decide)) (.cons (.prepareContextRequests [1] [1]) (.nil _))))
  have kept := (promoted_requests_sent_iff _ _ trace).mpr ⟨trivial, fun _ => nofun, trivial, trivial, trivial⟩
  exact ⟨_, by decide, kept _ (mem_of_getLast? rfl)⟩

-- The prefill of a promoted request takes over two minutes. A sweep before it is sent drops its receiver, so
-- nothing is enqueued.
theorem promoted_request_swept : ∃ run, Trace (ContextRank.Step fun _ => [0]) {} run ∧
    ∃ entry ∈ run, 1 ∈ entry.2.contextInit ∧ (entry.2.respondAndSendAsync 1).writes = [] := by
  refine ⟨_, .cons (.requestData 1 0 mem_cons_self) (.cons (.prepareContextRequests [1] [1])
    (.cons (.advance (121 * 10 ^ 9) (by decide)) (.cons .sweepStaleReqInfos (.nil _)))), _, mem_of_getLast? rfl, ?_, ?_⟩
  · decide
  · decide

end TrtLlm.KvTransfer
