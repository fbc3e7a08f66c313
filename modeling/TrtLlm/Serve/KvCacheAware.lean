import TrtLlm.Serve.Router

set_option autoImplicit false

namespace TrtLlm.Serve
open Lib (Table)

-- The hash of a block is computed outside of the Python code.
structure KvCacheAwareRouter (Hash : Type) extends Config where
  maxBatchSize : Nat := 64
  tokensPerBlock : Nat := 32
  blockKeyHasher : List Int → Option Hash → Hash

namespace KvCacheAwareRouter

section
variable {Hash : Type} [DecidableEq Hash] (router : KvCacheAwareRouter Hash)

def hashList : Option Hash → Nat → List Int → List Hash
  | _, 0, _ => []
  | parent, blocks + 1, tokens =>
    let hash := router.blockKeyHasher (tokens.take router.tokensPerBlock) parent
    hash :: hashList (some hash) blocks (tokens.drop router.tokensPerBlock)

-- The last token is not part of a block key.
def computeBlockHashes (tokenLists : List (List Int)) : List (List Hash) :=
  tokenLists.map fun tokenList =>
    router.hashList none ((tokenList.length - 1 + router.tokensPerBlock - 1) / router.tokensPerBlock) tokenList.dropLast

def matchedTokens (kvCacheBlockTable : List Hash) (blockHashes : List (List Hash)) : Nat :=
  (blockHashes.map fun hashes => (hashes.takeWhile (· ∈ kvCacheBlockTable)).length * router.tokensPerBlock).sum

end

structure Call (Hash : Type) extends KvCacheAwareRouter Hash where
  request : OpenAIRequest
  tokenLists : List (List Int)
  excludeServer : Option Server := none
  kvCacheBlockTable : Server → List Hash

namespace Call
variable {Hash : Type} [DecidableEq Hash] (call : Call Hash)

def blockHashes : List (List Hash) := call.computeBlockHashes call.tokenLists

def paddedTokens : Nat := (call.blockHashes.map List.length).sum * call.tokensPerBlock

def score (server : Server) (workload : Int) : ℚ :=
  call.matchedTokens (call.kvCacheBlockTable server) call.blockHashes / call.paddedTokens - workload / call.maxBatchSize

def getNextServer (r : Router) : Router × Except String Server :=
  match candidates call.excludeServer r with
  | [] => (r, .error (excluded call.excludeServer))
  | [server] => assignServer call.toConfig server call.request r
  | servers =>
    if call.paddedTokens = 0 ∨ call.maxBatchSize = 0 then (r, .error "division by zero")
    else
      -- all workloads, looked up at the positions of the candidates
      let workloads := r.serverState.map fun entry => entry.2.numActiveRequests
      let scores := List.zipWith call.score servers workloads
      let tied := (servers.zip scores).filter fun entry => some entry.2 = scores.max?
      match tied[r.rrCounter % tied.length]? with
      | none => (r, .error "list index out of range")
      | some winner => assignServer call.toConfig winner.1 call.request { r with rrCounter := r.rrCounter + 1 }

-- The loads as before, the counter as the call left it.
def restored (r : Router) : Router := { r with rrCounter := (call.getNextServer r).1.rrCounter }

def eligible (r : Router) : Table Server ServerState :=
  r.serverState.filter fun entry => some entry.1 ≠ call.excludeServer

def ownScore (entry : Server × ServerState) : ℚ := call.score entry.1 entry.2.numActiveRequests

def best (r : Router) : Table Server ServerState :=
  (call.eligible r).filter fun entry => some (call.ownScore entry) = ((call.eligible r).map call.ownScore).max?

structure Aligned (r : Router) : Prop where
  server : call.eligible r ≠ []
  counted : ∃ tokens, requestTokens call.toConfig call.request = .ok tokens
  batch : call.maxBatchSize ≠ 0
  block : 0 < call.tokensPerBlock
  prompt : ∃ tokenList ∈ call.tokenLists, 2 ≤ tokenList.length
  loads : (call.eligible r).length = 1 ∨ (call.eligible r).map (fun entry => entry.2.numActiveRequests) <+:
    r.serverState.map fun entry => entry.2.numActiveRequests

variable {call} {r : Router}

omit [DecidableEq Hash] in
theorem candidates_eq : candidates call.excludeServer r = (call.eligible r).map Prod.fst := by
  simp [candidates, eligible, List.filter_map, Function.comp_def]

theorem mem_best (entry : Server × ServerState) : entry ∈ call.best r ↔
    entry ∈ call.eligible r ∧ ∀ other ∈ call.eligible r, call.ownScore other ≤ call.ownScore entry := by
  rw [best, List.mem_filter, decide_eq_true_iff, eq_comm, List.max?_eq_some_iff]
  simp only [List.forall_mem_map]
  exact and_congr_right fun mem => and_iff_right (List.mem_map_of_mem mem)

theorem best_nonempty (some : call.eligible r ≠ []) : call.best r ≠ [] := by
  cases top : ((call.eligible r).map call.ownScore).max? with
  | none => simp_all
  | some highest =>
    obtain ⟨entry, mem, same⟩ := List.mem_map.mp (List.max?_mem top)
    exact List.ne_nil_of_mem (List.mem_filter.mpr ⟨mem, by rw [top, same, decide_eq_true_iff]⟩)

theorem scores_aligned (loads : (call.eligible r).map (fun entry => entry.2.numActiveRequests) <+:
      r.serverState.map fun entry => entry.2.numActiveRequests) : List.zipWith call.score
    (candidates call.excludeServer r) (r.serverState.map fun entry => entry.2.numActiveRequests) =
    (call.eligible r).map call.ownScore := by
  obtain ⟨rest, whole⟩ := loads
  rw [candidates_eq, ← whole]
  induction call.eligible r with
  | nil => simp
  | cons entry entries ih => simpa [ownScore] using ih

omit [DecidableEq Hash] in
theorem hash_list_length (router : KvCacheAwareRouter Hash) (blocks : Nat) (parent : Option Hash) (tokens : List Int) :
    (router.hashList parent blocks tokens).length = blocks := by
  induction blocks generalizing parent tokens with
  | zero => rfl
  | succ blocks ih => exact congrArg Nat.succ (ih _ _)

omit [DecidableEq Hash] in
theorem padded_tokens_ne_zero (block : 0 < call.tokensPerBlock)
    (prompt : ∃ tokenList ∈ call.tokenLists, 2 ≤ tokenList.length) : call.paddedTokens ≠ 0 := by
  obtain ⟨tokenList, mem, long⟩ := prompt
  refine Nat.mul_ne_zero (fun none => ?_) block.ne'
  have empty := List.sum_eq_zero_iff_forall_eq_nat.mp none _ (List.mem_map_of_mem (List.mem_map_of_mem mem))
  rw [hash_list_length, Nat.div_eq_zero_iff] at empty
  omega

omit [DecidableEq Hash] in
theorem assign_candidate (counted : ∃ tokens, requestTokens call.toConfig call.request = .ok tokens) (srv : Server)
    (mem : srv ∈ r.serverState.map Prod.fst) : ∃ after,
      assignServer call.toConfig srv call.request r = (after, .ok srv) ∧ after.rrCounter = r.rrCounter := by
  obtain ⟨tokens, counted⟩ := counted
  cases found : Table.find srv r.serverState with
  | none => exact absurd mem (Table.not_mem_keys found)
  | some st =>
    refine ⟨_, by simp [assignServer, registerRequest, found, incrementLoad, counted, Except.map]; rfl, ?_⟩
    split <;> rfl

theorem call_returns (aligned : call.Aligned r) : ∃ entry after,
    (call.best r)[r.rrCounter % (call.best r).length]? = some entry ∧ call.getNextServer r = (after, .ok entry.1) ∧
      after.rrCounter = if (call.eligible r).length = 1 then r.rrCounter else r.rrCounter + 1 := by
  have keys : candidates call.excludeServer r = _ := candidates_eq
  have tied : ((candidates call.excludeServer r).zip ((call.eligible r).map call.ownScore)).filter
      (fun entry => some entry.2 = ((call.eligible r).map call.ownScore).max?) =
      (call.best r).map fun entry => (entry.1, call.ownScore entry) := by
    rw [keys, List.zip_map', best, List.filter_map]
    rfl
  have nonempty := best_nonempty aligned.server
  obtain ⟨entry, found⟩ : ∃ entry, (call.best r)[r.rrCounter % (call.best r).length]? = some entry :=
    ⟨_, List.getElem?_eq_getElem (Nat.mod_lt _ (List.length_pos_iff.mpr nonempty))⟩
  have eligible : entry ∈ call.eligible r := ((mem_best entry).mp (List.mem_of_getElem? found)).1
  have known : entry.1 ∈ r.serverState.map Prod.fst := List.mem_map_of_mem (List.mem_of_mem_filter eligible)
  unfold getNextServer
  split
  · rename_i nobody
    exact absurd (List.map_eq_nil_iff.mp (keys.symm.trans nobody)) aligned.server
  · rename_i srv alone
    obtain ⟨only, list, rfl⟩ := List.map_eq_singleton_iff.mp (keys.symm.trans alone)
    rw [list, List.mem_singleton] at eligible
    subst eligible
    obtain ⟨after, assigned, counter⟩ := assign_candidate aligned.counted _ known
    exact ⟨entry, after, found, assigned, by rw [list, counter]; rfl⟩
  · rename_i several
    have many : (call.eligible r).length ≠ 1 := by
      intro one
      obtain ⟨only, list⟩ := List.length_eq_one_iff.mp one
      exact several _ (by rw [keys, list]; rfl)
    have scores := scores_aligned (aligned.loads.resolve_left many)
    obtain ⟨after, assigned, counter⟩ := assign_candidate (r := { r with rrCounter := r.rrCounter + 1 }) aligned.counted _ known
    refine ⟨entry, after, found, ?_, by rw [counter, if_neg many]⟩
    rw [if_neg (not_or.mpr ⟨padded_tokens_ne_zero aligned.block aligned.prompt, aligned.batch⟩)]
    simp only [scores, tied, List.length_map, List.getElem?_map, found, Option.map_some]
    exact assigned

theorem best_servers_rotate (aligned : call.Aligned r) : call.best r ≠ [] ∧
    (∀ entry, entry ∈ call.best r ↔
      entry ∈ call.eligible r ∧ ∀ other ∈ call.eligible r, call.ownScore other ≤ call.ownScore entry) ∧
    ∀ k, (call.getNextServer (call.restored^[k] r)).2.toOption =
      (call.best r)[(r.rrCounter + k) % (call.best r).length]?.map Prod.fst := by
  have nonempty := best_nonempty aligned.server
  refine ⟨nonempty, mem_best, fun k => ?_⟩
  induction k generalizing r with
  | zero =>
    obtain ⟨entry, after, found, returned, -⟩ := call_returns aligned
    rw [Nat.add_zero, found, Function.iterate_zero, id, returned]
    rfl
  | succ k ih =>
    obtain ⟨entry, after, -, returned, counter⟩ := call_returns aligned
    rw [Function.iterate_succ_apply,
      ih (r := call.restored r) ⟨aligned.1, aligned.2, aligned.3, aligned.4, aligned.5, aligned.6⟩ nonempty]
    change (call.best r)[((call.getNextServer r).1.rrCounter + k) % (call.best r).length]?.map _ = _
    rw [returned, counter]
    split
    · rename_i one
      have single : (call.best r).length = 1 :=
        Nat.le_antisymm (one ▸ List.length_filter_le _ _) (List.length_pos_iff.mpr nonempty)
      rw [single, Nat.mod_one, Nat.mod_one]
    · rw [Nat.add_right_comm, Nat.add_assoc]

def sampleCall (excludeServer : Option Server) : Call Nat where
  kind := .kvCacheAware
  blockKeyHasher _ _ := 0
  request := ⟨0, false, none, .one 2, 0⟩
  tokenLists := [[1, 2]]
  excludeServer := excludeServer
  kvCacheBlockTable _ := []

def sampleRouter : Router := ⟨["a", "b", "c"], [("a", ⟨0, 0⟩), ("b", ⟨5, 0⟩), ("c", ⟨1, 0⟩)], [], 0, [], [], [], [], []⟩

theorem unexcluded_call_best : ((sampleCall none).getNextServer sampleRouter).2.toOption =
    ((sampleCall none).best sampleRouter)[0 % ((sampleCall none).best sampleRouter).length]?.map Prod.fst :=
  have aligned : (sampleCall none).Aligned sampleRouter :=
    ⟨by decide, ⟨0, rfl⟩, by decide, by decide, ⟨_, List.mem_singleton_self _, by decide⟩, .inr (by decide)⟩
  (best_servers_rotate aligned).2.2 0

-- Without the first server the loads of "a" and "b" are taken for those of "b" and "c".
theorem excluded_server_shifts_loads : ((sampleCall (some "a")).getNextServer sampleRouter).2.toOption = some "b" ∧
    (sampleCall (some "a")).ownScore ("b", ⟨5, 0⟩) < (sampleCall (some "a")).ownScore ("c", ⟨1, 0⟩) := by
  decide +kernel

end Call

end KvCacheAwareRouter

end TrtLlm.Serve
