import TrtLlm.V2.LifeCycle

set_option autoImplicit false

namespace TrtLlm.V2
open List

inductive LifeCycle where
  | attn (lifeCycle : AttnLifeCycle)
  | ssm

-- What the pruning reads of a path, by position: the matched tokens of each block, a whole block but at the end, and
-- the pages by life cycle id. A match is a prefix of the path, given by its length.
structure MatchedPath where
  tokensPerBlock : Nat
  lifeCycles : List LifeCycle
  length : Nat
  numTokens : Nat → Nat
  hasPage : Nat → Nat → Bool
  positive : 0 < tokensPerBlock
  whole : ∀ i, i + 1 < length → numTokens i = tokensPerBlock
  fits : ∀ i, numTokens i ≤ tokensPerBlock

-- find_index over the positions; on an empty sequence the counter ends at one.
def findIndex (length : Nat) (predicate : Nat → Bool) : Nat :=
  if length = 0 then 1 else (List.range length).findIdx predicate

namespace MatchedPath
variable (path : MatchedPath)

def attentionLifeCycles : List (Nat × AttnLifeCycle) :=
  path.lifeCycles.zipIdx.filterMap fun
    | (.attn lifeCycle, id) => some (id, lifeCycle)
    | (.ssm, _) => none

def fullLifeCycles : List (Nat × AttnLifeCycle) :=
  path.attentionLifeCycles.filter (·.2.windowSize.isNone)

def swaLifeCycles : List (Nat × AttnLifeCycle) :=
  path.attentionLifeCycles.filter (·.2.windowSize.isSome)

def ssmLifeCycleId : Option Nat := path.lifeCycles.findIdx? (· matches .ssm)

variable (n : Nat)

def numMatchedTokens : Nat :=
  if n = 0 then 0 else path.tokensPerBlock * (n - 1) + path.numTokens (n - 1)

def pruneFull : Nat :=
  if path.fullLifeCycles.isEmpty then n
  else min (findIndex n fun i => !path.fullLifeCycles.all (path.hasPage ·.1 i)) n

def pruneSink (entry : Nat × AttnLifeCycle) : Nat :=
  let first := findIndex (min entry.2.numSinkBlocks n) (!path.hasPage entry.1 ·)
  if first < entry.2.numSinkBlocks then min first n else n

-- The search over the reversed match.
def trailing (n id : Nat) : Nat := findIndex n fun i => path.hasPage id (n - 1 - i)

def snapshotCut : Nat := path.ssmLifeCycleId.elim n fun id => n - path.trailing n id

def staleEnd (lifeCycle : AttnLifeCycle) : Nat :=
  (lifeCycle.getStaleRange (path.numMatchedTokens n) path.tokensPerBlock).stop

def windowCut (entry : Nat × AttnLifeCycle) : Option Nat :=
  if path.trailing n entry.1 ≠ 0 then some (n - path.trailing n entry.1)
  else
    let held := findIndex (n - path.staleEnd n entry.2) fun i => !path.hasPage entry.1 (n - 1 - i)
    if path.staleEnd n entry.2 < n - held then some (n - held - 1) else none

def pruneLoop : Nat → Nat → Nat
  | 0, n => n
  | fuel + 1, n =>
    let n := path.snapshotCut n
    if n = 0 then 0
    else match path.swaLifeCycles.findSome? (path.windowCut n) with
      | some cut => pruneLoop fuel cut
      | none => n

structure Usable (n : Nat) : Prop where
  full : ∀ entry ∈ path.fullLifeCycles, ∀ i < n, path.hasPage entry.1 i
  window : ∀ entry ∈ path.swaLifeCycles, ∀ i < n, i < entry.2.numSinkBlocks ∨
    i ∉ entry.2.getStaleRange (path.numMatchedTokens n) path.tokensPerBlock → path.hasPage entry.1 i
  snapshot : ∀ id, path.ssmLifeCycleId = some id → 0 < n → path.hasPage id (n - 1)

-- The blocks before and behind the stale range, and the snapshot.
def Holds : Prop :=
  (∀ entry ∈ path.attentionLifeCycles, ∀ ordinal, let stale := entry.2.getStaleRange (path.numMatchedTokens n) path.tokensPerBlock
    ordinal < stale.beg ∨ stale.stop ≤ ordinal ∧ ordinal < n → ordinal < n ∧ path.hasPage entry.1 ordinal) ∧
  ∀ id, path.ssmLifeCycleId = some id → 0 < n → path.hasPage id (n - 1)

def Longest (n : Nat) : Prop := n ≤ path.length ∧ path.Usable n ∧ ∀ j ≤ path.length, path.Usable j → j ≤ n

-- The loop asks the last block for a page of every window, also of one that is all stale.
structure Strict (n : Nat) : Prop where
  usable : path.Usable n
  last : ∀ entry ∈ path.swaLifeCycles, 0 < n → path.hasPage entry.1 (n - 1)

def Keeps (n k : Nat) : Prop := k ≤ n ∧ ∀ j ≤ n, path.Strict j → j ≤ k

variable {path} {n k l i : Nat} {entry : Nat × AttnLifeCycle}

theorem keeps_refl : path.Keeps n n := ⟨le_rfl, fun _ below _ => below⟩

theorem Keeps.trans (first : path.Keeps n k) (second : path.Keeps k l) : path.Keeps n l :=
  ⟨le_trans second.1 first.1, fun j below strict => second.2 j (first.2 j below strict) strict⟩

theorem keeps_min (short : ∀ j ≤ n, path.Strict j → ¬ k < j) : path.Keeps n (min k n) :=
  ⟨min_le_right _ _, fun j below strict => le_min (Nat.le_of_not_lt (short j below strict)) below⟩

theorem find_index_eq (inside : i < n) (predicate : Nat → Bool) :
    findIndex n predicate = (List.range n).findIdx predicate := if_neg (by omega)

theorem find_index_found {predicate : Nat → Bool} (inside : findIndex n predicate < n) : predicate (findIndex n predicate) := by
  have found : (List.range n).findIdx predicate < (List.range n).length := by rwa [length_range, ← find_index_eq inside]
  rw [find_index_eq inside]
  simpa using findIdx_getElem (w := found)

theorem not_of_lt_find_index {predicate : Nat → Bool} (before : i < findIndex n predicate) (inside : i < n) :
    predicate i = false := by
  rw [find_index_eq inside] at before
  simpa using not_of_lt_findIdx before

theorem prune_full_keeps : path.Keeps n (path.pruneFull n) := by
  unfold pruneFull
  split
  · exact keeps_refl
  refine keeps_min fun j below strict longer => ?_
  have missing := find_index_found (lt_of_lt_of_le longer below)
  rw [Bool.not_eq_true', ← Bool.not_eq_true, all_eq_true] at missing
  exact missing fun entry listed => strict.usable.full entry listed _ longer

theorem prune_full_held (listed : entry ∈ path.fullLifeCycles) (kept : i < path.pruneFull n) : path.hasPage entry.1 i := by
  rw [pruneFull, if_neg (by simpa using ne_nil_of_mem listed)] at kept
  have held := not_of_lt_find_index (lt_of_lt_of_le kept (min_le_left _ _)) (lt_of_lt_of_le kept (min_le_right _ _))
  rw [Bool.not_eq_false', all_eq_true] at held
  exact held entry listed

theorem prune_sink_keeps (listed : entry ∈ path.swaLifeCycles) : path.Keeps n (path.pruneSink n entry) := by
  unfold pruneSink
  dsimp only
  split
  · next early =>
    refine keeps_min fun j below strict longer => ?_
    have missing := find_index_found (lt_min early (lt_of_lt_of_le longer below))
    rw [strict.usable.window entry listed _ longer (.inl early)] at missing
    cases missing
  · exact keeps_refl

theorem sink_held (kept : i < path.pruneSink n entry) (early : i < entry.2.numSinkBlocks) : path.hasPage entry.1 i := by
  unfold pruneSink at kept
  dsimp only at kept
  have held := @not_of_lt_find_index (min entry.2.numSinkBlocks n) i (!path.hasPage entry.1 ·)
    (by split at kept <;> omega) (by split at kept <;> omega)
  simpa using held

structure Settled (path : MatchedPath) (done : List (Nat × AttnLifeCycle)) (n : Nat) : Prop where
  full : ∀ entry ∈ path.fullLifeCycles, ∀ i < n, path.hasPage entry.1 i
  sink : ∀ entry ∈ done, ∀ i < n, i < entry.2.numSinkBlocks → path.hasPage entry.1 i

theorem Settled.mono {done : List (Nat × AttnLifeCycle)} (settled : Settled path done n) (less : k ≤ n) : Settled path done k :=
  ⟨fun _ listed _ below => settled.full _ listed _ (lt_of_lt_of_le below less),
    fun _ listed _ below => settled.sink _ listed _ (lt_of_lt_of_le below less)⟩

theorem prune_sinks {done todo : List (Nat × AttnLifeCycle)} (listed : todo ⊆ path.swaLifeCycles)
    (settled : Settled path done n) : path.Keeps n (todo.foldl path.pruneSink n) ∧
      Settled path (done ++ todo) (todo.foldl path.pruneSink n) := by
  induction todo generalizing done n with
  | nil =>
    rw [append_nil]
    exact ⟨keeps_refl, settled⟩
  | cons entry todo ih =>
    have keeps : path.Keeps n (path.pruneSink n entry) := prune_sink_keeps (listed mem_cons_self)
    have kept := settled.mono keeps.1
    have next : Settled path (done ++ [entry]) (path.pruneSink n entry) := by
      refine ⟨kept.full, fun other mem i below early => ?_⟩
      rcases mem_append.mp mem with old | new
      · exact kept.sink other old i below early
      · cases mem_singleton.mp new
        exact sink_held below early
    obtain ⟨rest, done⟩ := ih (fun other mem => listed (mem_cons_of_mem _ mem)) next
    rw [append_assoc] at done
    exact ⟨keeps.trans rest, done⟩

theorem trailing_missing {id : Nat} (behind : n - path.trailing n id ≤ i) (inside : i < n) : path.hasPage id i = false := by
  have missing := not_of_lt_find_index (show n - 1 - i < path.trailing n id by omega) (by omega)
  rwa [show n - 1 - (n - 1 - i) = i by omega] at missing

theorem trailing_last {id : Nat} (some : 0 < n - path.trailing n id) : path.hasPage id (n - path.trailing n id - 1) := by
  have held := find_index_found (show path.trailing n id < n by omega)
  rwa [Nat.sub_right_comm] at held

theorem trailing_keeps {id : Nat} (needs : ∀ j, path.Strict j → 0 < j → path.hasPage id (j - 1)) :
    path.Keeps n (n - path.trailing n id) := by
  refine ⟨Nat.sub_le _ _, fun j below strict => Nat.le_of_not_lt fun longer => ?_⟩
  have missing := trailing_missing (show n - path.trailing n id ≤ j - 1 by omega) (by omega)
  rw [needs j strict (by omega)] at missing
  cases missing

theorem num_matched_bounds (path : MatchedPath) (n : Nat) : path.numMatchedTokens n ≤ path.tokensPerBlock * n ∧
      path.tokensPerBlock * (n - 1) ≤ path.numMatchedTokens n := by
  have small := path.fits (n - 1)
  unfold numMatchedTokens
  split
  · next none => simp [none]
  next some =>
  have whole := Nat.mul_sub_one path.tokensPerBlock n
  have least := Nat.le_mul_of_pos_right path.tokensPerBlock (Nat.pos_of_ne_zero some)
  omega

theorem num_matched_mono (below : k ≤ n) : path.numMatchedTokens k ≤ path.numMatchedTokens n := by
  rcases Nat.lt_or_eq_of_le below with shorter | rfl
  · exact le_trans (path.num_matched_bounds k).1
      (le_trans (Nat.mul_le_mul_left _ (by omega)) (path.num_matched_bounds n).2)
  · exact le_rfl

-- A window of two tokens or more reaches into the last block.
theorem last_held (wide : entry.2.windowSize ≠ some 1) (listed : entry ∈ path.swaLifeCycles)
    (usable : path.Usable n) (nonempty : 0 < n) : path.hasPage entry.1 (n - 1) := by
  refine usable.window entry listed _ (by omega) (.inr fun stale => ?_)
  obtain ⟨window, sliding, -, before⟩ := (AttnLifeCycle.mem_stale _ _ _ _ path.positive).mp stale
  have pos := entry.2.window_pos window sliding
  have reach : window ≠ 1 := fun one => wide (one ▸ sliding)
  have most := (path.num_matched_bounds n).1
  have blocks := Nat.mul_pos path.positive nonempty
  have full := (Nat.le_div_iff_mul_le path.positive).mp before
  rw [Nat.succ_eq_add_one, Nat.sub_add_cancel nonempty, Nat.mul_comm] at full
  omega

theorem window_cut_keeps (listed : entry ∈ path.swaLifeCycles) (nonempty : 0 < n) (cut : path.windowCut n entry = some k) :
    path.Keeps n k ∧ k < n := by
  unfold windowCut at cut
  split at cut
  · cases cut
    exact ⟨trailing_keeps fun j strict => strict.last entry listed, by omega⟩
  dsimp only at cut
  split at cut
  · next room =>
    cases cut
    have missing := @find_index_found (n - path.staleEnd n entry.2)
      (fun i => !path.hasPage entry.1 (n - 1 - i)) (by omega)
    refine ⟨⟨by omega, fun j below strict => Nat.le_of_not_lt fun longer => ?_⟩, by omega⟩
    rw [Nat.sub_right_comm, strict.usable.window entry listed _ longer (.inr fun stale => ?_)] at missing
    · cases missing
    have behind := (AttnLifeCycle.stale_mono _ _ _ path.positive (num_matched_mono below) stale).2
    change _ < path.staleEnd n entry.2 at behind
    omega
  · cases cut

theorem window_uncut (uncut : path.windowCut n entry = none) (inside : i < n)
    (late : i + 1 = n ∨ path.staleEnd n entry.2 ≤ i) : path.hasPage entry.1 i := by
  unfold windowCut at uncut
  split at uncut
  · cases uncut
  rename_i held
  rcases late with rfl | late
  · have last := @trailing_last path (i + 1) entry.1 (by omega)
    rwa [not_not.mp held] at last
  dsimp only at uncut
  split at uncut
  · cases uncut
  have held := @not_of_lt_find_index (n - path.staleEnd n entry.2) (n - 1 - i)
    (fun i => !path.hasPage entry.1 (n - 1 - i)) (by omega) (by omega)
  rw [show n - 1 - (n - 1 - i) = i by omega] at held
  simpa using held

theorem strict_zero : path.Strict 0 := ⟨⟨by simp, by simp, by simp⟩, by simp⟩

theorem start_le (cycle : AttnLifeCycle) (hist unit : Nat) :
    (cycle.getStaleRange hist unit).beg ≤ divUp hist unit ∧
      (cycle.getStaleRange hist unit).beg ≤ cycle.numSinkBlocks := by
  unfold AttnLifeCycle.getStaleRange
  cases cycle.windowSize <;> exact ⟨min_le_left _ _, min_le_right _ _⟩

theorem snapshot_keeps (path : MatchedPath) (n : Nat) : path.Keeps n (path.snapshotCut n) ∧
    ∀ id, path.ssmLifeCycleId = some id → 0 < path.snapshotCut n → path.hasPage id (path.snapshotCut n - 1) := by
  unfold snapshotCut
  cases ssm : path.ssmLifeCycleId with
  | none => exact ⟨keeps_refl, nofun⟩
  | some id =>
    refine ⟨trailing_keeps fun j strict => strict.usable.snapshot id ssm, fun other same nonempty => ?_⟩
    cases same
    exact trailing_last nonempty

-- Each round keeps the strictly usable prefixes, and one without a cut leaves one of them.
theorem prune_loop (fuel : Nat) (settled : Settled path path.swaLifeCycles n) (enough : n ≤ fuel) :
    path.Keeps n (path.pruneLoop fuel n) ∧ path.Strict (path.pruneLoop fuel n) := by
  induction fuel generalizing n with
  | zero =>
    rw [Nat.le_zero.mp enough]
    exact ⟨keeps_refl, strict_zero⟩
  | succ fuel ih =>
    obtain ⟨keeps, snapshot⟩ := snapshot_keeps path n
    unfold pruneLoop
    dsimp only
    generalize path.snapshotCut n = rest at keeps snapshot ⊢
    have settled := settled.mono keeps.1
    have shorter := keeps.1
    split
    · next empty => exact ⟨empty ▸ keeps, strict_zero⟩
    split
    · next cut found =>
      obtain ⟨entry, listed, found⟩ := exists_of_findSome?_eq_some found
      obtain ⟨next, less⟩ := window_cut_keeps listed (by omega) found
      obtain ⟨final, strict⟩ := ih (settled.mono next.1) (by omega)
      exact ⟨keeps.trans (next.trans final), strict⟩
    next found =>
    have uncut := findSome?_eq_none_iff.mp found
    refine ⟨keeps, ⟨settled.full, fun entry listed i below outside => ?_, snapshot⟩,
      fun entry listed nonempty => window_uncut (uncut entry listed) (by omega) (.inl (by omega))⟩
    by_cases early : i < entry.2.numSinkBlocks
    · exact settled.sink entry listed i below early
    have start := (start_le entry.2 (path.numMatchedTokens rest) path.tokensPerBlock).2
    have late := outside.resolve_left early
    rw [mem_range] at late
    exact window_uncut (uncut entry listed) below (.inr (by unfold staleEnd; omega))

theorem usable_holds (usable : path.Usable n) : path.Holds n := by
  refine ⟨fun entry listed ord held => ?_, usable.snapshot⟩
  have start := (start_le entry.2 (path.numMatchedTokens n) path.tokensPerBlock).1
  have blocks := div_up_mono path.tokensPerBlock (path.num_matched_bounds n).1
  rw [div_up_exact _ _ path.positive (Nat.mul_mod_right _ _), Nat.mul_div_cancel_left _ path.positive] at blocks
  have inside : ord < n := by omega
  refine ⟨inside, ?_⟩
  by_cases sliding : entry.2.windowSize.isSome
  · refine usable.window entry (mem_filter.mpr ⟨listed, sliding⟩) ord inside (.inr ?_)
    rw [mem_range]
    omega
  · exact usable.full entry (mem_filter.mpr ⟨listed, by simpa using sliding⟩) ord inside

-- Every round drops a block, so the length is fuel enough.
def pruneMatch (path : MatchedPath) : Nat :=
  path.pruneLoop path.length (path.swaLifeCycles.foldl path.pruneSink (path.pruneFull path.length))

theorem prune_match_strict (path : MatchedPath) : path.Keeps path.length path.pruneMatch ∧ path.Strict path.pruneMatch := by
  have full : path.Settled [] (path.pruneFull path.length) := ⟨fun _ listed _ => prune_full_held listed, nofun⟩
  obtain ⟨sinks, settled⟩ := prune_sinks (List.Subset.refl _) full
  have stages := prune_full_keeps.trans sinks
  obtain ⟨keeps, strict⟩ := prune_loop path.length settled stages.1
  exact ⟨stages.trans keeps, strict⟩

open Classical in
theorem longest_exists (path : MatchedPath) : ∃ n, path.Longest n :=
  have found : path.Usable (Nat.findGreatest path.Usable path.length) :=
    Nat.findGreatest_spec (Nat.zero_le _) strict_zero.usable
  ⟨_, Nat.findGreatest_le _, found, fun _ below usable => Nat.le_findGreatest below usable⟩

theorem prune_match_longest_iff (path : MatchedPath) : path.Longest path.pruneMatch ↔
    ∀ n, path.Longest n → 0 < n → ∀ entry ∈ path.swaLifeCycles, entry.2.windowSize = some 1 → path.hasPage entry.1 (n - 1) := by
  obtain ⟨⟨within, longest⟩, strict⟩ := path.prune_match_strict
  constructor
  · intro best n other nonempty entry listed _
    obtain rfl : n = path.pruneMatch :=
      le_antisymm (best.2.2 n other.1 other.2.1) (other.2.2 _ best.1 best.2.1)
    exact strict.last entry listed nonempty
  · intro held
    obtain ⟨n, best⟩ := path.longest_exists
    have last : path.Strict n := by
      refine ⟨best.2.1, fun entry listed nonempty => ?_⟩
      by_cases single : entry.2.windowSize = some 1
      · exact held n best nonempty entry listed single
      · exact last_held single listed best.2.1 nonempty
    obtain rfl : n = path.pruneMatch := le_antisymm (longest n best.1 last) (best.2.2 _ within strict.usable)
    exact best

end MatchedPath

-- Children stand in the order of their dictionary; storage tells by life cycle id whether there is a page.
inductive Block (Key Token : Type) where
  | mk (tokens : List Token) (storage : Nat → Bool) (next : List (Key × Block Key Token))

section Walk
variable {Key Token : Type} [DecidableEq Key] [DecidableEq Token]

namespace Block

def tokens : Block Key Token → List Token
  | mk tokens _ _ => tokens

def storage : Block Key Token → Nat → Bool
  | mk _ storage _ => storage

def next : Block Key Token → List (Key × Block Key Token)
  | mk _ _ next => next

end Block

def partialMatch : List Token → List Token → Nat
  | a :: tokens, b :: others => if a = b then partialMatch tokens others + 1 else 0
  | _, _ => 0

-- The first of the longest matches; with 32 children or more none is looked for.
def findBestPartialMatchInNextNodes (children : List (Key × Block Key Token)) (tokens : List Token) :
    Option (Block Key Token) × Nat :=
  if 32 ≤ children.length then (none, 0)
  else children.foldl (fun best child =>
    let matchLen := partialMatch tokens child.2.tokens
    if best.2 < matchLen then (some child.2, matchLen) else best) (none, 0)

def chunked (size : Nat) : Nat → List Token → List (List Token)
  | 0, _ => []
  | _ + 1, [] => []
  | fuel + 1, token :: tokens => (token :: tokens).take size :: chunked size fuel ((token :: tokens).drop size)

variable (digest : Key → List Token → Key) (enablePartialMatch : Bool)

def matchTokenPath : Key → List (Key × Block Key Token) → List (List Token) → List (Block Key Token × Nat)
  | _, _, [] => []
  | prevKey, children, tokenBlock :: rest =>
    match children.lookup (digest prevKey tokenBlock) with
    | some block => (block, tokenBlock.length) :: matchTokenPath (digest prevKey tokenBlock) block.next rest
    | none =>
      if enablePartialMatch then
        let best := findBestPartialMatchInNextNodes children tokenBlock
        (best.1.map fun block => (block, best.2)).toList
      else []

def WholeButLast (size : Nat) : List Nat → Prop
  | [] => True
  | [last] => last ≤ size
  | head :: next :: rest => head = size ∧ WholeButLast size (next :: rest)

theorem partial_match_le (tokens others : List Token) : partialMatch tokens others ≤ tokens.length := by
  fun_induction partialMatch tokens others with
  | case1 _ _ _ ih => exact Nat.succ_le_succ ih
  | case2 | case3 => exact Nat.zero_le _

omit [DecidableEq Key] in
theorem best_partial_le (children : List (Key × Block Key Token)) (tokens : List Token) :
    (findBestPartialMatchInNextNodes children tokens).2 ≤ tokens.length := by
  unfold findBestPartialMatchInNextNodes
  split
  · exact Nat.zero_le _
  refine foldlRecOn (motive := fun best : Option (Block Key Token) × Nat => best.2 ≤ tokens.length) children _ (Nat.zero_le _)
    fun best below child _ => ?_
  dsimp only
  split
  · exact partial_match_le _ _
  · exact below

omit [DecidableEq Key] [DecidableEq Token] in
theorem chunked_whole (size fuel : Nat) (tokens : List Token) :
    WholeButLast size ((chunked size fuel tokens).map length) := by
  induction fuel generalizing tokens with
  | zero => trivial
  | succ fuel ih =>
    cases tokens with
    | nil => trivial
    | cons token tokens =>
      have tail := ih ((token :: tokens).drop size)
      rw [chunked, map_cons]
      cases rest : chunked size fuel ((token :: tokens).drop size) with
      | nil => exact (length_take_le _ _)
      | cons next more =>
        rw [rest, map_cons] at tail
        refine ⟨length_take_of_le ?_, tail⟩
        by_contra short
        rw [drop_of_length_le (by omega)] at rest
        cases fuel <;> cases rest

theorem path_whole (size : Nat) (prevKey : Key) (children : List (Key × Block Key Token)) (blocks : List (List Token))
    (whole : WholeButLast size (blocks.map length)) :
    WholeButLast size ((matchTokenPath digest enablePartialMatch prevKey children blocks).map Prod.snd) := by
  induction blocks generalizing prevKey children with
  | nil => trivial
  | cons tokenBlock rest ih =>
    have small : tokenBlock.length ≤ size := by
      cases rest with
      | nil => exact whole
      | cons next more => exact whole.1.le
    have later : WholeButLast size (rest.map length) := by
      cases rest with
      | nil => trivial
      | cons next more => exact whole.2
    unfold matchTokenPath
    split
    · rename_i block found
      rw [map_cons]
      have tail := ih (digest prevKey tokenBlock) block.next later
      cases walked : matchTokenPath digest enablePartialMatch (digest prevKey tokenBlock) block.next rest with
      | nil => exact small
      | cons next more =>
        rw [walked, map_cons] at tail
        cases rest with
        | nil => cases walked
        | cons _ _ => exact ⟨whole.1, tail⟩
    · split
      · dsimp only
        cases (findBestPartialMatchInNextNodes children tokenBlock).1 with
        | none => trivial
        | some block => exact (best_partial_le children tokenBlock).trans small
      · trivial

theorem whole_but_last {size : Nat} {sizes : List Nat} (whole : WholeButLast size sizes) :
    (∀ i, i + 1 < sizes.length → sizes.getD i 0 = size) ∧ ∀ i, sizes.getD i 0 ≤ size := by
  induction sizes with
  | nil => simp
  | cons head rest ih =>
    cases rest with
    | nil =>
      refine ⟨by simp, fun i => ?_⟩
      cases i with
      | zero => exact whole
      | succ i => exact Nat.zero_le _
    | cons next rest =>
      obtain ⟨inner, small⟩ := ih whole.2
      refine ⟨fun i inside => ?_, fun i => ?_⟩
      · cases i with
        | zero => exact whole.1
        | succ i => exact inner i (by simpa using inside)
      · cases i with
        | zero => exact whole.1.le
        | succ i => exact small i

-- Roots by the key of their scope.
structure BlockRadixTree (Key Token : Type) where
  tokensPerBlock : Nat
  lifeCycles : List LifeCycle
  next : List (Key × List (Key × Block Key Token))
  positive : 0 < tokensPerBlock

namespace BlockRadixTree
variable (tree : BlockRadixTree Key Token) (scope : Key) (tokens : List Token)

def tokenPath : List (Block Key Token × Nat) :=
  match tree.next.lookup scope with
  | none => []
  | some children =>
    matchTokenPath digest enablePartialMatch scope children (chunked tree.tokensPerBlock tokens.length tokens)

theorem token_path_whole :
    WholeButLast tree.tokensPerBlock ((tree.tokenPath digest enablePartialMatch scope tokens).map Prod.snd) := by
  unfold tokenPath
  split
  · trivial
  · exact path_whole _ _ _ _ _ _ (chunked_whole _ _ _)

def matchedPath : MatchedPath :=
  let path := tree.tokenPath digest enablePartialMatch scope tokens
  have sizes := whole_but_last (tree.token_path_whole digest enablePartialMatch scope tokens)
  { tokensPerBlock := tree.tokensPerBlock
    lifeCycles := tree.lifeCycles
    length := path.length
    numTokens := fun i => (path.map Prod.snd).getD i 0
    hasPage := fun id i => (path[i]?.map fun entry => entry.1.storage id).getD false
    positive := tree.positive
    whole := fun i inside => sizes.1 i (by simpa using inside)
    fits := sizes.2 }

-- The blocks of the match and their tokens.
def matchPrefix : List (Block Key Token) × Nat :=
  let path := tree.matchedPath digest enablePartialMatch scope tokens
  (((tree.tokenPath digest enablePartialMatch scope tokens).take path.pruneMatch).map Prod.fst,
    path.numMatchedTokens path.pruneMatch)

-- The pages the match needs are there; it is the longest usable one unless that ends in a block without a page of a
-- window of one token.
theorem match_longest_iff : ∃ n,
    tree.matchPrefix digest enablePartialMatch scope tokens =
      (((tree.tokenPath digest enablePartialMatch scope tokens).take n).map Prod.fst,
        (tree.matchedPath digest enablePartialMatch scope tokens).numMatchedTokens n) ∧
    (tree.matchedPath digest enablePartialMatch scope tokens).Holds n ∧
    ((tree.matchedPath digest enablePartialMatch scope tokens).Longest n ↔
      ∀ best, (tree.matchedPath digest enablePartialMatch scope tokens).Longest best → 0 < best →
        ∀ entry ∈ (tree.matchedPath digest enablePartialMatch scope tokens).swaLifeCycles, entry.2.windowSize = some 1 →
          (tree.matchedPath digest enablePartialMatch scope tokens).hasPage entry.1 (best - 1)) :=
  ⟨_, rfl, MatchedPath.usable_holds (MatchedPath.prune_match_strict _).2.usable, MatchedPath.prune_match_longest_iff _⟩

end BlockRadixTree
end Walk

-- Two blocks of one token, a full-attention life cycle and a window whose page the second block has lost. The keys are
-- the tokens themselves.
def twoBlocks (window : Nat) (positive : 0 < window) : BlockRadixTree (List Nat) Nat where
  tokensPerBlock := 1
  lifeCycles := [.attn ⟨none, 0, nofun⟩, .attn ⟨some window, 0, by rintro _ ⟨⟩; exact positive⟩]
  next := [([], [([1], .mk [1] (fun _ => true) [([1, 2], .mk [2] (fun id => id == 0) [])])])]
  positive := Nat.one_pos

-- With a window of one token both blocks are stale; the loop still drops the second.
theorem stale_block_dropped : ((twoBlocks 1 Nat.one_pos).matchPrefix (· ++ ·) false [] [1, 2]).2 = 1 ∧
    ((twoBlocks 1 Nat.one_pos).matchedPath (· ++ ·) false [] [1, 2]).Usable 2 :=
  ⟨by decide, by decide, by decide, nofun⟩

end TrtLlm.V2
