import TrtLlm.SnapshotProgress

set_option autoImplicit false

namespace TrtLlm.Batch
open List TrtLlm.Lib LlmRequest

structure TowardGoal (goal : LlmRequest → Nat) (req : LlmRequest) : Prop where
  pending : PendingContext req
  positive : 0 < goal req
  within : goal req ≤ req.computeRemaining
  stable : ∀ size, goal (req.setContextChunkSize size) = goal req

def Reaches (goal : LlmRequest → Nat) (req : LlmRequest) : Prop := goal req ≤ req.contextChunkSize

theorem toward_goal_set {goal : LlmRequest → Nat} {req : LlmRequest} (toward : TowardGoal goal req) (size : Nat) :
    TowardGoal goal (req.setContextChunkSize size) where
  pending := ⟨toward.pending.phase, toward.pending.unfinished, toward.pending.recoverable, toward.pending.unapplied⟩
  positive := by rw [toward.stable]; exact toward.positive
  within := by rw [toward.stable]; exact toward.within
  stable other := by rw [set_chunk_set_chunk, toward.stable, toward.stable]

section EqualShare
variable (goal : LlmRequest → Nat) (capacity unit maxLength : Nat)

def GrantsUnit (spent held : Nat) (req : LlmRequest) : Prop :=
  spent * unit + (min ((held + 1) * unit) req.computeRemaining - held * unit) ≤ capacity ∧
    min ((held + 1) * unit) req.getContextRemainingLength ≤ maxLength

variable {spent held : Nat} {reqs : List LlmRequest} {req : LlmRequest}

section
variable {goal capacity unit maxLength}

theorem grants_within (pos : 0 < unit) (room : spent + 1 ≤ capacity / unit) (short : held + 1 ≤ maxLength / unit) :
    GrantsUnit capacity unit maxLength spent held req := by
  have total := (Nat.le_div_iff_mul_le pos).mp room
  have single := (Nat.le_div_iff_mul_le pos).mp short
  rw [Nat.add_mul, Nat.one_mul] at total single
  refine ⟨?_, ?_⟩
  · rw [Nat.add_mul, Nat.one_mul]
    omega
  · rw [Nat.add_mul, Nat.one_mul]
    omega

variable (toward : TowardGoal goal req) (chunk : req.contextChunkSize = held * unit) (unreached : ¬ Reaches goal req)

include toward chunk unreached

theorem unit_costs : req.policyCompute (held * unit) = held * unit ∧
      req.policyCompute (min ((held + 1) * unit) req.getContextRemainingLength) =
        min ((held + 1) * unit) req.computeRemaining := by
  have remaining := compute_remaining_le req
  have within := toward.within
  unfold Reaches at unreached
  refine ⟨?_, ?_⟩
  · rw [policy_compute_pending toward.pending (by omega)]
    omega
  · rw [policy_compute_pending toward.pending (min_le_right _ _)]
    omega

theorem turn_granted {total : Nat} (cheaper : total ≤ spent * unit) (grants : GrantsUnit capacity unit maxLength spent held req) :
    equalProgressTurn (some capacity) unit (some maxLength) total req = (req.setContextChunkSize ((held + 1) * unit),
        min ((held + 1) * unit) req.computeRemaining - held * unit,
        min ((held + 1) * unit) req.getContextRemainingLength - held * unit) := by
  obtain ⟨paid, short⟩ := grants
  obtain ⟨before, after⟩ := unit_costs toward chunk unreached
  have grown : held * unit + unit = (held + 1) * unit := by rw [Nat.add_mul, Nat.one_mul]
  unfold equalProgressTurn
  simp only [chunk, grown, set_chunk_size, after, before]
  rw [if_neg]
  simp only [exceeds, Option.any_some, Bool.or_eq_true, decide_eq_true_eq]
  omega

theorem turn_refused (refused : ¬ GrantsUnit capacity unit maxLength spent held req) :
    equalProgressTurn (some capacity) unit (some maxLength) (spent * unit) req = (req, 0, 0) := by
  obtain ⟨before, after⟩ := unit_costs toward chunk unreached
  have grown : held * unit + unit = (held + 1) * unit := by rw [Nat.add_mul, Nat.one_mul]
  unfold equalProgressTurn
  simp only [chunk, grown, set_chunk_size, after, before]
  rw [if_pos]
  · rw [set_chunk_set_chunk, ← chunk, set_own_chunk]
  · unfold GrantsUnit at refused
    simp only [exceeds, Option.any_some, Bool.or_eq_true, decide_eq_true_eq]
    omega

end

structure LockStep (held : Nat) (reqs : List LlmRequest) : Prop where
  toward : ∀ req ∈ reqs, TowardGoal goal req
  chunk : ∀ req ∈ reqs, req.contextChunkSize = held * unit
  unreached : ∀ req ∈ reqs, ¬ Reaches goal req

variable {goal unit} in
theorem lock_step_subset {part : List LlmRequest} (locked : LockStep goal unit held reqs) (inside : part ⊆ reqs) :
    LockStep goal unit held part where
  toward req member := locked.toward req (inside member)
  chunk req member := locked.chunk req (inside member)
  unreached req member := locked.unreached req (inside member)

variable {goal capacity unit maxLength}

theorem pass_append (total : Nat) (front back : List LlmRequest) :
    equalProgressPass (some capacity) unit (some maxLength) total (front ++ back) =
      let first := equalProgressPass (some capacity) unit (some maxLength) total front
      let second := equalProgressPass (some capacity) unit (some maxLength) first.2.1 back
      (first.1 ++ second.1, second.2.1, first.2.2 + second.2.2) := by
  induction front generalizing total with
  | nil => simp [equalProgressPass]
  | cons req rest ih =>
    simp only [cons_append, equalProgressPass, ih]
    simp only [Prod.mk.injEq, true_and]
    omega

theorem pass_granted (pos : 0 < unit) (short : held + 1 ≤ maxLength / unit)
    (reqs : List LlmRequest) (locked : LockStep goal unit held reqs) {spent total : Nat}
    (room : spent + reqs.length ≤ capacity / unit) (cheaper : total ≤ spent * unit) :
    let pass := equalProgressPass (some capacity) unit (some maxLength) total reqs
    pass.1 = reqs.map (·.setContextChunkSize ((held + 1) * unit)) ∧ (reqs ≠ [] → 0 < pass.2.2) ∧
      ((∀ req ∈ reqs, (held + 1) * unit < goal req) → pass.2.1 = total + reqs.length * unit) := by
  induction reqs generalizing spent total with
  | nil => exact ⟨rfl, fun absurd => (absurd rfl).elim, fun _ => by simp [equalProgressPass]⟩
  | cons req rest ih =>
    have toward := locked.toward req mem_cons_self
    have chunk := locked.chunk req mem_cons_self
    have unreached := locked.unreached req mem_cons_self
    have remaining := compute_remaining_le req
    have within := toward.within
    rw [length_cons] at room
    have turn := turn_granted toward chunk unreached cheaper
      (grants_within pos (show spent + 1 ≤ capacity / unit by omega) short)
    have cost : min ((held + 1) * unit) req.computeRemaining - held * unit ≤ unit := by
      rw [Nat.add_mul, Nat.one_mul]
      omega
    have grown : total + (min ((held + 1) * unit) req.computeRemaining - held * unit) ≤ (spent + 1) * unit := by
      rw [Nat.add_mul spent, Nat.one_mul]
      omega
    obtain ⟨chunks, _, exact⟩ := ih (lock_step_subset locked (subset_cons_self _ _)) (by omega) grown
    simp only [equalProgressPass, turn]
    refine ⟨by rw [chunks, map_cons], fun _ => ?_, fun far => ?_⟩
    · unfold Reaches at unreached
      have more : held * unit < (held + 1) * unit := Nat.mul_lt_mul_of_pos_right (Nat.lt_succ_self _) pos
      omega
    · have goalFar := far req mem_cons_self
      rw [exact (forall_mem_cons.mp far).2, length_cons, Nat.add_mul, Nat.add_mul, Nat.one_mul]
      rw [Nat.add_mul, Nat.one_mul] at goalFar
      omega

variable (goal capacity unit maxLength)

structure Stalled (spent : Nat) (req : LlmRequest) : Prop where
  toward : TowardGoal goal req
  unreached : ¬ Reaches goal req
  chunk : req.contextChunkSize = req.contextChunkSize / unit * unit
  spare : ¬ (spent + 1 ≤ capacity / unit ∧ req.contextChunkSize / unit + 1 ≤ maxLength / unit)

variable {goal capacity unit maxLength}

section
variable (reqs : List LlmRequest) (stalled : ∀ req ∈ reqs, Stalled goal capacity unit maxLength spent req)

include stalled

theorem pass_refused (refused : ∀ req ∈ reqs, ¬ GrantsUnit capacity unit maxLength spent (req.contextChunkSize / unit) req) :
    equalProgressPass (some capacity) unit (some maxLength) (spent * unit) reqs = (reqs, spent * unit, 0) := by
  induction reqs with
  | nil => rfl
  | cons req rest ih =>
    have head := stalled req mem_cons_self
    have turn := turn_refused head.toward head.chunk head.unreached
      (refused req mem_cons_self)
    have tail := ih (forall_mem_cons.mp stalled).2
      (forall_mem_cons.mp refused).2
    simp only [equalProgressPass, turn, Nat.add_zero, tail]

theorem pass_completes (pos : 0 < unit)
    (granted : ∃ req ∈ reqs, GrantsUnit capacity unit maxLength spent (req.contextChunkSize / unit) req) :
    ∃ req ∈ (equalProgressPass (some capacity) unit (some maxLength) (spent * unit) reqs).1, Reaches goal req := by
  induction reqs with
  | nil =>
    obtain ⟨req, mem, _⟩ := granted
    cases mem
  | cons req rest ih =>
    have head := stalled req mem_cons_self
    by_cases now : GrantsUnit capacity unit maxLength spent (req.contextChunkSize / unit) req
    · have turn := turn_granted head.toward head.chunk head.unreached
        le_rfl now
      obtain ⟨total, single⟩ := now
      have within := head.toward.within
      have remaining := compute_remaining_le req
      have spare := head.spare
      rw [Nat.le_div_iff_mul_le pos, Nat.le_div_iff_mul_le pos] at spare
      refine ⟨_, mem_cons_self, ?_⟩
      rw [turn, Reaches, head.toward.stable]
      simp only [Nat.add_mul, Nat.one_mul] at spare total single ⊢
      change goal req ≤ min _ _
      omega
    have turn := turn_refused head.toward head.chunk head.unreached now
    have later : ∃ other ∈ rest, GrantsUnit capacity unit maxLength spent (other.contextChunkSize / unit) other := by
      obtain ⟨other, mem, grants⟩ := granted
      rcases mem_cons.mp mem with rfl | mem
      · exact absurd grants now
      · exact ⟨other, mem, grants⟩
    obtain ⟨reached, mem, met⟩ := ih (forall_mem_cons.mp stalled).2 later
    refine ⟨reached, ?_, met⟩
    simp only [equalProgressPass, turn, Nat.add_zero]
    exact mem_cons_of_mem _ mem

end

def Grown (given result : LlmRequest) : Prop :=
  Rechunked given result ∧ given.contextChunkSize ≤ result.contextChunkSize

theorem grown_reaches {given res : List LlmRequest} (grown : Forall₂ Grown given res)
    (toward : ∀ req ∈ given, TowardGoal goal req) (met : ∃ req ∈ given, Reaches goal req) : ∃ req ∈ res, Reaches goal req := by
  obtain ⟨req, mem, reached⟩ := met
  obtain ⟨after, listed, ⟨size, same⟩, more⟩ := forall2_source grown.flip mem
  refine ⟨after, listed, ?_⟩
  unfold Reaches at reached ⊢
  rw [same, (toward req mem).stable, ← same]
  exact le_trans reached more

theorem equal_progress_pass_grown (limit length : Option Nat) (total : Nat) (reqs : List LlmRequest) :
    Forall₂ Grown reqs (equalProgressPass limit unit length total reqs).1 := by
  induction reqs generalizing total with
  | nil => exact .nil
  | cons req rest ih =>
    have turn := equal_progress_turn limit unit length total req
    exact .cons ⟨turn.rechunked, turn.grows ▸ Nat.le_add_right _ _⟩ (ih _)

theorem equal_progress_loop_grown (limit length : Option Nat) (fuel total single : Nat) (reqs result : List LlmRequest)
    (run : equalProgressLoop limit unit length fuel total single reqs = some result) : Forall₂ Grown reqs result := by
  induction fuel generalizing total single reqs with
  | zero => cases run
  | succ fuel ih =>
    unfold equalProgressLoop at run
    split at run
    · exact forall2_comp (equal_progress_pass_grown limit length total reqs) (ih _ _ _ run)
        fun _ _ _ first second => ⟨rechunked_trans first.1 second.1, le_trans first.2 second.2⟩
    · cases run
      exact forall₂_same.mpr fun req _ => ⟨rechunked_refl req, le_rfl⟩

theorem pass_toward {limit length : Option Nat} {total : Nat} {reqs : List LlmRequest}
    (toward : ∀ req ∈ reqs, TowardGoal goal req) :
    ∀ req ∈ (equalProgressPass limit unit length total reqs).1, TowardGoal goal req := by
  intro req mem
  obtain ⟨given, listed, ⟨size, rfl⟩, _⟩ := forall2_source (equal_progress_pass_grown limit length total reqs) mem
  exact toward_goal_set (toward given listed) size

theorem stalled_loop (pos : 0 < unit) {reqs result : List LlmRequest} {fuel single : Nat}
    (stalled : ∀ req ∈ reqs, Stalled goal capacity unit maxLength spent req) (going : single ≠ 0)
    (run : equalProgressLoop (some capacity) unit (some maxLength) fuel (spent * unit) single reqs = some result) :
    (∃ req ∈ result, Reaches goal req) ↔
      ∃ req ∈ reqs, GrantsUnit capacity unit maxLength spent (req.contextChunkSize / unit) req := by
  have none : ¬ ∃ req ∈ reqs, Reaches goal req := by
    rintro ⟨req, mem, met⟩
    exact (stalled req mem).unreached met
  obtain _ | fuel := fuel
  · cases run
  unfold equalProgressLoop at run
  by_cases room : spent * unit < capacity
  · rw [if_pos (by simp [room, going])] at run
    by_cases granted : ∃ req ∈ reqs, GrantsUnit capacity unit maxLength spent (req.contextChunkSize / unit) req
    · have met := pass_completes reqs stalled pos granted
      have grown := equal_progress_loop_grown _ _ _ _ _ _ _ run
      exact ⟨fun _ => granted, fun _ => grown_reaches grown (pass_toward fun req mem => (stalled req mem).toward) met⟩
    have refused := pass_refused reqs stalled
      fun req mem grants => granted ⟨req, mem, grants⟩
    rw [refused] at run
    obtain _ | fuel := fuel
    · cases run
    unfold equalProgressLoop at run
    rw [if_neg (by simp)] at run
    cases run
    exact ⟨fun met => absurd met none, fun grants => absurd grants granted⟩
  · rw [if_neg (by simp [room])] at run
    cases run
    refine ⟨fun met => absurd met none, ?_⟩
    rintro ⟨req, mem, grants⟩
    have still := stalled req mem
    have short : req.contextChunkSize / unit * unit < goal req := by
      have unreached := still.unreached
      rw [← still.chunk]
      unfold Reaches at unreached
      omega
    have paid := grants.1
    have within := still.toward.within
    rw [Nat.add_mul, Nat.one_mul] at paid
    omega

variable (goal capacity unit maxLength)

-- One unit each in turn, until the capacity or everybody's length limit is used up.
def equalSpent (count : Nat) : Nat := min (capacity / unit) (count * (maxLength / unit))

def equalShare (count index : Nat) : Nat :=
  equalSpent capacity unit maxLength count / count + (if index < equalSpent capacity unit maxLength count % count then 1 else 0)

def EqualShareReaches (reqs : List LlmRequest) : Prop :=
  ∃ index req, reqs[index]? = some req ∧ (goal req ≤ equalShare capacity unit maxLength reqs.length index * unit ∨
      GrantsUnit capacity unit maxLength (equalSpent capacity unit maxLength reqs.length)
        (equalShare capacity unit maxLength reqs.length index) req)

variable {goal capacity unit maxLength}

theorem lock_step_units (pos : 0 < unit) {reqs : List LlmRequest}
    (locked : LockStep goal unit held reqs) {req : LlmRequest} (mem : req ∈ reqs) : req.contextChunkSize / unit = held := by
  rw [locked.chunk req mem, Nat.mul_div_cancel _ pos]

theorem lock_step_stalled {held spent : Nat} (pos : 0 < unit) {reqs : List LlmRequest}
    (locked : LockStep goal unit held reqs) (spare : ¬ (spent + 1 ≤ capacity / unit ∧ held + 1 ≤ maxLength / unit)) :
    ∀ req ∈ reqs, Stalled goal capacity unit maxLength spent req := by
  intro req mem
  have units := lock_step_units pos locked mem
  exact ⟨locked.toward req mem, locked.unreached req mem, by rw [units, locked.chunk req mem], by rwa [units]⟩

theorem lock_step_next (locked : LockStep goal unit held reqs) (far : ∀ req ∈ reqs, (held + 1) * unit < goal req) :
    LockStep goal unit (held + 1) (reqs.map (·.setContextChunkSize ((held + 1) * unit))) where
  toward req member := by
    obtain ⟨given, listed, rfl⟩ := mem_map.mp member
    exact toward_goal_set (locked.toward given listed) _
  chunk req member := by
    obtain ⟨given, listed, rfl⟩ := mem_map.mp member
    have within := (locked.toward given listed).within
    have remaining := compute_remaining_le given
    have short := far given listed
    rw [set_chunk_size]
    omega
  unreached req member := by
    obtain ⟨given, listed, rfl⟩ := mem_map.mp member
    have short := far given listed
    rw [Reaches, (locked.toward given listed).stable, set_chunk_size]
    omega

theorem granted_reaches (locked : LockStep goal unit held reqs) (met : ∃ req ∈ reqs, goal req ≤ (held + 1) * unit) :
    ∃ req ∈ reqs.map (·.setContextChunkSize ((held + 1) * unit)), Reaches goal req := by
  obtain ⟨req, mem, near⟩ := met
  have toward := locked.toward req mem
  have within := toward.within
  have remaining := compute_remaining_le req
  refine ⟨_, mem_map_of_mem mem, ?_⟩
  rw [Reaches, toward.stable, set_chunk_size]
  omega

theorem loop_step {limit length : Option Nat} {fuel total single : Nat} {reqs result : List LlmRequest}
    (room : limit.all (total < ·)) (going : single ≠ 0)
    (run : equalProgressLoop limit unit length fuel total single reqs = some result) :
    let pass := equalProgressPass limit unit length total reqs
    ∃ less, equalProgressLoop limit unit length less pass.2.1 pass.2.2 pass.1 = some result := by
  obtain _ | fuel := fuel
  · cases run
  unfold equalProgressLoop at run
  rw [if_pos (by simp [room, going])] at run
  exact ⟨fuel, run⟩

theorem last_round {held spent fuel single : Nat} (pos : 0 < unit) {front back result : List LlmRequest}
    (locked : LockStep goal unit held (front ++ back)) (served : front ≠ [])
    (short : held + 1 ≤ maxLength / unit) (full : spent + front.length = capacity / unit) (going : single ≠ 0)
    (run : equalProgressLoop (some capacity) unit (some maxLength) fuel (spent * unit) single (front ++ back) = some result) :
    (∃ req ∈ result, Reaches goal req) ↔ (∃ req ∈ front, goal req ≤ (held + 1) * unit ∨
        GrantsUnit capacity unit maxLength (spent + front.length) (held + 1) req) ∨
      ∃ req ∈ back, GrantsUnit capacity unit maxLength (spent + front.length) held req := by
  have lockedFront := lock_step_subset locked (subset_append_left front back)
  have lockedBack := lock_step_subset locked (subset_append_right front back)
  have used : (spent + front.length) * unit ≤ capacity := (Nat.le_div_iff_mul_le pos).mp (le_of_eq full)
  have count : 0 < front.length := length_pos_iff.mpr served
  have space : spent * unit < capacity := lt_of_lt_of_le (Nat.mul_lt_mul_of_pos_right (by omega) pos) used
  obtain ⟨less, run⟩ := loop_step (by simpa using space) going run
  have grown := equal_progress_loop_grown _ _ _ _ _ _ _ run
  have persists := grown_reaches grown (pass_toward locked.toward)
  rw [pass_append] at run persists
  dsimp only at run persists
  obtain ⟨chunks, progress, paid⟩ := pass_granted pos short front lockedFront
    (le_of_eq full) (Nat.le_refl (spent * unit))
  have spare : ¬ (spent + front.length + 1 ≤ capacity / unit ∧ held + 1 ≤ maxLength / unit) := by omega
  by_cases near : ∃ req ∈ front, goal req ≤ (held + 1) * unit
  · obtain ⟨req, mem, met⟩ := granted_reaches lockedFront near
    refine ⟨fun _ => .inl ?_, fun _ => persists ⟨req, ?_, met⟩⟩
    · obtain ⟨other, listed, close⟩ := near
      exact ⟨other, listed, .inl close⟩
    · rw [chunks]
      exact mem_append_left _ mem
  have far : ∀ req ∈ front, (held + 1) * unit < goal req := by
    intro req mem
    exact Nat.lt_of_not_le fun close => near ⟨req, mem, close⟩
  have spentNow : spent * unit + front.length * unit = (spent + front.length) * unit := (Nat.add_mul _ _ _).symm
  rw [paid far, spentNow, chunks] at persists run
  have stalledBack := lock_step_stalled pos lockedBack spare
  by_cases late : ∃ req ∈ back, GrantsUnit capacity unit maxLength (spent + front.length) held req
  · have granted : ∃ req ∈ back, GrantsUnit capacity unit maxLength (spent + front.length)
        (req.contextChunkSize / unit) req := by
      obtain ⟨req, mem, grants⟩ := late
      exact ⟨req, mem, by rwa [lock_step_units pos lockedBack mem]⟩
    obtain ⟨req, mem, met⟩ := pass_completes back stalledBack pos granted
    exact ⟨fun _ => .inr late, fun _ => persists ⟨req, mem_append_right _ mem, met⟩⟩
  have refused := pass_refused back stalledBack fun req mem grants =>
    late ⟨req, mem, by rwa [lock_step_units pos lockedBack mem] at grants⟩
  rw [refused, Nat.add_zero] at run
  have lockedNext := lock_step_next lockedFront far
  have stalledFront := lock_step_stalled pos lockedNext
    (show ¬ (spent + front.length + 1 ≤ capacity / unit ∧ held + 1 + 1 ≤ maxLength / unit) by omega)
  have all : ∀ req ∈ front.map (·.setContextChunkSize ((held + 1) * unit)) ++ back,
      Stalled goal capacity unit maxLength (spent + front.length) req := by
    intro req mem
    exact (mem_append.mp mem).elim (stalledFront req) (stalledBack req)
  rw [stalled_loop pos all (Nat.pos_iff_ne_zero.mp (progress served)) run]
  refine ⟨fun ⟨req, mem, grants⟩ => ?_, fun grants => ?_⟩
  · rcases mem_append.mp mem with inFront | inBack
    · obtain ⟨given, listed, rfl⟩ := mem_map.mp inFront
      rw [lock_step_units pos lockedNext inFront] at grants
      exact .inl ⟨given, listed, .inr grants⟩
    · rw [lock_step_units pos lockedBack inBack] at grants
      exact .inr ⟨req, inBack, grants⟩
  · rcases grants with ⟨req, mem, close | grants⟩ | back
    · exact absurd ⟨req, mem, close⟩ near
    · have moved := mem_map_of_mem (f := (·.setContextChunkSize ((held + 1) * unit))) mem
      refine ⟨_, mem_append_left _ moved, ?_⟩
      rw [lock_step_units pos lockedNext moved]
      exact grants
    · exact absurd back late

theorem share_index_split (reqs : List LlmRequest) (rest : Nat) (wins : Nat → LlmRequest → Prop) :
    (∃ idx req, reqs[idx]? = some req ∧ wins (if idx < rest then 1 else 0) req) ↔
      (∃ req ∈ reqs.take rest, wins 1 req) ∨ ∃ req ∈ reqs.drop rest, wins 0 req := by
  constructor
  · rintro ⟨idx, req, found, win⟩
    split at win
    · next early =>
      exact .inl ⟨req, mem_of_getElem? (by rw [getElem?_take_of_lt early]; exact found), win⟩
    next early =>
    refine .inr ⟨req, mem_of_getElem? (i := idx - rest) ?_, win⟩
    rw [getElem?_drop, Nat.add_sub_cancel' (Nat.le_of_not_lt early)]
    exact found
  · rintro (⟨req, mem, win⟩ | ⟨req, mem, win⟩)
    · obtain ⟨idx, found⟩ := mem_iff_getElem?.mp mem
      have early : idx < rest := by
        by_contra late
        rw [getElem?_take_eq_none (Nat.le_of_not_lt late)] at found
        cases found
      rw [getElem?_take_of_lt early] at found
      exact ⟨idx, req, found, by rwa [if_pos early]⟩
    · obtain ⟨idx, found⟩ := mem_iff_getElem?.mp mem
      rw [getElem?_drop] at found
      exact ⟨rest + idx, req, found, by rwa [if_neg (by omega)]⟩

theorem wins_set (toward : ∀ req ∈ reqs, TowardGoal goal req) {size : Nat} {wins : Nat → LlmRequest → Prop}
    (same : ∀ idx req, TowardGoal goal req → (wins idx (req.setContextChunkSize size) ↔ wins idx req)) :
    (∃ idx req, (reqs.map (·.setContextChunkSize size))[idx]? = some req ∧ wins idx req) ↔
      ∃ idx req, reqs[idx]? = some req ∧ wins idx req := by
  simp only [getElem?_map, Option.map_eq_some_iff]
  constructor
  · rintro ⟨idx, _, ⟨req, found, rfl⟩, won⟩
    exact ⟨idx, req, found, (same idx req (toward req (mem_of_getElem? found))).mp won⟩
  · rintro ⟨idx, req, found, won⟩
    exact ⟨idx, _, ⟨req, found, rfl⟩, (same idx req (toward req (mem_of_getElem? found))).mpr won⟩

theorem equal_share_set (toward : ∀ req ∈ reqs, TowardGoal goal req) (size : Nat) :
    EqualShareReaches goal capacity unit maxLength (reqs.map (·.setContextChunkSize size)) ↔
      EqualShareReaches goal capacity unit maxLength reqs := by
  unfold EqualShareReaches
  rw [length_map]
  exact wins_set toward fun idx req toward => by rw [toward.stable]; rfl

theorem equal_spent_rounds (capacity count : Nat) : equalSpent capacity unit maxLength count / count ≤ maxLength / unit := by
  have bound : equalSpent capacity unit maxLength count ≤ count * (maxLength / unit) := min_le_right _ _
  exact Nat.div_le_of_le_mul bound

theorem equal_spent_exhausted {count : Nat} (someone : 0 < count)
    (room : equalSpent capacity unit maxLength count + 1 ≤ capacity / unit) :
    equalSpent capacity unit maxLength count / count = maxLength / unit ∧
      equalSpent capacity unit maxLength count % count = 0 := by
  have spent : equalSpent capacity unit maxLength count = count * (maxLength / unit) := by
    unfold equalSpent at room ⊢
    omega
  rw [spent]
  exact ⟨Nat.mul_div_cancel_left _ someone, Nat.mul_mod_right _ _⟩

theorem equal_share_final {fuel single : Nat} (pos : 0 < unit) {reqs res : List LlmRequest}
    (locked : LockStep goal unit (equalSpent capacity unit maxLength reqs.length / reqs.length) reqs)
    (nonempty : reqs ≠ []) (going : single ≠ 0) (run : equalProgressLoop (some capacity) unit (some maxLength) fuel
      (equalSpent capacity unit maxLength reqs.length / reqs.length * reqs.length * unit) single reqs = some res) :
    (∃ req ∈ res, Reaches goal req) ↔ EqualShareReaches goal capacity unit maxLength reqs := by
  have count : 0 < reqs.length := length_pos_iff.mpr nonempty
  have split := Nat.div_add_mod' (equalSpent capacity unit maxLength reqs.length) reqs.length
  have exhausted := @equal_spent_exhausted capacity unit maxLength _ count
  have below : equalSpent capacity unit maxLength reqs.length ≤ capacity / unit := min_le_left _ _
  have small := Nat.mod_lt (equalSpent capacity unit maxLength reqs.length) count
  unfold EqualShareReaches equalShare
  generalize spent : equalSpent capacity unit maxLength reqs.length = units at *
  generalize units / reqs.length = held at *
  generalize units % reqs.length = rest at *
  have far : ∀ req ∈ reqs, ¬ goal req ≤ held * unit := by
    intro req mem
    rw [← locked.chunk req mem]
    exact locked.unreached req mem
  rw [share_index_split reqs rest fun extra req =>
    goal req ≤ (held + extra) * unit ∨ GrantsUnit capacity unit maxLength units (held + extra) req]
  have splitList := take_append_drop rest reqs
  have late : (∃ req ∈ reqs.drop rest, goal req ≤ (held + 0) * unit ∨ GrantsUnit capacity unit maxLength units (held + 0) req) ↔
      ∃ req ∈ reqs.drop rest, GrantsUnit capacity unit maxLength units held req := by
    refine ⟨fun ⟨req, mem, wins⟩ => ⟨req, mem, ?_⟩, fun ⟨req, mem, grants⟩ => ⟨req, mem, .inr grants⟩⟩
    exact wins.resolve_left (far req (drop_subset _ _ mem))
  rw [late]
  by_cases whole : rest = 0
  · subst whole
    have all : held * reqs.length = units := by omega
    rw [all] at run
    have spare : ¬ (units + 1 ≤ capacity / unit ∧ held + 1 ≤ maxLength / unit) := by
      intro both
      omega
    rw [stalled_loop pos (lock_step_stalled pos locked spare) going run]
    simp only [take_zero, not_mem_nil, false_and, exists_false, false_or, drop_zero]
    refine exists_congr fun req => and_congr_right fun mem => ?_
    rw [lock_step_units pos locked mem]
  · have served : reqs.take rest ≠ [] := by
      intro empty
      have length := congrArg length empty
      rw [length_take, length_nil] at length
      omega
    have length : (reqs.take rest).length = rest := by
      rw [length_take]
      omega
    have short : held + 1 ≤ maxLength / unit := by
      have product : held * reqs.length < reqs.length * (maxLength / unit) := by
        have bound : units ≤ reqs.length * (maxLength / unit) := spent ▸ min_le_right _ _
        omega
      rw [Nat.mul_comm] at product
      exact Nat.lt_of_mul_lt_mul_left product
    rw [← splitList] at locked
    have last := last_round pos locked served short
      (show held * reqs.length + (reqs.take rest).length = capacity / unit by omega) going
      (by rw [splitList]; exact run)
    rw [length, split] at last
    exact last

theorem equal_share_loop {fuel single : Nat} (pos : 0 < unit) (left held : Nat) {reqs result : List LlmRequest}
    (locked : LockStep goal unit held reqs) (nonempty : reqs ≠ []) (going : single ≠ 0)
    (rounds : held + left = equalSpent capacity unit maxLength reqs.length / reqs.length)
    (run : equalProgressLoop (some capacity) unit (some maxLength) fuel (held * reqs.length * unit) single reqs = some result) :
    (∃ req ∈ result, Reaches goal req) ↔ EqualShareReaches goal capacity unit maxLength reqs := by
  induction left generalizing fuel single held reqs with
  | zero =>
    subst rounds
    exact equal_share_final pos locked nonempty going run
  | succ left ih =>
    have count : 0 < reqs.length := length_pos_iff.mpr nonempty
    have short := @equal_spent_rounds unit maxLength capacity reqs.length
    have room : held * reqs.length + reqs.length ≤ capacity / unit := by
      have below : equalSpent capacity unit maxLength reqs.length ≤ capacity / unit := min_le_left _ _
      have split := Nat.div_add_mod' (equalSpent capacity unit maxLength reqs.length) reqs.length
      have more := Nat.mul_le_mul_right reqs.length
        (show held + 1 ≤ equalSpent capacity unit maxLength reqs.length / reqs.length by omega)
      rw [Nat.add_mul, Nat.one_mul] at more
      omega
    have space : held * reqs.length * unit < capacity :=
      lt_of_lt_of_le (Nat.mul_lt_mul_of_pos_right (by omega) pos) ((Nat.le_div_iff_mul_le pos).mp room)
    obtain ⟨less, run⟩ := loop_step (by simpa using space) going run
    have grown := equal_progress_loop_grown _ _ _ _ _ _ _ run
    have persists := grown_reaches grown (pass_toward locked.toward)
    obtain ⟨chunks, progress, paid⟩ := pass_granted pos
      (show held + 1 ≤ maxLength / unit by omega) reqs locked room le_rfl
    by_cases near : ∃ req ∈ reqs, goal req ≤ (held + 1) * unit
    · refine ⟨fun _ => ?_, fun _ => persists (chunks ▸ granted_reaches locked near)⟩
      obtain ⟨req, mem, close⟩ := near
      obtain ⟨idx, found⟩ := mem_iff_getElem?.mp mem
      refine ⟨idx, req, found, .inl (le_trans close (Nat.mul_le_mul_right _ ?_))⟩
      unfold equalShare
      omega
    · have far : ∀ req ∈ reqs, (held + 1) * unit < goal req :=
        fun req mem => Nat.lt_of_not_le fun close => near ⟨req, mem, close⟩
      rw [paid far, chunks] at run
      have next := ih (held + 1) (lock_step_next locked far) (by simpa using nonempty)
        (Nat.pos_iff_ne_zero.mp (progress nonempty)) (by rw [length_map]; omega)
        (by rw [length_map, Nat.add_mul, Nat.one_mul, Nat.add_mul]; exact run)
      rw [next, equal_share_set locked.toward]

end EqualShare

section FirstComeShare
variable (goal : LlmRequest → Nat) (capacity unit maxLength : Nat)

-- Its share of whole units is enough, or all it still has to compute fits into what is left.
def FirstComeWins (asked : Nat) (req : LlmRequest) : Prop :=
  goal req ≤ min (maxLength / unit) (capacity / unit - asked) * unit ∨
    req.computeRemaining ≤ capacity - min (capacity / unit) asked * unit ∧ req.computeRemaining ≤ maxLength

-- A request that cannot finish asks for all units of its length limit.
def FirstComeReaches (reqs : List LlmRequest) : Prop :=
  ∃ index req, reqs[index]? = some req ∧ FirstComeWins goal capacity unit maxLength (index * (maxLength / unit)) req

theorem min_div (a b : Nat) : min a b / unit = min (a / unit) (b / unit) :=
  Monotone.map_min fun _ _ le => Nat.div_le_div_right le

section
variable {req : LlmRequest} (pending : PendingContext req)

include pending

theorem whole_cost : req.policyCompute req.getContextRemainingLength = req.computeRemaining := by
  have remaining := compute_remaining_le req
  rw [policy_compute_pending pending le_rfl]
  omega

theorem first_come_size_whole {left : Nat} (fits : req.computeRemaining ≤ left) (short : req.computeRemaining ≤ maxLength) :
    firstComeSize unit (some maxLength) (some left) req = req.getContextRemainingLength := by
  have cost := whole_cost pending
  have byCapacity : trimToCapacity (some left) req = req.getContextRemainingLength := by
    simp only [trimToCapacity, cost]
    rw [if_neg (by omega)]
  have byLength : trimToLength (some maxLength) req req.getContextRemainingLength = req.getContextRemainingLength := by
    simp only [trimToLength, cost]
    rw [if_neg (by omega)]
  simp [firstComeSize, byCapacity, byLength]

theorem first_come_size_trimmed {left : Nat} (long : ¬ (req.computeRemaining ≤ left ∧ req.computeRemaining ≤ maxLength)) :
    firstComeSize unit (some maxLength) (some left) req = min left maxLength / unit * unit := by
  have remaining := compute_remaining_le req
  have cost := whole_cost pending
  have trimmed : trimToLength (some maxLength) req (trimToCapacity (some left) req) = min left maxLength := by
    simp only [trimToCapacity, trimToLength, cost]
    split_ifs with excess tooLong tooLong <;>
      (rw [policy_compute_pending pending (by omega)] at tooLong
       omega)
  unfold firstComeSize
  rw [trimmed]
  exact if_pos (by omega)

end

theorem units_left (asked : Nat) : (capacity - min (capacity / unit) asked * unit) / unit = capacity / unit - asked := by
  rw [Nat.mul_comm, Nat.sub_mul_div]
  omega

theorem first_come_head {req : LlmRequest} (toward : TowardGoal goal req) (asked : Nat) :
    Reaches goal (req.setContextChunkSize (firstComeSize unit (some maxLength)
      (some (capacity - min (capacity / unit) asked * unit)) req)) ↔ FirstComeWins goal capacity unit maxLength asked req := by
  have remaining := compute_remaining_le req
  have within := toward.within
  have left := units_left capacity unit asked
  unfold FirstComeWins
  generalize capacity - min (capacity / unit) asked * unit = room at left ⊢
  rw [Reaches, toward.stable, set_chunk_size]
  by_cases whole : req.computeRemaining ≤ room ∧ req.computeRemaining ≤ maxLength
  · rw [first_come_size_whole unit maxLength toward.pending whole.1 whole.2, Nat.min_self]
    exact ⟨fun _ => .inr whole, fun _ => le_trans within remaining⟩
  · rw [first_come_size_trimmed unit maxLength toward.pending whole, min_div, left, Nat.min_comm (_ - _)]
    omega

theorem first_come_miss {req : LlmRequest} (toward : TowardGoal goal req) (asked : Nat)
    (miss : ¬ FirstComeWins goal capacity unit maxLength asked req) :
    capacity - min (capacity / unit) asked * unit - req.policyCompute (firstComeSize unit (some maxLength)
      (some (capacity - min (capacity / unit) asked * unit)) req) =
      capacity - min (capacity / unit) (asked + maxLength / unit) * unit := by
  have remaining := compute_remaining_le req
  have within := toward.within
  obtain ⟨far, long⟩ := not_or.mp miss
  have cost : req.policyCompute (min (maxLength / unit) (capacity / unit - asked) * unit) =
      min (maxLength / unit) (capacity / unit - asked) * unit := by
    rw [policy_compute_pending toward.pending (by omega)]
    omega
  rw [first_come_size_trimmed unit maxLength toward.pending long, min_div, units_left, Nat.min_comm (_ - _), cost,
    Nat.sub_sub, ← Nat.add_mul]
  congr 2
  generalize maxLength / unit = share
  omega

theorem exists_index_cons (req : LlmRequest) (rest : List LlmRequest) (wins : Nat → LlmRequest → Prop) :
    (∃ idx other, (req :: rest)[idx]? = some other ∧ wins idx other) ↔
      wins 0 req ∨ ∃ idx other, rest[idx]? = some other ∧ wins (idx + 1) other := by
  constructor
  · rintro ⟨_ | idx, other, found, win⟩
    · cases found
      exact .inl win
    · exact .inr ⟨idx, other, found, win⟩
  · rintro (win | ⟨idx, other, found, win⟩)
    · exact ⟨0, req, rfl, win⟩
    · exact ⟨idx + 1, other, found, win⟩

theorem first_come_reaches (reqs : List LlmRequest) (toward : ∀ req ∈ reqs, TowardGoal goal req) (asked : Nat) :
    (∃ req ∈ firstComeChunks unit (some maxLength) (some (capacity - min (capacity / unit) asked * unit)) reqs,
      Reaches goal req) ↔ ∃ idx req, reqs[idx]? = some req ∧
        FirstComeWins goal capacity unit maxLength (asked + idx * (maxLength / unit)) req := by
  induction reqs generalizing asked with
  | nil => simp [firstComeChunks]
  | cons req rest ih =>
    have here := toward req mem_cons_self
    have head := first_come_head goal capacity unit maxLength here asked
    by_cases now : FirstComeWins goal capacity unit maxLength asked req
    · refine ⟨fun _ => ⟨0, req, rfl, ?_⟩, fun _ => ⟨_, mem_cons_self, head.mpr now⟩⟩
      rwa [Nat.zero_mul, Nat.add_zero]
    have next := ih (forall_mem_cons.mp toward).2 (asked + maxLength / unit)
    have step : ∀ idx, asked + (idx + 1) * (maxLength / unit) =
        asked + maxLength / unit + idx * (maxLength / unit) := by
      intro idx
      rw [Nat.add_mul, Nat.one_mul]
      omega
    simp only [firstComeChunks, Option.map_some, first_come_miss goal capacity unit maxLength here asked now]
    rw [exists_index_cons req rest fun idx => FirstComeWins goal capacity unit maxLength (asked + idx * (maxLength / unit)),
      Nat.zero_mul, Nat.add_zero, or_iff_right now]
    simp only [step, ← next, exists_mem_cons_iff, head, or_iff_right now]

end FirstComeShare

section PolicyShare
variable (goal : LlmRequest → Nat) (capacity unit maxLength : Nat)

def ShareReaches (policy : ContextChunkingPolicy) (reqs : List LlmRequest) : Prop :=
  match policy with
  | .equalProgress => EqualShareReaches goal capacity unit maxLength reqs
  | .firstComeFirstServed => FirstComeReaches goal capacity unit maxLength reqs
  | .forceChunk => False

variable {goal capacity unit maxLength}

theorem policy_share {policy : ContextChunkingPolicy} (shared : policy ≠ .forceChunk) (pos : 0 < unit)
    {reqs : List LlmRequest} (nonempty : reqs ≠ []) (toward : ∀ req ∈ reqs, TowardGoal goal req) :
    ∃ chunked, policyChunkSizes policy (some capacity) unit (some maxLength) (reqs.map (·.setContextChunkSize 0)) = .ok chunked ∧
      ((∃ req ∈ chunked, Reaches goal req) ↔ ShareReaches goal capacity unit maxLength policy reqs) := by
  have reset : ∀ req ∈ reqs.map (·.setContextChunkSize 0), TowardGoal goal req := by
    exact forall_mem_map.mpr fun given listed => toward_goal_set (toward given listed) 0
  cases policy with
  | forceChunk => exact absurd rfl shared
  | firstComeFirstServed =>
    refine ⟨_, rfl, ?_⟩
    have run := first_come_reaches goal capacity unit maxLength _ reset 0
    simp only [Nat.min_zero, Nat.zero_mul, Nat.sub_zero, Nat.zero_add] at run
    exact run.trans (wins_set toward fun idx req toward => by rw [FirstComeWins, toward.stable]; rfl)
  | equalProgress =>
    obtain ⟨chunked, run⟩ := equal_progress_total (some capacity) unit (some maxLength)
      (reqs.map (·.setContextChunkSize 0))
    refine ⟨chunked, run, ?_⟩
    have locked : LockStep goal unit 0 (reqs.map (·.setContextChunkSize 0)) := by
      refine ⟨reset, fun req mem => ?_, fun req mem => ?_⟩
      · obtain ⟨given, listed, rfl⟩ := mem_map.mp mem
        simp
      obtain ⟨given, listed, rfl⟩ := mem_map.mp mem
      have far := (toward given listed).positive
      rw [Reaches, (toward given listed).stable, set_chunk_size]
      omega
    unfold equalProgressChunks at run
    split at run
    · rename_i loop
      cases run
      rw [equal_share_loop pos _ 0 locked (by simpa using nonempty) Nat.one_ne_zero
        (Nat.zero_add _) (by rw [Nat.zero_mul, Nat.zero_mul]; exact loop)]
      exact equal_share_set toward 0
    · cases run

end PolicyShare
end TrtLlm.Batch
