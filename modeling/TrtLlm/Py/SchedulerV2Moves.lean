import TrtLlm.Py.SchedulerV2

set_option autoImplicit false

namespace TrtLlm.Py
namespace KVCacheV2Scheduler
variable (sched : KVCacheV2Scheduler)

inductive Move (req : Request) (tail : List Request) (s : LoopState) : LoopState → List Request → Prop
  | passed : Move req tail s s tail
  | parked : deferred req = true → Move req tail s { s with pendingCtx := s.pendingCtx ++ [req] } tail
  | disaggTried (attempt : Attempt) : sched.tryScheduleDisaggGenInit s.world req = some attempt →
      Move req tail s { s with world := attempt.world } tail
  | disagg (attempt : Attempt) (pages : Nat) : sched.tryScheduleDisaggGenInit s.world req = some attempt →
      Move req tail s
        { s with
          world := attempt.world
          disaggCandidates := s.disaggCandidates ++ [attempt.req]
          budget := if 0 < pages then s.budget.commitPeft attempt.req pages else s.budget } tail
  | skipped (tried : LoopState) (left : List Request) : sched.tryScheduleGeneration s req tail = (.skip, tried, left) →
      Move req tail s tried left
  | stopped (tried : LoopState) (left : List Request) : req.base.state ≠ .disaggGenerationInit →
      sched.schedulable req = true → deferred req = false →
      sched.tryScheduleGeneration s req tail = (.stop, tried, left) → Move req tail s tried []
  | generation (tried : LoopState) (left : List Request) (pages : Nat) : s.budget.requestsFull = false →
      sched.tryScheduleGeneration s req tail = (.scheduled, tried, left) →
      Move req tail s
        { tried with
          scheduledGen := tried.scheduledGen ++ [req]
          budget := tried.budget.commit req (generationTokens req) pages } left

inductive Moves : List Request → LoopState → LoopState → Prop
  | done (rest : List Request) (s : LoopState) : Moves rest s s
  | step {req : Request} {tail left : List Request} {s next final : LoopState} :
      sched.Move req tail s next left → Moves left next final → Moves (req :: tail) s final

variable {sched}

theorem moves_invariant {Inv : List Request → LoopState → Prop}
    (kept : ∀ req tail s next left, Inv (req :: tail) s → sched.Move req tail s next left → Inv left next)
    {rest : List Request} {s final : LoopState} (moves : sched.Moves rest s final) (holds : Inv rest s) :
    ∃ left, Inv left final := by
  induction moves with
  | done rest s => exact ⟨rest, holds⟩
  | step move _ ih => exact ih (kept _ _ _ _ _ holds move)

variable (sched)

theorem phase_one_moves (inflight : List Nat) (rounds : Nat) : ∀ (rest : List Request) (s final : LoopState),
    sched.phaseOne inflight rounds rest s = .returned final → sched.Moves rest s final := by
  induction rounds with
  | zero =>
    intro rest s final done
    cases rest with
    | nil =>
      cases done
      exact .done [] s
    | cons req tail => cases done
  | succ rounds ih =>
    intro rest s final done
    cases rest with
    | nil =>
      cases done
      exact .done [] s
    | cons req tail =>
      unfold phaseOne at done
      split at done
      · exact .step .passed (ih tail s final done)
      split at done
      · split at done
        · cases done
          exact .done _ s
        rename_i pages _
        split at done
        · cases done
        rename_i attempt tried
        split at done
        · cases done
          exact .step (.disaggTried attempt tried) (.done _ _)
        · exact .step (.disaggTried attempt tried) (ih _ _ final done)
        · exact .step (.disagg attempt pages tried) (ih _ _ final done)
      · rename_i ordinary
        split at done
        · cases done
          exact .done _ s
        rename_i room
        split at done
        · exact .step .passed (ih tail s final done)
        rename_i in_range
        split at done
        · rename_i waits
          exact .step (.parked waits) (ih _ _ final done)
        rename_i now
        have in_range : sched.schedulable req = true := by simpa using in_range
        have now : deferred req = false := by simpa using now
        split at done
        · cases done
          exact .done _ s
        rename_i pages _
        split at done
        · rename_i tried left out
          cases done
          exact .step (.stopped _ left ordinary in_range now out) (.done _ _)
        · rename_i tried left out
          exact .step (.skipped tried left out) (ih _ _ final done)
        · rename_i tried left out
          exact .step (.generation tried left pages (by simpa using room) out) (ih _ _ final done)

theorem evict_rest (req : Request) (behind : List Request) : ∀ (caches : Caches) (victims before : List Request),
    (sched.tryEvictForGen req behind caches victims).before = some before → before <:+ behind := by
  induction behind with
  | nil =>
    intro caches victims before done
    cases done
  | cons victim rest ih =>
    intro caches victims before done
    unfold tryEvictForGen at done
    split at done
    · dsimp only at done
      split at done
      · cases done
        exact List.suffix_cons _ _
      · exact (ih _ _ before done).trans (List.suffix_cons victim rest)
    · exact (ih _ _ before done).trans (List.suffix_cons victim rest)

theorem generation_fields (s tried : LoopState) (req : Request) (tail left : List Request) (action : ScheduleAction)
    (out : sched.tryScheduleGeneration s req tail = (action, tried, left)) : left <+: tail ∧
      tried.budget = s.budget ∧ tried.scheduledEncoder = s.scheduledEncoder ∧ tried.scheduledCtx = s.scheduledCtx ∧
      tried.scheduledGen = s.scheduledGen ∧ tried.pendingCtx = s.pendingCtx ∧ tried.disaggCandidates = s.disaggCandidates ∧
      (action = .scheduled → s.budget.canFitTokens (generationTokens req) = true) := by
  unfold tryScheduleGeneration at out
  dsimp only at out
  split at out
  · cases out
    exact ⟨List.prefix_refl _, rfl, rfl, rfl, rfl, rfl, rfl, nofun⟩
  rename_i fits
  have fits : s.budget.canFitTokens (generationTokens req) = true := by simpa using fits
  split at out
  · cases out
    exact ⟨List.prefix_refl _, rfl, rfl, rfl, rfl, rfl, rfl, nofun⟩
  split at out
  · cases out
    exact ⟨List.prefix_refl _, rfl, rfl, rfl, rfl, rfl, rfl, fun _ => fits⟩
  split at out
  · rename_i before found
    cases out
    have part := sched.evict_rest req _ _ _ before found
    rw [← List.reverse_prefix, List.reverse_reverse] at part
    exact ⟨part, rfl, rfl, rfl, rfl, rfl, rfl, fun _ => fits⟩
  cases out
  unfold selfEvict
  split
  · exact ⟨List.prefix_refl _, rfl, rfl, rfl, rfl, rfl, rfl, nofun⟩
  · exact ⟨List.prefix_refl _, rfl, rfl, rfl, rfl, rfl, rfl, nofun⟩

theorem phase_one_stops (inflight : List Nat) (rounds : Nat) : ∀ (rest : List Request) (s : LoopState),
    rest.length ≤ rounds → sched.phaseOne inflight rounds rest s ≠ .running := by
  induction rounds with
  | zero =>
    intro rest s short
    rw [List.eq_nil_of_length_eq_zero (Nat.le_zero.mp short)]
    exact nofun
  | succ rounds ih =>
    intro rest s short
    cases rest with
    | nil => exact nofun
    | cons req tail =>
      have shorter : tail.length ≤ rounds := Nat.le_of_succ_le_succ short
      unfold phaseOne
      split
      · exact ih tail s shorter
      split
      · split
        · exact nofun
        split
        · exact nofun
        split
        · exact nofun
        · exact ih _ _ shorter
        · exact ih _ _ shorter
      · split
        · exact nofun
        split
        · exact ih tail s shorter
        split
        · exact ih _ _ shorter
        split
        · exact nofun
        split
        · exact nofun
        · rename_i tried left out
          exact ih _ _ (le_trans (sched.generation_fields s tried req tail left _ out).1.length_le shorter)
        · rename_i tried left out
          exact ih _ _ (le_trans (sched.generation_fields s tried req tail left _ out).1.length_le shorter)

theorem loop_stops (inflight : List Nat) (active : List Request) (world : World) :
    sched.scheduleLoop inflight active world ≠ .running := by
  unfold scheduleLoop
  split
  · exact nofun
  · rename_i running
    exact absurd running (sched.phase_one_stops inflight _ _ _ le_rfl)
  · split
    · exact nofun
    · split
      · exact nofun
      · exact nofun

inductive Admission (req : Request) (s : LoopState) : LoopState → Prop
  | passed : Admission req s s
  | encoder (tokens pages : Nat) (action : ScheduleAction) : s.budget.requestsFull = false → req.base.state = .encoderInit →
      sched.tryScheduleEncoder s.budget req = some (action, tokens) → action ≠ .stop →
      Admission req s
        { s with
          scheduledEncoder := s.scheduledEncoder ++ [req]
          budget := s.budget.commit req tokens pages }
  | contextTried (attempt : Attempt) : sched.tryScheduleContext s.world s.budget req = some attempt →
      Admission req s { s with world := attempt.world }
  | context (attempt : Attempt) (pages : Nat) : s.budget.requestsFull = false → req.base.state ≠ .encoderInit →
      sched.tryScheduleContext s.world s.budget req = some attempt → attempt.action = .scheduled →
      Admission req s
        { s with
          world := attempt.world
          hasChunking := s.hasChunking || attempt.chunking
          scheduledCtx := s.scheduledCtx ++ [attempt.req]
          budget := s.budget.commit attempt.req attempt.tokens pages }

variable {sched}

theorem admission_of_visit {req : Request} {s next : LoopState} {going : Bool} (done : sched.visit req s = some (next, going)) :
    sched.Admission req s next := by
  unfold visit at done
  split at done
  · cases done
    exact .passed
  rename_i room
  have room : s.budget.requestsFull = false := by simpa using room
  split at done
  · cases done
    exact .passed
  rename_i pages _
  split at done
  · rename_i encoding
    split at done
    · cases done
    · cases done
      exact .passed
    · rename_i action tokens going out
      cases done
      exact .encoder tokens pages action room encoding out going
  rename_i decoding
  split at done
  · cases done
  rename_i attempt tried
  dsimp only at done
  split at done
  · cases done
    exact .contextTried attempt tried
  · cases done
    exact .contextTried attempt tried
  · rename_i action
    cases done
    exact .context attempt pages room decoding tried action

-- The loop over the parked requests comes to a state, with these requests still to go.
inductive Visits (sched : KVCacheV2Scheduler) : List Request → LoopState → List Request → LoopState → Prop
  | here (rest : List Request) (s : LoopState) : Visits sched rest s rest s
  | later {req : Request} {rest left : List Request} {s next reached : LoopState} :
      sched.visit req s = some (next, true) → Visits sched rest next left reached →
      Visits sched (req :: rest) s left reached

section
variable {Inv : List Request → LoopState → Prop} {rest : List Request} {s final : LoopState}

theorem phase_two_invariant (done : sched.phaseTwo rest s = some final)
    (kept : ∀ req tail reached next, sched.Visits rest s (req :: tail) reached → Inv (req :: tail) reached →
      sched.Admission req reached next → Inv tail next) (holds : Inv rest s) : ∃ left, Inv left final := by
  induction rest generalizing s with
  | nil =>
    cases done
    exact ⟨[], holds⟩
  | cons req rest ih =>
    unfold phaseTwo at done
    split at done
    · cases done
    · rename_i next stopped
      obtain rfl : next = final := Option.some.inj done
      exact ⟨rest, kept req rest s next (.here _ s) holds (admission_of_visit stopped)⟩
    · rename_i next going
      exact ih done (fun other tail reached later visit => kept other tail reached later (.later going visit))
        (kept req rest s next (.here _ s) holds (admission_of_visit going))

end

end KVCacheV2Scheduler
end TrtLlm.Py
