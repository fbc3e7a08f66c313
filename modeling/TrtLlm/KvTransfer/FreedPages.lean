import TrtLlm.KvTransfer.Session

set_option autoImplicit false

namespace TrtLlm.KvTransfer
open List Sender
open Lib (Reachable)
variable {ranks : Nat} {s next : System} {t later : Sender}

-- The writes REQUEST_DATA can still lead to: in the inbox, waiting for the send or the worker, or under way.
def Sender.tokens (t : Sender) : Nat :=
  t.inbox.count .requestData + (if t.peerRequest ∧ t.kvTask = false ∧ t.session ≠ .closed then 1 else 0) + t.queued +
    if t.writing then 1 else 0

def Sender.Spent (t : Sender) : Prop := t.tokens = 0 ∨ t.failed = true ∧ t.writing = false

def Sender.Quiet (t : Sender) : Prop := t.tokens = 0 ∧ ∀ succeeded, .kvAgentResult succeeded ∉ t.outbox

-- Against the successes the receiver has counted: a rank makes one write at most, and is spent once it has sent a
-- result.
structure Sender.Tracked (counted : Nat) (t : Sender) : Prop where
  single : counted + t.outbox.count (.kvAgentResult true) + t.tokens ≤ 1
  reported : ∀ succeeded, .kvAgentResult succeeded ∈ t.outbox → t.Spent
  spent : 0 < counted → t.Spent

structure Keeps (t later : Sender) : Prop where
  quiet : t.Quiet → later.Quiet
  tracked : ∀ counted, t.Tracked counted → later.Tracked counted
  spent : t.Spent → later.Spent

theorem Sender.Spent.idle (spent : t.Spent) : t.writing = false := by
  rcases spent with none_left | ⟨_, idle⟩
  · cases busy : t.writing with
    | false => rfl
    | true => simp [tokens, busy] at none_left
  · exact idle

attribute [grind =] failed respondWithKv handleCancelSession cancel setupSession send
  beginDelivery endDelivery tokens Spent Quiet

theorem SenderStep.spent (step : SenderStep t later) (spent : t.Spent) : later.Spent := by
  cases step <;> grind

theorem SenderStep.keeps (step : SenderStep t later) : Keeps t later := by
  refine ⟨fun quiet => ?_, fun counted tracked => ?_, step.spent⟩
  · cases step <;> grind
  obtain ⟨single, reported, spent⟩ := tracked
  refine ⟨?_, fun succeeded sent => ?_, fun some_counted => step.spent (spent some_counted)⟩
  · cases step with
    | endDelivery out busy =>
      rcases out with _ | _ | _ <;> grind
    | _ => grind
  · by_cases old : .kvAgentResult succeeded ∈ t.outbox
    · exact step.spent (reported succeeded old)
    · cases step <;> grind

theorem keeps_pop {reply : Reply} {rest : List Reply} (arrived : t.outbox = reply :: rest) :
    Keeps t { t with outbox := rest } := by
  refine ⟨fun quiet => ⟨quiet.1, fun succeeded sent => quiet.2 succeeded (by simp [arrived, sent])⟩,
    fun counted tracked => ?_, id⟩
  refine ⟨?_, fun succeeded sent => tracked.reported succeeded (by simp [arrived, sent]), tracked.spent⟩
  have shorter := (sublist_cons_self reply rest).count_le (.kvAgentResult true)
  have bound := tracked.single
  rw [arrived] at bound
  exact Nat.le_trans (by simp only [tokens]; omega) bound

theorem keeps_update {senders : Nat → Sender} {rank : Nat} (kept : Keeps (senders rank) t) (other : Nat) :
    Keeps (senders other) (Function.update senders rank t other) := by
  by_cases same : other = rank
  · subst same
    simpa using kept
  · simpa [same] using (⟨id, fun _ => id, id⟩ : Keeps (senders other) (senders other))

theorem keeps_broadcast (senders : Nat → Sender) (rank : Nat) :
    Keeps (senders rank) (broadcast ranks .cancelSession senders rank) := by
  unfold broadcast
  split_ifs
  · refine ⟨by grind, fun counted tracked => ?_, by grind⟩
    obtain ⟨single, reported, spent⟩ := tracked
    exact ⟨by grind, by grind, by grind⟩
  · exact ⟨id, fun _ => id, id⟩

-- The session is found complete, or it will be dropped at the end of this check.
def Check.Final (check : Check) : Prop :=
  check = .voted .completed ∨ ∃ outcome, check = .decided outcome ∧ outcome.drops = true

structure Sound (ranks : Nat) (s : System) : Prop where
  fresh : s.session = .absent → s.counted = [] ∧ ∀ rank, (s.senders rank).Quiet
  tracked : ∀ rank, (s.senders rank).Tracked (s.counted.count rank)
  inside : ∀ rank ∈ s.counted, rank < ranks
  tally : s.kvTask.lastSliceCount = s.counted.length
  ended : s.session = .opened → s.kvTask.status ≠ .transferring → ∀ rank < ranks, (s.senders rank).Spent
  processing : ∀ outcome, s.check = .voted outcome → outcome ≠ .unprocessed → s.session = .opened
  settled : s.check.Final → s.session = .opened ∧ s.kvTask.status ≠ .transferring
  dropped : s.session = .closed → ∀ rank < ranks, (s.senders rank).Spent

variable (sound : Sound ranks s)

include sound

theorem Sound.change (senders : Nat → Sender) (kept : ∀ rank, Keeps (s.senders rank) (senders rank)) :
    Sound ranks { s with senders } :=
  { sound with
    fresh := fun absent => ⟨(sound.fresh absent).1, fun rank => (kept rank).quiet ((sound.fresh absent).2 rank)⟩
    tracked := fun rank => (kept rank).tracked _ (sound.tracked rank)
    ended := fun opened idle rank inside => (kept rank).spent (sound.ended opened idle rank inside)
    dropped := fun closed rank inside => (kept rank).spent (sound.dropped closed rank inside) }

theorem Sound.cancel : Sound ranks (s.cancel ranks) := by
  have asked := sound.change (broadcast ranks .cancelSession s.senders) (keeps_broadcast s.senders)
  unfold System.cancel
  split_ifs with before now
  · exact sound
  · exact { asked with
      ended := fun opened _ => asked.ended opened (by simp [now])
      settled := fun final => ⟨(asked.settled final).1, by simp⟩ }
  · exact { asked with }

theorem Sound.drop (opened : s.session = .opened) (idle : s.kvTask.status ≠ .transferring) :
    Sound ranks { s with session := .closed, check := .idle } :=
  { sound with
    fresh := nofun
    ended := nofun
    processing := nofun
    settled := by simp [Check.Final]
    dropped := fun _ => sound.ended opened idle }

theorem Sound.all_counted (full : s.counted.length = ranks) : ∀ rank < ranks, rank ∈ s.counted := by
  have once : s.counted.Nodup := nodup_iff_count_le_one.mpr fun rank => by
    have bound := (sound.tracked rank).single
    omega
  have within : s.counted ⊆ range ranks := fun rank mem => mem_range.mpr (sound.inside rank mem)
  have all := (once.subperm within).perm_of_length_le (by simp [full])
  exact fun rank inside => all.mem_iff.mpr (mem_range.mpr inside)

theorem Sound.count (rank : Nat) (inside : rank < ranks) (opened : s.session = .opened)
    (now : (s.senders rank).Tracked (s.counted.count rank + 1)) : Sound ranks (s.processKvAgentResult ranks rank true) := by
  have grown : Sound ranks
      { s with kvTask := ⟨s.kvTask.status, s.kvTask.lastSliceCount + 1⟩, counted := rank :: s.counted } := by
    refine { sound with
      fresh := fun absent => absurd (opened.symm.trans absent) nofun
      tracked := fun other => ?_
      inside := forall_mem_cons.mpr ⟨inside, sound.inside⟩
      tally := by simp [sound.tally] }
    by_cases same : rank = other
    · subst same
      simpa using now
    · simpa [same] using sound.tracked other
  refine { grown with
    ended := fun _ idle other within => ?_
    settled := fun final => ⟨opened, ?_⟩ }
  · by_cases full : s.kvTask.lastSliceCount + 1 = ranks
    · have mem := grown.all_counted (by simpa [sound.tally] using full) other within
      exact (grown.tracked other).spent (count_pos_iff.mpr mem)
    · exact sound.ended opened (by simpa [System.processKvAgentResult, full] using idle) other within
  · have idle := (sound.settled final).2
    by_cases full : s.kvTask.lastSliceCount + 1 = ranks <;> simp [System.processKvAgentResult, full, idle]

omit sound

-- With several context ranks no FAILED result reaches the session.
def LocalGuard (ranks : Nat) (s : System) : LocalAction → Prop
  | .result _ succeeded => s.session = .opened → succeeded = true ∨ ranks = 1
  | _ => True

-- No check drops a session for CANCELLED or FAILED whose task is still being transferred.
def Guard (gens ranks : Nat) (group : Group) : Action → Prop
  | .onRank gen action => LocalGuard ranks (group gen) action
  | .gather => ∀ gen < gens, ∀ outcome ∈ [Outcome.cancelled, .failed],
      consensusOutcome gens (fun other => vote (group other)) gen = outcome → (group gen).kvTask.status ≠ .transferring

theorem Sound.result (sound : Sound ranks s) (rank : Nat) (succeeded : Bool) (rest : List Reply) (inside : rank < ranks)
    (opened : s.session = .opened) (guard : succeeded = true ∨ ranks = 1)
    (arrived : (s.senders rank).outbox = .kvAgentResult succeeded :: rest) :
    Sound ranks ((s.pop rank rest).processKvAgentResult ranks rank succeeded) := by
  have kept := keeps_pop arrived
  have popped := sound.change _ (keeps_update kept)
  have before := sound.tracked rank
  have spent := kept.spent (before.reported succeeded (by simp [arrived]))
  cases succeeded with
  | true =>
    refine popped.count rank inside opened ?_
    simp only [Function.update_self]
    refine ⟨?_, fun _ _ => spent, fun _ => spent⟩
    have bound := before.single
    rw [arrived, count_cons_self] at bound
    exact Nat.le_trans (by simp only [tokens]; omega) bound
  | false =>
    have one : ranks = 1 := guard.resolve_left nofun
    refine { popped with
      ended := fun _ _ other within => ?_
      settled := fun _ => ⟨opened, by simp [System.processKvAgentResult]⟩ }
    obtain rfl : other = rank := by omega
    simpa [System.processKvAgentResult, System.pop] using spent

theorem Sound.receive (sound : Sound ranks s) (fresh : s.session = .absent) (idle : s.check = .idle) :
    Sound ranks (s.receive ranks) := by
  obtain ⟨none_counted, quiet⟩ := sound.fresh fresh
  refine ⟨nofun, fun rank => ?_, ?_, ?_, fun _ idle => absurd rfl idle, ?_, ?_, nofun⟩
  · obtain ⟨silent, unsent⟩ := quiet rank
    have gone := count_eq_zero.mpr (unsent true)
    simp only [System.receive, none_counted, count_nil, broadcast]
    split_ifs
    · refine ⟨?_, fun succeeded sent => absurd sent (unsent succeeded), nofun⟩
      simp only [tokens, count_append, count_singleton, beq_self_eq_true, if_true] at silent ⊢
      omega
    · exact ⟨by omega, fun succeeded sent => absurd sent (unsent succeeded), nofun⟩
  · simp [System.receive, none_counted]
  · simp [System.receive, none_counted]
  · simp [System.receive, idle]
  · simp [System.receive, idle, Check.Final]

theorem Sound.vote (sound : Sound ranks s) {outcome : Outcome}
    (opened : outcome ≠ .unprocessed → s.session = .opened)
    (complete : outcome = .completed → s.kvTask.status = .transferred) :
    Sound ranks { s with check := .voted outcome } :=
  { sound with
    processing := fun _ same processed => by
      cases same
      exact opened processed
    settled := fun final => by
      have all : outcome = .completed := by simpa [Check.Final] using final
      exact ⟨opened (by simp [all]), by simp [complete all]⟩ }

theorem outcome_completed {timedOut : Bool} (done : s.outcome timedOut = .completed) : s.kvTask.status = .transferred := by
  unfold System.outcome System.waitComplete at done
  cases state : s.kvTask.status <;> rw [state] at done <;> grind

theorem Sound.cancel_request (sound : Sound ranks s) (opened : s.session = .opened) (idle : s.check = .idle) :
    Sound ranks (s.cancelRequest ranks) := by
  have still : (s.cancel ranks).session = .opened ∧ (s.cancel ranks).check = .idle := by
    unfold System.cancel
    split_ifs <;> exact ⟨opened, idle⟩
  unfold System.cancelRequest
  split_ifs with busy
  · exact sound.cancel
  · have dropped := sound.cancel.drop still.1 (by simpa [System.hasTransferringTasks] using busy)
    rw [← still.2] at dropped
    exact dropped

theorem Sound.step {action : LocalAction} (sound : Sound ranks s) (guard : LocalGuard ranks s action)
    (step : LocalStep ranks s action next) : Sound ranks next := by
  cases step with
  | receive fresh idle => exact sound.receive fresh idle
  | result rank succeeded rest inside arrived =>
    split_ifs with opened
    · exact sound.result rank succeeded rest inside opened (guard opened) arrived
    · exact sound.change _ (keeps_update (keeps_pop arrived))
  | remoteCancel rank rest inside arrived =>
    have popped : Sound ranks (s.pop rank rest) := sound.change _ (keeps_update (keeps_pop arrived))
    split_ifs
    · exact popped.cancel
    · exact popped
  | cancelRequest opened idle => exact sound.cancel_request opened idle
  | process timedOut opened => exact sound.vote (fun _ => opened) outcome_completed
  | pass => exact sound.vote (absurd rfl) nofun
  | finish outcome decided =>
    unfold System.applyOutcome
    split_ifs with drops
    · obtain ⟨opened, idle⟩ := sound.settled (.inr ⟨outcome, decided, drops⟩)
      exact sound.drop opened idle
    · exact { sound with processing := nofun, settled := by simp [Check.Final] }
  | sender rank t inside step => exact sound.change _ (keeps_update step.keeps)

theorem consensus_drops {gens gen : Nat} {votes : Nat → Outcome} (inside : gen < gens)
    (drops : (consensusOutcome gens votes gen).drops = true) : votes gen ≠ .unprocessed ∧
      (votes gen = .completed ∨ consensusOutcome gens votes gen ∈ [Outcome.cancelled, .failed]) := by
  unfold consensusOutcome at drops ⊢
  split_ifs at drops ⊢ with absent cancelled failed completed
  · cases drops
  · exact ⟨absent, .inr (by simp)⟩
  · exact ⟨absent, .inr (by simp)⟩
  · exact ⟨absent, .inl (completed gen inside)⟩
  · cases drops

variable {gens : Nat} {group after : Group}

theorem sound_gather (sound : ∀ gen < gens, Sound ranks (group gen)) (guard : Guard gens ranks group .gather)
    (ready : ∀ gen < gens, ∃ outcome, (group gen).check = .voted outcome) :
    ∀ gen < gens, Sound ranks (genConsensusOutcome gens group gen) := by
  intro gen inside
  rw [genConsensusOutcome, if_pos inside]
  obtain ⟨outcome, voted⟩ := ready gen inside
  have own : vote (group gen) = outcome := by rw [vote, voted]
  refine { sound gen inside with processing := nofun, settled := fun final => ?_ }
  have drops : (consensusOutcome gens (fun other => vote (group other)) gen).drops = true := by simpa [Check.Final] using final
  obtain ⟨processed, complete | forced⟩ := consensus_drops inside drops
  · exact (sound gen inside).settled (.inl (by rw [voted, ← own, complete]))
  · exact ⟨(sound gen inside).processing outcome voted (own ▸ processed), guard gen inside _ forced rfl⟩

theorem sound_step {action : Action} (sound : ∀ gen < gens, Sound ranks (group gen)) (guard : Guard gens ranks group action)
    (step : Step gens ranks group action after) : ∀ gen < gens, Sound ranks (after gen) := by
  cases step with
  | onRank gen inside step =>
    intro other known
    by_cases same : other = gen
    · subst same
      simpa using (sound other known).step guard step
    · simpa [same] using sound other known
  | gather ready => exact sound_gather sound guard ready

theorem sound_start : Sound ranks {} := by
  constructor
  case tracked => exact fun rank => ⟨by simp [tokens], nofun, nofun⟩
  all_goals simp [Quiet, tokens, Check.Final]

structure Freed (ranks : Nat) (s : System) : Prop where
  closed : s.session = .closed
  spent : ∀ rank < ranks, (s.senders rank).Spent

theorem Freed.step {action : LocalAction} (freed : Freed ranks s) (step : LocalStep ranks s action next) : Freed ranks next := by
  have frame : ∀ {rank t}, Keeps (s.senders rank) t → ∀ other < ranks, (Function.update s.senders rank t other).Spent :=
    fun kept other inside => (keeps_update kept other).spent (freed.spent other inside)
  cases step with
  | receive fresh => exact absurd (freed.closed.symm.trans fresh) nofun
  | result rank succeeded rest inside arrived | remoteCancel rank rest inside arrived =>
    rw [if_neg (by simp [freed.closed])]
    exact { freed with spent := frame (keeps_pop arrived) }
  | cancelRequest opened | process timedOut opened => exact absurd (freed.closed.symm.trans opened) nofun
  | pass => exact { freed with }
  | finish outcome =>
    unfold System.applyOutcome
    split_ifs
    · exact { freed with closed := rfl }
    · exact { freed with }
  | sender rank t inside step => exact { freed with spent := frame step.keeps }

theorem Freed.stays {action : Action} {gen : Nat} (freed : Freed ranks (group gen)) (step : Step gens ranks group action after) :
    Freed ranks (after gen) := by
  cases step with
  | onRank other inside step =>
    by_cases same : gen = other
    · subst same
      simpa using freed.step step
    · simpa [same] using freed
  | gather ready =>
    rw [genConsensusOutcome]
    split_ifs
    · exact { freed with }
    · exact freed

def GuardedStep (gens ranks : Nat) (group : Group) (action : Action) (after : Group) : Prop :=
  Guard gens ranks group action ∧ Step gens ranks group action after

theorem freed_pages_unwritten (gens ranks : Nat) (group : Group)
    (reached : Reachable (GuardedStep gens ranks) (fun _ => {}) group) (gen : Nat) (inside : gen < gens)
    (freed : (group gen).session = .closed) (later : Group) (onward : Reachable (Step gens ranks) group later) :
    ∀ rank < ranks, ((later gen).senders rank).writing = false := by
  have sound := Lib.reachable_invariant (fun group : Group => ∀ gen < gens, Sound ranks (group gen))
    (fun _ _ _ sound step => sound_step sound step.1 step.2) _ group reached (fun _ _ => sound_start) gen inside
  have spent := Lib.reachable_invariant (fun group : Group => Freed ranks (group gen)) (fun _ _ _ freed step => freed.stays step)
    group later onward ⟨freed, sound.dropped freed⟩
  exact fun rank known => (spent.spent rank known).idle

theorem unguarded (reached : Reachable (GuardedStep gens ranks) (fun _ => {}) group) :
    Reachable (Step gens ranks) (fun _ => {}) group :=
  Lib.reachable_invariant _ (fun _ _ _ before step => before.step step.2) _ group reached .refl

section Runs
variable {gen rank : Nat} (known : gen < gens)

include known

theorem local_step {action : LocalAction} (step : LocalStep ranks s action next) :
    Step gens ranks (Function.update group gen s) (.onRank gen action) (Function.update group gen next) := by
  have onward : Step gens ranks (Function.update group gen s) (.onRank gen action)
      (Function.update (Function.update group gen s) gen next) := .onRank gen known (by simpa using step)
  simpa using onward

theorem local_reached {action : LocalAction} (step : LocalStep ranks s action next) (guard : LocalGuard ranks s action)
    (reached : Reachable (GuardedStep gens ranks) (fun _ => {}) (Function.update group gen s)) :
    Reachable (GuardedStep gens ranks) (fun _ => {}) (Function.update group gen next) := by
  have moved : GuardedStep gens ranks (Function.update group gen s) (.onRank gen action) (Function.update group gen next) :=
    ⟨by simpa [Guard] using guard, local_step known step⟩
  exact reached.step moved

theorem writing_reached (inside : rank < ranks) (start : s.senders rank = { inbox := [.requestData] })
    (reached : Reachable (GuardedStep gens ranks) (fun _ => {}) (Function.update group gen s)) :
    Reachable (GuardedStep gens ranks) (fun _ => {}) (Function.update group gen { s with
      senders := Function.update s.senders rank
        ({ session := .opened, peerRequest := true, kvTask := true, writing := true } : Sender) }) := by
  have opened := local_reached known (.sender rank { inbox := [.requestData], session := .opened } inside
    (start ▸ SenderStep.setupSession rfl)) trivial reached
  have asked := local_reached known (.sender rank { session := .opened, peerRequest := true } inside
    (by simp only [Function.update_self]; exact .requestData [] rfl (by decide))) trivial opened
  have queued := local_reached known (.sender rank { session := .opened, peerRequest := true, kvTask := true, queued := 1 } inside
    (by simp only [Function.update_self]; exact .send rfl rfl)) trivial asked
  have busy := local_reached known (.sender rank { session := .opened, peerRequest := true, kvTask := true, writing := true } inside
    (by simp only [Function.update_self]; exact .deliver 0 rfl rfl (by decide))) trivial queued
  simpa using busy

theorem asked_reached (fresh : group gen = {}) (reached : Reachable (GuardedStep gens ranks) (fun _ => {}) group) :
    Reachable (GuardedStep gens ranks) (fun _ => {}) (Function.update group gen (System.receive ranks {})) := by
  have same := Function.update_eq_self gen group
  rw [fresh] at same
  rw [← same] at reached
  exact local_reached known (.receive rfl rfl) trivial reached

end Runs

-- The one context rank has sent its result, and the next check has voted on it.
def answered (succeeded : Bool) : System where
  senders := Function.update (System.receive 1 {}).senders 0 { session := .opened, peerRequest := true, kvTask := true }
  session := .opened
  terminalStatus := if succeeded then none else some .error
  kvTask := if succeeded then ⟨.transferred, 1⟩ else ⟨.error, 0⟩
  check := .voted (if succeeded then .completed else .failed)
  counted := if succeeded then [0] else []

theorem answered_reached {gen : Nat} (known : gen < gens) (succeeded : Bool) (fresh : group gen = {})
    (reached : Reachable (GuardedStep gens 1) (fun _ => {}) group) :
    Reachable (GuardedStep gens 1) (fun _ => {}) (Function.update group gen (answered succeeded)) := by
  have busy := writing_reached known (show 0 < 1 by decide) rfl (asked_reached known fresh reached)
  have told := local_reached known (.sender 0 _ (by decide) (.endDelivery (some succeeded) rfl)) trivial busy
  have counted := local_reached known (.result 0 succeeded [] (by decide) rfl) (fun _ => .inr rfl) told
  have voted := local_reached known (.process false (by cases succeeded <;> rfl) (by cases succeeded <;> rfl)) trivial counted
  cases succeeded <;> simpa [answered, endDelivery, System.pop, System.processKvAgentResult, System.receive, System.outcome,
    System.status, System.waitComplete] using voted

-- The group of two ranks.
def pair (s t : System) : Group := Function.update (Function.update (fun _ => {}) 0 s) 1 t

theorem gather_pair (t : System) (outcome : Outcome) {first second : Outcome} (one : s.check = .voted first)
    (two : t.check = .voted second) (agreed : ∀ gen < 2, consensusOutcome 2 (fun other => vote (pair s t other)) gen = outcome) :
    Step 2 ranks (pair s t) .gather (pair { s with check := .decided outcome } { t with check := .decided outcome }) := by
  have gathered : Step 2 ranks (pair s t) .gather (genConsensusOutcome 2 (pair s t)) := by
    refine .gather fun gen inside => ?_
    interval_cases gen
    · exact ⟨first, one⟩
    · exact ⟨second, two⟩
  have same : genConsensusOutcome 2 (pair s t) =
      pair { s with check := .decided outcome } { t with check := .decided outcome } := by
    funext gen
    match gen with
    | 0 => rw [genConsensusOutcome, if_pos (by decide), agreed 0 (by decide)]; rfl
    | 1 => rw [genConsensusOutcome, if_pos (by decide), agreed 1 (by decide)]; rfl
    | gen + 2 => simp [genConsensusOutcome, pair]
  exact same ▸ gathered

theorem gather_alone {outcome : Outcome} (voted : s.check = .voted outcome) :
    Step 1 ranks (Function.update (fun _ => {}) 0 s) .gather
      (Function.update (fun _ => {}) 0 { s with check := .decided outcome }) := by
  have gathered : Step 1 ranks (Function.update (fun _ => {}) 0 s) .gather
      (genConsensusOutcome 1 (Function.update (fun _ => {}) 0 s)) := by
    refine .gather fun gen inside => ⟨outcome, ?_⟩
    interval_cases gen
    exact voted
  have same : genConsensusOutcome 1 (Function.update (fun _ => {}) 0 s) =
      Function.update (fun _ => {}) 0 { s with check := .decided outcome } := by
    funext gen
    match gen with
    | 0 =>
      cases outcome <;> simp [genConsensusOutcome, consensusOutcome, vote, voted]
    | gen + 1 => simp [genConsensusOutcome]
  exact same ▸ gathered

theorem answered_request_unwritten : ∃ group : Group, (∀ gen < 2, (group gen).session = .closed) ∧
    ∀ later, Reachable (Step 2 1) group later → ∀ gen < 2, ∀ rank < 1, ((later gen).senders rank).writing = false := by
  have first := answered_reached (show 0 < 2 by decide) true rfl .refl
  have second : Reachable (GuardedStep 2 1) (fun _ => {}) (pair (answered true) (answered true)) :=
    answered_reached (show 1 < 2 by decide) true rfl first
  have idle : Guard 2 1 (pair (answered true) (answered true)) .gather := fun gen inside _ _ _ => by
    interval_cases gen <;> exact nofun
  have decided := second.step ⟨idle, gather_pair _ .completed rfl rfl (by decide)⟩
  have one := local_reached (show 1 < 2 by decide) (.finish .completed rfl) trivial decided
  rw [Function.update_comm (show (0 : Nat) ≠ 1 by decide)] at one
  have two := local_reached (show 0 < 2 by decide) (.finish .completed rfl) trivial one
  refine ⟨_, fun gen inside => ?_, fun later onward gen inside => freed_pages_unwritten 2 1 _ two gen inside ?_ later onward⟩
  · interval_cases gen <;> rfl
  · interval_cases gen <;> rfl

-- With two context ranks a failed write sets the shared status, and cancel_request drops the session under the
-- other's write. With one, the next check drops a cancelled session under the write, as does a blocking check that
-- times out. With two generation ranks the failure of one drops the other's session.
theorem pages_freed_under_write :
    (∃ group, Reachable (Step 1 2) (fun _ => {}) group ∧ (group 0).session = .closed ∧ (group 0).kvTask.status = .error ∧
      ((group 0).senders 0).writing = true) ∧
    (∃ group, Reachable (Step 1 1) (fun _ => {}) group ∧ (group 0).session = .closed ∧ (group 0).terminalStatus = some .cancelled ∧
      ((group 0).senders 0).writing = true) ∧
    (∃ group, Reachable (Step 1 1) (fun _ => {}) group ∧ (group 0).session = .closed ∧ (group 0).terminalStatus = none ∧
      ((group 0).senders 0).writing = true) ∧
    ∃ group, Reachable (Step 2 1) (fun _ => {}) group ∧ (group 0).session = .closed ∧ (group 0).terminalStatus = none ∧
      (group 1).terminalStatus = some .error ∧ ((group 0).senders 0).writing = true := by
  have busy : ∀ gens, 0 < gens → Reachable (GuardedStep gens 1) (fun _ => {}) _ :=
    fun gens known => writing_reached known (show 0 < 1 by decide) rfl (asked_reached known rfl .refl)
  refine ⟨?shared, ?cancelled, ?timeout, ?other⟩
  case shared =>
    have first := writing_reached (show 0 < 1 by decide) (show 0 < 2 by decide) rfl (asked_reached (by decide) rfl .refl)
    have second := writing_reached (show 0 < 1 by decide) (show 1 < 2 by decide) rfl first
    have told := local_reached (show 0 < 1 by decide) (.sender 1 _ (by decide) (.endDelivery (some false) rfl)) trivial second
    have failed := (unguarded told).step (local_step (show 0 < 1 by decide) (.result 1 false [] (by decide) rfl))
    have dropped := failed.step (local_step (show 0 < 1 by decide) (.cancelRequest rfl rfl))
    exact ⟨_, dropped, rfl, rfl, rfl⟩
  case cancelled =>
    have cancelled := local_reached (show 0 < 1 by decide) (.cancelRequest rfl rfl) trivial (busy 1 (by decide))
    have voted := local_reached (show 0 < 1 by decide) (.process false rfl rfl) trivial cancelled
    have decided := (unguarded voted).step (gather_alone rfl)
    exact ⟨_, decided.step (local_step (show 0 < 1 by decide) (.finish .cancelled rfl)), rfl, rfl, rfl⟩
  case timeout =>
    have voted := local_reached (show 0 < 1 by decide) (.process true rfl rfl) trivial (busy 1 (by decide))
    have decided := (unguarded voted).step (gather_alone rfl)
    exact ⟨_, decided.step (local_step (show 0 < 1 by decide) (.finish .failed rfl)), rfl, rfl, rfl⟩
  case other =>
    have voted := local_reached (show 0 < 2 by decide) (.process false rfl rfl) trivial (busy 2 (by decide))
    have both := answered_reached (show 1 < 2 by decide) false rfl voted
    have decided := (unguarded both).step (gather_pair _ .failed rfl rfl (by decide))
    rw [pair, Function.update_comm (show (0 : Nat) ≠ 1 by decide)] at decided
    exact ⟨_, decided.step (local_step (show 0 < 2 by decide) (.finish .failed rfl)), rfl, rfl, rfl, rfl⟩

end TrtLlm.KvTransfer
