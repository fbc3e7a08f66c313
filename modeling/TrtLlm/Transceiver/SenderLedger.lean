import TrtLlm.Transceiver.SenderBooks

set_option autoImplicit false

namespace TrtLlm.Transceiver
open List
open Lib (Table Trace AllSteps Reachable trace_invariant)

variable {counterparts : RequestId → Nat} {isAgent : Bool}

def Sender.Blocked (s : Sender) : Prop := s.pc = .topWait ∧ s.anyReady = false ∧ s.terminate = false

theorem FlagSound.awake {s : Sender} (sound : FlagSound s) (blocked : s.Blocked) (returned : s.inserting = []) :
    s.readyResponses = [] := by
  by_contra held
  rcases sound.unflagged held with ⟨set, _⟩ | running
  · rw [blocked.2.1] at set
    cases set
  · exact running returned

theorem sender_sound (run : List (Action × Sender)) (trace : Trace (Step counterparts isAgent) {} run)
    (guarded : AllSteps FlagGuard {} run) : ∀ entry ∈ run, FlagSound entry.2 ∧ Booked counterparts entry.2 := by
  apply trace_invariant FlagGuard (fun s => FlagSound s ∧ Booked counterparts s) _ {} run trace guarded
  · exact ⟨flag_sound_start, booked_start⟩
  · intro s action next sound guard step
    exact ⟨sound.1.step guard step, sound.2.step sound.1 step⟩

theorem response_thread_awake (counterparts : RequestId → Nat) (isAgent : Bool) (run : List (Action × Sender))
    (trace : Trace (Step counterparts isAgent) {} run) (guarded : AllSteps FlagGuard {} run) :
    ∀ entry ∈ run, entry.2.pc ≠ .died ∧ (entry.2.pc = .left → entry.2.terminate = true) ∧
      (entry.2.Blocked → entry.2.inserting = [] → entry.2.readyResponses = []) := by
  intro entry mem
  obtain ⟨flags, booked⟩ := sender_sound run trace guarded entry mem
  refine ⟨?_, flags.leaving, flags.awake⟩
  intro dead
  have place := booked.place
  simp [Sender.PlaceSound, dead] at place

theorem Step.control {s : Sender} (pc : Pc) (moved : s.control = some pc) : Step counterparts isAgent s .response { s with pc } :=
  .response _ (.control pc moved)

theorem lone_request_awake : ∃ run : List (Action × Sender), Trace (Step (fun _ => 1) false) {} run ∧
    AllSteps FlagGuard {} run ∧ (∃ last ∈ run.getLast?, last.2.Blocked ∧ last.2.begun = [0] ∧ last.2.inserting = []) ∧
    ∀ entry ∈ run, entry.2.pc ≠ .died ∧ (entry.2.pc = .left → entry.2.terminate = true) ∧
      (entry.2.Blocked → entry.2.inserting = [] → entry.2.readyResponses = []) := by
  have trace : ∃ run : List (Action × Sender), Trace (Step (fun _ => 1) false) {} run ∧ AllSteps FlagGuard {} run ∧
      ∃ last ∈ run.getLast?, last.2.Blocked ∧ last.2.begun = [0] ∧ last.2.inserting = [] := by
    refine ⟨_, .cons (.insert 0 (by simp)) <| .cons (.flag 0 (by simp)) <| .cons (.arrive 0 0 (by decide) (by simp)) <|
      .cons (.control .readyTest rfl) <| .cons (.control .terminateTest rfl) <|
      .cons (.control .emptyTest rfl) <| .cons (.control .receive rfl) <|
      .cons (.response _ (.receive 0 0 [] rfl rfl)) <| .cons (.control (.setCurrent 0) rfl) <|
      .cons (.response _ (.setCurrent 0 rfl)) <| .cons (.response _ (.countInit 0 rfl rfl (by simp [addPeer, Table.find]))) <|
      .cons (.control .respond rfl) <| .cons (.response _ (.respondLast 0 rfl rfl rfl)) <|
      .cons (.control (.signal 0 true) rfl) <|
      .cons (.response _ (.signal 0 true rfl ⟨[0], rfl, by simp⟩)) <| .cons (.response _ (.handOver 0 rfl rfl)) <|
      .cons (.response _ (.removeResponse 0 rfl)) <| .cons (.control .clearReady rfl) <|
      .cons (.response _ (.clearReady rfl)) <| .cons (.response _ (.reset rfl)) <|
      .cons (.control .readyTest rfl) <| .cons (.control .topWait rfl) <| .nil _, ?_, _, rfl, ⟨rfl, rfl, rfl⟩, rfl, rfl⟩
    simp [AllSteps, FlagGuard]
  obtain ⟨run, traced, guarded, asleep⟩ := trace
  exact ⟨run, traced, guarded, asleep, response_thread_awake (fun _ => 1) false run traced guarded⟩

-- A sendAsync call between the test of the map and the clearing of the flag is forgotten: the thread sleeps.
theorem forgotten_response : ∃ s : Sender, Reachable (Step (fun _ => 1) false) {} s ∧ s.Blocked ∧ s.inserting = [] ∧
    s.readyResponses = [1] := by
  refine ⟨_, Reachable.refl
    |>.step (.insert 0 (by simp)) |>.step (.flag 0 (by simp)) |>.step (.arrive 0 0 (by decide) (by simp))
    |>.step (.control .readyTest rfl) |>.step (.control .terminateTest rfl)
    |>.step (.control .emptyTest rfl) |>.step (.control .receive rfl)
    |>.step (.response _ (.receive 0 0 [] rfl rfl)) |>.step (.control (.setCurrent 0) rfl)
    |>.step (.response _ (.setCurrent 0 rfl)) |>.step (.response _ (.countInit 0 rfl rfl (by simp [addPeer, Table.find])))
    |>.step (.control .respond rfl) |>.step (.response _ (.respondLast 0 rfl rfl rfl))
    |>.step (.control (.signal 0 true) rfl) |>.step (.response _ (.signal 0 true rfl ⟨[0], rfl, by simp⟩))
    |>.step (.response _ (.handOver 0 rfl rfl)) |>.step (.response _ (.removeResponse 0 rfl))
    |>.step (.control .clearReady rfl)
    |>.step (.insert 1 (by simp)) |>.step (.flag 1 (by simp))
    |>.step (.response _ (.clearReady rfl)) |>.step (.response _ (.reset rfl))
    |>.step (.control .readyTest rfl) |>.step (.control .topWait rfl), ⟨rfl, rfl, rfl⟩, rfl, rfl⟩

def Pc.stages : Pc → List (RequestId × JobStage)
  | .handOver id => [(id, .sending)]
  | .job id stage => [(id, stage)]
  | _ => []

def Sender.stages (s : Sender) : List (RequestId × JobStage) :=
  s.sendQueue.map (fun id => (id, JobStage.sending)) ++ s.jobs ++ s.pc.stages

def Pc.dropping : Pc → Option RequestId
  | .removeCancelled id => some id
  | .resolveCancelled id => some id
  | _ => none

structure Ledger (signals : List (RequestId × Bool)) (stages : List (RequestId × JobStage)) (sent : List (RequestId × Bool))
    (released : List RequestId) (resolved : List (RequestId × Bool)) (dropping : Option RequestId) : Prop where
  signalOnce : (signals.map Prod.fst).Nodup
  sentOnce : (sent.map Prod.fst).Nodup
  resolvedOnce : (resolved.map Prod.fst).Nodup
  stageOnce : (stages.map Prod.fst).Nodup
  staged : ∀ id stage, (id, stage) ∈ stages → (id, true) ∈ signals ∧ id ∉ resolved.map Prod.fst ∧
    (stage = .sending → id ∉ sent.map Prod.fst) ∧ (stage ≠ .sending → (id, true) ∈ sent) ∧ (id ∈ released ↔ stage = .resolving)
  finished : ∀ id, (id, true) ∈ signals → id ∉ stages.map Prod.fst →
    ∃ success, (id, success) ∈ resolved ∧ (id, success) ∈ sent ∧ (id ∈ released ↔ success = true)
  dropped : ∀ id, (id, false) ∈ signals → id ∉ sent.map Prod.fst ∧ id ∉ released ∧
    (dropping = some id ∧ id ∉ resolved.map Prod.fst ∨ (id, false) ∈ resolved)
  drops : ∀ id, dropping = some id → (id, false) ∈ signals ∧ id ∉ resolved.map Prod.fst
  known : ∀ id, id ∈ sent.map Prod.fst ∨ id ∈ resolved.map Prod.fst ∨ id ∈ released → id ∈ signals.map Prod.fst

variable {signals sent resolved : List (RequestId × Bool)} {stages rest : List (RequestId × JobStage)}
  {released : List RequestId} {dropping : Option RequestId} {id : RequestId}

theorem unique_value (once : (signals.map Prod.fst).Nodup) {left right : Bool} (first : (id, left) ∈ signals)
    (second : (id, right) ∈ signals) : left = right := by
  have same := inj_on_of_nodup_map once first second rfl
  exact congrArg Prod.snd same

theorem Ledger.perm {others : List (RequestId × JobStage)} (ledger : Ledger signals stages sent released resolved dropping)
    (same : others.Perm stages) : Ledger signals others sent released resolved dropping :=
  { ledger with
    stageOnce := (same.map _).nodup_iff.mpr ledger.stageOnce
    staged := fun id stage mem => ledger.staged id stage (same.mem_iff.mp mem)
    finished := fun id mem absent => ledger.finished id mem fun listed => absent ((same.map _).mem_iff.mpr listed) }

theorem mem_push (entries : List (RequestId × Bool)) (id other : RequestId) (val : Bool) :
    other ∈ (entries ++ [(id, val)]).map Prod.fst ↔ other ∈ entries.map Prod.fst ∨ other = id := by
  simp

theorem nodup_push {Value : Type} {entries : List (RequestId × Value)} (val : Value) (once : (entries.map Prod.fst).Nodup)
    (absent : id ∉ entries.map Prod.fst) : ((entries ++ [(id, val)]).map Prod.fst).Nodup := by
  rw [map_append, nodup_append]
  refine ⟨once, by simp, ?_⟩
  intro left listed right single same
  simp only [map_cons, map_nil, mem_singleton] at single
  exact absent (single ▸ same ▸ listed)

theorem Ledger.signal (ledger : Ledger signals stages sent released resolved none) (fresh : id ∉ signals.map Prod.fst) (isReady : Bool) :
    Ledger (signals ++ [(id, isReady)]) (stages ++ if isReady then [(id, .sending)] else []) sent released resolved
      (if isReady then none else some id) := by
  have unsent : id ∉ sent.map Prod.fst := fun mem => fresh (ledger.known id (.inl mem))
  have unresolved : id ∉ resolved.map Prod.fst := fun mem => fresh (ledger.known id (.inr (.inl mem)))
  have unreleased : id ∉ released := fun mem => fresh (ledger.known id (.inr (.inr mem)))
  have unstaged : id ∉ stages.map Prod.fst := by
    intro mem
    obtain ⟨⟨other, stage⟩, listed, rfl⟩ := mem_map.mp mem
    exact fresh (mem_map.mpr ⟨_, (ledger.staged other stage listed).1, rfl⟩)
  have signalOnce := nodup_push isReady ledger.signalOnce fresh
  have known : ∀ other, other ∈ sent.map Prod.fst ∨ other ∈ resolved.map Prod.fst ∨ other ∈ released →
      other ∈ (signals ++ [(id, isReady)]).map Prod.fst :=
    fun other met => (mem_push ..).mpr (.inl (ledger.known other met))
  refine ⟨signalOnce, ledger.sentOnce, ledger.resolvedOnce, ?_, ?_, ?_, ?_, ?_, known⟩
  · cases isReady with
    | true => exact nodup_push .sending ledger.stageOnce unstaged
    | false => simpa using ledger.stageOnce
  · intro other stage mem
    rcases mem_append.mp mem with old | new
    · obtain ⟨signalled, others⟩ := ledger.staged other stage old
      exact ⟨mem_append_left _ signalled, others⟩
    · obtain ⟨rfl, rfl, rfl⟩ : isReady = true ∧ other = id ∧ stage = .sending := by simpa using new
      exact ⟨by simp, unresolved, fun _ => unsent, fun never => absurd rfl never, by simp [unreleased]⟩
  · intro other signalled absent
    rcases mem_append.mp signalled with old | new
    · refine ledger.finished other old fun listed => absent ?_
      rw [map_append]
      exact mem_append_left _ listed
    · obtain ⟨rfl, rfl⟩ : other = id ∧ true = isReady := by simpa using new
      exact absurd (by simp) absent
  · intro other refused
    rcases mem_append.mp refused with old | new
    · obtain ⟨quiet, kept, ending⟩ := ledger.dropped other old
      exact ⟨quiet, kept, .inr (by simpa using ending)⟩
    · obtain ⟨rfl, rfl⟩ : other = id ∧ false = isReady := by simpa using new
      exact ⟨unsent, unreleased, .inl ⟨rfl, unresolved⟩⟩
  · intro other same
    obtain ⟨rfl, rfl⟩ : isReady = false ∧ id = other := by simpa using same
    exact ⟨by simp, unresolved⟩

theorem Ledger.drop (ledger : Ledger signals stages sent released resolved (some id)) :
    Ledger signals stages sent released (resolved ++ [(id, false)]) none := by
  obtain ⟨refused, unresolved⟩ := ledger.drops id rfl
  refine { ledger with
    resolvedOnce := nodup_push false ledger.resolvedOnce unresolved
    staged := ?_, finished := ?_, dropped := ?_, drops := nofun, known := ?_ }
  · intro other stage mem
    obtain ⟨signalled, open_, others⟩ := ledger.staged other stage mem
    refine ⟨signalled, ?_, others⟩
    rw [mem_push, not_or]
    refine ⟨open_, fun same => ?_⟩
    subst same
    exact absurd (unique_value ledger.signalOnce signalled refused) (by simp)
  · intro other signalled absent
    obtain ⟨success, ended, rest⟩ := ledger.finished other signalled absent
    exact ⟨success, mem_append_left _ ended, rest⟩
  · intro other turned
    obtain ⟨quiet, kept, ending⟩ := ledger.dropped other turned
    refine ⟨quiet, kept, .inr ?_⟩
    rcases ending with ⟨same, _⟩ | ended
    · rw [Option.some.inj same]
      simp
    · exact mem_append_left _ ended
  · intro other met
    by_cases same : other = id
    · exact same ▸ mem_map.mpr ⟨_, refused, rfl⟩
    · exact ledger.known other (by simpa [same] using met)

section Jobs
variable {stage : JobStage}

section
variable (ledger : Ledger signals ((id, stage) :: rest) sent released resolved dropping) {other : RequestId}

include ledger

theorem Ledger.others_apart {part : JobStage} (mem : (other, part) ∈ rest) : other ≠ id := by
  have once := ledger.stageOnce
  rw [map_cons, nodup_cons] at once
  rintro rfl
  exact once.1 (mem_map.mpr ⟨_, mem, rfl⟩)

theorem Ledger.refused_apart (refused : (other, false) ∈ signals) : other ≠ id := by
  rintro rfl
  have signalled := (ledger.staged other stage mem_cons_self).1
  exact absurd (unique_value ledger.signalOnce refused signalled) (by simp)

end

-- A job changes the books of its own request only.
theorem Ledger.touch {later : Option JobStage} {sent' resolved' : List (RequestId × Bool)} {released' : List RequestId}
    (ledger : Ledger signals ((id, stage) :: rest) sent released resolved dropping)
    (sentOnce : (sent'.map Prod.fst).Nodup) (resolvedOnce : (resolved'.map Prod.fst).Nodup)
    (others : ∀ other, other ≠ id → (∀ val, (other, val) ∈ sent' ↔ (other, val) ∈ sent) ∧
      (∀ val, (other, val) ∈ resolved' ↔ (other, val) ∈ resolved) ∧ (other ∈ released' ↔ other ∈ released))
    (goes : ∀ part ∈ later, id ∉ resolved'.map Prod.fst ∧ part ≠ .sending ∧ (id, true) ∈ sent' ∧
      (id ∈ released' ↔ part = .resolving))
    (ends : later = none → ∃ success, (id, success) ∈ resolved' ∧ (id, success) ∈ sent' ∧ (id ∈ released' ↔ success = true)) :
    Ledger signals ((later.map fun part => (id, part)).toList ++ rest) sent' released' resolved' dropping := by
  have signalled := (ledger.staged id stage mem_cons_self).1
  have once := nodup_cons.mp ledger.stageOnce
  have keys : ∀ {other : RequestId} {grown entries : List (RequestId × Bool)},
      (∀ val, (other, val) ∈ grown ↔ (other, val) ∈ entries) →
      (other ∈ grown.map Prod.fst ↔ other ∈ entries.map Prod.fst) := by
    intro other grown entries same
    simp [same]
  refine ⟨ledger.signalOnce, sentOnce, resolvedOnce, ?_, ?_, ?_, ?_, ?_, ?_⟩
  · cases later with
    | none => exact once.2
    | some part => exact ledger.stageOnce
  · intro other part mem
    rcases mem_append.mp mem with new | old
    · obtain ⟨_, now, same⟩ := Option.map_eq_some_iff.mp (Option.mem_toList.mp new)
      cases same
      obtain ⟨unresolved, past, sent_it, freed⟩ := goes part now
      exact ⟨signalled, unresolved, fun same => absurd same past, fun _ => sent_it, freed⟩
    · obtain ⟨sends, resolves, frees⟩ := others other (ledger.others_apart old)
      rw [keys sends, keys resolves, sends, frees]
      exact ledger.staged other part (mem_cons_of_mem _ old)
  · intro other own absent
    by_cases same : other = id
    · subst same
      cases later with
      | none => exact ends rfl
      | some part => exact absurd (by simp) absent
    · obtain ⟨sends, resolves, frees⟩ := others other same
      simp only [sends, resolves, frees]
      exact ledger.finished other own fun listed => absent (by
        rw [map_append]
        exact mem_append_right _ ((mem_cons.mp listed).resolve_left same))
  · intro other refused
    obtain ⟨sends, resolves, frees⟩ := others other (ledger.refused_apart refused)
    rw [keys sends, keys resolves, resolves, frees]
    exact ledger.dropped other refused
  · intro other same
    obtain ⟨refused, unresolved⟩ := ledger.drops other same
    rw [keys (others other (ledger.refused_apart refused)).2.1]
    exact ⟨refused, unresolved⟩
  · intro other met
    by_cases same : other = id
    · exact same ▸ mem_map.mpr ⟨_, signalled, rfl⟩
    · obtain ⟨sends, resolves, frees⟩ := others other same
      rw [keys sends, keys resolves, frees] at met
      exact ledger.known other met

theorem Ledger.job {s after : Sender} {later : Option JobStage}
    (ledger : Ledger s.signals ((id, stage) :: rest) s.sent s.released s.resolved dropping)
    (session : stage ≠ .resolving → Table.find id s.requestToSession ≠ none) (step : JobStep s id stage later after) :
    Ledger s.signals ((later.map fun part => (id, part)).toList ++ rest) after.sent after.released after.resolved dropping := by
  obtain ⟨_, unresolved, unsent, sent_it, freed⟩ := ledger.staged id stage mem_cons_self
  cases step with
  | send _ =>
    refine ledger.touch (nodup_push true ledger.sentOnce (unsent rfl)) ledger.resolvedOnce (fun other apart => by simp [apart])
      ?_ nofun
    rintro _ ⟨⟩
    exact ⟨unresolved, nofun, by simp, freed.trans (by simp)⟩
  | sendThrows _ =>
    refine ledger.touch (nodup_push false ledger.sentOnce (unsent rfl)) (nodup_push false ledger.resolvedOnce unresolved)
      (fun other apart => by simp [apart]) nofun fun _ => ⟨false, by simp, by simp, freed.trans (by simp)⟩
  | sendUnknown unknown | releaseUnknown unknown => exact absurd unknown (session nofun)
  | release _ =>
    refine ledger.touch ledger.sentOnce ledger.resolvedOnce (fun other apart => by simp [apart]) ?_ nofun
    rintro _ ⟨⟩
    exact ⟨unresolved, nofun, sent_it nofun, by simp⟩
  | resolve =>
    exact ledger.touch ledger.sentOnce (nodup_push true ledger.resolvedOnce unresolved) (fun other apart => by simp [apart])
      nofun fun _ => ⟨true, by simp, sent_it nofun, freed.trans (by simp)⟩

end Jobs

end TrtLlm.Transceiver
