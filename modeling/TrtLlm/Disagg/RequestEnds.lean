import TrtLlm.Disagg.BatchPhases

set_option autoImplicit false

namespace TrtLlm.Disagg
open List
open Lib (Trace AllSteps trace_invariant)
open Request
variable {config : Config} {phase next : Phase} {r : Request}

theorem activated_sound (new : NewRequest) (canceled : Bool) (quiet : phase.quiet = true) :
    Sound config phase { new.activated with canceled } := by
  have away := Phase.quiet_unbatched quiet
  refine ⟨nofun, fun _ => ⟨rfl, rfl, rfl⟩, fun _ => rfl, nofun, fun here => absurd here away, nofun, ?_, ?_, nofun⟩
  · intro _ _
    obtain ⟨id, type, streaming⟩ := new
    cases type <;> exact ⟨rfl, nofun, nofun⟩
  · exact fun _ => ⟨fun resp mem => absurd mem (not_mem_nil), rfl⟩

def Invariant (s : PyExecutor) : Prop := ∀ entry ∈ s.requests, Sound s.config s.phase entry.2

-- The connector takes a request only if the transceiver does not send it, no context transfer fails or is stopped
-- by a user's cancellation before its response, and cancel_request accepts every active request that has timed
-- out.
def Calm (s : PyExecutor) : Action → Prop
  | .send takes report _ =>
    ∀ entry ∈ s.requests, (takes entry.1 = true → (entry.2.respondAndSendAsync s.config).transfers = none) ∧
        (report entry.1 = some .failed → entry.2.active = false)
  | .cancel cancels =>
    ∀ entry ∈ s.requests, entry.2.canceled = true → entry.2.active = true →
      entry.2.state = .disaggContextTransInProgress → cancels entry.1 = false
  | .respond cancels => ∀ entry ∈ s.requests, entry.2.active = true → entry.2.kvTransferTimedOut = true → cancels entry.1 = true
  | _ => True

theorem Invariant.each {s : PyExecutor} {handler : Nat → Request → Request}
    (kept : ∀ entry ∈ s.requests, Sound s.config next (handler entry.1 entry.2)) : Invariant (s.each next handler) := by
  exact forall_mem_map.mpr kept

theorem Invariant.quiet {s : PyExecutor} {handler : Nat → Request → Request} (inv : Invariant s)
    (here : s.phase.quiet = true) (there : next.quiet = true)
    (kept : ∀ entry ∈ s.requests, Sound s.config s.phase entry.2 → Sound s.config s.phase (handler entry.1 entry.2)) :
    Invariant (s.each next handler) :=
  .each fun entry mem => (kept entry mem (inv entry mem)).quiet_change here there

theorem invariant_step {s after : PyExecutor} {action : Action} (inv : Invariant s) (calm : Calm s action)
    (step : Step s action after) : Invariant after := by
  cases step with
  | fetch fresh canceled here nodup =>
    intro entry mem
    obtain ⟨before, listed, rfl⟩ := mem_map.mp mem
    rcases mem_append.mp listed with old | new
    · have sound := inv before old
      rw [here] at sound
      exact { sound.quiet_change rfl rfl with }
    · obtain ⟨req, _, rfl⟩ := mem_map.mp new
      exact activated_sound req _ rfl
  | genStatus report here flying | initStatus report here flying =>
    exact inv.quiet (by rw [here]; rfl) rfl fun entry mem sound =>
      gen_status_sound sound (by rw [here]; rfl) _ (flying entry mem)
  | timeouts due here | lateTimeouts due here =>
    exact inv.quiet (by rw [here]; rfl) rfl fun _ _ sound => timeout_sound sound (by rw [here]; rfl) _
  | genInit fits here => exact inv.quiet (by rw [here]; rfl) rfl fun _ _ sound => gen_init_sound sound (by rw [here]; rfl) _
  | contextStatus report cancels here flying | lateStatus report cancels here flying =>
    exact inv.quiet (by rw [here]; rfl) rfl fun entry mem sound =>
      check_quiet_sound sound (by rw [here]; rfl) _ _ (flying entry mem)
  | unneeded here | idle here | noneInflight here absent =>
    exact fun entry mem => (inv entry mem).quiet_change (by rw [here]; rfl) rfl
  | forward batch update here scheduled possible =>
    exact .each fun entry mem =>
      forward_sound (inv entry mem) (by rw [here]; rfl) _ _ (scheduled entry mem) (possible entry.1)
  | send takes report cancels here flying =>
    refine .each fun entry mem => ?_
    have sound := inv entry mem
    rw [here] at sound
    obtain ⟨single, timely⟩ := calm entry mem
    obtain ⟨active, pending⟩ := begin_frame _ entry.2 (takes entry.1)
    rw [← active] at timely
    exact check_early_sound (begin_sound sound _ single) (pending.trans (sound.buffered nofun)) _ _ timely (flying entry mem)
  | flush here =>
    refine .each fun entry mem => ?_
    have sound := inv entry mem
    rw [here] at sound
    exact flush_sound sound
  | cancel cancels here =>
    refine .each fun entry mem => ?_
    have sound := inv entry mem
    rw [here] at sound
    exact cancel_sound sound _ (calm entry mem)
  | respond cancels here =>
    refine .each fun entry mem => ?_
    have sound := inv entry mem
    rw [here] at sound
    exact respond_sound sound _ (calm entry mem)
  | connector done here flying =>
    exact inv.quiet (by rw [here]; rfl) rfl fun entry mem sound =>
      connector_sound sound (by rw [here]; rfl) _ (flying entry mem)

theorem requests_end_once (config : Config) (run : List (Action × PyExecutor)) (trace : Trace Step { config } run)
    (calm : AllSteps Calm { config } run) : ∀ state ∈ run, ∀ entry ∈ state.2.requests, EndsOnce entry.2 := by
  have start : Invariant { config } := fun entry mem => absurd mem not_mem_nil
  have inv := trace_invariant Calm Invariant (fun _ _ _ sound choices step => invariant_step sound choices step) _ run trace
    calm start
  intro state mem entry listed
  exact (inv state mem entry listed).ends_once

def prefilled (_ : Nat) : Update := ⟨.generationInProgress, [.notFinished], 1⟩

theorem prefilled_possible (id : Nat) : (prefilled id).Possible := Or.inr (Or.inl rfl)

theorem context_request_ends :
    ∃ run, Trace Step { config := {} } run ∧ (∃ state ∈ run, ∃ entry ∈ state.2.requests, entry.2.freed = 1) ∧
      ∀ state ∈ run, ∀ entry ∈ state.2.requests, EndsOnce entry.2 := by
  have trace := Trace.cons (Step.fetch (s := { config := {} }) [⟨0, .contextOnly, false⟩] (fun _ => false) rfl (by decide))
    (.cons (.genStatus (fun _ => none) rfl fun _ _ => nofun) (.cons (.timeouts (fun _ => false) rfl)
    (.cons (.genInit (fun _ => false) rfl) (.cons (.initStatus (fun _ => none) rfl fun _ _ => nofun) (.cons (.unneeded rfl)
    (.cons (.forward (fun _ => true) prefilled rfl (by decide) prefilled_possible)
    (.cons (.send (fun _ => false) (fun _ => none) (fun _ => false) rfl fun _ _ => nofun) (.cons (.flush rfl)
    (.cons (.cancel (fun _ => false) rfl) (.cons (.respond (fun _ => true) rfl)
    (.cons (.lateStatus (fun _ => some .finished) (fun _ => false) rfl (by decide)) (.nil _))))))))))))
  refine ⟨_, trace, ?_, requests_end_once _ _ trace ?_⟩
  · refine ⟨_, mem_of_getLast? rfl, _, mem_cons_self, rfl⟩
  refine ⟨trivial, trivial, trivial, trivial, trivial, trivial, trivial, ?_, trivial, ?_, ?_, trivial, trivial⟩
  · exact fun _ _ => ⟨nofun, nofun⟩
  · exact fun _ _ _ _ _ => rfl
  · exact fun _ _ _ _ => rfl

-- cancel_request refuses a timed-out generation request, which is then inactive, without a response and with its
-- resources.
theorem timed_out_request_lost : ∃ run, Trace Step { config := {} } run ∧ (∃ state ∈ run, ∃ entry ∈ state.2.requests,
        entry.2.active = false ∧ entry.2.log = [] ∧ entry.2.freed = 0 ∧ entry.2.receiving = true) ∧
      ¬ ∀ state ∈ run, ∀ entry ∈ state.2.requests, EndsOnce entry.2 := by
  have trace := Trace.cons (Step.fetch (s := { config := {} }) [⟨0, .generationOnly, false⟩] (fun _ => false) rfl (by decide))
    (.cons (.genStatus (fun _ => none) rfl fun _ _ => nofun) (.cons (.timeouts (fun _ => false) rfl)
    (.cons (.genInit (fun _ => true) rfl) (.cons (.initStatus (fun _ => none) rfl fun _ _ => nofun) (.cons (.unneeded rfl)
    (.cons (.idle rfl) (.cons (.noneInflight rfl rfl) (.cons (.connector (fun _ => false) rfl fun _ _ => nofun)
    (.cons (.fetch [⟨1, .contextAndGeneration, false⟩] (fun _ => false) rfl (by decide))
    (.cons (.genStatus (fun _ => none) rfl fun _ _ => nofun) (.cons (.timeouts (fun id => id == 0) rfl)
    (.cons (.genInit (fun _ => false) rfl) (.cons (.initStatus (fun _ => none) rfl fun _ _ => nofun) (.cons (.unneeded rfl)
    (.cons (.forward (fun id => id == 1) prefilled rfl (by decide) prefilled_possible)
    (.cons (.send (fun _ => false) (fun _ => none) (fun _ => false) rfl fun _ _ => nofun) (.cons (.flush rfl)
    (.cons (.cancel (fun _ => false) rfl) (.cons (.respond (fun _ => false) rfl) (.nil _))))))))))))))))))))
  refine ⟨_, trace, ⟨_, mem_of_getLast? rfl, _, mem_cons_self, rfl, rfl, rfl, rfl⟩, ?_⟩
  intro ends
  obtain ⟨earlier, last, log, _⟩ := (ends _ (mem_of_getLast? rfl) _ mem_cons_self).answered rfl
  exact absurd log.symm (append_ne_nil_of_right_ne_nil earlier (cons_ne_nil last []))

end TrtLlm.Disagg
