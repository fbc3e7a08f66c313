import TrtLlm.Request

set_option autoImplicit false

namespace TrtLlm.Executor.PausedStream
open List Batch

variable {Token : Type}

-- Beam width one, without returnAllGeneratedTokens.
structure Streamed (Token : Type) where
  mTokens : List Token
  mPromptLen : Nat
  mMaxNewTokens : Int
  mMaxSentTokenLen : Nat
  mState : LlmRequestState
  hasEncoder : Bool

namespace Streamed

variable (req : Streamed Token)

def isFinished : Bool :=
  match req.mState with
  | .generationComplete | .disaggContextTransInProgress | .disaggContextComplete => true
  | _ => false

def streamingInProgress : Bool :=
  match req.mState with
  | .generationInProgress | .generationToComplete => true
  | _ => false

def addNewToken (token : Token) : Streamed Token := { req with mTokens := req.mTokens ++ [token] }

def getMaxNumGeneratedTokens : Int := req.mTokens.length - req.mPromptLen

def pause (maxInputLen : Nat) : Streamed Token :=
  let newPromptLen := min maxInputLen (req.mPromptLen + req.getMaxNumGeneratedTokens).toNat
  { req with
    mTokens := req.mTokens.take newPromptLen
    mMaxNewTokens := req.mMaxNewTokens - (newPromptLen - req.mPromptLen)
    mPromptLen := newPromptLen
    mState := if req.hasEncoder then .encoderInit else .contextInit }

def createResult : Option (List Token) × Streamed Token :=
  if !(req.isFinished || req.streamingInProgress) then (none, req)
  else
    let maxNbTokens := req.mTokens.length
    let calculateNbTokensOut := fun (maxNbTokens : Nat) => (maxNbTokens - req.mMaxSentTokenLen : Int)
    let startTokenPos := maxNbTokens - calculateNbTokensOut maxNbTokens
    if !(req.isFinished || decide (req.mMaxSentTokenLen < maxNbTokens)) then (none, req)
    else
      let nbTokensOut := calculateNbTokensOut req.mTokens.length
      let outputTokenIds :=
        if 0 < nbTokensOut then (req.mTokens.drop startTokenPos.toNat).take nbTokensOut.toNat else []
      (some outputTokenIds, { req with mMaxSentTokenLen := maxNbTokens })

end Streamed

structure Result (Token : Type) where
  stored : List Token
  outputTokenIds : List Token

-- The results, each with the tokens stored when it was made.
structure Run (Token : Type) where
  req : Streamed Token
  results : List (Result Token)

inductive Change (Token : Type) where
  | addNewToken (token : Token)
  | pause (maxInputLen : Nat)
  | setState (state : LlmRequestState)

def Streamed.change (req : Streamed Token) : Change Token → Streamed Token
  | .addNewToken token => req.addNewToken token
  | .pause maxInputLen => req.pause maxInputLen
  | .setState mState => { req with mState }

inductive Call (Token : Type) where
  | change (change : Change Token)
  | createResult

-- A finished request is not changed any more.
def step (run : Run Token) : Call Token → Run Token
  | .change change => if run.req.isFinished then run else { run with req := run.req.change change }
  | .createResult =>
    match run.req.createResult with
    | (none, req) => { run with req }
    | (some outputTokenIds, req) => ⟨req, run.results ++ [⟨run.req.mTokens, outputTokenIds⟩]⟩

def start (prompt : List Token) (maxNewTokens : Int) (mState : LlmRequestState) (hasEncoder : Bool) : Run Token :=
  ⟨⟨prompt, prompt.length, maxNewTokens, prompt.length, mState, hasEncoder⟩, []⟩

-- The tokens streamed, counted from the start of the sequence.
def sent (promptLen : Nat) (results : List (Result Token)) : Nat :=
  promptLen + (results.flatMap Result.outputTokenIds).length

structure Sound (promptLen : Nat) (budget : Int) (run : Run Token) : Prop where
  within : run.req.mPromptLen ≤ run.req.mTokens.length
  budget : run.req.mPromptLen + run.req.mMaxNewTokens = budget
  -- A last result after a cut takes the mark back, with nothing to send.
  marked : run.req.mMaxSentTokenLen = sent promptLen run.results ∨ run.req.isFinished = true ∧
    run.req.mMaxSentTokenLen = run.req.mTokens.length ∧ run.req.mTokens.length ≤ sent promptLen run.results
  longest : sent promptLen run.results = (run.results.map (·.stored.length)).foldl max promptLen
  placed : ∀ (i : Nat) result, run.results[i]? = some result →
    result.outputTokenIds = result.stored.drop (sent promptLen (run.results.take i))

variable {promptLen : Nat} {budget : Int} {run : Run Token}

theorem change_keeps (req : Streamed Token) (within : req.mPromptLen ≤ req.mTokens.length) (change : Change Token) :
    (req.change change).mPromptLen ≤ (req.change change).mTokens.length ∧
      (req.change change).mPromptLen + (req.change change).mMaxNewTokens = req.mPromptLen + req.mMaxNewTokens ∧
      (req.change change).mMaxSentTokenLen = req.mMaxSentTokenLen := by
  cases change with
  | addNewToken token =>
    simp only [Streamed.change, Streamed.addNewToken, length_append, and_true]
    omega
  | pause maxInputLen =>
    simp only [Streamed.change, Streamed.pause, Streamed.getMaxNumGeneratedTokens, length_take, and_true]
    omega
  | setState mState => exact ⟨within, rfl, rfl⟩

theorem create_result_cases (sound : Sound promptLen budget run) :
    run.req.createResult = (none, run.req) ∨
    run.req.createResult = (some (run.req.mTokens.drop (sent promptLen run.results)),
      { run.req with mMaxSentTokenLen := run.req.mTokens.length }) ∧
      (run.req.isFinished = true ∨ sent promptLen run.results < run.req.mTokens.length) := by
  have marked := sound.marked
  simp only [Streamed.createResult]
  split
  · exact .inl rfl
  split
  · exact .inl rfl
  case isFalse sends =>
    simp only [Bool.not_eq_true', Bool.not_eq_false, Bool.or_eq_true, decide_eq_true_eq] at sends
    refine .inr ⟨?_, by grind⟩
    congr 2
    obtain more | less := lt_or_ge run.req.mMaxSentTokenLen run.req.mTokens.length
    · rw [if_pos (by omega), Int.sub_sub_self, Int.toNat_natCast, take_of_length_le (by rw [length_drop]; omega)]
      rw [marked.resolve_right (by omega)]
    · rw [if_neg (by omega), drop_eq_nil_of_le (by omega)]

theorem step_sound (sound : Sound promptLen budget run) (call : Call Token) :
    Sound promptLen budget (step run call) := by
  have marked := sound.marked
  cases call with
  | change change =>
    rw [step]
    split
    · exact sound
    case isFalse active =>
      obtain ⟨within, same, mark⟩ := change_keeps run.req sound.within change
      have active_mark := marked.resolve_right fun done => active done.1
      exact ⟨within, same.trans sound.budget, .inl (mark.trans active_mark), sound.longest, sound.placed⟩
  | createResult =>
    obtain none_sent | ⟨some_sent, sends⟩ := create_result_cases sound
    · rwa [step, none_sent]
    · rw [step, some_sent]
      have total : sent promptLen (run.results ++ [⟨run.req.mTokens, run.req.mTokens.drop (sent promptLen run.results)⟩]) =
          max (sent promptLen run.results) run.req.mTokens.length := by
        simp only [sent, flatMap_append, flatMap_singleton, length_append, length_drop]
        omega
      refine ⟨sound.within, sound.budget, ?_, ?_, fun i result found => ?_⟩
      · rw [total]
        obtain done | more := sends
        · exact .inr ⟨done, rfl, le_max_right _ _⟩
        · exact .inl (max_eq_right more.le).symm
      · rw [total, map_append, foldl_append, ← sound.longest]
        rfl
      · obtain less | least := lt_or_ge i run.results.length
        · rw [getElem?_append_left less] at found
          rw [take_append_of_le_length less.le]
          exact sound.placed i result found
        · have bound := (List.getElem?_eq_some_iff.mp found).1
          rw [length_append, length_singleton] at bound
          obtain rfl : i = run.results.length := by omega
          rw [getElem?_concat_length, Option.some.injEq] at found
          rw [take_left, ← found]

theorem pausing_invisible (prompt : List Token) (maxNewTokens : Int) (mState : LlmRequestState) (hasEncoder : Bool)
    (calls : List (Call Token)) :
    let run := calls.foldl step (start prompt maxNewTokens mState hasEncoder)
    run.req.mPromptLen + run.req.mMaxNewTokens = prompt.length + maxNewTokens ∧
      prompt.length + (run.results.flatMap Result.outputTokenIds).length =
        (run.results.map (·.stored.length)).foldl max prompt.length ∧
      ∀ (i : Nat) result, run.results[i]? = some result → result.outputTokenIds =
        result.stored.drop (prompt.length + ((run.results.take i).flatMap Result.outputTokenIds).length) := by
  have sound : Sound prompt.length (prompt.length + maxNewTokens)
      (calls.foldl step (start prompt maxNewTokens mState hasEncoder)) :=
    foldlRecOn calls step ⟨le_rfl, rfl, .inl rfl, rfl, nofun⟩ fun run sound call _ => step_sound sound call
  exact ⟨sound.budget, sound.longest, sound.placed⟩

end TrtLlm.Executor.PausedStream
