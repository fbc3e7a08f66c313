import Mathlib

set_option autoImplicit false

namespace TrtLlm.Result

abbrev Token := Nat

abbrev Text := List Char

inductive PyError where
  | runtimeError
  | valueError
  | indexError
deriving DecidableEq, Repr

inductive FinishReason where
  | notFinished
  | endId
  | stopWords
  | length
  | timedOut
  | cancelled
deriving DecidableEq, Repr

-- CompletionOutput.finish_reason
inductive FinishText where
  | stop
  | length
  | timeout
  | cancelled
  | notFinished
deriving DecidableEq, Repr

inductive StopReason where
  | token (id : Token)
  | word (text : Text)
deriving DecidableEq, Repr

-- Sampling without beam search, with n = best_of.
structure SamplingParams where
  n : Nat
  stopTokenIds : Option (List Token) := none
  stop : Option (List Text) := none
  stopWordIds : Option (List (List Token)) := none
  includeStopStrInOutput : Bool := false
deriving DecidableEq, Repr

namespace SamplingParams

def getStopWords (params : SamplingParams) : Except PyError (List (List Token)) :=
  let words := (params.stopTokenIds.getD []).map fun id => [id]
  match params.stop, params.stopWordIds with
  | none, _ => .ok words
  | some _, none => .error .runtimeError
  | some _, some ids => .ok (words ++ ids)

def getStopReasonsAndWords (params : SamplingParams) : Except PyError (List (StopReason × List Token)) :=
  let reasons := (params.stopTokenIds.getD []).map StopReason.token ++ (params.stop.getD []).map StopReason.word
  params.getStopWords.map fun words => reasons.zip words

end SamplingParams

-- decode_incrementally puts what it emits behind prev_text.
structure Tokenizer (State : Type) where
  decode : List Token → Text
  emit : List Token → Option State → Bool → Text × State

def Tokenizer.decodeIncrementally {State : Type} (tokenizer : Tokenizer State) (tokenIds : List Token) (prevText : Text)
    (states : Option State) (flush : Bool) : Text × Option State :=
  let new := tokenizer.emit tokenIds states flush
  (prevText ++ new.1, some new.2)

structure CompletionOutput (State : Type) where
  text : Text := []
  tokenIds : List Token := []
  finishReason : Option FinishText := none
  stopReason : Option StopReason := none
  lastTextLen : Nat := 0
  lastTokenIdsLen : Nat := 0
  incrementalStates : Option State := none
deriving DecidableEq, Repr

namespace CompletionOutput
variable {State : Type}

def textDiff (output : CompletionOutput State) : Text := output.text.drop output.lastTextLen

def tokenIdsDiff (output : CompletionOutput State) : List Token := output.tokenIds.drop output.lastTokenIdsLen

end CompletionOutput

structure Response where
  sequenceIndex : Nat
  outputTokenIds : List Token
  finishReason : FinishReason
  isFinal : Bool
  contextPhaseParams : Bool := false
deriving DecidableEq, Repr

-- contextOnly: request_type is "context_only".
structure GenerationResult (State : Type) where
  outputs : List (CompletionOutput State)
  done : Bool := false
  contextOnly : Bool := false
deriving DecidableEq, Repr

def lastTokens (count : Nat) (tokens : List Token) : List Token :=
  if count = 0 then tokens else tokens.drop (tokens.length - count)

def withoutLast (count : Nat) (tokens : List Token) : List Token :=
  if count = 0 then [] else tokens.take (tokens.length - count)

def endingStop (tokens : List Token) (entries : List (StopReason × List Token)) : Option (StopReason × List Token) :=
  entries.find? fun entry => lastTokens entry.2.length tokens = entry.2

def find (word : Text) : Text → Option Nat
  | [] => if word = [] then some 0 else none
  | char :: rest => if word.isPrefixOf (char :: rest) then some 0 else (find word rest).map (· + 1)

section Handling
variable {State : Type} (tokenizer : Tokenizer State) (params : SamplingParams) (streaming : Bool)

def finishSequence (contextOnly : Bool) (reason : FinishReason) (output : CompletionOutput State) :
    Except PyError (CompletionOutput State) :=
  match reason with
  | .endId => .ok { output with finishReason := some .stop }
  | .stopWords =>
    params.getStopReasonsAndWords.map fun entries =>
      match endingStop output.tokenIds entries with
      | none => { output with finishReason := some .stop }
      | some (stopReason, stopIds) =>
        { output with
          finishReason := some .stop
          stopReason := some stopReason
          tokenIds := if params.includeStopStrInOutput then output.tokenIds else withoutLast stopIds.length output.tokenIds }
  | .length => .ok { output with finishReason := some .length }
  | .timedOut => .ok { output with finishReason := some .timeout }
  | .notFinished => if contextOnly then .ok { output with finishReason := some .notFinished } else .error .valueError
  | .cancelled => .ok output

def handleSequence (done contextOnly : Bool) (response : Response) (output : CompletionOutput State) :
    Except PyError (CompletionOutput State) :=
  let extended := { output with
    lastTokenIdsLen := output.tokenIds.length
    tokenIds := output.tokenIds ++ response.outputTokenIds
    finishReason := if response.finishReason = .cancelled then some .cancelled else output.finishReason }
  if response.finishReason ≠ .notFinished ∧ response.finishReason ≠ .cancelled ∨ done then
    finishSequence params contextOnly response.finishReason extended
  else .ok extended

def cutAtStop (output : CompletionOutput State) : List (StopReason × List Token) → Option (CompletionOutput State)
  | [] => none
  | (.token _, _) :: rest => cutAtStop output rest
  | (.word word, _) :: rest =>
    match find word output.text with
    | none => cutAtStop output rest
    | some position =>
      some { output with
        text := output.text.take (if params.includeStopStrInOutput then position + word.length else position)
        finishReason := some .stop
        stopReason := some (.word word) }

def detokenize (done : Bool) (output : CompletionOutput State) : Except PyError (CompletionOutput State × Bool) :=
  let measured := { output with lastTextLen := output.text.length }
  let decoded :=
    if streaming then
      let new := tokenizer.decodeIncrementally output.tokenIdsDiff output.text output.incrementalStates done
      { measured with text := new.1, incrementalStates := new.2 }
    else { measured with text := tokenizer.decode output.tokenIds }
  if done = false ∨ decoded.finishReason = some .stop ∨ decoded.finishReason = some .length then
    params.getStopReasonsAndWords.map fun entries =>
      match cutAtStop params decoded entries with
      | none => (decoded, done)
      | some cut => (cut, true)
  else .ok (decoded, done)

-- A stop string of one output sets _done for those behind it.
def detokenizeAll : Bool → List (CompletionOutput State) → Except PyError (List (CompletionOutput State) × Bool)
  | done, [] => .ok ([], done)
  | done, output :: rest =>
    (detokenize tokenizer params streaming done output).bind fun first =>
      (detokenizeAll first.2 rest).map fun others => (first.1 :: others.1, others.2)

def handleResponse (result : GenerationResult State) (response : Response) : Except PyError (GenerationResult State) :=
  let contextOnly := result.contextOnly || response.contextPhaseParams
  match result.outputs[response.sequenceIndex]? with
  | none => .error .indexError
  | some output =>
    (handleSequence params response.isFinal contextOnly response output).bind fun handled =>
      (detokenizeAll tokenizer params streaming response.isFinal (result.outputs.set response.sequenceIndex handled)).map
        fun detokenized => { outputs := detokenized.1, done := detokenized.2, contextOnly }

def GenerationResult.start : GenerationResult State := { outputs := List.replicate params.n {} }

-- Responses are read until the result is done; the text_diff of its sequence is read after each.
def read : GenerationResult State → List Response → Except PyError (List (Nat × Text) × GenerationResult State)
  | result, [] => .ok ([], result)
  | result, response :: rest =>
    if result.done then .ok ([], result)
    else
      (handleResponse tokenizer params streaming result response).bind fun next =>
        (read next rest).map fun later =>
          ((response.sequenceIndex, ((next.outputs[response.sequenceIndex]?).map CompletionOutput.textDiff).getD []) :: later.1,
            later.2)

end Handling
end TrtLlm.Result
