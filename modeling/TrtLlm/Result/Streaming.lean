import TrtLlm.Result.GenerationResult
import TrtLlm.Lib.Runs

set_option autoImplicit false

namespace TrtLlm.Result
open List CompletionOutput GenerationResult
open Lib (except_mapped_ok)

section Cutting
variable {State : Type} (params : SamplingParams) (entries : List (StopReason × List Token))

-- The first of the stop strings that occurs in the text, and the length it cuts the text to.
def stopPlace (text : Text) : Option (Nat × Text) :=
  entries.findSome? fun entry =>
    match entry.1 with
    | .token _ => none
    | .word word =>
      (find word text).map fun position => (if params.includeStopStrInOutput then position + word.length else position, word)

def cutText (text : Text) : Text :=
  match stopPlace params entries text with
  | none => text
  | some (length, _) => text.take length

theorem cut_at_stop_eq (output : CompletionOutput State) :
    cutAtStop params output entries = (stopPlace params entries output.text).map fun place =>
      { output with
        text := output.text.take place.1
        finishReason := some .stop
        stopReason := some (.word place.2) } := by
  induction entries with
  | nil => rfl
  | cons entry rest ih =>
    obtain ⟨reason, ids⟩ := entry
    cases reason with
    | token id =>
      rw [cutAtStop, ih]
      simp [stopPlace]
    | word word =>
      rw [cutAtStop, ih]
      cases found : find word output.text with
      | none | some position => simp [stopPlace, found]

-- A timed out or cancelled answer is not searched for stop strings at its end.
def finalText (reason : FinishReason) (text : Text) : Text :=
  if reason = .endId ∨ reason = .stopWords ∨ reason = .length then cutText params entries text else text

end Cutting

section Detokenizing
variable {State : Type} {params : SamplingParams} {entries : List (StopReason × List Token)}

def decodedText (tokenizer : Tokenizer State) (streaming done : Bool) (output : CompletionOutput State) : Text × Option State :=
  if streaming then tokenizer.decodeIncrementally output.tokenIdsDiff output.text output.incrementalStates done
  else (tokenizer.decode output.tokenIds, output.incrementalStates)

def rewritten (output : CompletionOutput State) (decoded : Text × Option State) : CompletionOutput State :=
  { output with lastTextLen := output.text.length, text := decoded.1, incrementalStates := decoded.2 }

theorem detokenize_eq (tokenizer : Tokenizer State) (words : params.getStopReasonsAndWords = .ok entries)
    (streaming done : Bool) (output : CompletionOutput State) :
    detokenize tokenizer params streaming done output =
      let decoded := rewritten output (decodedText tokenizer streaming done output)
      if done = false ∨ output.finishReason = some .stop ∨ output.finishReason = some .length then
        .ok (match cutAtStop params decoded entries with
          | none => (decoded, done)
          | some cut => (cut, true))
      else .ok (decoded, done) := by
  rw [detokenize, words]
  cases streaming <;> rfl

structure Detokenized (params : SamplingParams) (entries : List (StopReason × List Token)) (decoded : Text × Option State)
    (done : Bool) (output after : CompletionOutput State) : Prop where
  text : after.text = if done = false ∨ output.finishReason = some .stop ∨ output.finishReason = some .length then
    cutText params entries decoded.1 else decoded.1
  states : after.incrementalStates = decoded.2
  lastTextLen : after.lastTextLen = output.text.length
  tokenIds : after.tokenIds = output.tokenIds
  stopped : done = false → (stopPlace params entries decoded.1).isSome → ∃ word, after.stopReason = some (.word word)

theorem detokenize_ok (tokenizer : Tokenizer State) (words : params.getStopReasonsAndWords = .ok entries)
    (streaming done : Bool) (output : CompletionOutput State) :
    ∃ after, detokenize tokenizer params streaming done output =
        .ok (after, done || (stopPlace params entries (decodedText tokenizer streaming done output).1).isSome) ∧
      Detokenized params entries (decodedText tokenizer streaming done output) done output after := by
  rw [detokenize_eq tokenizer words]
  by_cases searched : done = false ∨ output.finishReason = some .stop ∨ output.finishReason = some .length
  · simp only [searched, if_true, cut_at_stop_eq]
    cases place : stopPlace params entries (decodedText tokenizer streaming done output).1 with
    | none =>
      refine ⟨rewritten output (decodedText tokenizer streaming done output), by simp [rewritten, place], ?_, rfl, rfl, rfl,
        by simp [place]⟩
      simp [searched, cutText, place, rewritten]
    | some found =>
      refine ⟨{ rewritten output (decodedText tokenizer streaming done output) with
        text := (decodedText tokenizer streaming done output).1.take found.1
        finishReason := some .stop
        stopReason := some (.word found.2) }, by simp [rewritten, place], ?_, rfl, rfl, rfl, fun _ _ => ⟨found.2, rfl⟩⟩
      simp [searched, cutText, place]
  · obtain ⟨finished, _⟩ := not_or.mp searched
    simp only [searched, if_false]
    refine ⟨rewritten output (decodedText tokenizer streaming done output), by simp [eq_true_of_ne_false finished], ?_, rfl, rfl,
      rfl, fun going => absurd going finished⟩
    simp [searched, rewritten]

end Detokenizing

section Feeding
variable {State : Type} (tokenizer : Tokenizer State)

def Tokenizer.feed : List (List Token) → Text × Option State → Text × Option State
  | [], seen => seen
  | piece :: rest, seen => feed rest (tokenizer.decodeIncrementally piece seen.1 seen.2 false)

def Tokenizer.Faithful : Prop :=
  ∀ pieces last, (tokenizer.decodeIncrementally last (tokenizer.feed pieces ([], none)).1 (tokenizer.feed pieces ([], none)).2
    true).1 = tokenizer.decode (pieces.flatten ++ last)

end Feeding

section Reading
variable {State : Type} {tokenizer : Tokenizer State} {params : SamplingParams} {streaming : Bool}

theorem read_done {res : GenerationResult State} (done : res.done = true) (resps : List Response) :
    read tokenizer params streaming res resps = .ok ([], res) := by
  cases resps with
  | nil => rfl
  | cons resp rest => simp [read, done]

theorem read_append (res last : GenerationResult State) (before after : List Response) (diffs : List (Nat × Text))
    (first : read tokenizer params streaming res before = .ok (diffs, last)) :
    read tokenizer params streaming res (before ++ after) =
      (read tokenizer params streaming last after).map fun later => (diffs ++ later.1, later.2) := by
  induction before generalizing res diffs with
  | nil =>
    cases first
    simp only [nil_append]
    cases read tokenizer params streaming last after <;> rfl
  | cons resp rest ih =>
    cases done : res.done with
    | true =>
      rw [read_done done] at first ⊢
      cases first
      rw [read_done done]
      rfl
    | false =>
      simp only [read, done, Bool.false_eq_true, if_false, cons_append] at first ⊢
      cases handled : handleResponse tokenizer params streaming res resp with
      | error error => simp [handled, Except.bind] at first
      | ok next =>
        simp only [handled, Except.bind] at first ⊢
        obtain ⟨later, read_rest, same⟩ := except_mapped_ok.mp first
        cases same
        rw [ih next later.1 read_rest]
        cases read tokenizer params streaming later.2 after <;> rfl

end Reading

section LoneCandidate
variable {State : Type} {tokenizer : Tokenizer State} {params : SamplingParams} {entries : List (StopReason × List Token)}

def partOf (piece : List Token) : Response := ⟨0, piece, .notFinished, false, false⟩

def endOf (piece : List Token) (reason : FinishReason) : Response := ⟨0, piece, reason, true, false⟩

theorem handle_lone {streaming ended contextOnly : Bool} {output handled after : CompletionOutput State} {resp : Response}
    (own : resp.sequenceIndex = 0) (plain : resp.contextPhaseParams = false)
    (seq : handleSequence params resp.isFinal contextOnly resp output = .ok handled)
    (run : detokenize tokenizer params streaming resp.isFinal handled = .ok (after, ended)) :
    handleResponse tokenizer params streaming ⟨[output], false, contextOnly⟩ resp = .ok ⟨[after], ended, contextOnly⟩ := by
  simp only [handleResponse, own, plain, Bool.or_false, getElem?_cons_zero, seq, Except.bind, set_cons_zero,
    detokenizeAll, run, Except.map]

def keptTokens (params : SamplingParams) (entries : List (StopReason × List Token)) (reason : FinishReason)
    (tokens : List Token) : List Token :=
  match reason, endingStop tokens entries with
  | .stopWords, some (_, stopIds) => if params.includeStopStrInOutput then tokens else withoutLast stopIds.length tokens
  | _, _ => tokens

-- The texts before and with the first response in which a stop string is found.
def firstStop (tokenizer : Tokenizer State) (params : SamplingParams) (entries : List (StopReason × List Token)) :
    List (List Token) → Text × Option State → Option (Text × Text)
  | [], _ => none
  | piece :: rest, seen =>
    let new := tokenizer.decodeIncrementally piece seen.1 seen.2 false
    if (stopPlace params entries new.1).isSome then some (seen.1, new.1) else firstStop tokenizer params entries rest new

structure Streamed (tokenizer : Tokenizer State) (params : SamplingParams) (entries : List (StopReason × List Token))
    (pieces : List (List Token)) (output : CompletionOutput State) (diffs : List (Nat × Text))
    (after : CompletionOutput State) : Prop where
  own : ∀ diff ∈ diffs, diff.1 = 0
  stopped : ∀ before whole,
    firstStop tokenizer params entries pieces (output.text, output.incrementalStates) = some (before, whole) →
    after.text = cutText params entries whole ∧
      output.text ++ (diffs.map Prod.snd).flatten = before ++ (cutText params entries whole).drop before.length ∧
      ∃ word, after.stopReason = some (.word word)
  going : firstStop tokenizer params entries pieces (output.text, output.incrementalStates) = none →
    after.tokenIds = output.tokenIds ++ pieces.flatten ∧ output.text ++ (diffs.map Prod.snd).flatten = after.text ∧
      (after.text, after.incrementalStates) = tokenizer.feed pieces (output.text, output.incrementalStates)

section
variable (words : params.getStopReasonsAndWords = .ok entries) (output : CompletionOutput State) (contextOnly : Bool)

include words

theorem handle_part (tokenizer : Tokenizer State) (piece : List Token) :
    ∃ after, handleResponse tokenizer params true ⟨[output], false, contextOnly⟩ (partOf piece) =
        .ok ⟨[after], (stopPlace params entries
          (tokenizer.decodeIncrementally piece output.text output.incrementalStates false).1).isSome, contextOnly⟩ ∧
      after.lastTextLen = output.text.length ∧ after.tokenIds = output.tokenIds ++ piece ∧
      Detokenized params entries (tokenizer.decodeIncrementally piece output.text output.incrementalStates false) false
        { output with lastTokenIdsLen := output.tokenIds.length, tokenIds := output.tokenIds ++ piece } after := by
  obtain ⟨extended, same⟩ : ∃ extended : CompletionOutput State, extended =
      { output with lastTokenIdsLen := output.tokenIds.length, tokenIds := output.tokenIds ++ piece } := ⟨_, rfl⟩
  have decoded : decodedText tokenizer true false extended =
      tokenizer.decodeIncrementally piece output.text output.incrementalStates false := by
    simp [decodedText, tokenIdsDiff, same]
  obtain ⟨after, run, facts⟩ := detokenize_ok tokenizer words true false extended
  rw [decoded] at run facts
  refine ⟨after, ?_, ?_, ?_, same ▸ facts⟩
  · refine handle_lone rfl rfl ?_ run
    simp [handleSequence, partOf, same]
  · rw [facts.lastTextLen, same]
  · rw [facts.tokenIds, same]

theorem handle_end (tokenizer : Tokenizer State) (streaming : Bool) (piece : List Token) {reason : FinishReason}
    (finished : reason ≠ .notFinished) (whole : Text)
    (decoded : ∀ after : CompletionOutput State, after.text = output.text → after.incrementalStates = output.incrementalStates →
      after.lastTokenIdsLen = output.tokenIds.length →
      after.tokenIds = keptTokens params entries reason (output.tokenIds ++ piece) →
      (decodedText tokenizer streaming true after).1 = whole) :
    ∃ after, handleResponse tokenizer params streaming ⟨[output], false, contextOnly⟩ (endOf piece reason) =
        .ok ⟨[after], true, contextOnly⟩ ∧ after.text = finalText params entries reason whole ∧
      after.textDiff = (finalText params entries reason whole).drop output.text.length := by
  obtain ⟨handled, seq, text, states, length, kept, ending⟩ : ∃ after,
      handleSequence params true contextOnly (endOf piece reason) output = .ok after ∧
      after.text = output.text ∧ after.incrementalStates = output.incrementalStates ∧
      after.lastTokenIdsLen = output.tokenIds.length ∧
      after.tokenIds = keptTokens params entries reason (output.tokenIds ++ piece) ∧
      (after.finishReason = some .stop ∨ after.finishReason = some .length ↔
        reason = .endId ∨ reason = .stopWords ∨ reason = .length) := by
    cases reason with
    | notFinished => exact absurd rfl finished
    | stopWords =>
      simp only [handleSequence, endOf, finishSequence, words, Except.map, keptTokens]
      cases endingStop (output.tokenIds ++ piece) entries with
      | none | some entry => exact ⟨_, rfl, rfl, rfl, rfl, rfl, by simp⟩
    | _ =>
      simp only [handleSequence, endOf, finishSequence, keptTokens]
      exact ⟨_, rfl, rfl, rfl, rfl, rfl, by simp⟩
  obtain ⟨after, run, facts⟩ := detokenize_ok tokenizer words streaming true handled
  have final : after.text = finalText params entries reason whole := by
    rw [facts.text, finalText, decoded handled text states length kept]
    simp only [Bool.true_eq_false, false_or, ending]
  refine ⟨after, handle_lone rfl rfl seq run, final, ?_⟩
  rw [textDiff, facts.lastTextLen, final, text]

theorem read_parts (tokenizer : Tokenizer State) (pieces : List (List Token)) :
    ∃ diffs after, read tokenizer params true ⟨[output], false, contextOnly⟩ (pieces.map partOf) =
        .ok (diffs, ⟨[after],
          (firstStop tokenizer params entries pieces (output.text, output.incrementalStates)).isSome, contextOnly⟩) ∧
      Streamed tokenizer params entries pieces output diffs after := by
  induction pieces generalizing output with
  | nil => exact ⟨[], output, rfl, nofun, nofun, fun _ => ⟨by simp, by simp, rfl⟩⟩
  | cons piece rest ih =>
    obtain ⟨after, handled, lastTextLen, tokens, facts⟩ := handle_part words output contextOnly tokenizer piece
    have cut := facts.text
    simp only [true_or, if_true] at cut
    have diff : after.textDiff = after.text.drop output.text.length := by rw [textDiff, lastTextLen]
    cases found : stopPlace params entries
        (tokenizer.decodeIncrementally piece output.text output.incrementalStates false).1 with
    | some place =>
      rw [found] at handled
      refine ⟨[(0, after.textDiff)], after, ?_, by simp, ?_, ?_⟩
      · simp only [map_cons, read, Bool.false_eq_true, if_false, handled, Except.bind, Option.isSome_some, read_done,
          Except.map, firstStop, found, if_true]
        rfl
      · intro before whole first
        simp only [firstStop, found, Option.isSome_some, if_true, Option.some.injEq, Prod.mk.injEq] at first
        obtain ⟨rfl, rfl⟩ := first
        exact ⟨cut, by simp [diff, cut], facts.stopped rfl (by simp [found])⟩
      · simp [firstStop, found]
    | none =>
      rw [found] at handled
      have text : after.text = (tokenizer.decodeIncrementally piece output.text output.incrementalStates false).1 := by
        rw [cut, cutText, found]
      have grown : output.text ++ after.textDiff = after.text := by
        rw [diff, text]
        simp [Tokenizer.decodeIncrementally]
      have fed : (after.text, after.incrementalStates) =
          tokenizer.decodeIncrementally piece output.text output.incrementalStates false := by
        rw [text, facts.states]
      obtain ⟨diffs, last, run, own, stopped, going⟩ := ih after
      rw [fed] at run stopped going
      have later : firstStop tokenizer params entries (piece :: rest) (output.text, output.incrementalStates) =
          firstStop tokenizer params entries rest
            (tokenizer.decodeIncrementally piece output.text output.incrementalStates false) := by
        simp [firstStop, found]
      refine ⟨(0, after.textDiff) :: diffs, last, ?_, forall_mem_cons.mpr ⟨rfl, own⟩, ?_, ?_⟩
      · simp only [map_cons, read, Bool.false_eq_true, if_false, handled, Except.bind, Option.isSome_none, run, Except.map,
          later]
        rfl
      · intro before whole first
        obtain ⟨final, total, reason⟩ := stopped before whole (later ▸ first)
        refine ⟨final, ?_, reason⟩
        rw [← total, ← grown]
        simp
      · intro none_found
        obtain ⟨all, total, states⟩ := going (later ▸ none_found)
        refine ⟨?_, ?_, states⟩
        · rw [all, tokens]
          simp
        · rw [← total, ← grown]
          simp

end

end LoneCandidate

section Agreement
variable {State : Type} (tokenizer : Tokenizer State) (params : SamplingParams)

def DoneInTime (streaming : Bool) (responses : List Response) : Prop :=
  ∀ count diffs result, read tokenizer params streaming (GenerationResult.start params) (responses.take count) = .ok (diffs, result) →
    result.done = true → (∃ response ∈ responses.take count, response.isFinal = true) ∨
      ∀ output ∈ result.outputs, ∃ word, output.stopReason = some (.word word)

structure Agree (streamed joined : List Response) : Prop where
  texts : ∃ diffs result others whole,
    read tokenizer params true (GenerationResult.start params) streamed = .ok (diffs, result) ∧
    read tokenizer params false (GenerationResult.start params) joined = .ok (others, whole) ∧
    ∀ index < params.n, ∃ text, (result.outputs[index]?).map CompletionOutput.text = some text ∧
      (whole.outputs[index]?).map CompletionOutput.text = some text ∧
      ((diffs.filter fun diff => diff.1 = index).map Prod.snd).flatten = text
  streaming : DoneInTime tokenizer params true streamed
  waiting : DoneInTime tokenizer params false joined

section
variable (entries : List (StopReason × List Token)) (pieces : List (List Token)) (last : List Token) (reason : FinishReason)

def answerText : Text :=
  finalText params entries reason (tokenizer.decode (keptTokens params entries reason (pieces.flatten ++ last)))

-- The text read before the response that ends the reading, and the text with it. Kept tokens of earlier responses
-- are not fed again.
def endingTexts : Text × Text :=
  match firstStop tokenizer params entries pieces ([], none) with
  | some (before, whole) => (before, cutText params entries whole)
  | none =>
    ((tokenizer.feed pieces ([], none)).1, finalText params entries reason (tokenizer.decode
      (pieces.flatten ++ (keptTokens params entries reason (pieces.flatten ++ last)).drop pieces.flatten.length)))

-- Nothing is cut off that has been read, and the stop string or stop word is the one that ends the whole answer.
def ReadsAnswer : Prop :=
  (endingTexts tokenizer params entries pieces last reason).2 = answerText tokenizer params entries pieces last reason ∧
    (endingTexts tokenizer params entries pieces last reason).1 <+: answerText tokenizer params entries pieces last reason

instance : Decidable (ReadsAnswer tokenizer params entries pieces last reason) :=
  inferInstanceAs (Decidable (_ ∧ _))

end

variable {tokenizer params} {entries : List (StopReason × List Token)}

section
variable (words : params.getStopReasonsAndWords = .ok entries) (pieces : List (List Token)) (last : List Token)

include words

theorem parts_done_in_time (lone : params.n = 1) (reason : FinishReason) :
    DoneInTime tokenizer params true (pieces.map partOf ++ [endOf last reason]) := by
  intro count diffs result run done
  by_cases early : count ≤ pieces.length
  · right
    rw [take_append_of_le_length (by simpa using early), ← map_take] at run
    obtain ⟨others, after, run_parts, _, stopped, _⟩ :=
      read_parts words ({} : CompletionOutput State) false tokenizer (pieces.take count)
    simp only [start, lone, replicate_one] at run
    rw [run_parts] at run
    cases run
    obtain ⟨⟨before, whole⟩, first⟩ := Option.isSome_iff_exists.mp done
    intro output mem
    rw [mem_singleton.mp mem]
    exact (stopped before whole first).2.2
  · left
    refine ⟨endOf last reason, ?_, rfl⟩
    rw [take_of_length_le (by simp; omega)]
    simp

theorem streamed_text (faithful : tokenizer.Faithful) {reason : FinishReason} (finished : reason ≠ .notFinished) :
    ∃ diffs output, read tokenizer params true ⟨[{}], false, false⟩ (pieces.map partOf ++ [endOf last reason]) =
        .ok (diffs, ⟨[output], true, false⟩) ∧ (∀ diff ∈ diffs, diff.1 = 0) ∧
      output.text = (endingTexts tokenizer params entries pieces last reason).2 ∧
      (diffs.map Prod.snd).flatten = (endingTexts tokenizer params entries pieces last reason).1 ++
        output.text.drop (endingTexts tokenizer params entries pieces last reason).1.length := by
  obtain ⟨diffs, after, run, own, stopped, going⟩ :=
    read_parts words ({} : CompletionOutput State) false tokenizer pieces
  have joined := read_append _ _ (pieces.map partOf) [endOf last reason] diffs run
  cases first : firstStop tokenizer params entries pieces ([], none) with
  | some texts =>
    obtain ⟨text, total, _⟩ := stopped texts.1 texts.2 first
    simp only [first, Option.isSome_some] at joined
    refine ⟨diffs, after, ?_, own, ?_, ?_⟩
    · rw [joined, read_done rfl]
      simp [Except.map]
    · simp [endingTexts, first, text]
    · simpa [endingTexts, first, text] using total
  | none =>
    obtain ⟨tokens, total, states⟩ := going first
    simp only [nil_append] at tokens total
    obtain ⟨fedText, fedStates⟩ := Prod.mk.inj states
    simp only [first, Option.isSome_none] at joined
    obtain ⟨final, handled, text, diff⟩ := handle_end words after false tokenizer true last finished
      (tokenizer.decode (pieces.flatten ++ (keptTokens params entries reason (pieces.flatten ++ last)).drop pieces.flatten.length)) (by
      intro handled sameText sameStates length sameTokens
      rw [tokens] at length sameTokens
      rw [← faithful pieces]
      simp only [decodedText, if_true, tokenIdsDiff, sameText, sameStates, length, sameTokens, fedText, fedStates])
    refine ⟨diffs ++ [(0, final.textDiff)], final, ?_, ?_, ?_, ?_⟩
    · rw [joined]
      simp only [read, Bool.false_eq_true, if_false, handled, Except.bind, Except.map]
      rfl
    · exact fun diff mem => (mem_append.mp mem).elim (own diff) fun there => by
        rw [mem_singleton.mp there]
    · simp only [endingTexts, first, text]
    · rw [map_append, flatten_append, total, map_singleton, flatten_singleton, diff, text]
      simp only [endingTexts, first, fedText]

theorem joined_text (tokenizer : Tokenizer State) {reason : FinishReason} (finished : reason ≠ .notFinished) :
    ∃ diffs output, read tokenizer params false ⟨[{}], false, false⟩ [endOf (pieces.flatten ++ last) reason] =
        .ok (diffs, ⟨[output], true, false⟩) ∧ output.text = answerText tokenizer params entries pieces last reason := by
  obtain ⟨output, handled, text, _⟩ := handle_end words ({} : CompletionOutput State) false tokenizer false
    (pieces.flatten ++ last) finished (tokenizer.decode (keptTokens params entries reason (pieces.flatten ++ last))) (by
      intro handled _ _ _ tokens
      simp [decodedText, tokens])
  refine ⟨[(0, output.textDiff)], output, ?_, text⟩
  simp only [read, Bool.false_eq_true, if_false, handled, Except.bind, Except.map]
  rfl

end

end Agreement

def letters : Tokenizer Unit := ⟨fun ids => ids.map Char.ofNat, fun ids _ _ => (ids.map Char.ofNat, ())⟩

theorem letters_feed (pieces : List (List Token)) (seen : Text × Option Unit) :
    (letters.feed pieces seen).1 = seen.1 ++ pieces.flatten.map Char.ofNat := by
  induction pieces generalizing seen with
  | nil => simp [Tokenizer.feed]
  | cons piece rest ih =>
    rw [Tokenizer.feed, ih]
    simp [Tokenizer.decodeIncrementally, letters]

theorem letters_faithful : letters.Faithful := by
  intro pieces last
  simp only [Tokenizer.decodeIncrementally, letters_feed]
  simp [letters]

end TrtLlm.Result
