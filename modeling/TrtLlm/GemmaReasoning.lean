import TrtLlm.Lib.Delimiter

set_option autoImplicit false

namespace TrtLlm.Reasoning
open Lib.Delimiter

structure ReasoningParserResult where
  content : List Char := []
  reasoningContent : List Char := []
  deriving DecidableEq, Repr

instance : Append ReasoningParserResult where
  append a b := ⟨a.content ++ b.content, a.reasoningContent ++ b.reasoningContent⟩

theorem result_append_assoc (a b c : ReasoningParserResult) : a ++ b ++ c = a ++ (b ++ c) :=
  congrArg₂ ReasoningParserResult.mk (List.append_assoc ..) (List.append_assoc ..)

theorem append_def (a b : ReasoningParserResult) :
    a ++ b = ⟨a.content ++ b.content, a.reasoningContent ++ b.reasoningContent⟩ := rfl

structure Gemma4ReasoningParser where
  inReasoning : Bool := false
  buffer : List Char := []
  deriving DecidableEq, Repr

namespace Gemma4ReasoningParser

def channelOpen : List Char := "<|channel>".toList

def channelClose : List Char := "<channel|>".toList

-- The loop of `parse`, on the text from a position on.
def parse (text : List Char) : ReasoningParserResult :=
  match _ : find channelOpen text with
  | none => ⟨text, []⟩
  | some openIdx =>
    let body := text.drop (openIdx + channelOpen.length)
    match find channelClose body with
    -- an unterminated channel: the remainder is reasoning
    | none => ⟨text.take openIdx, body⟩
    | some closeIdx => ⟨text.take openIdx, body.take closeIdx⟩ ++ parse (body.drop (closeIdx + channelClose.length))
termination_by text.length
decreasing_by
  have inside := (find_append _ _ [] _ ‹find channelOpen text = _›).2
  have size : channelOpen.length = 10 := by decide
  simp only [List.length_drop]
  omega

variable (inReasoning : Bool)

def delimiter : List Char := if inReasoning then channelClose else channelOpen

def part (text : List Char) : ReasoningParserResult :=
  if inReasoning then ⟨[], text⟩ else ⟨text, []⟩

theorem delimiter_length : (delimiter inReasoning).length = 10 := by
  cases inReasoning <;> decide

-- The loop of `parse_delta`.
def deltaLoop (inReasoning : Bool) (buffer : List Char) : Gemma4ReasoningParser × ReasoningParserResult :=
  match _ : find (delimiter inReasoning) buffer with
  | none =>
    let hold := partialSuffixLen buffer (delimiter inReasoning)
    let emitLen := buffer.length - hold
    (⟨inReasoning, buffer.drop emitLen⟩, part inReasoning (buffer.take emitLen))
  | some idx =>
    let later := deltaLoop (!inReasoning) (buffer.drop (idx + (delimiter inReasoning).length))
    (later.1, part inReasoning (buffer.take idx) ++ later.2)
termination_by buffer.length
decreasing_by
  have inside := (find_append _ _ [] _ ‹find _ buffer = _›).2
  have size := delimiter_length inReasoning
  simp only [List.length_drop]
  omega

def parseDelta (p : Gemma4ReasoningParser) (deltaText : List Char) : Gemma4ReasoningParser × ReasoningParserResult :=
  deltaLoop p.inReasoning (p.buffer ++ deltaText)

def finish (p : Gemma4ReasoningParser) : ReasoningParserResult := part p.inReasoning p.buffer

-- The deltas, then `finish`, concatenated.
def stream (p : Gemma4ReasoningParser) : List (List Char) → ReasoningParserResult
  | [] => p.finish
  | delta :: rest => (p.parseDelta delta).2 ++ (p.parseDelta delta).1.stream rest

-- What a text is worth to a parser that reads it at once.
def whole (text : List Char) : ReasoningParserResult :=
  (deltaLoop inReasoning text).2 ++ (deltaLoop inReasoning text).1.finish

theorem part_append (a b : List Char) : part inReasoning a ++ part inReasoning b = part inReasoning (a ++ b) := by
  cases inReasoning <;> rfl

theorem whole_none (inReasoning : Bool) (text : List Char) (absent : find (delimiter inReasoning) text = none) :
    whole inReasoning text = part inReasoning text := by
  rw [whole, deltaLoop]
  split
  · rw [finish, part_append, List.take_append_drop]
  · simp_all

theorem whole_some (inReasoning : Bool) (text : List Char) (idx : Nat) (found : find (delimiter inReasoning) text = some idx) :
    whole inReasoning text = part inReasoning (text.take idx) ++
      whole (!inReasoning) (text.drop (idx + (delimiter inReasoning).length)) := by
  rw [whole, deltaLoop]
  split
  · simp_all
  · rename_i other same
    cases found.symm.trans same
    rw [result_append_assoc, whole]

theorem parse_eq_whole (text : List Char) : parse text = whole false text := by
  fun_induction parse text with
  | case1 text opened => exact (whole_none false text opened).symm
  | case2 text openIdx opened body closed =>
    refine .trans ?_ (whole_some false text openIdx opened).symm
    refine .trans ?_ (congrArg _ (whole_none true body closed).symm)
    simp [part, append_def]
  | case3 text openIdx opened body closeIdx closed ih =>
    refine .trans ?_ (whole_some false text openIdx opened).symm
    refine .trans ?_ (congrArg _ (whole_some true body closeIdx closed).symm)
    rw [ih, ← result_append_assoc]
    simp [part, append_def, delimiter]

-- All that no later text can turn into a delimiter has been emitted.
theorem delta_loop_whole (inReasoning : Bool) (buf more : List Char) :
    whole inReasoning (buf ++ more) = (deltaLoop inReasoning buf).2 ++
      whole (deltaLoop inReasoning buf).1.inReasoning ((deltaLoop inReasoning buf).1.buffer ++ more) := by
  fun_induction deltaLoop inReasoning buf with
  | case1 inReasoning buf absent hold emitLen =>
    have held := find_held _ buf more absent emitLen rfl
    change whole _ _ = part inReasoning (buf.take emitLen) ++ whole inReasoning (buf.drop emitLen ++ more)
    cases later : find (delimiter inReasoning) (buf.drop emitLen ++ more) with
    | none =>
      rw [later] at held
      rw [whole_none _ _ held, whole_none _ _ later, part_append, ← List.append_assoc, List.take_append_drop]
    | some idx =>
      rw [later] at held
      have short : emitLen ≤ buf.length := Nat.sub_le _ _
      rw [whole_some _ _ _ held, whole_some _ _ _ later, ← result_append_assoc, part_append]
      have ahead : (buf ++ more).drop emitLen = buf.drop emitLen ++ more := List.drop_append_of_le_length short
      rw [← ahead, ← List.take_append_of_le_length short, ← List.take_add, List.drop_drop, Nat.add_assoc]
  | case2 inReasoning buf idx found later ih =>
    have ⟨stays, fits⟩ := find_append _ buf more idx found
    rw [whole_some _ _ _ stays, List.take_append_of_le_length (by omega), List.drop_append_of_le_length fits, ih, ← result_append_assoc]

theorem delta_loop_waits (inReasoning : Bool) (buf : List Char) :
    find (delimiter (deltaLoop inReasoning buf).1.inReasoning) (deltaLoop inReasoning buf).1.buffer = none := by
  fun_induction deltaLoop inReasoning buf with
  | case1 inReasoning buf absent hold emitLen =>
    rw [find_none] at absent ⊢
    intro i
    rw [List.drop_drop]
    exact absent _
  | case2 inReasoning buf idx found later ih => exact ih

theorem stream_whole (p : Gemma4ReasoningParser) (waits : find (delimiter p.inReasoning) p.buffer = none)
    (deltas : List (List Char)) : p.stream deltas = whole p.inReasoning (p.buffer ++ deltas.flatten) := by
  induction deltas generalizing p with
  | nil => simp [stream, finish, whole_none _ _ waits]
  | cons delta rest ih =>
    rw [stream, parseDelta, ih _ (delta_loop_waits _ _), List.flatten_cons, ← List.append_assoc]
    exact (delta_loop_whole _ _ _).symm

theorem gemma_chunks (deltas : List (List Char)) : stream {} deltas = parse deltas.flatten := by
  rw [parse_eq_whole, stream_whole {} (by decide)]
  rfl

end Gemma4ReasoningParser

end TrtLlm.Reasoning
