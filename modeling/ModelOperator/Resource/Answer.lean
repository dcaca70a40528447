import ModelOperator.Duration
import ModelOperator.Inference.Wire
import ModelOperator.Resource.Conversation
import ModelOperator.Resource.Prompt
import ModelOperator.Text.Blank

/-!
# Recorded answers

    What a prompt keeps of a reply: the text without blanks at its end, the state of the
    conversation, when it was made, and the server's measurements in readable form. -/

namespace ModelOperator

/-- The largest count that is recorded. -/
def largestCount : Nat := 9223372036854775807

/-- A duration in seconds, rounded like a sum of its whole seconds and the rest. -/
def secondsOf (nanos : Nat) : Option Binary64 := do
  let whole ← Binary64.ofNat (nanos / Duration.second)
  let part ← (← Binary64.ofNat (nanos % Duration.second)).div (← Binary64.ofNat Duration.second)
  whole.addMagnitudes part

/-- How many tokens a second, with two places. -/
def tokenRate (count nanos : Nat) : String :=
  let rate : Option Binary64 := do (← Binary64.ofNat count).div (← secondsOf nanos)
  match rate with
  | none => "0.00 tokens/s"
  | some x =>
    let (num, den) := x.ratio
    String.ofList (fixedPlaces num den 2) ++ " tokens/s"

/-- A duration in readable form. -/
def durationText (nanos : Nat) : String := Duration.text ⟨nanos⟩

/-- The measurements in a reply. -/
def Inference.GenerateReply.metrics (r : Inference.GenerateReply) : ResponseMetrics where
  totalDuration := durationText r.totalDuration
  loadDuration := durationText r.loadDuration
  promptEvalCount := (min r.promptEvalCount largestCount : Nat)
  promptEvalDuration := durationText r.promptEvalDuration
  promptEvalRate := tokenRate r.promptEvalCount r.promptEvalDuration
  evalCount := (min r.evalCount largestCount : Nat)
  evalDuration := durationText r.evalDuration
  evalRate := tokenRate r.evalCount r.evalDuration

/-- A status with a reply recorded. -/
def PromptStatus.record (s : PromptStatus) (r : Inference.GenerateReply) : PromptStatus :=
  { s with
    context := Conversation.encode r.context
    response := trimTextEnd r.response
    responseMeta := some ⟨r.createdAt⟩
    metrics := some r.metrics }

end ModelOperator
