import C3RSpec.Base.JsonAccess
import C3RSpec.Base.Loop
import C3RSpec.Base.Prog
import C3RSpec.SystemOne.ClmAdapter

/-!
# A ranking request over the wire

`c3r/system_one/clm_adapter.py:90–176`, with the calls that a request makes in their order: the
clock where there is a deadline, the count of the attempt, and then the configured transport or an
HTTP request. The endpoint and the headers play no part.
-/

namespace C3RSpec.SystemOne

open Base C3RSpec.Runtime

/-- What a ranking request asks of its host: the clock, the count of an attempt, the configured
transport, or the bytes that the server answers to an HTTP request, read up to one more than is
allowed. -/
inductive RankOp where
  | monotonic
  | attempt
  | transport (payload : RankPayload)
  | post (body : ByteArray) (timeout : PyFloat)

/-- The host's answer to an operation. -/
abbrev RankOp.Res : RankOp → Type
  | .monotonic => PyFloat
  | .attempt => Unit
  | .transport _ => Except PyError (Dict Text Json)
  | .post _ _ => Except PyError Bytes

/-- Programs over these operations. -/
abbrev RankProg (α : Type) : Type := Prog RankOp RankOp.Res α

/-- What a `ClmAdapter` that calls its server is configured with. -/
structure ClmCall where
  servedModel : Text := "clm-latest"
  timeoutSeconds : PyFloat := .fin (1 / 2)
  hasTransport : Bool := false

namespace ClmCall

/-- `_MAX_RESPONSE_BYTES`. -/
def maxResponseBytes : Nat := 65536

/-- The checks of `rank_text` on its text. -/
def checkText (context question : Text) : Except PyError Unit := do
  if context = [] then throw (valueError "CLM context must be nonempty and bounded")
  else
    let bytes ← context.encodeUtf8
    if ClmAdapter.maxContextBytes < bytes.size then
      throw (valueError "CLM context must be nonempty and bounded")
    else if question = [] ∨ 1024 < question.length then
      throw (valueError "CLM question must be nonempty and bounded")
    else return ()

/-- The JSON text of a request. -/
def payloadText [FloatText] (payload : RankPayload) : Text :=
  (Json.obj [("context", .str payload.context), ("question", .str payload.question),
    ("answers", .arr (payload.answers.map .str)), ("model", .str payload.model)]).renderSpaced false

section Response

variable [FloatText] [JsonLimits] [JsonBytes]

/-- The checks of `_post` on what the server answers. -/
def parseBody (body : Bytes) : Except PyError (Dict Text Json) :=
  if maxResponseBytes < body.length then
    .error (valueError "CLM response exceeds the allowed size")
  else do
    match ← loadsBytes body with
    | .obj es => return Dict.ofList es
    | _ => throw (valueError "CLM returned a non-object response")

variable (call : ClmCall)

/-- `_post`. -/
def post (payload : RankPayload) (timeout : PyFloat) : RankProg (Dict Text Json) := do
  let body ← Prog.ofExcept (payloadText payload).encodeUtf8
  let answer ← Prog.perform (.post body timeout)
  Prog.ofExcept (answer >>= parseBody)

/-- The seconds that are left. -/
def remaining (deadline : Option PyFloat) : RankProg PyFloat :=
  match deadline with
  | none => return call.timeoutSeconds
  | some deadline => do
    let now ← Prog.perform .monotonic
    return firstMin PyFloat.lt call.timeoutSeconds [PyFloat.sub deadline now]

/-- The server's object, through the configured transport or over HTTP. -/
def exchange (payload : RankPayload) (timeout : PyFloat) : RankProg (Dict Text Json) := do
  if call.hasTransport then
    let answer ← Prog.perform (.transport payload)
    Prog.ofExcept answer
  else post payload timeout

/-- `_rank` after its checks of the options. -/
def request (context question : Text) (options : List Text) (deadline : Option PyFloat) :
    RankProg (List PyFloat) := do
  let left ← call.remaining deadline
  if PyFloat.le left (.fin 0) then throw ⟨.osError, "CLM decision deadline exceeded"⟩
  else
    Prog.perform RankOp.attempt
    let response ← call.exchange ⟨context, question, options, call.servedModel⟩ left
    Prog.ofExcept (ClmAdapter.checkResponse call.servedModel options response)

/-- `_rank`. -/
def rank (context question : Text) (options : List Text) (deadline : Option PyFloat) :
    RankProg (List PyFloat) := do
  Prog.ofExcept (ClmAdapter.checkOptions options)
  call.request context question options deadline

/-- `rank_text`. -/
def rankText (context question : Text) (options : List Text) (deadline : Option PyFloat) :
    RankProg (List PyFloat) := do
  Prog.ofExcept (checkText context question)
  call.rank context question options deadline

end Response

end ClmCall

namespace ClmAdapter

/-- An accepted response names the model and ranks as many items as there are options. -/
theorem checkResponse_eq_ok_iff {servedModel : Text} {options : List Text}
    {response : Dict Text Json} {scores : List PyFloat} :
    checkResponse servedModel options response = .ok scores ↔
      response.get? "model" = some (.str servedModel) ∧ ∃ ranked,
        response.get? "ranked" = some (.arr ranked) ∧ ranked.length = options.length ∧
          checkRanking options ranked = .ok scores := by
  unfold checkResponse
  split
  · next model hmodel =>
    rw [hmodel]
    by_cases hserved : model = servedModel
    · rw [if_neg (not_not.mpr hserved), hserved]
      split
      · next ranked hranked =>
        rw [hranked]
        by_cases hlength : ranked.length = options.length <;> simp [hlength, valueError]
      · next hnone =>
        refine iff_of_false (fun h ↦ by cases h) ?_
        rintro ⟨-, ranked, hranked, -⟩
        exact hnone ranked hranked
    · rw [if_pos hserved]
      refine iff_of_false (fun h ↦ by cases h) ?_
      rintro ⟨hmodel, -⟩
      exact hserved (Json.str.inj (Option.some.inj hmodel))
  · next hnone =>
    refine iff_of_false (fun h ↦ by cases h) ?_
    rintro ⟨hmodel, -⟩
    exact hnone servedModel hmodel

/-- What the checks of a ranking compute: each option's share of the total. -/
theorem checkRanking_eq_ok_iff {options : List Text} {ranked : List Json} {scores : List PyFloat} :
    checkRanking options ranked = .ok scores ↔
      ∃ probabilities, ranked.foldlM (addItem options) ∅ = .ok probabilities ∧
        sumsToOne (total probabilities) = true ∧
        List.Forall₂ (fun option score ↦ share probabilities (total probabilities) option = .ok score)
          options scores := by
  rw [checkRanking, bind_eq_ok]
  refine exists_congr fun probabilities ↦ and_congr_right fun _ ↦ ?_
  rw [← mapM_eq_ok_iff]
  by_cases hsum : sumsToOne (total probabilities) = true
  · simp [hsum]
  · rw [if_neg hsum]
    exact iff_of_false (fun h ↦ by cases h) fun h ↦ hsum h.1

/-- A ranking has a score for each option. -/
theorem length_of_checkResponse {servedModel : Text} {options : List Text}
    {response : Dict Text Json} {scores : List PyFloat}
    (h : checkResponse servedModel options response = .ok scores) :
    scores.length = options.length := by
  obtain ⟨-, ranked, -, -, hranking⟩ := checkResponse_eq_ok_iff.mp h
  obtain ⟨_, -, -, hshares⟩ := checkRanking_eq_ok_iff.mp hranking
  exact hshares.length_eq.symm

end ClmAdapter

end C3RSpec.SystemOne
