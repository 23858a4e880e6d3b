import C3RSpec.SystemOne.RankCall

/-!
# Typed inference

`c3r/system_one/inference.py:13–148`. A payload asks to rank candidates or to answer questions; it
is checked as a whole before the first ranking request.
-/

namespace C3RSpec.SystemOne

open Base C3RSpec.Runtime

namespace SystemOneInference

/-- `_text`. -/
def text (limit : Nat) : Json → Except PyError Text
  | .str t =>
    if isBlankText t || limit < t.length then .error (valueError "nonempty bounded text required")
    else .ok t
  | _ => .error (valueError "nonempty bounded text required")

/-- `_mapping`. -/
def mapping : Json → Except PyError (Dict Text Json)
  | .obj es => .ok (Dict.ofList es)
  | _ => .error (valueError "object required")

/-- `_list`. -/
def list : Json → Except PyError (List Json)
  | .arr xs => .ok xs
  | _ => .error (valueError "array required")

/-! ### Questions -/

/-- A question that is ready to be asked. -/
structure Prepared where
  name : Text
  kind : Text
  prompt : Text
  keys : List Text
  options : List Text

/-- The options of a choice: the descriptions of its keys. -/
def choiceOptions (raw : Json) : Except PyError (List Text × List Text) := do
  let raw ← mapping raw
  if raw.size < 2 ∨ 64 < raw.size then throw (valueError "choice requires option descriptions")
  else
    let keys ← raw.keys.mapM fun key ↦ text 128 (.str key)
    let options ← raw.values.mapM (text 1024)
    return (keys, options)

/-- The keys of a boolean question. -/
def booleanKeys : List Text := ["false", "true"]

/-- The options of a boolean question: its criteria, or two sentences about the prompt. -/
def booleanOptions (prompt : Text) : Json → Except PyError (List Text × List Text)
  | .null => .ok (booleanKeys,
      [Text.ofString "false: No. This is false: " ++ prompt,
        Text.ofString "true: Yes. This is true: " ++ prompt])
  | raw => do
    let raw ← mapping raw
    if raw.size ≠ 2 ∨ booleanKeys.any (fun key ↦ (raw.get? key).isNone) then
      throw (valueError "boolean criteria require false and true")
    else
      let options ← booleanKeys.mapM fun key ↦ text 1024 ((raw.get? key).getD .null)
      return (booleanKeys, options)

/-- The options of a score: its levels, under their indices. -/
def scoreOptions (raw : Json) : Except PyError (List Text × List Text) := do
  let raw ← list raw
  if raw.length < 2 ∨ 64 < raw.length then throw (valueError "score requires ordered levels")
  else
    let options ← raw.mapM (text 1024)
    return ((List.range options.length).map decimal, options)

/-- `kind in {"boolean", "noul"}`. -/
def isBooleanKind (kind : Text) : Bool :=
  decide (kind = Text.ofString "boolean") || decide (kind = Text.ofString "noul")

/-- The keys and options by the type of the question. -/
def kindOptions (kind prompt : Text) (raw : Json) : Except PyError (List Text × List Text) :=
  if kind = "choice" then choiceOptions raw
  else if isBooleanKind kind then booleanOptions prompt raw
  else if kind = "score" then scoreOptions raw
  else .error (valueError "unsupported question type")

/-- The type of a question; an array or an object is no member of a set. -/
def questionKind : Option Json → Except PyError Text
  | some (.str kind) => .ok kind
  | some (.arr _) | some (.obj _) => .error ⟨.typeError, "unhashable type"⟩
  | some .null | some (.bool _) | some (.int _) | some (.float _) | none =>
    .error (valueError "unsupported question type")

/-- `value.get("options", value.get("criteria"))`. -/
def rawOptions (value : Dict Text Json) : Json :=
  (value.get? "options").getD ((value.get? "criteria").getD .null)

/-- The fields of a question. -/
def questionFields : List Text := ["type", "options", "criteria", "instructions"]

/-- The options of a question are distinct and short. -/
def checkUnique (options : List Text) : Except PyError Unit :=
  if ¬options.Nodup ∨ options.any (fun option ↦ decide (1024 < option.length)) then
    .error (valueError "options must be unique and bounded")
  else .ok ()

/-- The body of the loop that prepares the questions. -/
def prepare (name : Text) (value : Json) : Except PyError Prepared := do
  let name ← text 128 (.str name)
  let value ← mapping value
  if value.keys.any fun key ↦ decide (key ∉ questionFields) then throw (valueError "invalid question")
  else
    let prompt ← text 1024 ((value.get? "instructions").getD (.str name))
    if (value.get? "options").isSome && (value.get? "criteria").isSome then
      throw (valueError "ambiguous options")
    else
      let kind ← questionKind (value.get? "type")
      let (keys, options) ← kindOptions kind prompt (rawOptions value)
      checkUnique options
      return ⟨name, kind, prompt, keys, options⟩

/-! ### Payloads -/

/-- What is ranked: candidates, or the options of questions. -/
inductive Plan where
  | candidates (options : List Text)
  | questions (prepared : List Prepared)

/-- The fields of a payload. -/
def payloadFields : List Text := ["model", "state", "questions", "candidates"]

/-- The models that rank. -/
def rankingModels : List Text := ["c3r-system-one", "c3r-verifier"]

/-- `model` is one of the models; an array or an object is no member of a set. -/
def checkModel : Json → Except PyError Text
  | .str model =>
    if model ∈ rankingModels then .ok model else .error (valueError "unsupported ranking model")
  | .arr _ | .obj _ => .error ⟨.typeError, "unhashable type"⟩
  | .null | .bool _ | .int _ | .float _ => .error (valueError "unsupported ranking model")

/-- The candidates of a payload. -/
def checkCandidates (raw : Json) : Except PyError (List Text) := do
  let raw ← list raw
  if raw.length < 1 ∨ 64 < raw.length then throw (valueError "candidate count out of bounds")
  else
    let options ← raw.mapM (text 1024)
    if ¬options.Nodup then throw (valueError "candidates must be unique")
    else return options

/-- The questions of a payload. -/
def checkQuestions (raw : Json) : Except PyError (List Prepared) := do
  let questions ← mapping raw
  if questions.size < 1 ∨ 16 < questions.size then
    throw (valueError "question count out of bounds")
  else
    let prepared ← questions.entries.mapM fun e ↦ prepare e.1 e.2
    if 64 < (prepared.map fun q ↦ q.options.length).sum then
      throw (valueError "total options exceeds budget")
    else return prepared

/-- The checks after the deadline is set. -/
def plan (payload : Dict Text Json) : Except PyError Plan :=
  match payload.get? "candidates" with
  | some raw => .candidates <$> checkCandidates raw
  | none => .questions <$> checkQuestions ((payload.get? "questions").getD .null)

section Payload

variable [FloatText] [JsonLimits]

/-- The context of the requests: an object is written as JSON, a text stays as it is. -/
def stateText : Option Json → Except PyError Text
  | some (.obj es) => dumpsSpaced (.obj es)
  | some state => text 32768 state
  | none => text 32768 .null

/-- The checks before the deadline is set: the model and the context. -/
def preamble (payload : Dict Text Json) : Except PyError (Text × Text) := do
  if payload.keys.any fun key ↦ decide (key ∉ payloadFields) then
    throw (valueError "unsupported System-One fields")
  else
    let model ← checkModel ((payload.get? "model").getD (.str (Text.ofString "c3r-system-one")))
    let context ← stateText (payload.get? "state")
    let bytes ← context.encodeUtf8
    if 32768 < bytes.size then throw (valueError "state too large")
    else if (payload.get? "questions").isSome == (payload.get? "candidates").isSome then
      throw (valueError "provide either questions or candidates")
    else return (model, context)

end Payload

/-! ### Answers -/

/-- The answer to a question. -/
structure Answer where
  scores : Dict Text PyFloat
  choice : Option Text := none
  score : Option PyFloat := none

/-- The result: candidates by descending score, or an answer for each question. -/
inductive Scored where
  | ranked (candidates : List (Text × PyFloat))
  | answers (answers : Dict Text Answer)

/-- What `infer` returns. -/
structure InferenceResult where
  model : Text
  provider : Text := "clm"
  calibrated : Bool := false
  effectExecuted : Bool := false
  scope : Text := "advisory_only"
  scored : Scored

/-- `sorted(pairs, key=lambda pair: pair[1], reverse=True)`. -/
def sortedByScore (pairs : List (Text × PyFloat)) : List (Text × PyFloat) :=
  pairs.insertionSort fun a b ↦ PyFloat.le b.2 a.2 = true

/-- `keys[max(range(len(scores)), key=lambda index: scores[index])]`. -/
def bestKey (keys : List Text) (scores : List PyFloat) : Except PyError Text :=
  match scores.zipIdx with
  | [] => .error (valueError "max() iterable argument is empty")
  | first :: rest =>
    match keys[(firstMax (fun a b ↦ PyFloat.lt a.1 b.1) first rest).2]? with
    | some key => .ok key
    | none => .error ⟨.indexError, "tuple index out of range"⟩

/-- `sum(index * score for index, score in enumerate(scores))`. -/
def expectedLevel (scores : List PyFloat) : PyFloat :=
  (scores.zipIdx.map fun p ↦ PyFloat.mul (.fin p.2) p.1).foldl PyFloat.add (.fin 0)

/-- The answer from the scores of the options. -/
def answerOf (question : Prepared) (scores : List PyFloat) : Except PyError Answer :=
  let byKey := Dict.ofList (question.keys.zip scores)
  if question.kind = "choice" then do
    let choice ← bestKey question.keys scores
    return { scores := byKey, choice := some choice }
  else if isBooleanKind question.kind then
    match scores[1]? with
    | some score => .ok { scores := byKey, score := some score }
    | none => .error ⟨.indexError, "tuple index out of range"⟩
  else .ok { scores := byKey, score := some (expectedLevel scores) }

/-- Membership in `except (OSError, TypeError, ValueError, KeyError)`. -/
def isRankFailure (e : PyError) : Bool :=
  match e.kind with
  | .osError | .typeError | .valueError | .unicodeEncodeError | .keyError => true
  | .indexError | .attributeError | .runtimeError | .overflowError | .sqliteError | .httpException
  | .recursionError | .driverError | .other => false

section Infer

variable [FloatText] [JsonLimits] [JsonBytes] (call : ClmCall)

/-- `_rank`. -/
def rank (context question : Text) (options : List Text) (deadline : PyFloat) :
    RankProg (List PyFloat) :=
  tryCatch (call.rankText context question options (some deadline)) fun e ↦
    if isRankFailure e then throw ⟨.runtimeError, "CLM inference unavailable"⟩ else throw e

/-- The body of the loop that asks the questions. -/
def askQuestion (context : Text) (deadline : PyFloat) (answers : Dict Text Answer)
    (question : Prepared) : RankProg (Dict Text Answer) := do
  let scores ← rank call context question.prompt question.options deadline
  let answer ← Prog.ofExcept (answerOf question scores)
  return answers.insert question.name answer

/-- The ranking requests of a payload that passed its checks. -/
def execute (model context : Text) (deadline : PyFloat) : Plan → RankProg InferenceResult
  | .candidates options => do
    let scores ← rank call context "NEXT_ACTION" options deadline
    return { model, scored := .ranked (sortedByScore (options.zip scores)) }
  | .questions prepared => do
    let answers ← prepared.foldlM (askQuestion call context deadline) ∅
    return { model, scored := .answers answers }

/-- `SystemOneInference.infer`. -/
def infer (payload : Dict Text Json) : RankProg InferenceResult := do
  let (model, context) ← Prog.ofExcept (preamble payload)
  let now ← Prog.perform .monotonic
  let plan ← Prog.ofExcept (plan payload)
  execute call model context (PyFloat.add now call.timeoutSeconds) plan

end Infer

end SystemOneInference

end C3RSpec.SystemOne
