import C3RSpec.Base.Bytes
import C3RSpec.Base.JsonParse

/-!
# Frames of the response stream

`c3r/http_service.py:230–240` and `c3r/telemetry/invocations.py:25–34`. An event becomes one frame:
its name, and its data with the counters of the request in the response object. Writing an integer
of too many digits and encoding an unpaired surrogate raise.
-/

namespace C3RSpec.Service

open Base

/-- The members of an object, in order. -/
abbrev Members := List (Text × Json)

/-- `d[key] = value`: in place, or at the end. -/
def assign (key : Text) (value : Json) : Members → Members
  | [] => [(key, value)]
  | e :: rest => if e.1 = key then (key, value) :: rest else e :: assign key value rest

/-- The counters of `capture_invocations`. -/
structure Invocations where
  systemOne : Nat
  systemTwo : Nat

/-- The counters, merged into the metadata of a response. -/
def Invocations.into (counts : Invocations) (metadata : Members) : Members :=
  assign "invocation_basis" (.str "adapter_transport_attempts")
    (assign "system_two_invocations" (.int counts.systemTwo)
      (assign "system_one_invocations" (.int counts.systemOne) metadata))

/-- `with_invocations`. -/
def withInvocations (counts : Invocations) (value : Members) : Members :=
  match (Json.obj value).get? "c3r" with
  | some (.obj metadata) => assign "c3r" (.obj (counts.into metadata)) value
  | _ => assign "c3r" (.obj (counts.into [])) value

section Render

variable [FloatText]

/-- `json.dumps(value, separators=(",", ":"), ensure_ascii=…)`. -/
def dumpsCompact (ensureAscii : Bool) (j : Json) : Except PyError Text :=
  if j.allShort then .ok (j.render ensureAscii) else .error tooManyDigits

/-- `text.encode("utf-8")`. -/
def encode (t : Text) : Except PyError Bytes :=
  match t.encodeUtf8 with
  | .ok bytes => .ok bytes.data.toList
  | .error e => .error e

/-- An event: its name and its data. -/
abbrev StreamEvent := Text × Members

/-- The data that goes into the frame. -/
def annotated (counts : Invocations) (data : Members) : Members :=
  match (Json.obj data).get? "response" with
  | some (.obj response) => assign "response" (.obj (withInvocations counts response)) data
  | _ => data

/-- The text of a frame. -/
def frameText (name json : Text) : Text :=
  Text.ofString "event: " ++ name ++ Text.ofString "\ndata: " ++ json ++ Text.ofString "\n\n"

/-- The frame of an event. -/
def frame (counts : Invocations) (event : StreamEvent) : Except PyError Bytes := do
  let json ← dumpsCompact false (.obj (annotated counts event.2))
  encode (frameText event.1 json)

end Render

end C3RSpec.Service
