import C3RSpec.Base.DateTime
import C3RSpec.Base.JsonAccess
import C3RSpec.Base.UrlQuote
import C3RSpec.Base.WhileLoop

/-!
# The inventory of the trace bucket

`c3r/retention_job.py:34–67,95–171`. The transport lists the bucket page by page: a request with
the token of the page before gives some objects and the token of the next page, and a page without
a token is the last one. A version of an object is addressed by its name and its generation. The
server is any function of the requests so far. `datetime.fromisoformat`, `astimezone` and the
decimal digits of Unicode are parameters.
-/

namespace C3RSpec.Retention

open Base

/-- `StoredObject`. -/
structure StoredObject where
  name : Text
  generation : Int
  createdAt : DateTime

/-- What identifies a version. -/
def StoredObject.key (obj : StoredObject) : Text × Int := (obj.name, obj.generation)

/-- `datetime.fromisoformat`, whether a `datetime` has a `tzinfo`, and `astimezone(UTC)`. -/
class IsoDates where
  Parsed : Type
  fromisoformat : Text → Except PyError Parsed
  hasOffset : Parsed → Bool
  astimezoneUtc : Parsed → Except PyError DateTime

/-- The value of a decimal digit of any script. -/
class DecimalDigits where
  digit : CodePoint → Option Nat

section Metadata

variable [IsoDates] [DecimalDigits]

omit [DecimalDigits] in
/-- `_created_at`. -/
def createdAt (raw : Text) : Except PyError DateTime := do
  let parsed ← IsoDates.fromisoformat raw
  if IsoDates.hasOffset parsed then IsoDates.astimezoneUtc parsed
  else throw (valueError "object creation time must include UTC offset")

omit [IsoDates] in
/-- `text.isdecimal()`. -/
def isDecimal (t : Text) : Bool := !t.isEmpty && t.all fun c ↦ (DecimalDigits.digit c).isSome

omit [IsoDates] in
/-- `int(text)` of decimal digits; the interpreter limits their number. -/
def intOfDecimal (t : Text) : Except PyError Int :=
  if 4300 < t.length then
    .error (valueError "Exceeds the limit (4300 digits) for integer string conversion")
  else .ok (t.foldl (fun n c ↦ 10 * n + ((DecimalDigits.digit c).getD 0 : Nat)) 0)

/-- One element of the list of objects. -/
def storedObject (raw : Json) : Except PyError StoredObject :=
  match raw with
  | .obj es =>
    match (Json.obj es).get? "name", (Json.obj es).get? "timeCreated" with
    | some (.str name), some (.str created) =>
      if name = [] then .error (valueError "invalid GCS object metadata")
      else
        match (Json.obj es).get? "generation" with
        | some (.str generation) =>
          if isDecimal generation then do
            let number ← intOfDecimal generation
            let moment ← createdAt created
            return ⟨name, number, moment⟩
          else .error (valueError "invalid GCS object generation")
        | _ => .error (valueError "invalid GCS object generation")
    | _, _ => .error (valueError "invalid GCS object metadata")
  | _ => .error (valueError "invalid GCS object metadata")

/-- The greatest number of objects. -/
def inventoryLimit : Nat := 100000

/-- `for raw in object_items:` -/
def readItems : List Json → List StoredObject → Except PyError (List StoredObject)
  | [], found => .ok found
  | raw :: rest, found => do
    let obj ← storedObject raw
    if inventoryLimit < (found ++ [obj]).length then
      throw (valueError "bucket inventory exceeds purge limit")
    readItems rest (found ++ [obj])

end Metadata

/-- `data.get("items", [])`, which has to be a list. -/
def objectItems (data : Json) : Except PyError (List Json) :=
  match data.get? "items" with
  | none => .ok []
  | some (.arr items) => .ok items
  | some _ => .error (valueError "invalid GCS object list")

/-- `data.get("nextPageToken")`, which has to be new. -/
def nextToken (data : Json) (seenTokens : List Text) : Except PyError (Option Text) :=
  match data.get? "nextPageToken" with
  | none | some .null => .ok none
  | some (.str token) =>
    if token = [] ∨ token ∈ seenTokens then
      .error (valueError "invalid or repeated GCS page token")
    else .ok (some token)
  | some _ => .error (valueError "invalid or repeated GCS page token")

/-! ### Requests -/

/-- The answer to the last of the requests so far. -/
abbrev Server := List Text → Except PyError Json

/-- `_storage_api`. -/
def storageApi (bucket : Text) : Text :=
  "https://storage.googleapis.com/storage/v1/b/" ++ bucket ++ Text.ofString "/o"

/-- The address of a page; `urlencode` quotes the token. -/
def listUrl (bucket : Text) (pageToken : Option Text) : Except PyError Text :=
  let query : Text := storageApi bucket ++ Text.ofString "?maxResults=1000&versions=true" ++
    Text.ofString "&fields=items%28name%2Cgeneration%2CtimeCreated%29%2CnextPageToken"
  match pageToken with
  | none => .ok query
  | some token => do
    let quoted ← urlQuote true token
    return query ++ Text.ofString "&pageToken=" ++ quoted

/-- The address of a version. -/
def objectUrl (bucket : Text) (obj : StoredObject) : Except PyError Text := do
  let name ← urlQuote false obj.name
  let generation ← urlQuote true (decimalInt obj.generation)
  return storageApi bucket ++ 47 :: (name ++ 63 :: (Text.ofString "generation=" ++ generation))

/-- `_request("GET", url)`. -/
def getObject (server : Server) (requested : List Text) : Except PyError Json := do
  match ← server requested with
  | .obj es => return .obj es
  | _ => throw (valueError "invalid GCS response")

/-! ### The loop over the pages -/

/-- The variables of the loop, and the addresses requested so far. -/
structure Listing where
  found : List StoredObject := []
  pageToken : Option Text := none
  seenTokens : List Text := []
  requested : List Text := []

section Loop

variable [IsoDates] [DecimalDigits] (bucket : Text) (server : Server)

/-- What one page adds to the objects, and the token of the next page. -/
def readPage (s : Listing) (requested : List Text) :
    Except PyError (List StoredObject × Option Text) := do
  let data ← getObject server requested
  let items ← objectItems data
  let found ← readItems items s.found
  let next ← nextToken data s.seenTokens
  return (found, next)

/-- A turn of `while True:` in `GcsJsonClient.list_all`. -/
def listTurn (s : Listing) : Listing ⊕ (Except PyError (List StoredObject) × List Text) :=
  match listUrl bucket s.pageToken with
  | .error e => .inr (.error e, s.requested)
  | .ok url =>
    match readPage server s (s.requested ++ [url]) with
    | .error e => .inr (.error e, s.requested ++ [url])
    | .ok (found, none) => .inr (.ok found, s.requested ++ [url])
    | .ok (found, some token) =>
      .inl ⟨found, some token, s.seenTokens ++ [token], s.requested ++ [url]⟩

/-- `GcsJsonClient.list_all` for a number of pages: the outcome and the requests. -/
def listAll (pages : Nat) : Option (Except PyError (List StoredObject) × List Text) :=
  loopFor (listTurn bucket server) pages {}

end Loop

end C3RSpec.Retention
