import DesignToWeb.Json.Label
import DesignToWeb.Service.Session
import DesignToWeb.Text.Numeral
import DesignToWeb.Text.Sorted

/-!
# Rendered images

The design service renders nodes as images in two steps: it gives an address
for every node of a batch, and each image is downloaded from its address.
Renders are kept in the store.
-/

namespace DesignToWeb.Service

/-! ## Addresses of renders -/

abbrev RenderUrls := List (Json × Json)

namespace RenderUrls

def insert (urls : RenderUrls) (key url : Json) : RenderUrls :=
  match urls with
  | [] => [(key, url)]
  | (k, u) :: rest => if k.alike key then (k, url) :: rest else (k, u) :: insert rest key url

def get (urls : RenderUrls) (nodeId : String) : Json :=
  ((urls.find? fun entry ↦ entry.1.isStr nodeId).map (·.2)).getD .null

/-- The addresses with more of them, the later ones winning. -/
def merge (urls more : RenderUrls) : RenderUrls :=
  more.foldl (fun urls entry ↦ insert urls entry.1 entry.2) urls

/-- A key of a table, which an array or an object cannot be. -/
def key : Json → Except Fault Json
  | .arr items => .error (.compoundName (.arr items))
  | .obj fields => .error (.compoundName (.obj fields))
  | j => .ok j

/-- The pair that an entry of a list stands for: two items, two characters or two field names. -/
def pair (index : Nat) (entry : Json) : Except Fault (Json × Json) :=
  match entry with
  | .arr [k, url] => do return (← key k, url)
  | .arr items => .error (.pairLength index items.length)
  | .str s =>
    match s.toList with
    | [a, b] => .ok (.str a.toString, .str b.toString)
    | cs => .error (.pairLength index cs.length)
  | .obj [(a, _), (b, _)] => .ok (.str a, .str b)
  | .obj fields => .error (.pairLength index fields.length)
  | _ => .error (.pairNoSequence index)

/-- The addresses in an answer: the fields of an object, or the pairs of a list.  What does not
count as given holds none. -/
def ofAnswer (images : Json) : Except Fault RenderUrls :=
  if !images.isGiven then .ok []
  else match images with
    | .obj fields => .ok (fields.map fun (k, url) ↦ (.str k, url))
    | .arr items => items.zipIdx.mapM fun (entry, i) ↦ pair i entry
    | .str _ => .error (.pairLength 0 1)
    | j => .error (.noList j)

end RenderUrls

/-! ## Batches -/

/-- Slices of a length, the last of which may be shorter. -/
def slices {α : Type} (length : Nat) (xs : List α) : List (List α) :=
  (List.range ((xs.length + length - 1) / length)).map fun i ↦
    (xs.drop (length * i)).take length

def batches (settings : Settings) (nodeIds : List String) : List (List String) :=
  slices (max 1 settings.imageBatchSize).toNat nodeIds

/-- What is asked for a batch; only bitmaps have a scale. -/
def batchParams (nodeIds : List String) (format : String) (scale : Int) : List (String × Json) :=
  [("ids", .str (",".intercalate nodeIds)), ("format", .str format)] ++
    if format = "svg" then [] else [("scale", .int scale)]

/-- The time to wait after a rate limit when the service names none: the backoff, doubled for
every attempt before. -/
def backoff (settings : Settings) (attempt : Nat) : Except Fault Binary64 := do
  return settings.retryBackoff * (← Binary64.ofIntChecked (1 <<< attempt : Nat))

/-- The time to wait after a rate limit: what the service asks for, if that is a number. -/
def retryDelay (settings : Settings) (response : Response) (attempt : Nat) :
    Except Fault Binary64 :=
  match (response.header? "Retry-After").filter (· != "") with
  | none => backoff settings attempt
  | some text =>
    match Text.number? text with
    | some seconds => .ok seconds
    | none => backoff settings attempt

inductive BatchOutcome where
  | answered (urls : RenderUrls)
  | rateLimited
  | notAsked

/-- The addresses in an answer that is neither a rate limit nor a refusal. -/
def answeredUrls (response : Response) : Except Fault RenderUrls := do
  let body ← response.json
  let error ← field body "err"
  if error.isGiven then throw (.serviceFailure 502 error.label)
  RenderUrls.ofAnswer (← field body "images")

/-- Asks for a batch until it is answered or no attempt is left. -/
def askBatch (settings : Settings) (path : String) (params : List (String × Json)) :
    (attempt attempts : Nat) → Action BatchOutcome
  | _, 0 => return .notAsked
  | attempt, attempts + 1 => do
    let response ← ask settings path (some params)
    if response.status = 429 then
      let seconds ← Action.ofExcept (retryDelay settings response attempt)
      if attempts = 0 then return .rateLimited
      Action.wait settings.machine seconds
      askBatch settings path params (attempt + 1) attempts
    else
      if response.isRefusal then throw response.refusal
      return .answered (← Action.ofExcept (answeredUrls response))

/-- Asks for batches one after the other; a rate limit that lasts ends them all. -/
def askBatches (settings : Settings) (path format : String) (scale : Int) (urls : RenderUrls) :
    List (List String) → Action RenderUrls
  | [] => return urls
  | batch :: rest => do
    match ← askBatch settings path (batchParams batch format scale) 0
        (settings.imageMaxRetries + 1).toNat with
    | .answered more => askBatches settings path format scale (urls.merge more) rest
    | .rateLimited => return urls
    | .notAsked => askBatches settings path format scale urls rest

def renderUrls (settings : Settings) (fileKey : String) (nodeIds : List String) (format : String)
    (scale : Int) : Action RenderUrls :=
  askBatches settings ("/images/" ++ fileKey) format scale [] (batches settings nodeIds)

/-! ## Downloads -/

def download (settings : Settings) (url : Json) : Action (Option String) := do
  match ← Action.send { url, timeout := settings.requestTimeout } with
  | .failure _ => return none
  | .response response =>
    return if response.isRefusal || response.body = "" then none else some response.body

/-- The addresses of the renders of nodes, or none if the service fails. -/
def renderUrlsOrNone (settings : Settings) (fileKey : String) (nodeIds : List String)
    (format : String) (scale : Int) : Action RenderUrls :=
  tryCatch (renderUrls settings fileKey nodeIds format scale) fun
    | .serviceFailure _ _ => return []
    | fault => throw fault

def downloadAll (settings : Settings) (urls : RenderUrls) :
    List String → Action (List (String × String))
  | [] => return []
  | nodeId :: rest => do
    let url := urls.get nodeId
    let data ← if url.isGiven then download settings url else pure none
    return (data.map (nodeId, ·)).toList ++ (← downloadAll settings urls rest)

/-- The renders of nodes: those in the store, and the rest from the service, which are stored.  A
node whose render fails is absent. -/
def exportNodes (settings : Settings) (fileKey : String) (nodeIds : List String) (format : String)
    (scale : Int) (lastModified : Json) : Action (List (String × String)) := do
  let wanted := Text.sortedDistinct nodeIds
  let stored := (← Action.store).renders? fileKey wanted format lastModified
  let missing := wanted.filter fun nodeId ↦ (stored.lookup nodeId).isNone
  if missing.isEmpty then return stored
  let urls ← renderUrlsOrNone settings fileKey missing format scale
  let fetched ← downloadAll settings urls missing
  Action.modifyStore (·.saveRenders fileKey fetched format lastModified)
  return stored ++ fetched

end DesignToWeb.Service
