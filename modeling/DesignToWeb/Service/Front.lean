import DesignToWeb.Conversion
import DesignToWeb.Json.Writer
import DesignToWeb.Manifest
import DesignToWeb.Service.Assets
import DesignToWeb.Service.Documents
import DesignToWeb.Service.FileKey

/-!
# The front of the service

A conversion is asked for by the key or address of a file.  It leaves a page, a
stylesheet, a manifest and the assets in a directory of its own, and all of it
in an archive for download.
-/

namespace DesignToWeb.Service

/-! ## Rejections -/

/-- A request that is turned down, with a status and what is said about it. -/
structure Rejection where
  status : Nat
  detail : Json

/-- The status with which a failure of the design service is passed on. -/
def passedStatus (status : Int) : Nat :=
  if status = 404 then 404
  else if status = 401 ∨ status = 403 then 401
  else if status = 429 then 429
  else 502

def hint (status : Int) : String :=
  if status = 404 then "Check the file key and ensure your token user can access the file."
  else if status = 401 ∨ status = 403 then
    "Verify FIGMA_TOKEN is set and has file_content:read scope."
  else if status = 429 then
    "Hit a rate limit. Try again in a minute; the cache will reduce calls next time."
  else "See server logs for details."

namespace Rejection

def invalidUrl : Rejection := ⟨400, .str "Invalid Figma URL"⟩

def nothingConverted : Rejection := ⟨404, .str "Nothing converted yet"⟩

/-- A failure of the design service is passed on with a hint, an unusable document is the
caller's fault, and every other fault is the service's own. -/
def ofFault (fault : Fault) : Rejection :=
  match fault with
  | .serviceFailure status _ =>
    ⟨passedStatus status, .obj [("message", .str fault.message), ("hint", .str (hint status))]⟩
  | .documentNoObject | .documentWithoutChildren => ⟨422, .str fault.message⟩
  | _ => ⟨500, .str fault.message⟩

end Rejection

/-! ## Requests for a conversion -/

structure ConversionRequest where
  figmaUrl : String
  useCache : Bool := true

/-- Why a field of a request cannot be taken. -/
inductive FieldProblem where
  | missing
  | noString
  | unreadableFlag
  | noFlag
deriving DecidableEq

def FieldProblem.name : FieldProblem → String
  | missing => "missing"
  | noString => "string_type"
  | unreadableFlag => "bool_parsing"
  | noFlag => "bool_type"

namespace ConversionRequest

def offWords : List String := ["0", "off", "f", "false", "n", "no"]

def onWords : List String := ["1", "on", "t", "true", "y", "yes"]

/-- Where the signed words of 64 bits end. -/
def wordLimit : Int := 9223372036854775808

/-- Of the whole numbers zero and one are flags. -/
def wholeFlag (n : Int) : Except FieldProblem Bool :=
  if n = 0 then .ok false else if n = 1 then .ok true else .error .unreadableFlag

/-- A flag may also be given by the numbers zero and one or by a word, in any case.  Another whole
number is an unreadable flag if it fits into a word of 64 bits, a floating one if it lies strictly
between the ends; every other number is no flag at all. -/
def readFlag (j : Json) : Except FieldProblem Bool :=
  match j with
  | .bool b => .ok b
  | .int n => if -wordLimit ≤ n ∧ n < wordLimit then wholeFlag n else .error .noFlag
  | .float x =>
    match x.whole? with
    | some n => if -wordLimit < n ∧ n < wordLimit then wholeFlag n else .error .noFlag
    | none => .error .noFlag
  | .str s =>
    if offWords.contains (Text.lowerAscii s) then .ok false
    else if onWords.contains (Text.lowerAscii s) then .ok true
    else .error .unreadableFlag
  | _ => .error .noFlag

def readUrl : Option Json → Except FieldProblem String
  | none => .error .missing
  | some (.str s) => .ok s
  | some _ => .error .noString

/-- The request in a body, or all fields that cannot be taken. -/
def ofBody (body : Attributes) : Except (List (String × FieldProblem)) ConversionRequest :=
  match readUrl (body.get? "figma_url"), ((body.get? "use_cache").map readFlag).getD (.ok true) with
  | .ok url, .ok flag => .ok ⟨url, flag⟩
  | .ok _, .error p => .error [("use_cache", p)]
  | .error p, .ok _ => .error [("figma_url", p)]
  | .error p, .error q => .error [("figma_url", p), ("use_cache", q)]

end ConversionRequest

/-! ## Conversions -/

structure ConversionAnswer where
  fileKey : String
  name : Option String
  lastModified : Option String
  stats : Stats
  counts : StrategyCounts
  warnings : List String
  downloadUrl : String

def optionalText : Json → Except Fault (Option String)
  | .null => .ok none
  | .str s => .ok (some s)
  | _ => .error .malformedAnswer

def siteDir (settings : Settings) (fileKey : String) : Path :=
  Path.ofText settings.outputDir ++ [fileKey]

/-- Exports the assets of a document; the bitmaps are for its stylesheet. -/
def exportAssets (settings : Settings) (fileKey : String) (document : ClassifiedDocument)
    (lastModified : Json) : Action (List (String × Css.ImageAsset)) := do
  let assetsDir := siteDir settings fileKey ++ ["assets"]
  let exported ← exportFallbacks settings fileKey document.fallbackIds assetsDir lastModified
  let _ ← fillMissing assetsDir exported document.fallbackIds settings.machine
  exportBitmaps settings fileKey document.imageFillNodes assetsDir settings.bitmapScale lastModified

/-- The texts of a site by their names, in the order in which they are written. -/
def siteTexts (emission : Emission) (manifest : Json) : List (String × String) :=
  [("index.html", emission.html), ("styles.css", emission.css),
    ("nodes.json", manifest.write .indented)]

def writeTexts (machine : Machine) (dir : Path) (texts : List (String × String)) : Action Unit :=
  texts.forM fun (name, text) ↦ Action.writeText machine (dir ++ [name]) text

/-- Puts an archive of a directory in the place of the one before. -/
def archiveSite (settings : Settings) (dir : Path) : Action Unit := do
  let path := Path.ofText settings.zipPath
  Action.removeFile settings.machine path
  Action.writeArchive settings.machine path dir

def pageTitle (fileKey : String) (file : Attributes) : String :=
  (file.get "name").labelOr fileKey ++ " - Generated"

def convertFile (settings : Settings) (fileKey : String) (useCache : Bool) :
    Action ConversionAnswer := do
  let json ← getDocument settings fileKey useCache
  let lastModified ← Action.ofExcept (field json "lastModified")
  let document ← Action.ofExcept (classifyDocument settings.policy json)
  let dir := siteDir settings fileKey
  Action.emptyDirectory settings.machine dir
  let assets ← exportAssets settings fileKey document lastModified
  let file := json.attributes
  let emission ← Action.ofExcept (emit (pageTitle fileKey file) assets document)
  writeTexts settings.machine dir
    (siteTexts emission (Manifest.build fileKey file document.scene document.tally))
  archiveSite settings dir
  return { fileKey
           name := ← Action.ofExcept (optionalText (file.get "name"))
           lastModified := ← Action.ofExcept (optionalText lastModified)
           stats := document.tally.stats
           counts := Manifest.countStrategies document.scene
           warnings := document.tally.warnings
           downloadUrl := settings.publicBaseUrl ++ "/download" }

def convert (settings : Settings) (request : ConversionRequest) :
    StateM Session (Except Rejection ConversionAnswer) := do
  match fileKey? request.figmaUrl with
  | none => return .error .invalidUrl
  | some fileKey =>
    match ← (convertFile settings fileKey request.useCache).run with
    | .ok answer => return .ok answer
    | .error fault => return .error (.ofFault fault)

/-! ## Downloads -/

structure Download where
  mediaType : String
  filename : String
  content : Content

def downloadArchive (settings : Settings) : StateM Session (Except Rejection Download) := do
  match (← get).files.lookup (Path.ofText settings.zipPath) with
  | some content => return .ok ⟨"application/zip", "figma_site.zip", content⟩
  | none => return .error .nothingConverted

def greeting : Json := .obj [("message", .str "Figma converter backend running")]

end DesignToWeb.Service
