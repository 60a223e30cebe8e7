import DesignToWeb.Fault
import DesignToWeb.Machine
import DesignToWeb.Strategy
import DesignToWeb.Text.Numeral

/-!
# Settings

Every setting has a default and may be given by a variable of the environment,
but for the machine that the service runs on.
-/

namespace DesignToWeb

structure Settings where
  figmaToken : Option String := none
  apiBase : String := "https://api.figma.com/v1"
  /-- Seconds until a request is given up. -/
  requestTimeout : Binary64 := 60
  /-- How many ids one request for images may name. -/
  imageBatchSize : Int := 40
  /-- How often a rate-limited request is repeated. -/
  imageMaxRetries : Int := 2
  /-- Seconds to wait before the first repetition when the service names no time. -/
  retryBackoff : Binary64 := 2
  bitmapScale : Int := 2
  databaseUri : String := "mongodb://localhost:27017"
  databaseName : String := "figma_to_code"
  outputDir : String := "generated_site"
  zipPath : String := "figma_site.zip"
  publicBaseUrl : String := "http://127.0.0.1:8000"
  logDir : String := "logs"
  logLevel : String := "INFO"
  downgradeText : Bool := true
  strictFills : Bool := false
  machine : Machine := {}

namespace Settings

def policy (s : Settings) : Policy := ⟨s.downgradeText, s.strictFills⟩

abbrev Environment := List (String × String)

def number (env : Environment) (name : String) (default : Binary64) : Except Fault Binary64 :=
  match env.lookup name with
  | none => .ok default
  | some text =>
    match Text.number? text with
    | some x => .ok x
    | none => .error (.obstacle (.unreadableSetting text))

def wholeNumber (env : Environment) (name : String) (default : Int) : Except Fault Int :=
  match env.lookup name with
  | none => .ok default
  | some text =>
    match Text.wholeNumber? text with
    | some n => .ok n
    | none => .error (.obstacle (.unreadableSetting text))

def text (env : Environment) (name : String) (default : String) : String :=
  (env.lookup name).getD default

/-- The words that switch an option on, in any case; every other word switches it off. -/
def isOn (text : String) : Bool :=
  ["1", "true", "yes", "on"].contains (Text.lowerAscii (Text.trim text))

def flag (env : Environment) (name : String) (default : Bool) : Bool :=
  ((env.lookup name).map isOn).getD default

def ofEnvironment (env : Environment) : Except Fault Settings := do
  let default : Settings := {}
  return {
    figmaToken := env.lookup "FIGMA_TOKEN"
    apiBase := text env "FIGMA_API_BASE" default.apiBase
    requestTimeout := ← number env "FIGMA_REQUEST_TIMEOUT" default.requestTimeout
    imageBatchSize := ← wholeNumber env "FIGMA_IMAGE_BATCH_SIZE" default.imageBatchSize
    imageMaxRetries := ← wholeNumber env "FIGMA_IMAGE_MAX_RETRIES" default.imageMaxRetries
    retryBackoff := ← number env "FIGMA_IMAGE_RETRY_BACKOFF" default.retryBackoff
    bitmapScale := ← wholeNumber env "FIGMA_BITMAP_SCALE" default.bitmapScale
    databaseUri := text env "MONGO_URI" default.databaseUri
    databaseName := text env "MONGO_DB" default.databaseName
    outputDir := text env "OUTPUT_DIR" default.outputDir
    zipPath := text env "ZIP_PATH" default.zipPath
    publicBaseUrl := text env "PUBLIC_BASE_URL" default.publicBaseUrl
    logDir := text env "LOG_DIR" default.logDir
    logLevel := text env "LOG_LEVEL" default.logLevel
    downgradeText := flag env "CLASSIFIER_DOWNGRADE_TEXT" default.downgradeText
    strictFills := flag env "CLASSIFIER_STRICT_FILLS" default.strictFills }

end Settings
end DesignToWeb
