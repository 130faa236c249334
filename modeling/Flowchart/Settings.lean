import Flowchart.Chat.Endpoint
import Flowchart.Number.Digit
import Flowchart.Outline.Declaration

/-!
# Settings

How the service is set up, and how a set-up is read from environment variables. A variable that is
not set leaves its default in place. A switch is on only for a few words; a number may be written
with the digits of any script, and one that cannot be read is refused.
-/

set_option autoImplicit false

namespace Flowchart

/-- How the service is set up. -/
structure Settings where
  endpoint : Chat.Endpoint := {}
  /-- The temperature at which a language model corrects a flow. -/
  correctionTemperature : Json := .float 0.2
  /-- How outlines are read when a request does not say. -/
  mode : Outline.Mode := {}
  /-- The origins that browsers may call the service from. -/
  origins : List String := ["http://localhost:3000"]
  logLevel : String := "INFO"

/-- Why an environment describes no settings. -/
inductive SettingsError where
  /-- A name or a value holds the character that ends a variable. -/
  | nul
  /-- A setting should be a number and is not. -/
  | notANumber (written : String)
deriving DecidableEq, Repr

/-- The wording of the error. -/
def SettingsError.message : SettingsError → String
  | nul => "embedded null byte"
  | notANumber written => "could not convert string to float: " ++ Text.quoted written

namespace Settings

/-- Environment variables, each with its value. -/
abbrev Environment := List (String × String)

/-- The number that a text stands for. -/
def number? (written : String) : Option Float :=
  (Number.dropGrouping ' ' (Number.trimNumeral (written.toList.map Number.plainDigit))).bind
    Number.numeral?

/-- The number in a variable, or its default. -/
def number (env : Environment) (name : String) (default : Json) : Except SettingsError Json :=
  match List.lookup name env with
  | none => .ok default
  | some written =>
    match number? written with
    | some x => .ok (.float x)
    | none => .error (.notANumber written)

/-- The words that turn a switch on. -/
def onWords : List String := ["1", "true", "yes", "on"]

/-- Whether a variable turns a switch on. -/
def isOn (env : Environment) (name : String) : Bool :=
  match List.lookup name env with
  | none => false
  | some word => onWords.contains (String.ofList ((Text.trim word.toList).map Char.toLower))

/-- The text in a variable, or its default. -/
def textOr (env : Environment) (name default : String) : String :=
  (List.lookup name env).getD default

/-- The origins in a list with commas; blank ones are left out. -/
def originsIn (list : String) : List String :=
  ((list.toList.splitOn ',').map fun origin => String.ofList (Text.trim origin)).filter (· != "")

/-- Whether a text holds the character that ends a variable. -/
def hasNul (s : String) : Bool := s.toList.contains '\x00'

/-- The settings that an environment describes. -/
def ofEnvironment (env : Environment) : Except SettingsError Settings := do
  if env.any fun (name, value) => hasNul name || hasNul value then throw .nul
  let standard : Settings := {}
  let timeout ← number env "LLM_TIMEOUT" standard.endpoint.timeout
  let temperature ← number env "LLM_TEMPERATURE" standard.endpoint.temperature
  let topP ← number env "LLM_TOP_P" standard.endpoint.topP
  let correctionTemperature ←
    number env "LLM_OPTIMIZE_TEMPERATURE" standard.correctionTemperature
  return {
    endpoint := {
      baseUrl := textOr env "OLLAMA_BASE_URL" standard.endpoint.baseUrl
      model := textOr env "OLLAMA_MODEL" standard.endpoint.model
      apiKey := List.lookup "OLLAMA_API_KEY" env
      timeout, temperature, topP }
    correctionTemperature
    mode := {
      anchors := isOn env "PARSER_SYNTHESIZE_ANCHORS"
      proseAsProcess := isOn env "PARSER_FALLBACK_AS_PROCESS" }
    origins := match List.lookup "CORS_ORIGINS" env with
      | some list => originsIn list
      | none => standard.origins
    logLevel := textOr env "LOG_LEVEL" standard.logLevel }

end Settings

end Flowchart
