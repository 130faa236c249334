import Flowchart.Canvas
import Flowchart.Chat.Message
import Flowchart.Document.Graph
import Flowchart.Outline.Declaration
import Flowchart.Prompt.Options

/-!
# Documents of requests

What the service is asked, and how the documents that ask it are read. A choice that a request
leaves open is settled by the settings of the service.
-/

set_option autoImplicit false

namespace Flowchart

/-- What a request says about how outlines are to be read; what it leaves open is left out. -/
structure Outline.ModeChoice where
  anchors : Option Bool := none
  proseAsProcess : Option Bool := none
deriving DecidableEq, Repr

/-- The mode of a choice, with a default for what it leaves open. -/
def Outline.ModeChoice.resolve (choice : Outline.ModeChoice) (default : Outline.Mode) :
    Outline.Mode where
  anchors := choice.anchors.getD default.anchors
  proseAsProcess := choice.proseAsProcess.getD default.proseAsProcess

/-- The mode of a request, which need not say anything about it. -/
def Outline.resolveMode (choice : Option Outline.ModeChoice) (default : Outline.Mode) :
    Outline.Mode :=
  (choice.getD {}).resolve default

namespace Document

/-- Asks for an outline to be read. -/
structure ReadRequest where
  outline : String
  title : Option String
  description : Option String
  mode : Option Outline.ModeChoice

/-- Asks for a flow to be checked. -/
structure CheckRequest where
  graph : Graph
  deep : Bool

/-- Asks for the prompt and the diagram of a flow. -/
structure CompileRequest where
  graph : Graph
  options : Prompt.Options
  /-- Whether a flow that is not valid is refused. -/
  enforceValid : Bool

/-- Asks a language model to write an outline. -/
structure WriteRequest where
  wish : String
  current : Option String
  history : List Chat.Message
  mode : Option Outline.ModeChoice

/-- Asks a language model to change a flow. -/
structure RefineRequest where
  graph : Graph
  wish : String
  history : List Chat.Message
  mode : Option Outline.ModeChoice

/-- Asks a language model to correct a flow. -/
structure CorrectRequest where
  graph : Graph
  mode : Option Outline.ModeChoice

/-- Asks a language model to review a prompt. -/
structure ReviewRequest where
  graph : Graph
  prompt : Option String
  options : Prompt.Options

/-- Hands over a flow from the canvas. -/
structure ImportRequest where
  drawing : Canvas.Drawing
  title : String
  description : Option String

/-- Reads what a request says about how outlines are to be read. -/
def modeChoice : Reader Outline.ModeChoice :=
  object "ParserModeRequest" fun fields =>
    Outline.ModeChoice.mk <$> optional fields "synthesize_anchors" none (nullable truth)
      <*> optional fields "fallback_line_as_process" none (nullable truth)

/-- Reads the mode field of a request. -/
def modeField (fields : Json.Fields) : Checked (Option Outline.ModeChoice) :=
  optional fields "mode" none (nullable modeChoice)

/-- Reads the options of a prompt. -/
def options : Reader Prompt.Options :=
  object "PromptOptionsRequest" fun fields =>
    Prompt.Options.mk <$> optional fields "target" .code
        (named .notListed Prompt.Purpose.all Prompt.Purpose.name)
      <*> optional fields "strictness" none
        (nullable (named .notListed Prompt.Strictness.all Prompt.Strictness.name))
      <*> optional fields "detail_level" none
        (nullable (named .notListed Prompt.Detail.all Prompt.Detail.name))
      <*> optional fields "include_presets" false truth
      <*> optional fields "include_diagram" false truth

/-- Reads a message of the user or of the language model. -/
def message : Reader Chat.Message :=
  object "ChatMessage" fun fields =>
    Chat.Message.mk <$> required fields "role"
        (named .notSpeaker [Chat.Role.user, Chat.Role.assistant] Chat.Role.name)
      <*> required fields "content" text

/-- Reads the messages of a conversation so far. -/
def historyField (fields : Json.Fields) : Checked (List Chat.Message) :=
  optional fields "history" [] (list message)

/-- Accepts a position on the canvas. The position itself is not kept. -/
def position : Reader Unit :=
  object "Position" fun fields =>
    (fun _ _ => ()) <$> optional fields "x" () number <*> optional fields "y" () number

/-- Reads a node on the canvas. Its title may be blank. -/
def shape : Reader Canvas.Shape :=
  object "EditorNode" fun fields =>
    (fun id kind title description condition _ =>
        Canvas.Shape.mk id kind title description condition) <$>
      required fields "id" text
      <*> required fields "kind" kind
      <*> required fields "title" text
      <*> optionalText fields "description"
      <*> optionalText fields "condition"
      <*> optional fields "position" none (nullable position)

/-- Reads an edge on the canvas. -/
def link : Reader Canvas.Link :=
  object "EditorEdge" fun fields =>
    Canvas.Link.mk <$> required fields "source" text
      <*> required fields "target" text
      <*> optionalText fields "source_handle"

/-- Reads a request with an outline. -/
def readRequest : Reader ReadRequest :=
  object "ParseRequest" fun fields =>
    ReadRequest.mk <$> required fields "text" text
      <*> optionalText fields "title"
      <*> optionalText fields "description"
      <*> modeField fields

/-- Reads a request that is about a graph and nothing else. -/
def graphRequest : Reader Graph :=
  object "GraphRequest" fun fields => required fields "graph" graph

/-- Reads a request to check a flow. -/
def checkRequest : Reader CheckRequest :=
  object "ValidateRequest" fun fields =>
    CheckRequest.mk <$> required fields "graph" graph
      <*> optional fields "deep" false truth

/-- Reads a request for a prompt and a diagram. -/
def compileRequest : Reader CompileRequest :=
  object "GenerateRequest" fun fields =>
    CompileRequest.mk <$> required fields "graph" graph
      <*> optional fields "options" {} options
      <*> optional fields "enforce_valid" false truth

/-- Reads a request to write an outline. -/
def writeRequest : Reader WriteRequest :=
  object "AIGenerateRequest" fun fields =>
    WriteRequest.mk <$> required fields "prompt" text
      <*> optionalText fields "current_flow"
      <*> historyField fields
      <*> modeField fields

/-- Reads a request to change a flow. -/
def refineRequest : Reader RefineRequest :=
  object "AIRefineRequest" fun fields =>
    RefineRequest.mk <$> required fields "graph" graph
      <*> required fields "instruction" text
      <*> historyField fields
      <*> modeField fields

/-- Reads a request to correct a flow. -/
def correctRequest : Reader CorrectRequest :=
  object "AIOptimizeRequest" fun fields =>
    CorrectRequest.mk <$> required fields "graph" graph
      <*> modeField fields

/-- Reads a request to review a prompt. -/
def reviewRequest : Reader ReviewRequest :=
  object "AIAnalyzeRequest" fun fields =>
    ReviewRequest.mk <$> required fields "graph" graph
      <*> optionalText fields "prompt"
      <*> optional fields "options" {} options

/-- Reads a flow from the canvas. -/
def importRequest : Reader ImportRequest :=
  object "EditorImportRequest" fun fields =>
    (fun shapes links => ImportRequest.mk ⟨shapes, links⟩) <$>
      required fields "nodes" (list shape)
      <*> required fields "edges" (list link)
      <*> optional fields "title" untitled text
      <*> optionalText fields "description"

/-- The graph that a flow from the canvas stands for. -/
def ImportRequest.graph (r : ImportRequest) : Graph :=
  r.drawing.toGraph r.title r.description

end Document

end Flowchart
