import Flowchart.Text.Blank
import Flowchart.Text.Lines
import Flowchart.Text.Letter
import Flowchart.Text.Quoted
import Flowchart.Number.Text
import Flowchart.Number.Numeral
import Flowchart.Json.Writer
import Flowchart.Json.Reader
import Flowchart.Graph.Lookup
import Flowchart.Graph.Ids
import Flowchart.Graph.Edit
import Flowchart.Outline.Reader
import Flowchart.Outline.Writer
import Flowchart.Walk.Reach
import Flowchart.Walk.Cycle
import Flowchart.Walk.ReadingOrder
import Flowchart.Check.Battery
import Flowchart.Check.Overview
import Flowchart.Compile
import Flowchart.Canvas
import Flowchart.Fence
import Flowchart.Chat.Endpoint
import Flowchart.Chat.Exchange
import Flowchart.Chat.Instructions
import Flowchart.Review.Instructions
import Flowchart.Review.Ask
import Flowchart.Revision
import Flowchart.Document.Request
import Flowchart.Settings
import Flowchart.Service.Handler
import Flowchart.Proofs.Flow.Alike
import Flowchart.Proofs.Flow.Texts
import Flowchart.Proofs.Graph.Distinct
import Flowchart.Proofs.Graph.Framed
import Flowchart.Proofs.Graph.Rename
import Flowchart.Proofs.Outline.Anchors
import Flowchart.Proofs.Outline.Keyword
import Flowchart.Proofs.Outline.Layout
import Flowchart.Proofs.Outline.Lines
import Flowchart.Proofs.Outline.Links
import Flowchart.Proofs.Outline.Refusal
import Flowchart.Proofs.Outline.Rewritten
import Flowchart.Proofs.Outline.RoundTrip
import Flowchart.Proofs.Outline.Scan
import Flowchart.Proofs.Outline.Signature
import Flowchart.Proofs.Outline.Written
import Flowchart.Proofs.Text.Length
import Flowchart.Proofs.Text.Lines
import Flowchart.Proofs.Text.Trimming
import Flowchart.Proofs.Walk.Cycle
import Flowchart.Proofs.Walk.FramedReach
import Flowchart.Proofs.Walk.FramedSearch
import Flowchart.Proofs.Walk.FramedTour
import Flowchart.Proofs.Walk.Reach
import Flowchart.Proofs.Walk.Rename
import Flowchart.Proofs.Walk.Turns
import Flowchart.Proofs.Check.CleanReport
import Flowchart.Proofs.Graph.Reworded
import Flowchart.Proofs.Flow.Reworded
import Flowchart.Proofs.Prompt.AnchorWords
import Flowchart.Proofs.Fence.Block
import Flowchart.Proofs.Review.Answer
import Flowchart.Proofs.Outline.Unwrapped
import Flowchart.Proofs.Revision.Echo
import Flowchart.Proofs.Check.Raised
import Flowchart.Proofs.Outline.Regular
import Flowchart.Proofs.Outline.Balance
import Flowchart.Proofs.Canvas.Redraw
import Flowchart.Proofs.Canvas.FirstEdges
import Flowchart.Proofs.Canvas.Unseen
import Flowchart.Proofs.Check.Judged
import Flowchart.Proofs.Walk.FoundCycle
import Flowchart.Proofs.Check.Validity
import Flowchart.Proofs.Walk.Around
import Flowchart.Proofs.Walk.Block
import Flowchart.Proofs.Walk.ReadingOrder
import Flowchart.Proofs.Outline.Declared
import Flowchart.Proofs.Text.Endings
import Flowchart.Proofs.Outline.SpelledOut
import Flowchart.Proofs.Outline.Passages
import Flowchart.Proofs.Outline.Attribution
import Flowchart.Proofs.Outline.Condensed
import Flowchart.Proofs.Fence.FirstBlock
import Flowchart.Proofs.Json.Grammar
import Flowchart.Proofs.Json.Numeral
import Flowchart.Proofs.Json.Reading
import Flowchart.Proofs.Review.Object
import Flowchart.Proofs.Diagram.Identifier
import Flowchart.Proofs.Text.Words
import Flowchart.Proofs.Diagram.Lines
import Flowchart.Proofs.Prompt.Lines
import Flowchart.Proofs.Prompt.Numbering
import Flowchart.Proofs.Service.Enforced
import Flowchart.Proofs.Review.OwnFields
import Flowchart.Proofs.Canvas.Steady
import Flowchart.Proofs.Chat.Instructions
import Flowchart.Proofs.Prompt.Picture
import Flowchart.Proofs.Document.Accepted
import Flowchart.Proofs.Service.PassedOn
import Flowchart.Proofs.Json.Depth
import Flowchart.Proofs.Chat.Answer
import Flowchart.Proofs.Diagram.Label
import Flowchart.Proofs.Review.Kept
import Flowchart.Proofs.Walk.Bounded
