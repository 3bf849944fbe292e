import PagePlan.Cli.Arguments
import PagePlan.Cli.Command
import PagePlan.Cli.Markup
import PagePlan.Cli.Session
import PagePlan.Condense.Strip
import PagePlan.Condense.Summary
import PagePlan.Condense.Truncate
import PagePlan.Decimal.Binary64
import PagePlan.Decimal.Digits
import PagePlan.Decimal.Shortest
import PagePlan.Dom.Basic
import PagePlan.Dom.Place
import PagePlan.Environment
import PagePlan.Extract
import PagePlan.Failure
import PagePlan.Files.Basic
import PagePlan.Files.Name
import PagePlan.Html.Charset
import PagePlan.Html.Element
import PagePlan.Html.Entity
import PagePlan.Html.Page
import PagePlan.Html.Token
import PagePlan.Html.Tree
import PagePlan.Html.Writer
import PagePlan.Journal.Entry
import PagePlan.Journal.Sinks
import PagePlan.Json.Reader
import PagePlan.Json.Writer
import PagePlan.Main
import PagePlan.Model.Chat
import PagePlan.Model.Completion
import PagePlan.Model.Connection
import PagePlan.Model.Draft
import PagePlan.Model.Prompt
import PagePlan.Model.Provider
import PagePlan.Model.Reply
import PagePlan.Plan.Basic
import PagePlan.Plan.Coercion
import PagePlan.Plan.Extraction
import PagePlan.Plan.Reading
import PagePlan.Proofs.Cli.Arguments
import PagePlan.Proofs.Cli.Ending
import PagePlan.Proofs.Cli.Printing
import PagePlan.Proofs.Cli.Session
import PagePlan.Proofs.Condense.FirstItems
import PagePlan.Proofs.Condense.Outcome
import PagePlan.Proofs.Condense.Outside
import PagePlan.Proofs.Condense.Strip
import PagePlan.Proofs.Condense.Truncate
import PagePlan.Proofs.Decimal.Exact
import PagePlan.Proofs.Decimal.Nearest
import PagePlan.Proofs.Decimal.Rounding
import PagePlan.Proofs.Decimal.Shortest
import PagePlan.Proofs.Dom.Edit
import PagePlan.Proofs.Dom.Outside
import PagePlan.Proofs.Dom.Parsed
import PagePlan.Proofs.Html.Construction
import PagePlan.Proofs.Html.Declaration
import PagePlan.Proofs.Html.Root
import PagePlan.Proofs.Html.Token
import PagePlan.Proofs.Html.Tree
import PagePlan.Proofs.Json.Data
import PagePlan.Proofs.Json.Ends
import PagePlan.Proofs.Json.LineBreak
import PagePlan.Proofs.Json.Literal
import PagePlan.Proofs.Json.Number
import PagePlan.Proofs.Json.RoundTrip
import PagePlan.Proofs.Json.Standard
import PagePlan.Proofs.Json.Written
import PagePlan.Proofs.Model.Reply
import PagePlan.Proofs.Outcome
import PagePlan.Proofs.Plan.Alias
import PagePlan.Proofs.Plan.Classification
import PagePlan.Proofs.Plan.Coercion
import PagePlan.Proofs.Plan.Conformance
import PagePlan.Proofs.Plan.Data
import PagePlan.Proofs.Plan.Failing
import PagePlan.Proofs.Plan.Interchange
import PagePlan.Proofs.Plan.Isolation
import PagePlan.Proofs.Plan.Keys
import PagePlan.Proofs.Plan.Lookup
import PagePlan.Proofs.Plan.Null
import PagePlan.Proofs.Plan.NumberAnswer
import PagePlan.Proofs.Plan.Numeral
import PagePlan.Proofs.Plan.Parts
import PagePlan.Proofs.Plan.Queries
import PagePlan.Proofs.Plan.Reading
import PagePlan.Proofs.Plan.TextKeys
import PagePlan.Proofs.Requirements.Acceptance
import PagePlan.Proofs.Requirements.Agreement
import PagePlan.Proofs.Requirements.Allowance
import PagePlan.Proofs.Requirements.Answer
import PagePlan.Proofs.Requirements.Inlining
import PagePlan.Proofs.Requirements.Objects
import PagePlan.Proofs.Requirements.Reading
import PagePlan.Proofs.Requirements.Reference
import PagePlan.Proofs.Requirements.Refusal
import PagePlan.Proofs.Requirements.Strict
import PagePlan.Proofs.Requirements.Validity
import PagePlan.Proofs.Scrape.Cache
import PagePlan.Proofs.Scrape.Direct
import PagePlan.Proofs.Scrape.Draft
import PagePlan.Proofs.Scrape.Events
import PagePlan.Proofs.Scrape.Saved
import PagePlan.Proofs.Settings.Change
import PagePlan.Proofs.Settings.History
import PagePlan.Proofs.Text.Blank
import PagePlan.Proofs.Text.Utf8
import PagePlan.Proofs.Value.Assignments
import PagePlan.Proofs.Value.Entries
import PagePlan.Proofs.XPath.Answering
import PagePlan.Proofs.XPath.Below
import PagePlan.Proofs.XPath.Climbing
import PagePlan.Proofs.XPath.Composition
import PagePlan.Proofs.XPath.Continuation
import PagePlan.Proofs.XPath.Embedded
import PagePlan.Proofs.XPath.Followed
import PagePlan.Proofs.XPath.InPage
import PagePlan.Proofs.XPath.Narrowing
import PagePlan.Proofs.XPath.Order
import PagePlan.Proofs.XPath.Path
import PagePlan.Proofs.XPath.StandIn
import PagePlan.Requirements.Fault
import PagePlan.Requirements.Reading
import PagePlan.Requirements.Record
import PagePlan.Requirements.Reference
import PagePlan.Requirements.Strict
import PagePlan.Requirements.Validation
import PagePlan.Run
import PagePlan.Scrape
import PagePlan.Settings.Basic
import PagePlan.Settings.Setup
import PagePlan.Source
import PagePlan.Text.Blank
import PagePlan.Text.ByteFault
import PagePlan.Text.CodePage
import PagePlan.Text.Encoding
import PagePlan.Text.Letter
import PagePlan.Text.NameChar
import PagePlan.Text.Printable
import PagePlan.Text.Quoted
import PagePlan.Value.Basic
import PagePlan.Value.Display
import PagePlan.XPath.Evaluation
import PagePlan.XPath.Expression
import PagePlan.XPath.Grammar
import PagePlan.XPath.Item
import PagePlan.XPath.Number
import PagePlan.XPath.Problem
import PagePlan.XPath.Query
import PagePlan.Xml.Reader
import PagePlan.Proofs.Text.Words
import PagePlan.Proofs.Json.Apart
import PagePlan.Proofs.Model.Prompt
import PagePlan.Journal.Recorder
import PagePlan.Proofs.Model.Call
import PagePlan.Proofs.Journal.Recording
