import Inlay.Arena.Basic
import Inlay.Arena.Edit
import Inlay.Arena.Listeners
import Inlay.Arena.Tree
import Inlay.Arena.Walk
import Inlay.Decimal.Layout
import Inlay.Decimal.Shortest
import Inlay.Diagnostic
import Inlay.Host
import Inlay.Instance.Basic
import Inlay.Instance.Response
import Inlay.Json.Reader
import Inlay.Json.Value
import Inlay.Markup.CharReference
import Inlay.Markup.Fragment
import Inlay.Markup.NamedReference
import Inlay.Markup.Print
import Inlay.Markup.Token
import Inlay.Markup.Tokenizer
import Inlay.Options.Basic
import Inlay.Options.Data
import Inlay.Options.Fault
import Inlay.Options.Resolve
import Inlay.Proofs.Arena.Copying
import Inlay.Proofs.Arena.Edit
import Inlay.Proofs.Arena.Exchange
import Inlay.Proofs.Arena.Forest
import Inlay.Proofs.Arena.Growth
import Inlay.Proofs.Arena.Listeners
import Inlay.Proofs.Arena.Plant
import Inlay.Proofs.Arena.Preorder
import Inlay.Proofs.Arena.Prune
import Inlay.Proofs.Arena.Reachable
import Inlay.Proofs.Arena.Recycling
import Inlay.Proofs.Arena.Refused
import Inlay.Proofs.Arena.Relocation
import Inlay.Proofs.Arena.Rows
import Inlay.Proofs.Arena.Shows
import Inlay.Proofs.Arena.Slots
import Inlay.Proofs.Arena.Splice
import Inlay.Proofs.Arena.Vacating
import Inlay.Proofs.Instance.Contents
import Inlay.Proofs.Instance.Insert
import Inlay.Proofs.Instance.Reached
import Inlay.Proofs.Instance.Records
import Inlay.Proofs.Markup.Canonical
import Inlay.Proofs.Markup.Cleaning
import Inlay.Proofs.Markup.Draft
import Inlay.Proofs.Markup.Lex
import Inlay.Proofs.Markup.Listing
import Inlay.Proofs.Markup.Plain
import Inlay.Proofs.Markup.Raise
import Inlay.Proofs.Markup.Reprint
import Inlay.Proofs.Markup.Reread
import Inlay.Proofs.Markup.RoundTrip
import Inlay.Proofs.Markup.Scan
import Inlay.Proofs.Markup.Serialize
import Inlay.Proofs.Markup.Strip
import Inlay.Proofs.Options.Choice
import Inlay.Proofs.Options.Entries
import Inlay.Proofs.Options.Headers
import Inlay.Proofs.Options.Record
import Inlay.Proofs.Outcome
import Inlay.Proofs.Request.Reasons
import Inlay.Proofs.Request.Serving
import Inlay.Proofs.Request.Verdict
import Inlay.Proofs.Request.Waiting
import Inlay.Proofs.Scene.Alike
import Inlay.Proofs.Scene.Beginning
import Inlay.Proofs.Scene.Course
import Inlay.Proofs.Scene.Delivery
import Inlay.Proofs.Scene.Display
import Inlay.Proofs.Scene.Faithful
import Inlay.Proofs.Scene.Flow
import Inlay.Proofs.Scene.Handed
import Inlay.Proofs.Scene.Handles
import Inlay.Proofs.Scene.Hearing
import Inlay.Proofs.Scene.History
import Inlay.Proofs.Scene.InFlight
import Inlay.Proofs.Scene.Later
import Inlay.Proofs.Scene.Leak
import Inlay.Proofs.Scene.Log
import Inlay.Proofs.Scene.Opening
import Inlay.Proofs.Scene.Planning
import Inlay.Proofs.Scene.Recorded
import Inlay.Proofs.Scene.Regions
import Inlay.Proofs.Scene.Registry
import Inlay.Proofs.Scene.Requests
import Inlay.Proofs.Scene.Run
import Inlay.Proofs.Scene.Single
import Inlay.Proofs.Scene.Spans
import Inlay.Proofs.Scene.Standing
import Inlay.Proofs.Scene.Stopping
import Inlay.Proofs.Scene.Unfailing
import Inlay.Proofs.Selector.Conjunction
import Inlay.Proofs.Selector.Formula
import Inlay.Proofs.Selector.Legible
import Inlay.Proofs.Selector.Lookahead
import Inlay.Proofs.Selector.Meaning
import Inlay.Proofs.Selector.Periodic
import Inlay.Proofs.Selector.RoundTrip
import Inlay.Proofs.Selector.Spelling
import Inlay.Proofs.Selector.Yield
import Inlay.Proofs.Session.Queue
import Inlay.Proofs.Session.Run
import Inlay.Proofs.Session.Settle
import Inlay.Proofs.Session.Waiting
import Inlay.Proofs.Steps
import Inlay.Proofs.Template.Acceptance
import Inlay.Proofs.Template.Attributes
import Inlay.Proofs.Template.Compiled
import Inlay.Proofs.Template.Fill
import Inlay.Proofs.Template.Layout
import Inlay.Proofs.Template.Nesting
import Inlay.Proofs.Template.Numbering
import Inlay.Proofs.Template.Outputs
import Inlay.Proofs.Template.Pick
import Inlay.Proofs.Template.Root
import Inlay.Proofs.Text.Case
import Inlay.Proofs.Text.Escape
import Inlay.Request.Delay
import Inlay.Request.Error
import Inlay.Request.Method
import Inlay.Request.Pace
import Inlay.Request.Signal
import Inlay.Request.Timeline
import Inlay.Request.Transport
import Inlay.Scene.Basic
import Inlay.Scene.Dispatch
import Inlay.Scene.Start
import Inlay.Scene.Turn
import Inlay.Selector.Basic
import Inlay.Selector.Match
import Inlay.Selector.Message
import Inlay.Selector.Nth
import Inlay.Selector.Print
import Inlay.Selector.Syntax
import Inlay.Session.Basic
import Inlay.Session.Steps
import Inlay.Session.Time
import Inlay.Session.Watch
import Inlay.Template.Compile
import Inlay.Template.Error
import Inlay.Template.Instantiate
import Inlay.Template.Placeholder
import Inlay.Text.Ascii
import Inlay.Text.Blank
import Inlay.Text.Escape
import Inlay.Text.Quoted
import Inlay.Text.Shown
import Inlay.Warning
