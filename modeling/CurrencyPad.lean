import CurrencyPad.Binary64.Finite
import CurrencyPad.Binary64.Nearest
import CurrencyPad.Binary64.Shortest
import CurrencyPad.Binary64.Text
import CurrencyPad.Command.Basic
import CurrencyPad.Command.Disk
import CurrencyPad.Command.Host
import CurrencyPad.Command.Line
import CurrencyPad.Command.Run
import CurrencyPad.Command.Usage
import CurrencyPad.Command.Words
import CurrencyPad.Config.Basic
import CurrencyPad.Config.Check
import CurrencyPad.Config.Load
import CurrencyPad.Decimal.Basic
import CurrencyPad.Decimal.Reading
import CurrencyPad.Decimal.Rounding
import CurrencyPad.Exchange.Conversion
import CurrencyPad.Exchange.Load
import CurrencyPad.Exchange.Snapshot
import CurrencyPad.Expression.Edit
import CurrencyPad.Expression.Operator
import CurrencyPad.Expression.Reading
import CurrencyPad.Expression.Token
import CurrencyPad.Expression.Value
import CurrencyPad.Journal.Basic
import CurrencyPad.Journal.Check
import CurrencyPad.Journal.Event
import CurrencyPad.Journal.Records
import CurrencyPad.Journal.Summary
import CurrencyPad.Journal.Time
import CurrencyPad.Json.Basic
import CurrencyPad.Json.Printer
import CurrencyPad.Json.Reader
import CurrencyPad.Json.Shown
import CurrencyPad.Main
import CurrencyPad.Money.Amount
import CurrencyPad.Money.Currency
import CurrencyPad.Money.Format
import CurrencyPad.Money.Reading
import CurrencyPad.Number.Locale
import CurrencyPad.Number.Plain
import CurrencyPad.Number.Rounded
import CurrencyPad.Pad.Display
import CurrencyPad.Pad.Engine.Basic
import CurrencyPad.Pad.Engine.Change
import CurrencyPad.Pad.Engine.Life
import CurrencyPad.Pad.Engine.Settle
import CurrencyPad.Pad.Event
import CurrencyPad.Pad.Keys
import CurrencyPad.Pad.Task
import CurrencyPad.Proofs.Binary64.Arithmetic
import CurrencyPad.Proofs.Binary64.Division
import CurrencyPad.Proofs.Binary64.Equality
import CurrencyPad.Proofs.Binary64.Nearest
import CurrencyPad.Proofs.Binary64.Order
import CurrencyPad.Proofs.Binary64.Shortest
import CurrencyPad.Proofs.Config.Loading
import CurrencyPad.Proofs.Decimal.HalfUp
import CurrencyPad.Proofs.Decimal.Precision
import CurrencyPad.Proofs.Decimal.Value
import CurrencyPad.Proofs.Engine.BlankExpression
import CurrencyPad.Proofs.Engine.Change
import CurrencyPad.Proofs.Engine.Codes
import CurrencyPad.Proofs.Engine.Consistency
import CurrencyPad.Proofs.Engine.Desk
import CurrencyPad.Proofs.Engine.Disposal
import CurrencyPad.Proofs.Engine.Effect
import CurrencyPad.Proofs.Engine.Flags
import CurrencyPad.Proofs.Engine.Interleaving
import CurrencyPad.Proofs.Engine.LatestCurrency
import CurrencyPad.Proofs.Engine.Links
import CurrencyPad.Proofs.Engine.LogOfRun
import CurrencyPad.Proofs.Engine.Presence
import CurrencyPad.Proofs.Engine.Publication
import CurrencyPad.Proofs.Engine.ReadBack
import CurrencyPad.Proofs.Engine.Reads
import CurrencyPad.Proofs.Engine.Run
import CurrencyPad.Proofs.Engine.Session
import CurrencyPad.Proofs.Engine.Unfailing
import CurrencyPad.Proofs.Engine.Upstream
import CurrencyPad.Proofs.Engine.Writing
import CurrencyPad.Proofs.Exchange.Availability
import CurrencyPad.Proofs.Exchange.Factor
import CurrencyPad.Proofs.Expression.Evaluation
import CurrencyPad.Proofs.Expression.Keyed
import CurrencyPad.Proofs.Expression.LongestToken
import CurrencyPad.Proofs.Expression.Rejection
import CurrencyPad.Proofs.Journal.Limit
import CurrencyPad.Proofs.Journal.Questions
import CurrencyPad.Proofs.Journal.Sessions
import CurrencyPad.Proofs.Json.Numbers
import CurrencyPad.Proofs.Json.RoundTrip
import CurrencyPad.Proofs.Money.Currency
import CurrencyPad.Proofs.Money.Evaluation
import CurrencyPad.Proofs.Money.Figures
import CurrencyPad.Proofs.Money.Guarded
import CurrencyPad.Proofs.Money.Reading
import CurrencyPad.Proofs.Money.Shown
import CurrencyPad.Proofs.Money.Units
import CurrencyPad.Proofs.Number.Canonical
import CurrencyPad.Proofs.Number.Plain
import CurrencyPad.Proofs.Number.Rounded
import CurrencyPad.Proofs.Number.Separators
import CurrencyPad.Proofs.Pad.Digits
import CurrencyPad.Proofs.Pad.Guarded
import CurrencyPad.Proofs.Pad.Keys
import CurrencyPad.Proofs.Pad.ResultLine
import CurrencyPad.Proofs.Signal.FirstRead
import CurrencyPad.Proofs.Signal.FirstValue
import CurrencyPad.Proofs.Signal.Hearing
import CurrencyPad.Proofs.Signal.LastHeard
import CurrencyPad.Proofs.Signal.Run
import CurrencyPad.Proofs.Signal.Scene
import CurrencyPad.Proofs.Signal.Subscriptions
import CurrencyPad.Proofs.Yaml.Keys
import CurrencyPad.Signal.Basic
import CurrencyPad.Signal.Cell
import CurrencyPad.Signal.Combination
import CurrencyPad.Signal.Delivery
import CurrencyPad.Signal.Network
import CurrencyPad.Signal.Request
import CurrencyPad.Text.Base64
import CurrencyPad.Text.Basic
import CurrencyPad.Text.Blank
import CurrencyPad.Text.Bytes
import CurrencyPad.Text.Control
import CurrencyPad.Text.Digit
import CurrencyPad.Text.Integer
import CurrencyPad.Text.Path
import CurrencyPad.Text.Printable
import CurrencyPad.Text.Quoted
import CurrencyPad.Text.Similar
import CurrencyPad.Text.Table
import CurrencyPad.Text.UpperCase
import CurrencyPad.Validation.Datum
import CurrencyPad.Validation.Error
import CurrencyPad.Yaml.Basic
import CurrencyPad.Yaml.Block
import CurrencyPad.Yaml.Cursor
import CurrencyPad.Yaml.Document
import CurrencyPad.Yaml.Error
import CurrencyPad.Yaml.Layout
import CurrencyPad.Yaml.Node
import CurrencyPad.Yaml.Plain
import CurrencyPad.Yaml.Property
import CurrencyPad.Yaml.Quoted
import CurrencyPad.Yaml.Scalar
import CurrencyPad.Yaml.Tag
import CurrencyPad.Yaml.Timestamp
import CurrencyPad.Yaml.Token
