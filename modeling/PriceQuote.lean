import PriceQuote.Binary64.Arithmetic
import PriceQuote.Binary64.Basic
import PriceQuote.Binary64.Decimal
import PriceQuote.Binary64.Rounding
import PriceQuote.Binary64.Text
import PriceQuote.Catalog.Basic
import PriceQuote.Catalog.Product
import PriceQuote.Catalog.Standard
import PriceQuote.Catalog.Validation
import PriceQuote.Command.Basic
import PriceQuote.Command.Line
import PriceQuote.Command.Report
import PriceQuote.Document.Basic
import PriceQuote.Document.OfJsonText
import PriceQuote.Document.Reader
import PriceQuote.Document.Shape
import PriceQuote.Document.Tagged
import PriceQuote.Host.Basic
import PriceQuote.Json.Basic
import PriceQuote.Json.Printer
import PriceQuote.Json.Token
import PriceQuote.Main
import PriceQuote.Money.Arithmetic
import PriceQuote.Quote.Basic
import PriceQuote.Quote.Pricebook
import PriceQuote.Quote.Request
import PriceQuote.Quote.Tables
import PriceQuote.Rule.Basic
import PriceQuote.Rule.Category
import PriceQuote.Rule.Context
import PriceQuote.Rule.Engine
import PriceQuote.Rule.Standard
import PriceQuote.Service.Answer
import PriceQuote.Service.Body
import PriceQuote.Service.MediaType
import PriceQuote.Service.Problem
import PriceQuote.Service.Router
import PriceQuote.Service.Start
import PriceQuote.Service.Uri
import PriceQuote.Settings.Attribution
import PriceQuote.Settings.Basic
import PriceQuote.Settings.Key
import PriceQuote.Settings.Load
import PriceQuote.Settings.LogFormat
import PriceQuote.Settings.Patch
import PriceQuote.Settings.Template
import PriceQuote.Text.Blank
import PriceQuote.Text.Numeral
import PriceQuote.Text.Utf8
import PriceQuote.Timestamp.Basic
import PriceQuote.Timestamp.Text
import PriceQuote.Toml.Blank
import PriceQuote.Toml.FreeForm
import PriceQuote.Toml.Scalar
import PriceQuote.Toml.String
import PriceQuote.Toml.Text
import PriceQuote.Toml.Tree
import PriceQuote.Toml.Value
import PriceQuote.Wire.Basic
import PriceQuote.Wire.Catalog
import PriceQuote.Wire.Quote
import PriceQuote.Wire.Rule
import PriceQuote.Proofs.Catalog.Batch
import PriceQuote.Proofs.Quote.Outcome
import PriceQuote.Proofs.Rule.Order
import PriceQuote.Proofs.Rule.Run
import PriceQuote.Proofs.Distinct
import PriceQuote.Proofs.Rule.Requested
import PriceQuote.Proofs.Quote.Independence
import PriceQuote.Proofs.Catalog.Findings
import PriceQuote.Proofs.Catalog.Selection
import PriceQuote.Proofs.Quote.Listing
import PriceQuote.Proofs.Quote.Repeats
import PriceQuote.Proofs.Service.Outcome
import PriceQuote.Proofs.Service.Preview
import PriceQuote.Proofs.Binary64.Order
import PriceQuote.Proofs.Quote.Amounts
import PriceQuote.Proofs.Quote.Shape
import PriceQuote.Proofs.Settings.Defaults
import PriceQuote.Proofs.Command.Outcome
import PriceQuote.Proofs.Command.Report
import PriceQuote.Proofs.Service.Agreement
import PriceQuote.Proofs.Service.Refusals
import PriceQuote.Proofs.Command.Quoting
import PriceQuote.Proofs.Document.Record
import PriceQuote.Proofs.Json.Written
import PriceQuote.Proofs.Wire.Restored
import PriceQuote.Proofs.Binary64.Finite
import PriceQuote.Proofs.Quote.Finite
import PriceQuote.Proofs.Wire.Quote
import PriceQuote.Proofs.Quote.Readable
import PriceQuote.Proofs.Catalog.Checked
import PriceQuote.Proofs.Text.Numeral
import PriceQuote.Proofs.Settings.Layer
import PriceQuote.Proofs.Settings.File
import PriceQuote.Proofs.Settings.Layers
import PriceQuote.Proofs.Settings.Lookup
import PriceQuote.Proofs.Settings.Template
import PriceQuote.Proofs.Settings.Attribution
import PriceQuote.Proofs.Wire.Layout
import PriceQuote.Proofs.Wire.Travels
import PriceQuote.Proofs.Wire.Catalog
import PriceQuote.Proofs.Wire.Quoting
import PriceQuote.Proofs.Wire.Rules
import PriceQuote.Proofs.Wire.RoundTrip
import PriceQuote.Proofs.Rule.Declared
import PriceQuote.Proofs.Rule.Positive
import PriceQuote.Proofs.Catalog.Unordered
import PriceQuote.Proofs.Binary64.Neutral
import PriceQuote.Proofs.Rule.Inert
import PriceQuote.Proofs.Rule.Standard
import PriceQuote.Proofs.Binary64.Value
import PriceQuote.Proofs.Money.Exact
import PriceQuote.Proofs.Rule.Reconciled
import PriceQuote.Proofs.Binary64.Nearest
import PriceQuote.Proofs.Rule.CustomField
import PriceQuote.Proofs.FirstFault
import PriceQuote.Proofs.Text.Blank
import PriceQuote.Proofs.Quote.Problems
import PriceQuote.Proofs.Catalog.Categories
import PriceQuote.Proofs.Service.Products
import PriceQuote.Proofs.Command.ExitCode
import PriceQuote.Proofs.Binary64.Error
import PriceQuote.Proofs.Money.Cents
import PriceQuote.Proofs.Rule.Variety
