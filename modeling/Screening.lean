import Screening.Comparison
import Screening.Connective
import Screening.Daemon
import Screening.Http.MediaType
import Screening.Http.Message
import Screening.Http.Payload
import Screening.Http.RequestId
import Screening.Http.Service
import Screening.Ini
import Screening.Json.Reader
import Screening.Json.Token
import Screening.Json.Value
import Screening.Json.Writer
import Screening.Json5
import Screening.Lexeme
import Screening.Literal
import Screening.Log.Activity
import Screening.Log.Directive
import Screening.Log.Filter
import Screening.Log.Line
import Screening.Metrics.Exposition
import Screening.Metrics.Ledger
import Screening.Number.Binary64
import Screening.Number.Scientific
import Screening.Number.Shortest
import Screening.Numeral
import Screening.Operation
import Screening.Pattern.Basic
import Screening.Pattern.CharSet
import Screening.Pattern.Reading
import Screening.Proofs.Answers
import Screening.Proofs.Assembly
import Screening.Proofs.Bodies
import Screening.Proofs.Bookkeeping
import Screening.Proofs.Chains
import Screening.Proofs.Closing
import Screening.Proofs.Coercion
import Screening.Proofs.Concatenation
import Screening.Proofs.Conditions
import Screening.Proofs.Conjunction
import Screening.Proofs.Decoding
import Screening.Proofs.Disorder
import Screening.Proofs.Figures
import Screening.Proofs.Gaps
import Screening.Proofs.Identity
import Screening.Proofs.InOrder
import Screening.Proofs.Integers
import Screening.Proofs.Joining
import Screening.Proofs.JsonForms
import Screening.Proofs.Keys
import Screening.Proofs.Layers
import Screening.Proofs.Laying
import Screening.Proofs.Literal
import Screening.Proofs.Nesting
import Screening.Proofs.Orderly
import Screening.Proofs.Origin
import Screening.Proofs.Phrases
import Screening.Proofs.Places
import Screening.Proofs.Precedence
import Screening.Proofs.Pruning
import Screening.Proofs.Relevance
import Screening.Proofs.Rendering
import Screening.Proofs.Scanning
import Screening.Proofs.Watch
import Screening.Proofs.Words
import Screening.Record
import Screening.Ron
import Screening.Rule.Assembly
import Screening.Rule.Basic
import Screening.Rule.Error
import Screening.Rule.Json
import Screening.Rule.Judge
import Screening.Settings.Basic
import Screening.Settings.File
import Screening.Settings.Loading
import Screening.Settings.Path
import Screening.Settings.Reading
import Screening.Settings.Setting
import Screening.Settings.Variable
import Screening.Text.Alphanumeric
import Screening.Text.Blank
import Screening.Text.Digit
import Screening.Text.Hidden
import Screening.Text.Quoted
import Screening.Text.Runs
import Screening.Text.WordChar
import Screening.Toml.Document
import Screening.Toml.Draft
import Screening.Toml.Scalar
import Screening.Toml.Text
import Screening.Verdict
import Screening.Yaml.Document
import Screening.Yaml.Scalar
