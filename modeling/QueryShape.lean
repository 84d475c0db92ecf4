import QueryShape.Assembly.Assemble
import QueryShape.Assembly.Infer
import QueryShape.Assembly.Unit
import QueryShape.Catalog.Load
import QueryShape.Catalog.Procedures
import QueryShape.Catalog.Tables
import QueryShape.Catalog.Types
import QueryShape.Column
import QueryShape.Diagnostics
import QueryShape.Distinct
import QueryShape.Fault
import QueryShape.Glob.Match
import QueryShape.Glob.Pattern
import QueryShape.Identifier
import QueryShape.Inference.Context
import QueryShape.Inference.Parameters
import QueryShape.Inference.ResultSet
import QueryShape.KeyMap
import QueryShape.Model
import QueryShape.Narrow
import QueryShape.Parameter
import QueryShape.Path
import QueryShape.Procedure.Header
import QueryShape.Rule.Basic
import QueryShape.Rule.Coverage
import QueryShape.Rule.Set
import QueryShape.Script.Files
import QueryShape.Script.Kind
import QueryShape.Script.Statement
import QueryShape.Script.Synthesis
import QueryShape.Script.TableTypeMatch
import QueryShape.Server.Error
import QueryShape.Server.Row
import QueryShape.Server.Scripted
import QueryShape.Server.Session
import QueryShape.Server.Settings
import QueryShape.SqlType
import QueryShape.Table
import QueryShape.TempTable.CreatedNames
import QueryShape.TempTable.RunToken
import QueryShape.TempTable.Sandbox
import QueryShape.Text.Case
import QueryShape.Text.Encoding
import QueryShape.Text.IgnoreCase
import QueryShape.Text.Trim
import QueryShape.Token.Basic
import QueryShape.Token.Lexer
import QueryShape.Token.Placed
import QueryShape.Token.Printer
import QueryShape.Token.Quotation
import QueryShape.Unicode.Alphabetic
import QueryShape.Unicode.Blank
import QueryShape.Unicode.CaseContext
import QueryShape.Unicode.CaseRun
import QueryShape.Unicode.CodePointSet
import QueryShape.Unicode.Letter
import QueryShape.Unicode.Lower
import QueryShape.Unicode.Numeric
import QueryShape.Unicode.Upper
import QueryShape.Unicode.WordPart
import QueryShape.Unit
import QueryShape.Variable.Scan
import QueryShape.Proofs.Traffic.Basic
import QueryShape.Proofs.Traffic.Sandbox
import QueryShape.Proofs.Traffic.Attempt
import QueryShape.Proofs.Traffic.Unit
import QueryShape.Proofs.Traffic.Run
import QueryShape.Proofs.Staging
import QueryShape.Proofs.Isolation.Run
import QueryShape.Proofs.Result
import QueryShape.Proofs.TempTables
import QueryShape.Proofs.Steady.Basic
import QueryShape.Proofs.Steady.Unit
import QueryShape.Proofs.Steady.Run
import QueryShape.Proofs.ColumnParameters
import QueryShape.Proofs.SharedServer.Units
import QueryShape.Proofs.Variables.Description
import QueryShape.Proofs.Variables.Declarations
import QueryShape.Proofs.Variables.Prologue
import QueryShape.Proofs.RowSource
import QueryShape.Proofs.WholeKey
import QueryShape.Proofs.MergedScripts
import QueryShape.Proofs.Accounts.Run
import QueryShape.Proofs.LocalNames
import QueryShape.Proofs.GlobalTokens.Readers
import QueryShape.Proofs.GlobalTokens.Readings
import QueryShape.Proofs.QuotedNames
import QueryShape.Proofs.ScriptIdentities
import QueryShape.Proofs.CreatedTables
import QueryShape.Proofs.GeneratedText.Lexemes
import QueryShape.Proofs.GeneratedText.Phrases
import QueryShape.Proofs.GeneratedText.Statements
import QueryShape.Proofs.GeneratedText.Executable
import QueryShape.Proofs.ResolvedParameters
import QueryShape.Proofs.NamesApart.Blanks
import QueryShape.Proofs.NamesApart.Scans
import QueryShape.Proofs.NamesApart.Batch
import QueryShape.Proofs.NamesApart.Unit
import QueryShape.Proofs.KeptServer
import QueryShape.Proofs.NamesApart.Run
import QueryShape.Proofs.Cascade
import QueryShape.Proofs.Coverage.Columns
import QueryShape.Proofs.Coverage.Catalog
import QueryShape.Proofs.UsedTypes
import QueryShape.Proofs.ShapeMatching
import QueryShape.Proofs.TableTypeSelection
import QueryShape.Proofs.ResultColumns
import QueryShape.Proofs.Fallback.Transcript
import QueryShape.Proofs.Fallback.Attempt
import QueryShape.Proofs.Fallback.Strategies
import QueryShape.Proofs.SeparatedTexts
import QueryShape.Proofs.Variables.Places
import QueryShape.Proofs.Variables.FirstUses
import QueryShape.Proofs.Variables.Delimited
import QueryShape.Proofs.Variables.Lists
import QueryShape.Proofs.Variables.ListTexts
import QueryShape.Proofs.Variables.Separated
import QueryShape.Proofs.RefusedRequests
import QueryShape.Proofs.DefaultText
import QueryShape.Proofs.Definitions.Forms
import QueryShape.Proofs.Definitions.Headers
import QueryShape.Proofs.WrittenBack.Defaults
import QueryShape.Proofs.LastRequests
import QueryShape.Proofs.RowOrder
