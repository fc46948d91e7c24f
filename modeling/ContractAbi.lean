import ContractAbi.Text.Basic
import ContractAbi.Text.Blank
import ContractAbi.Text.Decimal
import ContractAbi.Text.Hex
import ContractAbi.Text.Parens
import ContractAbi.Json.Binary64
import ContractAbi.Json.Number
import ContractAbi.Json.Basic
import ContractAbi.Json.Token
import ContractAbi.Json.Reader
import ContractAbi.Json.Printer
import ContractAbi.Keccak
import ContractAbi.Mutability
import ContractAbi.Parameter
import ContractAbi.Entry
import ContractAbi.Text.Invisible
import ContractAbi.Text.Quoted
import ContractAbi.Shape.Basic
import ContractAbi.Error
import ContractAbi.Shape.Suffix
import ContractAbi.Shape.Resolve
import ContractAbi.Canonical
import ContractAbi.Value
import ContractAbi.Binding
import ContractAbi.Declaration
import ContractAbi.Descriptor
import ContractAbi.Report
import ContractAbi.Distinct
import ContractAbi.Schema
import ContractAbi.FileTree
import ContractAbi.Journal
import ContractAbi.AbiFile
import ContractAbi.CommandLine.Options
import ContractAbi.CommandLine.Run
import ContractAbi.Main
import ContractAbi.Proofs.Except
import ContractAbi.Proofs.Occurrences
import ContractAbi.Proofs.Text.Basic
import ContractAbi.Proofs.Text.Numeral
import ContractAbi.Proofs.Text.Digits
import ContractAbi.Proofs.Text.Parens
import ContractAbi.Proofs.Text.Spacing
import ContractAbi.Proofs.Text.Splitting
import ContractAbi.Proofs.Text.Marks
import ContractAbi.Proofs.Text.Utf8
import ContractAbi.Proofs.Shape.Notation
import ContractAbi.Proofs.Shape.WellFormed
import ContractAbi.Proofs.Shape.Canonical
import ContractAbi.Proofs.Shape.PlainType
import ContractAbi.Proofs.Shape.Grammar
import ContractAbi.Proofs.Shape.CanonicalText
import ContractAbi.Proofs.Shape.CanonicalForm
import ContractAbi.Proofs.Shape.Suffixes
import ContractAbi.Proofs.Shape.WrittenType
import ContractAbi.Proofs.Shape.Display
import ContractAbi.Proofs.Shape.EventFields
import ContractAbi.Proofs.Signature
import ContractAbi.Proofs.Overloads
import ContractAbi.Proofs.Lookups
import ContractAbi.Proofs.OverloadSets
import ContractAbi.Proofs.SpacedSignature
import ContractAbi.Proofs.Json.Members
import ContractAbi.Proofs.Json.Tokens
import ContractAbi.Proofs.Json.RoundTrip
import ContractAbi.Proofs.Json.Depth
import ContractAbi.Proofs.Value.TwosComplement
import ContractAbi.Proofs.Value.Integer
import ContractAbi.Proofs.Value.ByteString
import ContractAbi.Proofs.Value.Inhabits
import ContractAbi.Proofs.Value.TupleForms
import ContractAbi.Proofs.Value.Mismatch
import ContractAbi.Proofs.Declaration.Parameter
import ContractAbi.Proofs.Declaration.Fragments
import ContractAbi.Proofs.Declaration.Forms
import ContractAbi.Proofs.Declaration.Clause
import ContractAbi.Proofs.Declaration.Parts
import ContractAbi.Proofs.Declaration.Heading
import ContractAbi.Proofs.Declaration.InlineTuple
import ContractAbi.Proofs.Declaration.Mutability
import ContractAbi.Proofs.Declaration.Reparse
import ContractAbi.Proofs.Declaration.Outputs
import ContractAbi.Proofs.Declaration.FullSignature
import ContractAbi.Proofs.Schema.Parameter
import ContractAbi.Proofs.Schema.RoundTrip
import ContractAbi.Proofs.Schema.Elementwise
import ContractAbi.Proofs.Schema.Ingested
import ContractAbi.Proofs.Declaration.Batch
import ContractAbi.Proofs.Declaration.Modes
import ContractAbi.Proofs.DataModel
import ContractAbi.Proofs.Shape.Tuples
import ContractAbi.Proofs.FrontEnds
import ContractAbi.Proofs.FileForms
import ContractAbi.Proofs.FileLines
import ContractAbi.Proofs.FileTree
import ContractAbi.Proofs.FileSearch
import ContractAbi.Proofs.CommandLine.Arguments
import ContractAbi.Proofs.CommandLine.Directory
