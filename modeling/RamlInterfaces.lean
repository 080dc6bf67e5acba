import RamlInterfaces.Calendar.Timestamp
import RamlInterfaces.Command.Arguments
import RamlInterfaces.Command.Console
import RamlInterfaces.Command.Execution
import RamlInterfaces.Command.Inspection
import RamlInterfaces.Command.Request
import RamlInterfaces.Detail
import RamlInterfaces.Failure
import RamlInterfaces.File.Change
import RamlInterfaces.File.CodePage
import RamlInterfaces.File.Encoding
import RamlInterfaces.File.Path
import RamlInterfaces.File.Replacement
import RamlInterfaces.File.Tree
import RamlInterfaces.Generation.Constraint
import RamlInterfaces.Generation.Interface
import RamlInterfaces.Generation.Naming
import RamlInterfaces.Generation.ParameterType
import RamlInterfaces.Generation.Run
import RamlInterfaces.Generation.Session
import RamlInterfaces.Generation.SourceFile
import RamlInterfaces.Java.Annotation
import RamlInterfaces.Java.Declaration
import RamlInterfaces.Java.Fault
import RamlInterfaces.Java.Identifier
import RamlInterfaces.Java.Layout
import RamlInterfaces.Java.Literal
import RamlInterfaces.Java.Model
import RamlInterfaces.Java.Naming
import RamlInterfaces.Java.Source
import RamlInterfaces.Java.TypeRef
import RamlInterfaces.Json.Reader
import RamlInterfaces.Json.Writer
import RamlInterfaces.Main
import RamlInterfaces.Number.Binary64
import RamlInterfaces.Number.Digits
import RamlInterfaces.Number.Reading
import RamlInterfaces.Number.Shortest
import RamlInterfaces.Proofs.Command.Inspection
import RamlInterfaces.Proofs.Command.MethodRows
import RamlInterfaces.Proofs.Except
import RamlInterfaces.Proofs.File.Path
import RamlInterfaces.Proofs.File.Replacement
import RamlInterfaces.Proofs.File.Tree
import RamlInterfaces.Proofs.File.World
import RamlInterfaces.Proofs.Generation.Arguments
import RamlInterfaces.Proofs.Generation.Clashes
import RamlInterfaces.Proofs.Generation.Comments
import RamlInterfaces.Proofs.Generation.ConstraintTypes
import RamlInterfaces.Proofs.Generation.Contexts
import RamlInterfaces.Proofs.Generation.Decision
import RamlInterfaces.Proofs.Generation.Declarations
import RamlInterfaces.Proofs.Generation.Enums
import RamlInterfaces.Proofs.Generation.Failures
import RamlInterfaces.Proofs.Generation.Filling
import RamlInterfaces.Proofs.Generation.FinalMethods
import RamlInterfaces.Proofs.Generation.Flattening
import RamlInterfaces.Proofs.Generation.Growth
import RamlInterfaces.Proofs.Generation.Histories
import RamlInterfaces.Proofs.Generation.Independence
import RamlInterfaces.Proofs.Generation.IntegerLimits
import RamlInterfaces.Proofs.Generation.InterfaceDeclarations
import RamlInterfaces.Proofs.Generation.Legality
import RamlInterfaces.Proofs.Generation.LimitLiterals
import RamlInterfaces.Proofs.Generation.Limits
import RamlInterfaces.Proofs.Generation.Members
import RamlInterfaces.Proofs.Generation.ModelOperations
import RamlInterfaces.Proofs.Generation.Naming
import RamlInterfaces.Proofs.Generation.Operations
import RamlInterfaces.Proofs.Generation.Orderly
import RamlInterfaces.Proofs.Generation.Outcome
import RamlInterfaces.Proofs.Generation.Outline
import RamlInterfaces.Proofs.Generation.ParameterDeclarations
import RamlInterfaces.Proofs.Generation.ParameterNames
import RamlInterfaces.Proofs.Generation.PathBindings
import RamlInterfaces.Proofs.Generation.Paths
import RamlInterfaces.Proofs.Generation.QualifiedNames
import RamlInterfaces.Proofs.Generation.References
import RamlInterfaces.Proofs.Generation.Run
import RamlInterfaces.Proofs.Generation.ShortNames
import RamlInterfaces.Proofs.Generation.Soundness
import RamlInterfaces.Proofs.Generation.SourceFile
import RamlInterfaces.Proofs.Generation.Steps
import RamlInterfaces.Proofs.Generation.Warnings
import RamlInterfaces.Proofs.Java.Comment
import RamlInterfaces.Proofs.Java.CommentPlace
import RamlInterfaces.Proofs.Java.Identifier
import RamlInterfaces.Proofs.Java.Imports
import RamlInterfaces.Proofs.Java.Indentation
import RamlInterfaces.Proofs.Java.IntegerLiteral
import RamlInterfaces.Proofs.Java.Legality
import RamlInterfaces.Proofs.Java.Lexical
import RamlInterfaces.Proofs.Java.LiteralPlace
import RamlInterfaces.Proofs.Java.Model
import RamlInterfaces.Proofs.Java.Reference
import RamlInterfaces.Proofs.Java.ReferenceText
import RamlInterfaces.Proofs.Java.Renaming
import RamlInterfaces.Proofs.Java.Scope
import RamlInterfaces.Proofs.Java.SourceText
import RamlInterfaces.Proofs.Java.Spelling
import RamlInterfaces.Proofs.Java.UnicodeEscape
import RamlInterfaces.Proofs.Json.RoundTrip
import RamlInterfaces.Proofs.Number.Digits
import RamlInterfaces.Proofs.Number.Exact
import RamlInterfaces.Proofs.Raml.Absorption
import RamlInterfaces.Proofs.Raml.AlikeTraits
import RamlInterfaces.Proofs.Raml.Application
import RamlInterfaces.Proofs.Raml.ChainOutcome
import RamlInterfaces.Proofs.Raml.Collection
import RamlInterfaces.Proofs.Raml.DeclaredLimits
import RamlInterfaces.Proofs.Raml.DeclaredParameters
import RamlInterfaces.Proofs.Raml.Effect
import RamlInterfaces.Proofs.Raml.Expansion
import RamlInterfaces.Proofs.Raml.Explicit
import RamlInterfaces.Proofs.Raml.ExplicitPaths
import RamlInterfaces.Proofs.Raml.Extraction
import RamlInterfaces.Proofs.Raml.ExtractionFailures
import RamlInterfaces.Proofs.Raml.Fields
import RamlInterfaces.Proofs.Raml.Filling
import RamlInterfaces.Proofs.Raml.Grammar
import RamlInterfaces.Proofs.Raml.Idempotence
import RamlInterfaces.Proofs.Raml.InPlace
import RamlInterfaces.Proofs.Raml.Inflection
import RamlInterfaces.Proofs.Raml.Inheritance
import RamlInterfaces.Proofs.Raml.Keyed
import RamlInterfaces.Proofs.Raml.Mention
import RamlInterfaces.Proofs.Raml.Merge
import RamlInterfaces.Proofs.Raml.MethodParts
import RamlInterfaces.Proofs.Raml.Mirror
import RamlInterfaces.Proofs.Raml.Offers
import RamlInterfaces.Proofs.Raml.Overlay
import RamlInterfaces.Proofs.Raml.PlaceholderGrammar
import RamlInterfaces.Proofs.Raml.Placeholders
import RamlInterfaces.Proofs.Raml.ProblemFree
import RamlInterfaces.Proofs.Raml.Reach
import RamlInterfaces.Proofs.Raml.Related
import RamlInterfaces.Proofs.Raml.Resolved
import RamlInterfaces.Proofs.Raml.ResolvedMethods
import RamlInterfaces.Proofs.Raml.SameReading
import RamlInterfaces.Proofs.Raml.Shape
import RamlInterfaces.Proofs.Raml.Sources
import RamlInterfaces.Proofs.Raml.Stops
import RamlInterfaces.Proofs.Raml.Substitution
import RamlInterfaces.Proofs.Raml.Survival
import RamlInterfaces.Proofs.Raml.TemplateFree
import RamlInterfaces.Proofs.Raml.Traits
import RamlInterfaces.Proofs.Raml.TypeChain
import RamlInterfaces.Proofs.Raml.Undeclared
import RamlInterfaces.Proofs.Raml.Validated
import RamlInterfaces.Proofs.Settings.Package
import RamlInterfaces.Proofs.Settings.RoundTrip
import RamlInterfaces.Proofs.Text.Lowercase
import RamlInterfaces.Proofs.Text.Runs
import RamlInterfaces.Proofs.Value.Entries
import RamlInterfaces.Raml.Application
import RamlInterfaces.Raml.Coercion
import RamlInterfaces.Raml.Cycle
import RamlInterfaces.Raml.Description
import RamlInterfaces.Raml.Extraction
import RamlInterfaces.Raml.Fault
import RamlInterfaces.Raml.Key
import RamlInterfaces.Raml.Merge
import RamlInterfaces.Raml.Placeholder
import RamlInterfaces.Raml.Reading
import RamlInterfaces.Raml.Source
import RamlInterfaces.Raml.Template
import RamlInterfaces.Raml.Validation
import RamlInterfaces.Settings.Check
import RamlInterfaces.Settings.Configuration
import RamlInterfaces.Settings.Fault
import RamlInterfaces.Settings.Resolution
import RamlInterfaces.Settings.Saving
import RamlInterfaces.Settings.Variables
import RamlInterfaces.Text.Alphanumeric
import RamlInterfaces.Text.Base64
import RamlInterfaces.Text.Blank
import RamlInterfaces.Text.Cased
import RamlInterfaces.Text.CodeRange
import RamlInterfaces.Text.Lines
import RamlInterfaces.Text.Lowercase
import RamlInterfaces.Text.Printable
import RamlInterfaces.Text.Quoted
import RamlInterfaces.Text.Runs
import RamlInterfaces.Value.Basic
import RamlInterfaces.Value.Listing
import RamlInterfaces.Value.Scalar
import RamlInterfaces.Yaml.Block
import RamlInterfaces.Yaml.Content
import RamlInterfaces.Yaml.Cursor
import RamlInterfaces.Yaml.Lexer
import RamlInterfaces.Yaml.Node
import RamlInterfaces.Yaml.Parser
import RamlInterfaces.Yaml.Plain
import RamlInterfaces.Yaml.Property
import RamlInterfaces.Yaml.Quoted
import RamlInterfaces.Yaml.Tag
import RamlInterfaces.Yaml.Token
