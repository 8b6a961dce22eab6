import Specimen.Assoc
import Specimen.Catalog
import Specimen.Configuration
import Specimen.Double.Arithmetic
import Specimen.Double.Basic
import Specimen.Double.Decimal
import Specimen.Error
import Specimen.Fixture
import Specimen.Format.Address
import Specimen.Format.Basic
import Specimen.Format.Calendar
import Specimen.Format.Host
import Specimen.Format.Identifier
import Specimen.Generator.Basic
import Specimen.Generator.Compile
import Specimen.Generator.Draft
import Specimen.Json.Basic
import Specimen.Json.Merge
import Specimen.Json.Reader
import Specimen.Json.Size
import Specimen.Materialize
import Specimen.Outcome
import Specimen.Overrides
import Specimen.Pattern.Basic
import Specimen.Pattern.CharSet
import Specimen.Pattern.Emit
import Specimen.Pattern.Expr
import Specimen.Pattern.Fold
import Specimen.Pattern.Meaning
import Specimen.Pattern.Reader
import Specimen.Pattern.Search
import Specimen.Pattern.Table
import Specimen.Pattern.Tree
import Specimen.Primitive.Error
import Specimen.Primitive.Integer
import Specimen.Primitive.Leaf
import Specimen.Primitive.Lengths
import Specimen.Primitive.Library
import Specimen.Primitive.Number
import Specimen.Primitive.Picker
import Specimen.Proofs.Draw
import Specimen.Proofs.Run
import Specimen.Random.Draw
import Specimen.Random.Source
import Specimen.Registry
import Specimen.Schema.Constraints
import Specimen.Schema.Error
import Specimen.Schema.Keyword
import Specimen.Schema.Kind
import Specimen.Schema.KindLemmas
import Specimen.Schema.Reference
import Specimen.Session
import Specimen.Store
import Specimen.Text.Digits
import Specimen.Text.Quoted
import Specimen.Text.Split
import Specimen.Text.Visible
import Specimen.Yaml.Cell
import Specimen.Yaml.Layout
import Specimen.Yaml.Node
import Specimen.Yaml.Scalar.Block
import Specimen.Yaml.Scalar.Flow
import Specimen.Yaml.Token
import Specimen.Yaml.Value
import Specimen.Proofs.Compiling
import Specimen.Proofs.Conformance
import Specimen.Json.WellFormed
import Specimen.Proofs.Validation
import Specimen.Proofs.Positions
import Specimen.Proofs.Visits
import Specimen.Proofs.Overriding
import Specimen.Proofs.Replacing
import Specimen.Proofs.Shadowing
import Specimen.Proofs.Unmet
import Specimen.Proofs.Operation
import Specimen.Proofs.Calls
import Specimen.Proofs.Request
import Specimen.Proofs.Stores
import Specimen.Proofs.ForeignKeys
import Specimen.Proofs.Isolation
import Specimen.Proofs.Content
import Specimen.Proofs.Registration
import Specimen.Proofs.Agreement
import Specimen.Proofs.Correspondence
import Specimen.Proofs.Descent
import Specimen.Proofs.Lockstep
import Specimen.Proofs.Qualifying
import Specimen.Proofs.LocalPointers
import Specimen.Proofs.Unfolding
import Specimen.Proofs.Inlining
import Specimen.Proofs.Namesakes
import Specimen.Proofs.ReferenceFree
import Specimen.Proofs.Progress
import Specimen.Proofs.Failures
import Specimen.Proofs.ReadConstraints
import Specimen.Proofs.Reading
import Specimen.Proofs.ReadingKinds
import Specimen.Proofs.Nulls
import Specimen.Proofs.Laying
import Specimen.Proofs.LeafValues
import Specimen.Proofs.Constituents
import Specimen.Proofs.Rewording
import Specimen.Proofs.Rearranging
import Specimen.Proofs.Blanks
import Specimen.Proofs.Reaching
import Specimen.Proofs.TypeLists
import Specimen.Proofs.Bypassing
import Specimen.Proofs.Removing
import Specimen.Proofs.Searching
import Specimen.Proofs.UnknownPaths
import Specimen.Proofs.MergeLaws
import Specimen.Proofs.ReferenceText
import Specimen.Proofs.Addressing
import Specimen.Proofs.ExactValues
import Specimen.Proofs.IntegerDraws
import Specimen.Proofs.IntegerNodes
import Specimen.Proofs.WrittenBounds
import Specimen.Proofs.IntegerSpellings
import Specimen.Proofs.EffectiveBounds
import Specimen.Proofs.Emission
import Specimen.Proofs.CalendarDays
import Specimen.Proofs.CalendarText
import Specimen.Proofs.AddressText
import Specimen.Proofs.IdentifierText
import Specimen.Proofs.FormatDraws
import Specimen.Proofs.Filling
import Specimen.Proofs.TypeUnions
import Specimen.Proofs.Midpoints
import Specimen.Proofs.NumberDraws
import Specimen.Proofs.IntegerEdges
import Specimen.Proofs.Defaults
import Specimen.Proofs.KeptKeywords
import Specimen.Proofs.Acceptance
import Specimen.Proofs.TypeKeyword
import Specimen.Proofs.StepwiseFills
import Specimen.Proofs.PathPrefixes
import Specimen.Proofs.FixtureSeeds
import Specimen.Proofs.Picks
import Specimen.Proofs.DottedPaths
