import Introspect.Binary64.Basic
import Introspect.Binary64.Round
import Introspect.Binary64.Text
import Introspect.Catalog
import Introspect.Decimal.Basic
import Introspect.Decimal.Shortest
import Introspect.Edition
import Introspect.EnvPrefix
import Introspect.Listing.ForeignKey
import Introspect.Listing.Index
import Introspect.Listing.Keys
import Introspect.Listing.Position
import Introspect.Main
import Introspect.OrderedMap
import Introspect.Proofs.ExactIntegers
import Introspect.Proofs.Listing.ColumnLists
import Introspect.Proofs.Listing.ForeignKey
import Introspect.Proofs.Listing.Groups
import Introspect.Proofs.Listing.KeyColumns
import Introspect.Proofs.Listing.Keyed
import Introspect.Proofs.Listing.Missing
import Introspect.Proofs.Listing.Projection
import Introspect.Proofs.Listing.PropertyTree
import Introspect.Proofs.Listing.Search
import Introspect.Proofs.OrderedMap
import Introspect.Proofs.Parameter
import Introspect.Proofs.ParameterList
import Introspect.Proofs.ParameterTypes
import Introspect.Proofs.Signature
import Introspect.Proofs.Sorting.Insertion
import Introspect.Proofs.Sorting.Lex
import Introspect.Proofs.Sorting.Merge
import Introspect.Proofs.Sorting.Naturality
import Introspect.Proofs.Sorting.Runs
import Introspect.Proofs.Sorting.SmallSort
import Introspect.Proofs.Sorting.Spec
import Introspect.Proofs.Sorting.Stable
import Introspect.Proofs.Sorting.TwoEnded
import Introspect.Proofs.Split
import Introspect.Proofs.Text
import Introspect.Proofs.Utf8
import Introspect.Proofs.ValueOrder
import Introspect.Row
import Introspect.Signature.Basic
import Introspect.Signature.Error
import Introspect.Signature.Parameter
import Introspect.Signature.Split
import Introspect.Sorting.Insertion
import Introspect.Sorting.Merge
import Introspect.Sorting.Runs
import Introspect.Sorting.SmallSort
import Introspect.Sorting.Stable
import Introspect.Text.Basic
import Introspect.Text.Blank
import Introspect.Text.Extend
import Introspect.Text.Printable
import Introspect.Text.Quoted
import Introspect.Text.UpperCase
import Introspect.Tool
import Introspect.Value
