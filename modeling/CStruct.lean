import CStruct.Main
import CStruct.Proofs.Grammar.Acceptance
import CStruct.Proofs.Rendering.Basic
import CStruct.Proofs.Rendering.Gaps
import CStruct.Proofs.Rendering.Adjacent
import CStruct.Proofs.Rendering.Tokens
import CStruct.Proofs.Parse.Effects
import CStruct.Proofs.Rendering.Entries
import CStruct.Proofs.Rendering.Members
import CStruct.Proofs.Rendering.Structs
import CStruct.Proofs.Rendering.Inverse
import CStruct.Proofs.Expression.Ahead
import CStruct.Proofs.Expression.Grouping
import CStruct.Proofs.Expression.Inverse
import CStruct.Proofs.Expression.Ordered
import CStruct.Proofs.Comments.Transparent
import CStruct.Proofs.Scopes.Standing
import CStruct.Proofs.Scopes.Bodies
import CStruct.Proofs.Declared.Names
import CStruct.Proofs.Layout.Exact
import CStruct.Proofs.Declared.Lengths
import CStruct.Proofs.Layout.Faults
import CStruct.Proofs.Declared.Kept
import CStruct.Proofs.Declared.Places
import CStruct.Proofs.Layout.Lookup
import CStruct.Proofs.Spacing.Respaced
import CStruct.Proofs.Spacing.Unplaced
import CStruct.Proofs.Spacing.Lexemes
import CStruct.Proofs.Documentation.Lines
import CStruct.Proofs.Documentation.Attachment
import CStruct.Proofs.Command.Agreement
import CStruct.Proofs.Lexer.Calls
import CStruct.Proofs.Layout.Placement
import CStruct.Proofs.Layout.Words
import CStruct.Proofs.Layout.Sizes
import CStruct.Proofs.Layout.Monotone
import CStruct.Proofs.Lexer.Positions
import CStruct.Proofs.Pattern.Alternatives
import CStruct.Proofs.Lexer.Ended
import CStruct.Proofs.Lexer.Loops
import CStruct.Proofs.Lexer.Reports
import CStruct.Proofs.Lexer.Invocations
import CStruct.Proofs.Statements.Footprint
import CStruct.Proofs.Statements.Braces
import CStruct.Proofs.Redundant.Aside
import CStruct.Proofs.Redundant.Crossing
import CStruct.Proofs.Redundant.Harmless
import CStruct.Proofs.Comments.Remainder
import CStruct.Proofs.Symbols.Building
import CStruct.Proofs.Statements.Ended
import CStruct.Proofs.Diagnostics.Order
