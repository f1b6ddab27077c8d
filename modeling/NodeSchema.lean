import NodeSchema.Build
import NodeSchema.Main
import NodeSchema.Proofs.Command.Running
import NodeSchema.Proofs.Definitions.Scope
import NodeSchema.Proofs.Files.Building
import NodeSchema.Proofs.Generation.Arms
import NodeSchema.Proofs.Generation.Extension
import NodeSchema.Proofs.Generation.Names
import NodeSchema.Proofs.Generation.Order
import NodeSchema.Proofs.Schema.Slices
import NodeSchema.Proofs.Visitor.Scope
import NodeSchema.Schema.Writer
import NodeSchema.Proofs.TypeExpr.Cutting
import NodeSchema.Proofs.Verification.Borrowing
import NodeSchema.Proofs.TypeExpr.Placing
import NodeSchema.Proofs.Text.Replacement
import NodeSchema.Proofs.Generation.Lifetimes
import NodeSchema.Proofs.Visitor.Blocks
import NodeSchema.Proofs.Generation.WalkerScopes
import NodeSchema.Proofs.TypeExpr.Misplaced
import NodeSchema.Proofs.Generation.Rendering
import NodeSchema.Proofs.Verification.Precedence
import NodeSchema.Proofs.Verification.MethodNames
import NodeSchema.Proofs.Schema.Refusals
import NodeSchema.Proofs.Messages
import NodeSchema.Proofs.JavaScript
import NodeSchema.Proofs.Schema.Writing
import NodeSchema.Proofs.TypeExpr.Progress
