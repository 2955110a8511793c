import Pigeon.Native.Callback
import Pigeon.Proofs.Execution.Call
import Pigeon.Proofs.Execution.Confined
import Pigeon.Proofs.Execution.Counted
import Pigeon.Proofs.Execution.Expanded
import Pigeon.Proofs.Execution.Expr
import Pigeon.Proofs.Execution.Integer
import Pigeon.Proofs.Execution.Keep
import Pigeon.Proofs.Execution.Limited
import Pigeon.Proofs.Execution.Lockstep
import Pigeon.Proofs.Execution.Operator
import Pigeon.Proofs.Execution.Primitive
import Pigeon.Proofs.Execution.Safe
import Pigeon.Proofs.Execution.Shown
import Pigeon.Proofs.Execution.Solid
import Pigeon.Proofs.Execution.Standing
import Pigeon.Proofs.Execution.Stmt
import Pigeon.Proofs.Execution.Trace
import Pigeon.Proofs.Grammar.Complete
import Pigeon.Proofs.Grammar.Cursor
import Pigeon.Proofs.Grammar.Decides
import Pigeon.Proofs.Grammar.Delimited
import Pigeon.Proofs.Grammar.Derived
import Pigeon.Proofs.Grammar.Nested
import Pigeon.Proofs.Grammar.Normal
import Pigeon.Proofs.Grammar.Offending
import Pigeon.Proofs.Grammar.Plain
import Pigeon.Proofs.Grammar.Printed
import Pigeon.Proofs.Grammar.Reading
import Pigeon.Proofs.Grammar.Rules
import Pigeon.Proofs.Grammar.Sound
import Pigeon.Proofs.Native.Consistent
import Pigeon.Proofs.Native.Converted
import Pigeon.Proofs.Native.Installed
import Pigeon.Proofs.Native.Prompted
import Pigeon.Proofs.Native.Registered
import Pigeon.Proofs.Native.Widened
import Pigeon.Proofs.Scope.Frame
import Pigeon.Proofs.Scope.Layout
import Pigeon.Proofs.Scope.Nested
import Pigeon.Proofs.Scope.Refine
import Pigeon.Proofs.Scope.Slots
import Pigeon.Proofs.Scope.Tenants
import Pigeon.Proofs.Scope.View
import Pigeon.Proofs.Session.Annotated
import Pigeon.Proofs.Session.Balanced
import Pigeon.Proofs.Session.Completed
import Pigeon.Proofs.Session.Confined
import Pigeon.Proofs.Session.Counted
import Pigeon.Proofs.Session.Evaluated
import Pigeon.Proofs.Session.Expanded
import Pigeon.Proofs.Session.Hoisted
import Pigeon.Proofs.Session.Independent
import Pigeon.Proofs.Session.Limited
import Pigeon.Proofs.Session.Loaded
import Pigeon.Proofs.Session.Mirrored
import Pigeon.Proofs.Session.Reported
import Pigeon.Proofs.Session.Solid
import Pigeon.Proofs.Session.Typed
import Pigeon.Proofs.Step
import Pigeon.Proofs.Text.Number
import Pigeon.Proofs.Token.Lossless
import Pigeon.Proofs.Token.Render
import Pigeon.Proofs.Token.Spelling
import Pigeon.Proofs.Token.Valueless
import Pigeon.Proofs.Tree.Flatten
import Pigeon.Proofs.Tree.Plain
import Pigeon.Proofs.Typing.Complete
import Pigeon.Proofs.Typing.Decides
import Pigeon.Proofs.Typing.Exits
import Pigeon.Proofs.Typing.Expanded
import Pigeon.Proofs.Typing.Findings
import Pigeon.Proofs.Typing.FirstDeclared
import Pigeon.Proofs.Typing.Hoisted
import Pigeon.Proofs.Typing.Predeclare
import Pigeon.Proofs.Typing.Premise
import Pigeon.Proofs.Typing.Quiet
import Pigeon.Proofs.Typing.Rules
import Pigeon.Proofs.Typing.Site
import Pigeon.Proofs.Typing.Sound
import Pigeon.Proofs.Typing.Standing
import Pigeon.Proofs.Typing.Total
import Pigeon.Proofs.Typing.Walk
import Pigeon.Session
import Pigeon.Typing.Unknown
