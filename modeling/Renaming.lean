import Renaming.Descriptor.Grammar
import Renaming.Main
import Renaming.Proofs.Access.Again
import Renaming.Proofs.Access.Append
import Renaming.Proofs.Access.Back
import Renaming.Proofs.Access.Extend
import Renaming.Proofs.Access.Limit
import Renaming.Proofs.Access.Refuse
import Renaming.Proofs.Access.Repeat
import Renaming.Proofs.Access.Shape
import Renaming.Proofs.Access.Stop
import Renaming.Proofs.Bounds.Access
import Renaming.Proofs.Command.Run
import Renaming.Proofs.Descriptor.Gaps
import Renaming.Proofs.Descriptor.Modes
import Renaming.Proofs.Descriptor.Tree
import Renaming.Proofs.Endings
import Renaming.Proofs.History
import Renaming.Proofs.Mappings.Swap
import Renaming.Text.Basic
import Renaming.Proofs.Access.Unchanged
import Renaming.Proofs.Mappings.Fail
import Renaming.Proofs.Mappings.Implicit
import Renaming.Proofs.Mappings.Log
