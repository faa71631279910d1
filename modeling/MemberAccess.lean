import MemberAccess.Identity
import MemberAccess.Value
import MemberAccess.Fault
import MemberAccess.Text.Quoted
import MemberAccess.TypeDef
import MemberAccess.Exec
import MemberAccess.Script
import MemberAccess.Catalog.Define
import MemberAccess.Code.Machine
import MemberAccess.Accessor.Cache
import MemberAccess.Accessor.Caches
import MemberAccess.Describe
import MemberAccess.Proofs.Accessor.Bodiless
import MemberAccess.Proofs.Accessor.Transparency
import MemberAccess.Proofs.Catalog.Signatures
import MemberAccess.Proofs.Nesting.Runs
import MemberAccess.Proofs.Typing.Soundness
import MemberAccess.Proofs.Code.Calls
import MemberAccess.Proofs.Code.Faults
import MemberAccess.Proofs.Accessor.Rejections
import MemberAccess.Proofs.Accessor.Creation
import MemberAccess.Proofs.Ownership.Defaults
import MemberAccess.Proofs.Accessor.SoundViews
import MemberAccess.Proofs.Accessor.Static
import MemberAccess.Proofs.Catalog.BindingOrder
import MemberAccess.Proofs.Heap.Equivalence
import MemberAccess.Proofs.Code.Heights
import MemberAccess.Proofs.Code.Refused
import MemberAccess.Proofs.Accessor.Halting
import MemberAccess.Proofs.Accessor.Automatic
import MemberAccess.Proofs.Catalog.MethodLists
import MemberAccess.Proofs.Accessor.NamedAccess
import MemberAccess.Proofs.Accessor.Compilable
