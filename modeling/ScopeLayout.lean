import ScopeLayout.CallSite
import ScopeLayout.ClassBody
import ScopeLayout.Declarations
import ScopeLayout.Globals
import ScopeLayout.Identity
import ScopeLayout.Locals
import ScopeLayout.Numbering
import ScopeLayout.Referent
import ScopeLayout.Refusal
import ScopeLayout.Registry
import ScopeLayout.Roster
import ScopeLayout.Scope
import ScopeLayout.Settings
import ScopeLayout.Settings.Document
import ScopeLayout.Signature
import ScopeLayout.Store
import ScopeLayout.Toml.Character
import ScopeLayout.Toml.Document
import ScopeLayout.Toml.Integer
import ScopeLayout.Toml.Text
import ScopeLayout.World.Answer
import ScopeLayout.World.Basic
import ScopeLayout.World.Classes
import ScopeLayout.World.Declaring
import ScopeLayout.World.Lineage
import ScopeLayout.World.Resolution
import ScopeLayout.World.Run
import ScopeLayout.Proofs.BlockNumbering
import ScopeLayout.Proofs.ClassVariables
import ScopeLayout.Proofs.DeclarationLog
import ScopeLayout.Proofs.Declaring
import ScopeLayout.Proofs.DispatchTable
import ScopeLayout.Proofs.FieldLayout
import ScopeLayout.Proofs.FirstMention
import ScopeLayout.Proofs.Hierarchy
import ScopeLayout.Proofs.LateBinding
import ScopeLayout.Proofs.LayoutFreeze
import ScopeLayout.Proofs.Listing
import ScopeLayout.Proofs.MergedTable
import ScopeLayout.Proofs.MethodLookup
import ScopeLayout.Proofs.NewDeclaration
import ScopeLayout.Proofs.Numbering
import ScopeLayout.Proofs.Outcome
import ScopeLayout.Proofs.Ownership
import ScopeLayout.Proofs.RegistrationLog
import ScopeLayout.Proofs.Registry
import ScopeLayout.Proofs.Reopening
import ScopeLayout.Proofs.RequestHistory
import ScopeLayout.Proofs.ScopeChain
import ScopeLayout.Proofs.Separation
import ScopeLayout.Proofs.SettingsDocument
import ScopeLayout.Proofs.Step
import ScopeLayout.Proofs.Toml.Lines
import ScopeLayout.Proofs.Toml.Values
import ScopeLayout.Proofs.Unchanged
