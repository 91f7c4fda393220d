import PowerZones.Attribute
import PowerZones.Entity.Constraint
import PowerZones.Entity.ControlType
import PowerZones.Entity.Zone
import PowerZones.Files.Edit
import PowerZones.Files.Listing
import PowerZones.Proofs.Entity.Agreement
import PowerZones.Proofs.Rapl.Discovery
import PowerZones.Proofs.Session.Descriptors
import PowerZones.Proofs.Tree.Listing
import PowerZones.Rapl.Package
import PowerZones.Session.Step
import PowerZones.Tree.Census
import PowerZones.Tree.OneShot
import PowerZones.Proofs.Tree.FileName
import PowerZones.Proofs.Tree.Injectivity
import PowerZones.Proofs.Action.Stillness
import PowerZones.Proofs.Session.Setters
import PowerZones.Proofs.Session.SlotOrigin
import PowerZones.Proofs.Session.Origin
import PowerZones.Proofs.Session.Writes
import PowerZones.Proofs.Text.Stamp
import PowerZones.Proofs.Text.Digits
import PowerZones.Proofs.Text.Grammar
import PowerZones.Proofs.Text.Utf8
import PowerZones.Proofs.Session.ReadBack
import PowerZones.Proofs.Action.Hush
import PowerZones.Proofs.Session.Logging
import PowerZones.Proofs.Session.Getters
import PowerZones.Proofs.Action.Refusal
import PowerZones.Proofs.Tree.Refusal
import PowerZones.Proofs.Session.Arguments
import PowerZones.Proofs.Session.Lifetime
import PowerZones.Proofs.Rapl.LessAccess
import PowerZones.Proofs.Session.Survey
import PowerZones.Proofs.Session.ReadOnly
import PowerZones.Proofs.Session.Independence
import PowerZones.Proofs.Entity.Opening
import PowerZones.Proofs.Session.Existence
import PowerZones.Proofs.Rapl.Order
import PowerZones.Proofs.Tree.Probing
import PowerZones.Proofs.Entity.EverOpened
import PowerZones.Proofs.Rapl.Checks
import PowerZones.Proofs.Rapl.Duplicate
import PowerZones.Proofs.Rapl.FirstProblem
import PowerZones.Proofs.Text.Reach
import PowerZones.Proofs.Text.Rendering
import PowerZones.Proofs.Entity.Numbers
import PowerZones.Proofs.Tree.Counting
import PowerZones.Proofs.Tree.Coverage
import PowerZones.Proofs.Tree.Confinement
import PowerZones.Proofs.Text.ByteOrder
import PowerZones.Proofs.Tree.ControlTypes
import PowerZones.Proofs.Action.Attempts
import PowerZones.Proofs.Rapl.Diagnostics
import PowerZones.Proofs.Tree.Ancestry
import PowerZones.Proofs.Text.Sequence
import PowerZones.Proofs.Text.Encoding
import PowerZones.Proofs.Text.Line
import PowerZones.Proofs.Entity.Texts
import PowerZones.Proofs.Rapl.Recognition
