import PowerZones.Session.Request

/-!
# Sessions

A session is a tree, a host, and handles under names. Each request takes it one
step further; a request that fails leaves the handles as they were.

* **`Request.act`** is the action of a request, with the handles after it.
* **`Session.step`** runs one request, **`Session.run`** a list of them.
-/

namespace PowerZones

/-- Handles under their names. -/
abbrev Handles := List (String × Handle)

/-! ## What each kind of request does -/

/-- Answers a question. -/
def Query.act (t : Tree) : Query → Action Reply
  | .zonePath a => Reply.text <$> Action.ofExcept (t.zonePath a)
  | .attributePath a attr => Reply.text <$> Action.ofExcept (t.attributePath a attr)
  | .zoneExists a => Reply.flag <$> Action.query fun fs => t.zoneExists fs a
  | .constraintExists a number =>
    Reply.flag <$> Action.query fun fs => t.constraintExists fs a number
  | .zoneCount parent => Reply.count <$> Action.query fun fs => t.zoneCount fs parent
  | .constraintCount a => Reply.count <$> Action.query fun fs => t.constraintCount fs a
  | .zoneIndices parent => Reply.indices <$> Action.query fun fs => t.zoneIndices fs parent
  | .controlTypes => Reply.names <$> Action.query t.controlTypes
  | .raplSupported => Reply.flag <$> t.raplSupported

/-- Answers an action that has no result of its own. -/
def Reply.after (a : Action Unit) : Action Reply :=
  (fun _ => Reply.done) <$> a

/-- Makes a one-shot access. -/
def OneShot.act (t : Tree) : OneShot → Action Reply
  | .readNumber a attr => Reply.number <$> t.readNumber a attr
  | .writeNumber a attr v => Reply.after (t.writeNumber a attr v)
  | .controlTypeEnabled controlType => Reply.flag <$> t.controlTypeEnabled controlType
  | .setControlTypeEnabled controlType on => Reply.after (t.setControlTypeEnabled controlType on)
  | .zoneName a => Reply.text <$> t.zoneName a
  | .zoneEnabled a => Reply.flag <$> t.zoneEnabled a
  | .setZoneEnabled a on => Reply.after (t.setZoneEnabled a on)
  | .resetZoneEnergy a => Reply.after (t.resetZoneEnergy a)
  | .constraintName a number => Reply.text <$> t.constraintName a number
  | .packageCount => Reply.count <$> t.packageCount
  | .raplEnabled => Reply.flag <$> t.raplEnabled
  | .setRaplEnabled on => Reply.after (t.setRaplEnabled on)

/-- Opens a handle. -/
def Opening.act (t : Tree) : Opening → Action Handle
  | .controlType name readOnly => Handle.controlType <$> t.openControlType name readOnly
  | .zone a readOnly => Handle.zone <$> t.openZone a readOnly
  | .constraint a number readOnly => Handle.constraint <$> t.openConstraint a number readOnly
  | .package id readOnly => Handle.package <$> t.openPackage id readOnly

/-- Calls an open control type. -/
def ControlTypeCall.act (c : ControlType) : ControlTypeCall → Action Reply
  | .name => pure (.text c.name)
  | .enabled => Reply.flag <$> c.enabled
  | .setEnabled on => Reply.after (c.setEnabled on)

/-- Calls an open zone. -/
def ZoneCall.act : ZoneCall → Zone → Action Reply
  | .maxEnergyRange, z => Reply.number <$> z.maxEnergyRange
  | .energy, z => Reply.number <$> z.energy
  | .resetEnergy, z => Reply.after z.resetEnergy
  | .maxPowerRange, z => Reply.number <$> z.maxPowerRange
  | .power, z => Reply.number <$> z.power
  | .enabled, z => Reply.flag <$> z.enabled
  | .setEnabled on, z => Reply.after (z.setEnabled on)
  | .name, z => Reply.text <$> z.name
  | .read attr, z => Reply.number <$> z.read attr

/-- Calls an open constraint. -/
def ConstraintCall.act : ConstraintCall → Constraint → Action Reply
  | .powerLimit, c => Reply.number <$> c.powerLimit
  | .setPowerLimit v, c => Reply.after (c.setPowerLimit v)
  | .timeWindow, c => Reply.number <$> c.timeWindow
  | .setTimeWindow v, c => Reply.after (c.setTimeWindow v)
  | .maxPower, c => Reply.number <$> c.maxPower
  | .minPower, c => Reply.number <$> c.minPower
  | .maxTimeWindow, c => Reply.number <$> c.maxTimeWindow
  | .minTimeWindow, c => Reply.number <$> c.minTimeWindow
  | .name, c => Reply.text <$> c.name
  | .read attr, c => Reply.number <$> c.read attr

/-- Calls an open package. -/
def PackageCall.act (p : Package) : PackageCall → Action Reply
  | .id => pure (.count p.id)
  | .domainSet => pure (.domains p.domainSet)
  | .domainSupported k => pure (.flag (p.domainSupported k))
  | .zoneSupports k attr => pure (.flag (p.zoneSupports k attr))
  | .zone k call => p.withZone k call.act
  | .constraintNumber k term => Reply.count <$> Action.ofExcept (p.constraintNumber k term)
  | .termSupported k term => pure (.flag (p.termSupported k term))
  | .constraintSupports k term attr => pure (.flag (p.constraintSupports k term attr))
  | .constraint k term call => p.withConstraint k term call.act

namespace Handle

/-- The descriptors that a handle keeps open. -/
def descriptors : Handle → List DescriptorId
  | .controlType c => c.descriptors
  | .zone z => z.descriptors
  | .constraint c => c.descriptors
  | .package p => p.descriptors

/-- Closes a handle. -/
def close : Handle → Action Handle
  | .controlType c => Handle.controlType <$> c.close
  | .zone z => Handle.zone <$> z.close
  | .constraint c => Handle.constraint <$> c.close
  | .package p => Handle.package <$> p.close

/-- Reports a handle. -/
def report : Handle → Action Reply
  | .controlType c => pure (.slot c.enabledSlot)
  | .zone z => Reply.zone <$> z.report
  | .constraint c => Reply.constraint <$> c.report
  | .package p => Reply.package <$> p.report

/-- Calls a handle; the handle afterwards differs only if it was closed. -/
def call : Handle → Call → Action (Reply × Handle)
  | h, .close => do
    let closed ← h.close
    return (.done, closed)
  | h, .report => do
    let reply ← h.report
    return (reply, h)
  | .controlType c, .controlType call => do
    let reply ← call.act c
    return (reply, .controlType c)
  | .zone z, .zone call => do
    let reply ← call.act z
    return (reply, .zone z)
  | .constraint c, .constraint call => do
    let reply ← call.act c
    return (reply, .constraint c)
  | .package p, .package call => do
    let reply ← call.act p
    return (reply, .package p)
  | h, _ => pure (.noHandle, h)

end Handle

namespace Handles

/-- The handles without the one of that name. -/
def erase (handles : Handles) (name : String) : Handles :=
  handles.filter fun h => h.1 ≠ name

/-- The handles with one under a name, in place of any it had. -/
def insert (handles : Handles) (name : String) (handle : Handle) : Handles :=
  (name, handle) :: handles.erase name

/-- Closes the handle of a name, if there is one. -/
def release (handles : Handles) (name : String) : Action Unit :=
  match handles.lookup name with
  | none => pure ()
  | some handle => (fun _ => ()) <$> handle.close

/-- The descriptors that all handles keep open. -/
def descriptors (handles : Handles) : List DescriptorId :=
  handles.flatMap fun h => h.2.descriptors

end Handles

/-- Makes a change from outside. -/
def Action.edit (e : Edit) : Action Unit where
  run host :=
    match e.apply host.files with
    | .ok files => ⟨.ok (), { host with files := files }, []⟩
    | .error why => ⟨.error (.system why), host, []⟩

/-- What a request does, given the handles, and the handles after it. A handle
takes the place of another only once it is open. -/
def Request.act (t : Tree) (handles : Handles) : Request → Action (Reply × Handles)
  | .query q => do
    let reply ← q.act t
    return (reply, handles)
  | .oneShot o => do
    let reply ← o.act t
    return (reply, handles)
  | .openHandle name what => do
    let handle ← what.act t
    handles.release name
    return (.done, handles.insert name handle)
  | .call name what =>
    match handles.lookup name with
    | none => pure (.noHandle, handles)
    | some handle => do
      let (reply, after) ← handle.call what
      return (reply, handles.insert name after)
  | .drop name => do
    handles.release name
    return (.flag (handles.lookup name).isSome, handles.erase name)
  | .edit e => do
    Action.edit e
    return (.done, handles)
  | .contents route => do
    let bytes ← Action.query fun fs => (fs.contents route).mapError .system
    return (.bytes bytes, handles)
  | .openDescriptors => do
    let n ← Action.observe fun host => .ok host.descriptors.size
    return (.size n, handles)

/-! ## Running -/

/-- A tree, a host, and the handles open in the course of a session. -/
structure Session where
  tree : Tree
  host : Host
  handles : Handles

/-- What one request comes to, with the records made on the way. -/
structure Answer where
  result : Except Failure Reply
  records : List Record

namespace Session

/-- A session on a file system, with nothing open. -/
def start (tree : Tree) (files : FileSystem) : Session where
  tree := tree
  host := .ofFiles files
  handles := []

/-- One request. -/
def step (s : Session) (r : Request) : Session × Answer :=
  let outcome := (r.act s.tree s.handles).run s.host
  match outcome.result with
  | .ok (reply, handles) =>
    ({ s with host := outcome.host, handles := handles }, ⟨.ok reply, outcome.records⟩)
  | .error e => ({ s with host := outcome.host }, ⟨.error e, outcome.records⟩)

/-- A list of requests, one after the other, with all answers. -/
def run (s : Session) : List Request → Session × List Answer
  | [] => (s, [])
  | r :: rest =>
    let (next, answer) := s.step r
    let (last, answers) := next.run rest
    (last, answer :: answers)

end Session

end PowerZones
