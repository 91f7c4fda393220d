import PowerZones.Proofs.Action.Survey
import PowerZones.Proofs.Entity.Closing

/-!
# What handles stand on

Opening a handle and reading through it comes to what a look at the file system
shows. For every kind of opening there is a survey of it, and a relation that
ties the handle to what the survey found.

* **`Backing`** is what an open slot stands on: a path, a node, and how it was
  granted. **`Slot.StandsOn`** ties a slot to it.
* **`Tree.surveySlot`**, **`Tree.surveyZone`**, **`Tree.surveyConstraint`** are
  the surveys, and **`Tree.realizes_open…`** say that opening realizes them.
* **`FileSystem.numberAt`** and **`FileSystem.nameAt`** are what reading a node
  comes to, through a slot or once.
-/

namespace PowerZones

open PowerZones.Action

/-! ## Reading a node -/

/-- What reading the beginning of a node comes to, where its bytes are to be
made sense of in some way. -/
def FileSystem.valueAt {α : Type} (decode : List UInt8 → Except Field.Fault α) (limit : Nat)
    (fs : FileSystem) (node : NodeId) : Except Failure α :=
  match fs.read node limit with
  | .error e => .error (.system e)
  | .ok bytes => (decode bytes).mapError .noValue

/-- What reading a node as a number comes to. -/
def FileSystem.numberAt : FileSystem → NodeId → Except Failure UInt64 :=
  valueAt Field.number (Field.numberSize - 1)

/-- What reading a node as a name comes to. -/
def FileSystem.nameAt : FileSystem → NodeId → Except Failure String :=
  valueAt Field.text (Field.nameSize - 1)

/-- A node that can be opened is neither missing nor unsupported. -/
theorem FileSystem.valueAt_ne {α : Type} (decode : List UInt8 → Except Field.Fault α)
    (limit : Nat) (fs : FileSystem) (node : NodeId) :
    fs.valueAt decode limit node ≠ .error .unsupported ∧
      ∀ path, fs.valueAt decode limit node ≠ .error (.notFound path) := by
  unfold valueAt
  cases fs.read node limit with
  | error e => simp
  | ok bytes => cases hb : decode bytes <;> simp [hb, Except.mapError]

section Read

variable {host : Host} {id : DescriptorId} {node : NodeId} {access : Access}

theorem Host.read_of_find? (h : host.descriptors.find? id = some ⟨node, access⟩)
    (hreads : access.reads = true) (limit : Nat) :
    host.read id limit = host.files.read node limit := by
  rw [Host.read, h]
  exact if_pos hreads

/-- Reading a number through a descriptor is reading the node it is open on. -/
theorem Action.run_readNumber (h : host.descriptors.find? id = some ⟨node, access⟩)
    (hreads : access.reads = true) :
    (readNumber id).run host = ⟨host.files.numberAt node, host, []⟩ := by
  simp only [readNumber, run_observe, Host.read_of_find? h hreads, FileSystem.numberAt,
    FileSystem.valueAt]
  cases host.files.read node (Field.numberSize - 1) with
  | error e => rfl
  | ok bytes => cases hb : Field.number bytes <;> simp [hb, Except.mapError]

/-- Reading a text into a buffer that is not empty is reading the first bytes of the node. -/
theorem Action.run_readText_of_size {size : Nat} (hsize : size ≠ 0)
    (h : host.descriptors.find? id = some ⟨node, access⟩) (hreads : access.reads = true) :
    (readText id size).run host =
      ⟨host.files.valueAt Field.text (size - 1) node, host, []⟩ := by
  simp only [readText, if_neg hsize, run_observe, Host.read_of_find? h hreads, FileSystem.valueAt]
  cases host.files.read node (size - 1) with
  | error e => rfl
  | ok bytes => cases hb : Field.text bytes <;> simp [hb, Except.mapError]

theorem Action.run_readText (h : host.descriptors.find? id = some ⟨node, access⟩)
    (hreads : access.reads = true) :
    (readText id Field.nameSize).run host = ⟨host.files.nameAt node, host, []⟩ :=
  run_readText_of_size (by decide) h hreads

end Read

/-! ## One-shot access -/

/-- The node that a path is opened on for one use. -/
def FileSystem.nodeFor (fs : FileSystem) (path : String) (access : Access) :
    Except Failure NodeId :=
  (fs.access path access).mapError (Failure.ofOneShot path)

/-- The host with one more descriptor, on a node. -/
def Host.opening (host : Host) (node : NodeId) (access : Access) : Host :=
  { host with descriptors := host.descriptors.add ⟨node, access⟩ }

/-- The whole effect of one use of a path. -/
theorem Action.run_withFile {α : Type} (path : String) (access : Access)
    (use : DescriptorId → Action α) (host : Host) :
    (withFile path access use).run host =
      match host.files.nodeFor path access with
      | .error e => ⟨.error e, host, []⟩
      | .ok node =>
        let used := (use host.descriptors.next).run (host.opening node access)
        ⟨used.result, used.host.closing [host.descriptors.next], used.records⟩ := by
  simp only [withFile, run_bind, run_query, FileSystem.nodeFor]
  cases host.files.access path access with
  | error e => rfl
  | ok node => simp [openNode, thenAlways, close, Host.opening, Host.closing, Except.mapError]

/-- Reading a path once is reading the node it leads to. -/
theorem Action.realizes_withFile {α : Type} {host : Host} {use : DescriptorId → Action α}
    {find : FileSystem → NodeId → Except Failure α}
    (huse : ∀ (host : Host) id node, host.descriptors.find? id = some ⟨node, .read⟩ →
      (use id).run host = ⟨find host.files node, host, []⟩) (path : String) :
    (withFile path .read use).Realizes host
      (.look fun fs => (fs.nodeFor path .read).bind (find fs)) fun _ x y => x = y := by
  -- the path leads to no node, or is opened, read and closed
  cases hnode : host.files.nodeFor path .read with
  | error e =>
    have hrun : (withFile path .read use).run host = ⟨.error e, host, []⟩ := by
      rw [run_withFile, hnode]
    refine realizes_of_run hrun rfl ?_
    rw [Survey.result_look, hnode]
    rfl
  | ok node =>
    have hrun : (withFile path .read use).run host = ⟨find host.files node,
        (host.opening node .read).closing [host.descriptors.next], []⟩ := by
      rw [run_withFile, hnode]
      simp only
      rw [huse (host.opening node .read) _ node (Descriptors.find?_add_self _ _)]
      rfl
    refine ⟨by rw [hrun]; rfl, by rw [hrun]; rfl, ?_⟩
    rw [hrun, Survey.result_look, hnode]
    show SameEnd _ (find host.files node) (find host.files node)
    cases find host.files node with
    | error e => rfl
    | ok x => exact ⟨Descriptors.extends_erase_add _ _, rfl⟩

namespace Tree

section Once

variable (t : Tree) (a : Address) (attr : Attribute) {host : Host}

/-- The node that an attribute is opened on for one use. -/
def nodeFor (fs : FileSystem) (access : Access) : Except Failure NodeId :=
  (t.attributePath a attr).bind fun path => fs.nodeFor path access

/-- Reading an attribute once is reading the node that its path leads to. -/
theorem realizes_readOnce {α : Type} {use : DescriptorId → Action α}
    {find : FileSystem → NodeId → Except Failure α}
    (huse : ∀ (host : Host) id node, host.descriptors.find? id = some ⟨node, .read⟩ →
      (use id).run host = ⟨find host.files node, host, []⟩) :
    (do let path ← ofExcept (t.attributePath a attr); withFile path .read use : Action α).Realizes
      host (.look fun fs => (t.nodeFor a attr fs .read).bind (find fs)) fun _ x y => x = y := by
  unfold nodeFor
  cases t.attributePath a attr with
  | error e =>
    have hrun : (ofExcept (.error e) >>= fun path => withFile path .read use : Action α).run host =
        ⟨.error e, host, []⟩ := rfl
    exact realizes_of_run hrun rfl rfl
  | ok path => exact Action.realizes_withFile huse path

/-- What reading an attribute once as a number shows. -/
def surveyNumber : Survey UInt64 :=
  .look fun fs => (t.nodeFor a attr fs .read).bind fs.numberAt

/-- What reading an attribute once as a name shows. -/
def surveyName : Survey String :=
  .look fun fs => (t.nodeFor a attr fs .read).bind fs.nameAt

theorem realizes_readNumber :
    (t.readNumber a attr).Realizes host (t.surveyNumber a attr) fun _ x y => x = y :=
  t.realizes_readOnce a attr fun _ _ _ h => Action.run_readNumber h rfl

theorem realizes_readName :
    (t.readName a attr).Realizes host (t.surveyName a attr) fun _ x y => x = y :=
  t.realizes_readOnce a attr fun _ _ _ h => Action.run_readText h rfl

end Once

end Tree

/-! ## Slots -/

/-- What a node granted in some way is open for. -/
def Grant.access : Grant → Access
  | .readWrite => .readWrite
  | .readOnly | .readOnlyFallback => .read

theorem Grant.reads_access (grant : Grant) : grant.access.reads = true := by
  cases grant <;> rfl

/-- What an open slot stands on. -/
structure Backing where
  path : String
  node : NodeId
  grant : Grant
  deriving DecidableEq, Repr

/-- A verdict grants the access that goes with its grant. -/
theorem FileSystem.access_of_judge {fs : FileSystem} {path : String} {write fallback : Bool}
    {node : NodeId} {access : Access} {grant : Grant}
    (h : fs.judge path write fallback = .granted node access grant) : access = grant.access := by
  unfold judge at h
  split at h
  · split at h <;> cases h <;> rfl
  · cases h
  · split at h
    · split at h <;> cases h
      rfl
    · cases h

/-- A slot is open on what a survey found, or absent where it found nothing. -/
inductive Slot.StandsOn (ds : Descriptors) : Slot → Option Backing → Prop
  | absent : StandsOn ds .absent none
  | opened {id : DescriptorId} {b : Backing} :
    ds.find? id = some ⟨b.node, b.grant.access⟩ → StandsOn ds (.opened id b.path b.grant) (some b)

namespace Slot.StandsOn

variable {ds ds' : Descriptors} {slot : Slot} {found : Option Backing}

theorem of_find? (h : slot.StandsOn ds found)
    (hkept : ∀ id ∈ slot.descriptor?, ds'.find? id = ds.find? id) : slot.StandsOn ds' found := by
  cases h with
  | absent => exact .absent
  | opened hid => exact .opened ((hkept _ rfl).trans hid)

theorem of_extends (h : slot.StandsOn ds found) (hds : ds.Extends ds') :
    slot.StandsOn ds' found := by
  cases h with
  | absent => exact .absent
  | opened hid => exact .opened (hds _ _ hid)

/-- Reading a slot as a number is reading the node that it stands on. -/
theorem run_readNumber {host : Host} (h : slot.StandsOn host.descriptors found) :
    slot.readNumber.run host =
      ⟨found.elim (.error .unsupported) fun b => host.files.numberAt b.node, host, []⟩ := by
  cases h with
  | absent => rfl
  | opened hid => exact Action.run_readNumber hid (Grant.reads_access _)

theorem run_readName {host : Host} (h : slot.StandsOn host.descriptors found) :
    slot.readName.run host =
      ⟨found.elim (.error .unsupported) fun b => host.files.nameAt b.node, host, []⟩ := by
  cases h with
  | absent => rfl
  | opened hid => exact Action.run_readText hid (Grant.reads_access _)

end Slot.StandsOn

/-- What becomes of the slot for an attribute. -/
def Tree.surveySlot (t : Tree) (a : Address) (attr : Attribute) (write : Bool) :
    Survey (Option Backing) := do
  let path ← Survey.ofExcept (t.attributePath a attr)
  let verdict ← Survey.look fun fs => .ok (fs.judge path write attr.fallsBack)
  match verdict with
  | .granted node _ grant => return some ⟨path, node, grant⟩
  | .missing =>
    Survey.note t.logger .debug (openingText false path .noEntry)
    return none
  | .refused retried why =>
    Survey.note t.logger .error (openingText retried path why)
    Survey.fail (.ofOpening path why)

theorem Tree.realizes_openSlot (t : Tree) (a : Address) (attr : Attribute) (write : Bool)
    (host : Host) :
    (t.openSlot a attr write).Realizes host (t.surveySlot a attr write) Slot.StandsOn := by
  refine (realizes_ofExcept _).bind fun path _ next hfiles _ heq => heq ▸ ?_
  refine (realizes_query _).bind fun verdict _ next' _ _ ⟨heq', hjudge⟩ => ?_
  subst heq'
  cases verdict with
  | missing =>
    exact (realizes_note _ _ _).bind fun _ _ _ _ _ _ => realizes_pure .absent
  | granted node access grant =>
    obtain rfl := FileSystem.access_of_judge (Except.ok.inj hjudge)
    exact (realizes_openNode node grant.access).bind fun id _ _ _ _ hid =>
      realizes_pure (.opened (b := ⟨path, node, grant⟩) hid)
  | refused retried why =>
    exact (realizes_note _ _ _).bind fun _ _ _ _ _ _ => realizes_fail _

/-! ## Tables of slots -/

/-- Closing some descriptors goes unnoticed. -/
theorem Action.silent_of_closing {α : Type} {a : Action α} {x : α} {ids : List DescriptorId}
    (h : ∀ host, a.run host = ⟨.ok x, host.closing ids, []⟩) : a.Silent where
  files host := by rw [h, Host.closing_files]
  records host := by rw [h]

/-- An open slot of a table has one of the descriptors of the table. -/
theorem Slots.mem_descriptors {α : Type} [DecidableEq α] {slots : Slots α} {a : α}
    {id : DescriptorId} (h : id ∈ (slots.slot a).descriptor?) : id ∈ slots.descriptors := by
  unfold Slots.slot at h
  cases hlook : slots.lookup a with
  | none => simp [hlook, Slot.descriptor?] at h
  | some slot =>
    rw [hlook] at h
    exact List.mem_filterMap.mpr ⟨(a, slot), Keyed.mem_of_lookup hlook, h⟩

/-- What the slots for some attributes stand on. -/
abbrev Table (α : Type) := List (α × Option Backing)

/-- What becomes of a slot for each attribute of a list. -/
def Survey.table {α : Type} (surveyOne : α → Survey (Option Backing)) : List α → Survey (Table α)
  | [] => pure []
  | a :: rest => do
    let found ← surveyOne a
    let others ← table surveyOne rest
    return (a, found) :: others

/-- Each slot of a table stands on what was found for its attribute. -/
def Slots.StandOn {α : Type} (ds : Descriptors) : Slots α → Table α → Prop :=
  List.Forall₂ fun s found => s.1 = found.1 ∧ s.2.StandsOn ds found.2

namespace Slots

variable {α : Type} {ds ds' : Descriptors} {slots : Slots α} {table : Table α}

theorem StandOn.of_extends (h : slots.StandOn ds table) (hds : ds.Extends ds') :
    slots.StandOn ds' table :=
  h.imp fun _ _ hs => ⟨hs.1, hs.2.of_extends hds⟩

theorem StandOn.of_find? (h : slots.StandOn ds table)
    (hkept : ∀ id ∈ slots.descriptors, ds'.find? id = ds.find? id) : slots.StandOn ds' table := by
  induction h with
  | nil => exact .nil
  | cons hs hrest ih =>
    simp only [descriptors_cons, List.mem_append, Option.mem_toList] at hkept
    exact .cons ⟨hs.1, hs.2.of_find? fun id hid => hkept id (.inl hid)⟩
      (ih fun id hid => hkept id (.inr hid))

/-- The slot for an attribute stands on what was found for it. -/
theorem StandOn.slot [DecidableEq α] (h : slots.StandOn ds table) (a : α) :
    (slots.slot a).StandsOn ds (table.lookup a).join := by
  induction h with
  | nil => exact .absent
  | @cons s found slots table hs hrest ih =>
    obtain ⟨key, slot⟩ := s
    obtain ⟨key', found⟩ := found
    obtain ⟨rfl, hslot⟩ := hs
    by_cases ha : a = key
    · subst ha
      simpa [Slots.slot, List.lookup_cons_self] using hslot
    · have hne : (a == key) = false := by simpa using ha
      simpa [Slots.slot, List.lookup_cons, hne] using ih

theorem realizes_openAll {openOne : α → Action Slot} {surveyOne : α → Survey (Option Backing)}
    (h : ∀ a host, (openOne a).Realizes host (surveyOne a) Slot.StandsOn) (as : List α)
    (host : Host) : (openAll openOne as).Realizes host (Survey.table surveyOne as) StandOn := by
  induction as generalizing host with
  | nil => exact realizes_pure .nil
  | cons a rest ih =>
    refine (h a host).bind fun slot found next _ _ hslot => ?_
    -- when a later slot fails, the first is closed, and nobody sees it
    have hclose : slot.close.Silent := silent_of_closing slot.run_close
    refine ((ih next).onFailure hclose).bind fun slots table _ _ hext hslots => ?_
    exact realizes_pure (.cons ⟨rfl, hslot.of_extends hext⟩ hslots)

end Slots

/-- A table holds, for each of its attributes, what was found for it alone. -/
theorem Survey.lookup_table {α : Type} [DecidableEq α] {surveyOne : α → Survey (Option Backing)}
    {fs : FileSystem} {as : List α} {table : Table α}
    (h : (Survey.table surveyOne as).result fs = .ok table) {a : α} (ha : a ∈ as) :
    ∃ found, (surveyOne a).result fs = .ok found ∧ table.lookup a = some found := by
  induction as generalizing table with
  | nil => cases ha
  | cons first rest ih =>
    simp only [Survey.table, Survey.result_bind, Survey.result_pure] at h
    cases hfirst : (surveyOne first).result fs with
    | error e => rw [hfirst] at h; cases h
    | ok found =>
      cases hrest : (Survey.table surveyOne rest).result fs with
      | error e => rw [hfirst, hrest] at h; cases h
      | ok others =>
        rw [hfirst, hrest] at h
        cases h
        by_cases heq : a = first
        · subst heq
          exact ⟨found, hfirst, List.lookup_cons_self⟩
        · obtain ⟨found', hfound, hlook⟩ := ih hrest (List.mem_of_ne_of_mem heq ha)
          have hne : (a == first) = false := by simpa using heq
          exact ⟨found', hfound, by rw [List.lookup_cons, hne]; exact hlook⟩

/-! ## Handles -/

namespace Tree

variable (t : Tree) (a : Address) (readOnly : Bool)

/-- What the slots of a zone stand on. -/
def surveyZone : Survey (Table ZoneAttribute) :=
  Survey.table (fun attr => t.surveySlot a (.zone attr) (!readOnly && attr.writable))
    Vocabulary.members

/-- What the slots of a constraint stand on. -/
def surveyConstraint (number : UInt32) : Survey (Table ConstraintAttribute) :=
  Survey.table (fun attr => t.surveySlot a (.constraint number attr) (!readOnly && attr.writable))
    Vocabulary.members

variable (host : Host)

theorem realizes_openControlType (name : String) :
    (t.openControlType name readOnly).Realizes host
      (t.surveySlot { controlType := name } (.controlType .enabled) !readOnly)
      fun ds c found => c.name = name ∧ c.enabledSlot.StandsOn ds found :=
  (t.realizes_openSlot _ _ _ host).returns fun _ _ _ hslot => ⟨rfl, hslot⟩

theorem realizes_openZone :
    (t.openZone a readOnly).Realizes host (t.surveyZone a readOnly)
      fun ds z table => z.zones = a.zones ∧ z.slots.StandOn ds table :=
  (Slots.realizes_openAll (fun attr => t.realizes_openSlot a (.zone attr) _) _ host).returns
    fun _ _ _ hslots => ⟨rfl, hslots⟩

theorem realizes_openConstraint (number : UInt32) :
    (t.openConstraint a number readOnly).Realizes host (t.surveyConstraint a readOnly number)
      fun ds c table => c.number = number ∧ c.slots.StandOn ds table :=
  (Slots.realizes_openAll (fun attr => t.realizes_openSlot a (.constraint number attr) _) _
    host).returns fun _ _ _ hslots => ⟨rfl, hslots⟩

end Tree

end PowerZones
