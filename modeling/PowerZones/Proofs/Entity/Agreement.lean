import PowerZones.Proofs.Entity.Survey

/-!
# Handles and one-shot access agree

A handle and the one-shot access to the same attribute open the same path in
different ways: for reading and writing, falling back to reading or not, against
for reading alone or for writing alone. As long as nobody changes the tree, they
tell the same all the same.

* **`FileSystem.access_of_readWrite`**, **`FileSystem.access_noEntry`**: what one
  kind of access says of the others;
* **`Tree.nodeFor_of_surveySlot`**: the node of a slot is the one that one-shot
  access finds, and a slot is absent where that finds nothing;
* **`SameReading`**, **`SameWriting`**: what it is to agree;
* **`Slots.StandOn.agrees`**: each slot of a table agrees with one-shot access to
  its attribute;
* **`ControlType.Agrees`**, **`Zone.Agrees`**, **`Constraint.Agrees`**: a handle
  agrees with one-shot access in all that it can be asked;
* **`handles_agree_with_oneShot`**: every handle does.
-/

namespace PowerZones

open PowerZones.Action

/-! ## One access and another -/

namespace FileSystem

variable {fs : FileSystem} {path : String} {node : NodeId}

theorem permit_of_readWrite (h : fs.permit node .readWrite = .ok ()) :
    fs.permit node .read = .ok () ∧ fs.permit node .write = .ok () := by
  unfold permit at h ⊢
  cases hn : fs.node? node with
  | none => simp [hn] at h
  | some n =>
    cases n with
    | file permissions bytes =>
      simp only [hn] at h ⊢
      have hboth : permits permissions .readWrite = true := by
        by_contra hno
        rw [if_neg hno] at h
        cases h
      have hread : permissions.read = true ∧ permissions.write = true := by
        simpa [permits, Access.reads, Access.writes] using hboth
      simp [permits, Access.reads, Access.writes, hread.1, hread.2]
    | directory d => simp [hn, Access.writes] at h
    | link target => simp [hn] at h
    | device d => exact ⟨rfl, rfl⟩

/-- What may be opened for both may be opened for either. -/
theorem access_of_readWrite (h : fs.access path .readWrite = .ok node) :
    fs.access path .read = .ok node ∧ fs.access path .write = .ok node := by
  unfold access at h ⊢
  cases hl : fs.locate true path with
  | error e => simp [hl] at h
  | ok id =>
    simp only [hl] at h ⊢
    cases hp : fs.permit id .readWrite with
    | error e => simp [hp, Except.map] at h
    | ok u =>
      rw [hp] at h
      obtain ⟨hread, hwrite⟩ := permit_of_readWrite hp
      rw [hread, hwrite]
      exact ⟨h, h⟩

/-- Where there is nothing for one access there is nothing for another. -/
theorem access_noEntry {mode : Access} (h : fs.access path mode = .error .noEntry)
    (mode' : Access) : fs.access path mode' = .error .noEntry := by
  unfold access at h ⊢
  cases hl : fs.locate true path with
  | error e => simpa [hl] using h
  | ok id =>
    simp only [hl] at h ⊢
    unfold permit at h ⊢
    cases hn : fs.node? id with
    | none => rfl
    | some n =>
      rw [hn] at h
      cases n with
      | file permissions bytes => simp only at h; split at h <;> cases h
      | directory d =>
        simp only at h
        split at h
        · cases h
        · split at h <;> cases h
      | link target => cases h
      | device d => cases h

/-- A slot is missing just where nothing can be read. -/
theorem access_of_judge_missing {write fallback : Bool}
    (h : fs.judge path write fallback = .missing) : fs.access path .read = .error .noEntry := by
  unfold judge at h
  split at h
  · split at h <;> cases h
  case h_2 hnone => exact access_noEntry hnone .read
  · split at h
    · split at h <;> cases h
    · cases h

/-- What a slot is granted can be read, and written if it is granted for that. -/
theorem access_of_judge_granted {write fallback : Bool} {mode : Access} {grant : Grant}
    (h : fs.judge path write fallback = .granted node mode grant) :
    fs.access path .read = .ok node ∧
      (grant = .readWrite → fs.access path .write = .ok node) := by
  unfold judge at h
  split at h
  case h_1 found hfound =>
    -- opened at the first go, for both or for reading alone
    cases write with
    | true =>
      cases h
      obtain ⟨hread, hwrite⟩ := access_of_readWrite hfound
      exact ⟨hread, fun _ => hwrite⟩
    | false =>
      cases h
      exact ⟨hfound, fun hg => by cases hg⟩
  case h_2 => cases h
  case h_3 =>
    -- refused at first, and granted for reading by the fallback if at all
    split at h
    · split at h
      case h_1 hread => cases h; exact ⟨hread, fun hg => by cases hg⟩
      case h_2 => cases h
    · cases h

end FileSystem

/-! ## Agreement -/

/-- A reading through a handle and a one-shot reading agree: the handle has
nothing just where the one-shot reading finds nothing, and otherwise they have
the same value or the same failure. -/
structure SameReading {α : Type} (handle once : Except Failure α) : Prop where
  unsupported : handle = .error .unsupported ↔ ∃ path, once = .error (.notFound path)
  otherwise : handle ≠ .error .unsupported → handle = once

/-- Two writings agree on a host: same result, same file system after it. -/
structure SameWriting (host : Host) (handle once : Action Unit) : Prop where
  result : (handle.run host).result = (once.run host).result
  files : (handle.run host).host.files = (once.run host).host.files

/-- Since a handle was opened, the file system has not changed, and nobody has
closed the descriptors of the handle. -/
structure Host.Undisturbed (opened later : Host) (ids : List DescriptorId) : Prop where
  files : later.files = opened.files
  descriptors : ∀ id ∈ ids, later.descriptors.find? id = opened.descriptors.find? id

/-- Readings that agree still do when both are told in the same other way. -/
theorem SameReading.map {α β : Type} {handle once : Action α} {host : Host}
    (h : SameReading (handle.run host).result (once.run host).result) (f : α → β) :
    SameReading ((f <$> handle).run host).result ((f <$> once).run host).result := by
  obtain ⟨hunsupported, hotherwise⟩ := h
  rw [run_map, run_map]
  cases hh : (handle.run host).result with
  | error e =>
    rw [hh] at hunsupported hotherwise
    refine ⟨?_, fun hne => ?_⟩
    · have hleft : (Except.error e : Except Failure β) = .error .unsupported ↔
          (Except.error e : Except Failure α) = .error .unsupported := by simp
      refine (hleft.trans hunsupported).trans (exists_congr fun path => ?_)
      cases (once.run host).result <;> simp [Except.map]
    · rw [← hotherwise fun heq => hne (by rw [Except.error.inj heq]; rfl)]
  | ok x =>
    rw [hh] at hunsupported hotherwise
    rw [← hotherwise (by simp)]
    exact ⟨⟨nofun, nofun⟩, fun _ => rfl⟩

/-- How an open slot was granted. -/
def Slot.grant? : Slot → Option Grant
  | .absent => none
  | .opened _ _ grant => some grant

/-- Writing a number through a descriptor is writing it to the node it is open
on. -/
theorem Action.run_writeNumber {host : Host} {id : DescriptorId} {node : NodeId} {access : Access}
    (h : host.descriptors.find? id = some ⟨node, access⟩) (hwrites : access.writes = true)
    (v : UInt64) :
    (writeNumber id v).run host =
      match host.files.write node (Field.stamp v) with
      | .error e => ⟨.error (.system e), host, []⟩
      | .ok files => ⟨.ok (), { host with files := files }, []⟩ := by
  have hwrite : host.write id (Field.stamp v) =
      (host.files.write node (Field.stamp v)).map fun files => { host with files := files } := by
    simp only [Host.write, h, if_pos hwrites]
  simp only [writeNumber, hwrite]
  cases host.files.write node (Field.stamp v) <;> rfl

/-- Writing through a descriptor and through a path that leads to its node come
to the same. -/
theorem Action.sameWriting_withFile {host : Host} {id : DescriptorId} {node : NodeId}
    {access : Access} {path : String} (h : host.descriptors.find? id = some ⟨node, access⟩)
    (hwrites : access.writes = true) (hnode : host.files.nodeFor path .write = .ok node)
    (v : UInt64) :
    SameWriting host (writeNumber id v)
      (withFile path .write fun descriptor => writeNumber descriptor v) := by
  have hopening : (host.opening node .write).descriptors.find? host.descriptors.next =
      some ⟨node, .write⟩ := Descriptors.find?_add_self _ _
  have hused := run_writeNumber hopening rfl v
  have hfiles : (host.opening node .write).files = host.files := rfl
  rw [hfiles] at hused
  constructor
  · rw [run_withFile, hnode, run_writeNumber h hwrites]
    simp only [hused]
    cases host.files.write node (Field.stamp v) <;> rfl
  · rw [run_withFile, hnode, run_writeNumber h hwrites]
    simp only [hused]
    cases host.files.write node (Field.stamp v) <;> rfl

namespace Tree

variable {t : Tree} {a : Address} {attr : Attribute} {write : Bool} {fs : FileSystem}
  {found : Option Backing}

/-- One-shot access finds the node that a slot stands on, and nothing just where
the slot is absent. -/
theorem nodeFor_of_surveySlot (h : (t.surveySlot a attr write).result fs = .ok found) :
    match found with
    | none => ∃ path, t.nodeFor a attr fs .read = .error (.notFound path)
    | some b => t.nodeFor a attr fs .read = .ok b.node ∧
        (b.grant = .readWrite → t.nodeFor a attr fs .write = .ok b.node) := by
  unfold nodeFor FileSystem.nodeFor
  cases hpath : t.attributePath a attr with
  | error e => simp [surveySlot, hpath, Except.bind] at h
  | ok path =>
    simp only [surveySlot, hpath, Survey.result_bind, Survey.result_ofExcept, Survey.result_look,
      Except.bind] at h ⊢
    cases hjudge : fs.judge path write attr.fallsBack with
    | missing =>
      rw [hjudge] at h
      cases h
      exact ⟨path, by rw [FileSystem.access_of_judge_missing hjudge]; rfl⟩
    | granted node mode grant =>
      rw [hjudge] at h
      cases h
      obtain ⟨hread, hwrite⟩ := FileSystem.access_of_judge_granted hjudge
      exact ⟨by rw [hread]; rfl, fun hg => by rw [hwrite hg]; rfl⟩
    | refused retried why =>
      rw [hjudge] at h
      cases h

variable {slot : Slot} {host : Host}

/-- Where a slot stands on what the survey of its attribute found, its readings
agree with the one-shot ones. -/
theorem sameReading_of_standsOn {γ : Type} {find : FileSystem → NodeId → Except Failure γ}
    (hfind : ∀ node, find fs node ≠ .error .unsupported ∧
      ∀ path, find fs node ≠ .error (.notFound path))
    (h : (t.surveySlot a attr write).result fs = .ok found) :
    SameReading (found.elim (.error .unsupported) fun b => find fs b.node)
      ((t.nodeFor a attr fs .read).bind (find fs)) := by
  have hnode := nodeFor_of_surveySlot h
  cases found with
  | none =>
    obtain ⟨path, hpath⟩ := hnode
    rw [hpath]
    exact ⟨⟨fun _ => ⟨path, rfl⟩, fun _ => rfl⟩, fun hne => absurd rfl hne⟩
  | some b =>
    rw [hnode.1]
    obtain ⟨hunsupported, hnotFound⟩ := hfind b.node
    exact ⟨⟨fun hx => absurd hx hunsupported, fun ⟨path, hx⟩ => absurd hx (hnotFound path)⟩,
      fun _ => rfl⟩

theorem sameReading_number (hslot : slot.StandsOn host.descriptors found)
    (h : (t.surveySlot a attr write).result host.files = .ok found) :
    SameReading (slot.readNumber.run host).result ((t.readNumber a attr).run host).result := by
  rw [hslot.run_readNumber, (t.realizes_readNumber a attr).result_eq]
  exact sameReading_of_standsOn (FileSystem.valueAt_ne _ _ _) h

theorem sameReading_name (hslot : slot.StandsOn host.descriptors found)
    (h : (t.surveySlot a attr write).result host.files = .ok found) :
    SameReading (slot.readName.run host).result ((t.readName a attr).run host).result := by
  rw [hslot.run_readName, (t.realizes_readName a attr).result_eq]
  exact sameReading_of_standsOn (FileSystem.valueAt_ne _ _ _) h

/-- Where a slot is open for writing too, writing to it agrees with one-shot
writing: both write the same bytes over the same node. -/
theorem sameWriting_of_standsOn (hslot : slot.StandsOn host.descriptors found)
    (h : (t.surveySlot a attr write).result host.files = .ok found)
    (hgrant : slot.grant? = some .readWrite) (hattr : attr.writable = true) (v : UInt64) :
    SameWriting host (slot.writeNumber v) (t.writeNumber a attr v) := by
  cases hslot with
  | absent => cases hgrant
  | @opened id b hid =>
    have hb : b.grant = .readWrite := Option.some.inj hgrant
    rw [hb] at hid
    have hnode := (nodeFor_of_surveySlot h).2 hb
    unfold nodeFor at hnode
    cases hpath : t.attributePath a attr with
    | error e => rw [hpath] at hnode; cases hnode
    | ok path =>
      rw [hpath] at hnode
      have hhandle : (Slot.opened id b.path b.grant).writeNumber v = Action.writeNumber id v := by
        rw [hb]
        rfl
      have honce : t.writeNumber a attr v =
          withFile path .write fun descriptor => Action.writeNumber descriptor v := by
        simp only [writeNumber, if_pos hattr, hpath]
        rfl
      rw [hhandle, honce]
      exact sameWriting_withFile hid rfl hnode v

end Tree

/-! ## Slots -/

/-- On a host, a slot agrees with one-shot access to an attribute. -/
structure Slot.Agrees (t : Tree) (a : Address) (attr : Attribute) (host : Host) (slot : Slot) :
    Prop where
  number : SameReading (slot.readNumber.run host).result ((t.readNumber a attr).run host).result
  name : SameReading (slot.readName.run host).result ((t.readName a attr).run host).result
  write : slot.grant? = some .readWrite → attr.writable = true →
    ∀ v, SameWriting host (slot.writeNumber v) (t.writeNumber a attr v)

/-- A slot agrees with one-shot access where it stands on what the survey of its
attribute finds. -/
theorem Slot.StandsOn.agrees {t : Tree} {a : Address} {attr : Attribute} {write : Bool}
    {slot : Slot} {host : Host} {found : Option Backing}
    (hslot : slot.StandsOn host.descriptors found)
    (h : (t.surveySlot a attr write).result host.files = .ok found) :
    slot.Agrees t a attr host where
  number := Tree.sameReading_number hslot h
  name := Tree.sameReading_name hslot h
  write hgrant hattr v := Tree.sameWriting_of_standsOn hslot h hgrant hattr v

/-- What a table of slots stands on at the time of opening, it stands on later,
so each of its slots agrees with one-shot access then. -/
theorem Slots.StandOn.agrees {α : Type} [Vocabulary α] [DecidableEq α] {t : Tree} {a : Address}
    {of : α → Attribute} {write : α → Bool} {slots : Slots α} {table : Table α}
    {opened later : Host} (hslots : slots.StandOn opened.descriptors table)
    (hlater : opened.Undisturbed later slots.descriptors)
    (h : (Survey.table (fun x => t.surveySlot a (of x) (write x))
      Vocabulary.members).result opened.files = .ok table) (x : α) :
    (slots.slot x).Agrees t a (of x) later := by
  obtain ⟨found, hfound, hlook⟩ := Survey.lookup_table h (Vocabulary.complete x)
  have hslot : (slots.slot x).StandsOn later.descriptors found := by
    have h := (hslots.of_find? hlater.descriptors).slot x
    rwa [hlook] at h
  rw [← hlater.files] at hfound
  exact hslot.agrees hfound

/-! ## Handles -/

/-- On a host, an open control type agrees with one-shot access. -/
structure ControlType.Agrees (t : Tree) (host : Host) (c : ControlType) : Prop where
  read : SameReading (c.enabledSlot.readNumber.run host).result
    ((t.readNumber { controlType := c.name } (.controlType .enabled)).run host).result
  enabled : SameReading (c.enabled.run host).result ((t.controlTypeEnabled c.name).run host).result
  setEnabled : c.enabledSlot.grant? = some .readWrite →
    ∀ on, SameWriting host (c.setEnabled on) (t.setControlTypeEnabled c.name on)

/-- On a host, an open zone agrees with one-shot access. -/
structure Zone.Agrees (t : Tree) (a : Address) (host : Host) (z : Zone) : Prop where
  read : ∀ attr, SameReading ((z.read attr).run host).result
    ((t.readNumber a (.zone attr)).run host).result
  name : SameReading (z.name.run host).result ((t.zoneName a).run host).result
  enabled : SameReading (z.enabled.run host).result ((t.zoneEnabled a).run host).result
  setEnabled : (z.slot .enabled).grant? = some .readWrite →
    ∀ on, SameWriting host (z.setEnabled on) (t.setZoneEnabled a on)
  resetEnergy : (z.slot .energy).grant? = some .readWrite →
    SameWriting host z.resetEnergy (t.resetZoneEnergy a)

/-- On a host, an open constraint agrees with one-shot access. -/
structure Constraint.Agrees (t : Tree) (a : Address) (number : UInt32) (host : Host)
    (c : Constraint) : Prop where
  read : ∀ attr, SameReading ((c.read attr).run host).result
    ((t.readNumber a (.constraint number attr)).run host).result
  name : SameReading (c.name.run host).result ((t.constraintName a number).run host).result
  setPowerLimit : (c.slot .powerLimit).grant? = some .readWrite →
    ∀ v, SameWriting host (c.setPowerLimit v)
      (t.writeNumber a (.constraint number .powerLimit) v)
  setTimeWindow : (c.slot .timeWindow).grant? = some .readWrite →
    ∀ v, SameWriting host (c.setTimeWindow v)
      (t.writeNumber a (.constraint number .timeWindow) v)

section Agrees

variable {t : Tree} {a : Address} {readOnly : Bool} {host later : Host}

theorem ControlType.agrees {name : String} {c : ControlType}
    (h : ((t.openControlType name readOnly).run host).result = .ok c)
    (hlater : ((t.openControlType name readOnly).run host).host.Undisturbed later
      c.descriptors) : c.name = name ∧ c.Agrees t later := by
  have hrealizes := t.realizes_openControlType readOnly host name
  obtain ⟨found, hfound, rfl, hopened⟩ := hrealizes.of_ok h
  have hslot : c.enabledSlot.StandsOn later.descriptors found :=
    hopened.of_find? fun id hid => hlater.descriptors id (Option.mem_toList.mpr hid)
  rw [← hrealizes.files, ← hlater.files] at hfound
  have hagrees := hslot.agrees hfound
  exact ⟨rfl, {
    read := hagrees.number
    enabled := hagrees.number.map switchedOn
    setEnabled := fun hgrant on => hagrees.write hgrant rfl (switchNumber on) }⟩

theorem Zone.agrees {z : Zone} (h : ((t.openZone a readOnly).run host).result = .ok z)
    (hlater : ((t.openZone a readOnly).run host).host.Undisturbed later z.descriptors) :
    z.Agrees t a later := by
  have hrealizes := t.realizes_openZone a readOnly host
  obtain ⟨table, htable, -, hslots⟩ := hrealizes.of_ok h
  rw [← hrealizes.files] at htable
  have hslot (attr : ZoneAttribute) : (z.slot attr).Agrees t a (.zone attr) later :=
    hslots.agrees hlater htable attr
  exact {
    read := fun attr => (hslot attr).number
    name := (hslot .name).name
    enabled := (hslot .enabled).number.map switchedOn
    setEnabled := fun hgrant on => (hslot .enabled).write hgrant rfl (switchNumber on)
    resetEnergy := fun hgrant => (hslot .energy).write hgrant rfl 0 }

theorem Constraint.agrees {number : UInt32} {c : Constraint}
    (h : ((t.openConstraint a number readOnly).run host).result = .ok c)
    (hlater : ((t.openConstraint a number readOnly).run host).host.Undisturbed later
      c.descriptors) : c.Agrees t a number later := by
  have hrealizes := t.realizes_openConstraint a readOnly host number
  obtain ⟨table, htable, -, hslots⟩ := hrealizes.of_ok h
  rw [← hrealizes.files] at htable
  have hslot (attr : ConstraintAttribute) :
      (c.slot attr).Agrees t a (.constraint number attr) later := hslots.agrees hlater htable attr
  exact {
    read := fun attr => (hslot attr).number
    name := (hslot .name).name
    setPowerLimit := fun hgrant => (hslot .powerLimit).write hgrant rfl
    setTimeWindow := fun hgrant => (hslot .timeWindow).write hgrant rfl }

/-- Every handle that was opened agrees with one-shot access to its address, as
long as nobody changes the tree or closes the handle. -/
theorem handles_agree_with_oneShot (t : Tree) (host : Host) (readOnly : Bool) :
    (∀ name c later, ((t.openControlType name readOnly).run host).result = .ok c →
      ((t.openControlType name readOnly).run host).host.Undisturbed later c.descriptors →
      c.name = name ∧ c.Agrees t later) ∧
    (∀ a z later, ((t.openZone a readOnly).run host).result = .ok z →
      ((t.openZone a readOnly).run host).host.Undisturbed later z.descriptors →
      z.Agrees t a later) ∧
    (∀ a number c later, ((t.openConstraint a number readOnly).run host).result = .ok c →
      ((t.openConstraint a number readOnly).run host).host.Undisturbed later c.descriptors →
      c.Agrees t a number later) :=
  ⟨fun _ _ _ h hlater => ControlType.agrees h hlater, fun _ _ _ h hlater => Zone.agrees h hlater,
    fun _ _ _ _ h hlater => Constraint.agrees h hlater⟩

end Agrees

/-- A file system with a control type `dtpm` that has a switch and no zones. -/
def switchOnly (bytes : List UInt8) : FileSystem where
  nodes :=
    let all : Permissions := ⟨true, true, true⟩
    #[.directory ((Directory.empty all 0).insert (.text "powercap") 1 (by decide)),
      .directory ((Directory.empty all 0).insert (.text "dtpm") 2 (by decide)),
      .directory ((Directory.empty all 1).insert (.text "enabled") 3 (by decide)),
      .file all bytes]
  top := 0
  current := 0

/-- A switch that may be written is opened for writing, and agrees then. -/
theorem agrees_switchOnly :
    let opened := (Tree.openControlType { root := "/powercap" } "dtpm" false).run
      (.ofFiles (switchOnly [0x31, 0x0A]))
    let c : ControlType := ⟨"dtpm", .opened 0 "/powercap/dtpm/enabled" .readWrite⟩
    opened.result = .ok c ∧ c.Agrees { root := "/powercap" } opened.host := by
  have hopened : ((Tree.openControlType { root := "/powercap" } "dtpm" false).run
      (.ofFiles (switchOnly [0x31, 0x0A]))).result =
      .ok ⟨"dtpm", .opened 0 "/powercap/dtpm/enabled" .readWrite⟩ := by rfl
  have hagrees := handles_agree_with_oneShot { root := "/powercap" }
    (.ofFiles (switchOnly [0x31, 0x0A])) false
  exact ⟨hopened, (hagrees.1 _ _ _ hopened ⟨rfl, fun _ _ => rfl⟩).2⟩

end PowerZones
