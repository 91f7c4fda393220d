import PowerZones.Vocabulary

/-!
# Attributes

The files that a power capping tree keeps for a control type, for a zone and
for a constraint of a zone: three closed vocabularies, and `Attribute`, which
is a member of any of them at its place in a directory.
-/

namespace PowerZones

/-- The attributes of a control type. -/
inductive ControlAttribute where
  /-- Whether power capping is on for the whole control type. -/
  | enabled
  deriving DecidableEq, Repr

/-- The attributes of a zone. -/
inductive ZoneAttribute where
  /-- Range of the energy counter, in micro-joules. -/
  | maxEnergyRange
  /-- The energy counter, in micro-joules. Writing zero resets it. -/
  | energy
  /-- Range of the power counter, in micro-watts. -/
  | maxPowerRange
  /-- The current power, in micro-watts. -/
  | power
  /-- Whether power capping is on for the zone. -/
  | enabled
  /-- The name of the zone. -/
  | name
  deriving DecidableEq, Repr

/-- The attributes of a constraint. -/
inductive ConstraintAttribute where
  /-- The power limit, in micro-watts. A constraint exists if this file does. -/
  | powerLimit
  /-- The time window the limit is averaged over, in micro-seconds. -/
  | timeWindow
  /-- The greatest power limit. -/
  | maxPower
  /-- The least power limit. -/
  | minPower
  /-- The longest time window. -/
  | maxTimeWindow
  /-- The shortest time window. -/
  | minTimeWindow
  /-- The name of the constraint. -/
  | name
  deriving DecidableEq, Repr

/-! ## The vocabularies -/

/-- The name of a control type attribute is its file name. -/
def ControlAttribute.fileName : ControlAttribute → String
  | .enabled => "enabled"

/-- The name of a zone attribute is its file name. -/
def ZoneAttribute.fileName : ZoneAttribute → String
  | .maxEnergyRange => "max_energy_range_uj"
  | .energy => "energy_uj"
  | .maxPowerRange => "max_power_range_uw"
  | .power => "power_uw"
  | .enabled => "enabled"
  | .name => "name"

/-- The name of a constraint attribute is the part of its file name that
follows the constraint number. -/
def ConstraintAttribute.suffix : ConstraintAttribute → String
  | .powerLimit => "power_limit_uw"
  | .timeWindow => "time_window_us"
  | .maxPower => "max_power_uw"
  | .minPower => "min_power_uw"
  | .maxTimeWindow => "max_time_window_us"
  | .minTimeWindow => "min_time_window_us"
  | .name => "name"

instance : Vocabulary ControlAttribute where
  members := [.enabled]
  name := ControlAttribute.fileName
  stranger := "unknown control type file"
  complete a := by cases a; decide
  nodup := by decide
  name_injective a b _ := by cases a; cases b; rfl

instance : Vocabulary ZoneAttribute where
  members := [.maxEnergyRange, .energy, .maxPowerRange, .power, .enabled, .name]
  name := ZoneAttribute.fileName
  stranger := "unknown zone file"
  complete a := by cases a <;> decide
  nodup := by decide
  name_injective a b := by cases a <;> cases b <;> decide

instance : Vocabulary ConstraintAttribute where
  members := [.powerLimit, .timeWindow, .maxPower, .minPower, .maxTimeWindow, .minTimeWindow, .name]
  name := ConstraintAttribute.suffix
  stranger := "unknown constraint file"
  complete a := by cases a <;> decide
  nodup := by decide
  name_injective a b := by cases a <;> cases b <;> decide

/-- Whether a zone attribute may be written. -/
def ZoneAttribute.writable : ZoneAttribute → Bool
  | .energy | .enabled => true
  | _ => false

/-- Whether a constraint attribute may be written. -/
def ConstraintAttribute.writable : ConstraintAttribute → Bool
  | .powerLimit | .timeWindow => true
  | _ => false

/-- The file name of an attribute of the constraint with the given number. -/
def ConstraintAttribute.fileName (number : UInt32) (a : ConstraintAttribute) : String :=
  "constraint_" ++ Nat.repr number.toNat ++ "_" ++ a.suffix

/-! ## Attributes of a directory -/

/-- An attribute, wherever in the tree its directory is. -/
inductive Attribute where
  | controlType (a : ControlAttribute)
  | zone (a : ZoneAttribute)
  | constraint (number : UInt32) (a : ConstraintAttribute)
  deriving DecidableEq, Repr

namespace Attribute

/-- The name of the file in its directory. -/
def fileName : Attribute → String
  | .controlType a => a.fileName
  | .zone a => a.fileName
  | .constraint number a => a.fileName number

/-- Whether the attribute belongs to a control type, and so to no zone. -/
def ofControlType : Attribute → Bool
  | .controlType _ => true
  | _ => false

/-- Whether the attribute may be written. -/
def writable : Attribute → Bool
  | .controlType .enabled => true
  | .zone a => a.writable
  | .constraint _ a => a.writable

/-- What a refusal to write the attribute says. -/
def neverWritten : Attribute → Refusal
  | .controlType a => .neverWritten (Vocabulary.stranger ControlAttribute) a.fileName
  | .zone a => .neverWritten (Vocabulary.stranger ZoneAttribute) a.fileName
  | .constraint _ a => .neverWritten (Vocabulary.stranger ConstraintAttribute) a.suffix

end Attribute

end PowerZones
