import PowerZones.Vocabulary

/-!
# Power domains and their terms

A RAPL package is divided into power domains, and the power of a domain is
capped over a long and over a short term.

* **`Domain.classify`** tells a domain by the beginning of its zone's name, so
  that `package-0` is a package.
* **`DomainSet`** is a set of domains, with one bit for each.
-/

namespace PowerZones

/-- The power domains of a package. -/
inductive Domain where
  | package
  | core
  | uncore
  | dram
  | psys
  deriving DecidableEq, Repr

/-- The terms over which the power of a domain is capped. -/
inductive Term where
  | long
  | short
  deriving DecidableEq, Repr

namespace Domain

/-- What the name of a zone of this domain begins with. -/
def label : Domain → String
  | .package => "package"
  | .core => "core"
  | .uncore => "uncore"
  | .dram => "dram"
  | .psys => "psys"

instance : Vocabulary Domain where
  members := [.package, .core, .uncore, .dram, .psys]
  name := label
  stranger := "unknown zone kind"
  complete a := by cases a <;> decide
  nodup := by decide
  name_injective a b := by cases a <;> cases b <;> decide

/-- The domain of a zone with the given name. -/
def classify (name : String) : Option Domain :=
  (Vocabulary.members : List Domain).find? fun d => d.label.toList.isPrefixOf name.toList

end Domain

namespace Term

/-- The name of a constraint that caps this term. -/
def label : Term → String
  | .long => "long_term"
  | .short => "short_term"

instance : Vocabulary Term where
  members := [.long, .short]
  name := label
  stranger := "unknown constraint kind"
  complete a := by cases a <;> decide
  nodup := by decide
  name_injective a b := by cases a <;> cases b <;> decide

/-- The number at which the constraint for this term is expected. -/
def number : Term → UInt32
  | .long => 0
  | .short => 1

end Term

/-! ## Sets of domains -/

/-- A set of domains. -/
structure DomainSet where
  has : Domain → Bool

namespace DomainSet

/-- The bit that stands for a domain. -/
def bit : Domain → UInt8
  | .package => 1
  | .core => 2
  | .uncore => 4
  | .dram => 8
  | .psys => 16

/-- The members of a set, in the order of the domains. -/
def members (s : DomainSet) : List Domain :=
  (Vocabulary.members : List Domain).filter s.has

/-- The set with a bit for each of its members. -/
def bits (s : DomainSet) : UInt8 :=
  s.members.foldl (fun bits d => bits ||| bit d) 0

/-- The set that bits stand for; bits that stand for no domain are dropped. -/
def ofBits (bits : UInt8) : DomainSet where
  has d := bits &&& bit d ≠ 0

/-- The set that bits stand for, if each of them stands for a domain. -/
def ofBits? (bits : UInt8) : Option DomainSet :=
  if (ofBits bits).bits = bits then some (ofBits bits) else none

/-- The name of a domain in the description of a set. -/
def flagName : Domain → String
  | .package => "PACKAGE"
  | .core => "CORE"
  | .uncore => "UNCORE"
  | .dram => "DRAM"
  | .psys => "PSYS"

/-- The description of a set: its members, separated by bars. -/
def describe (s : DomainSet) : String :=
  match s.members with
  | [] => "(empty)"
  | ds => String.intercalate " | " (ds.map flagName)

end DomainSet

end PowerZones
