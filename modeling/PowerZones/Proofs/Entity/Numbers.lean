import PowerZones.Proofs.Entity.Survey
import PowerZones.Proofs.Text.Rendering

/-!
# Numbers in files

Reading a number takes the first bytes of a file, one less than its buffer holds, and no
look is taken at what comes after them.

* **`Host.ReadsFile`** is a descriptor that is open for reading on a file;
* **`renderings_are_read_back`**: the first bytes are enough for every number that is
  written as numbers are;
* **`full_number_is_read_iff`**: they are not enough for every numeral that could be read.
  Blanks and zeros may come before the digits in any number, and where these push the
  digits beyond the bytes that are read, another number is read without an error.
-/

namespace PowerZones

open PowerZones.Action

variable {host : Host} {id : DescriptorId} {bytes : List UInt8} {v : UInt64}

/-- A descriptor is open for reading on a regular file with the given contents. -/
structure Host.ReadsFile (host : Host) (id : DescriptorId) (bytes : List UInt8) : Prop where
  opened : ∃ node access permissions, host.descriptors.find? id = some ⟨node, access⟩ ∧
    access.reads = true ∧ host.files.node? node = some (.file permissions bytes)

/-- Reading a number from a file is reading its first bytes. -/
theorem Host.ReadsFile.run_readNumber (h : host.ReadsFile id bytes) :
    (readNumber id).run host =
      ⟨(Field.number (bytes.take (Field.numberSize - 1))).mapError .noValue, host, []⟩ := by
  obtain ⟨node, access, permissions, hfind, hreads, hnode⟩ := h.opened
  rw [Action.run_readNumber hfind hreads]
  simp only [FileSystem.numberAt, FileSystem.valueAt, FileSystem.read, hnode]

theorem Host.ReadsFile.result_eq_ok_iff (h : host.ReadsFile id bytes) :
    ((readNumber id).run host).result = .ok v ↔
      Field.number (bytes.take (Field.numberSize - 1)) = .ok v := by
  rw [h.run_readNumber]
  cases Field.number (bytes.take (Field.numberSize - 1)) <;> simp [Except.mapError]

/-- A host with one file, open for reading. -/
def Host.holding (bytes : List UInt8) : Host where
  files :=
    let all : Permissions := ⟨true, true, true⟩
    { nodes := #[.directory ((Directory.empty all 0).insert (.text "energy_uj") 1 (by decide)),
        .file all bytes]
      top := 0
      current := 0 }
  descriptors := Descriptors.empty.add ⟨1, .read⟩

theorem Host.readsFile_holding (bytes : List UInt8) : (Host.holding bytes).ReadsFile 0 bytes :=
  ⟨1, .read, ⟨true, true, true⟩, rfl, rfl, rfl⟩

/-- **Every number that is written as numbers are is read back**: in decimal, in
hexadecimal after `0x` or `0X` with digits in either case, or in octal after a `0`, and
whatever follows it, if that begins with a newline or a NUL. -/
theorem renderings_are_read_back {cs : List Char} {rest : List UInt8}
    (hfile : host.ReadsFile id (Text.ascii cs ++ rest)) (hcs : Numeral.Renders v cs)
    (hrest : ∀ b, rest.head? = some b → b = 0x0A ∨ b = 0) :
    (readNumber id).run host = ⟨.ok v, host, []⟩ := by
  rw [hfile.run_readNumber, Field.number_of_renders hcs hrest]
  rfl

/-- The greatest number in octal takes every byte that is read. -/
theorem renderings_are_read_back_octal :
    let cs := "01777777777777777777777".toList
    let rest := Text.ascii "\n8".toList
    let bytes := Text.ascii cs ++ rest
    (Host.holding bytes).ReadsFile 0 bytes ∧ Numeral.Renders 0xFFFFFFFFFFFFFFFF cs ∧
      cs.length = Field.numberSize - 1 ∧
      (∀ b, rest.head? = some b → b = 0x0A ∨ b = 0) ∧
      (readNumber 0).run (Host.holding bytes) =
        ⟨.ok 0xFFFFFFFFFFFFFFFF, Host.holding bytes, []⟩ := by
  intro cs rest bytes
  have hcs : Numeral.Renders 0xFFFFFFFFFFFFFFFF cs := .octal
  have hrest : ∀ b, rest.head? = some b → b = 0x0A ∨ b = 0 :=
    fun b hb => .inl (Option.some.inj hb).symm
  have hfile := Host.readsFile_holding bytes
  exact ⟨hfile, hcs, rfl, hrest, renderings_are_read_back hfile hcs hrest⟩

/-- **A number is read in full just if it stands within the bytes that are read.** Where a
number is read from a file, it is the number that the whole file spells, up to the first
NUL, just if the first bytes show the numeral to the end of its digits, or if these are
all zeros. -/
theorem full_number_is_read_iff (hfile : host.ReadsFile id bytes)
    (hread : ((readNumber id).run host).result = .ok v) :
    ∃ l : Numeral.Layout, l.LaysOut (Field.fullText bytes) ∧
      (Numeral.auto? (Field.fullText bytes) = some v ↔
        l.reach <+: Field.fullText (bytes.take (Field.numberSize - 1)) ∨ l.value = 0) := by
  obtain ⟨l, hl⟩ := Numeral.Layout.exists_laysOut (Field.fullText bytes)
  exact ⟨l, hl, Field.auto?_take_iff hl (hfile.result_eq_ok_iff.mp hread)⟩

/-- A file that goes on beyond what is read, with a numeral that does not. -/
theorem full_number_is_read_iff_hexadecimal :
    let bytes := Text.ascii " +0x1F, and more than is ever read".toList
    (Host.holding bytes).ReadsFile 0 bytes ∧
      ((readNumber 0).run (Host.holding bytes)).result = .ok 31 ∧
      ∃ l : Numeral.Layout, l.LaysOut (Field.fullText bytes) ∧
        (Numeral.auto? (Field.fullText bytes) = some 31 ↔
          l.reach <+: Field.fullText (bytes.take (Field.numberSize - 1)) ∨ l.value = 0) := by
  intro bytes
  have hfile := Host.readsFile_holding bytes
  have hread : ((readNumber 0).run (Host.holding bytes)).result = .ok 31 := by decide +kernel
  exact ⟨hfile, hread, full_number_is_read_iff hfile hread⟩

/-- Twenty blanks leave room for three of the digits, and what is read is a number of three
digits: no promise can be made that a number is read in full or not at all. -/
theorem not_full_number_is_read_after_blanks :
    let bytes := List.replicate 20 0x20 ++ Text.ascii "123456".toList
    ((readNumber 0).run (Host.holding bytes)).result = .ok 123 ∧
      Numeral.auto? (Field.fullText bytes) = some 123456 ∧
      ¬∀ (host : Host) id bytes v, host.ReadsFile id bytes →
        ((readNumber id).run host).result = .ok v →
        Numeral.auto? (Field.fullText bytes) = some v := by
  intro bytes
  have hread : ((readNumber 0).run (Host.holding bytes)).result = .ok 123 := by decide +kernel
  have hfull : Numeral.auto? (Field.fullText bytes) = some 123456 := by decide +kernel
  refine ⟨hread, hfull, fun hall => ?_⟩
  have hsame := hall _ _ _ _ (Host.readsFile_holding bytes) hread
  rw [hfull] at hsame
  exact absurd hsame (by decide)

end PowerZones
