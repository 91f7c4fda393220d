import PowerZones.Proofs.Rapl.Discovery
import PowerZones.Proofs.Text.Line
import Mathlib.Data.Bool.AllAny

/-!
# How the domain of a zone is told

The name of a zone comes from a file whose bytes may be anything. Between these bytes and
the domain they are cut off at a length and at a NUL, a newline is taken off, and the rest
is decoded. None of it matters: the labels of the domains are short and in ASCII.

* **`Domain.eq_of_begins`**: no label is the beginning of another, so the order in which
  the domains are tried is of no importance;
* **`domain_is_told_by_first_bytes`**: a zone is of a domain just if the first bytes of the
  file are those of its label.
* **`Tree.HoldsName.recognizes_iff`** says so of a zone of a package that is discovered.
-/

namespace PowerZones

/-! ## Labels -/

namespace Domain

variable {k k' : Domain} {cs : List Char} {bytes : List UInt8}

/-- No label is the beginning of another. -/
theorem eq_of_label_prefix_label : k.label.toList <+: k'.label.toList → k = k' := by
  cases k <;> cases k' <;> decide

/-- A text begins with the label of one domain at most. -/
theorem eq_of_begins (h : k.label.toList <+: cs) (h' : k'.label.toList <+: cs) : k = k' := by
  rcases List.prefix_or_prefix_of_prefix h h' with hle | hle
  · exact eq_of_label_prefix_label hle
  · exact (eq_of_label_prefix_label hle).symm

/-- The domain of a zone with the given name, where the domains are tried in some order. -/
def classifyIn (order : List Domain) (name : String) : Option Domain :=
  order.find? fun d => d.label.toList.isPrefixOf name.toList

/-- In whatever order all the domains are tried, the one that is found is the one whose
label the name begins with. -/
theorem classifyIn_eq_some_iff {order : List Domain} (hall : ∀ k, k ∈ order) {name : String} :
    classifyIn order name = some k ↔ k.label.toList <+: name.toList := by
  have hbegins {d : Domain} (h : classifyIn order name = some d) :
      d.label.toList <+: name.toList := by
    have hprefix := List.find?_some h
    exact List.isPrefixOf_iff_prefix.mp hprefix
  constructor
  · exact hbegins
  · intro h
    cases hfound : classifyIn order name with
    | none =>
      have hnone := List.find?_eq_none.mp hfound k (hall k)
      exact absurd (List.isPrefixOf_iff_prefix.mpr h) hnone
    | some k' => rw [eq_of_begins (hbegins hfound) h]

theorem classify_eq_some_iff {name : String} :
    classify name = some k ↔ k.label.toList <+: name.toList :=
  classifyIn_eq_some_iff Vocabulary.complete

theorem label_ascii (k : Domain) : ∀ c ∈ k.label.toList, c.toNat < 0x80 := by
  refine List.all_iff_forall_prop.mp ?_
  cases k <;> decide

/-- The bytes of a label have neither a NUL nor a newline. -/
theorem label_plain (k : Domain) :
    ∀ b ∈ Text.Utf8.encode k.label.toList, b ≠ 0 ∧ b ≠ 0x0A := by
  refine List.all_iff_forall_prop.mp ?_
  cases k <;> decide

/-- All bytes of a label are read. -/
theorem length_label_le (k : Domain) :
    (Text.Utf8.encode k.label.toList).length ≤ Field.nameSize - 1 := by
  cases k <;> decide

/-- The text that is read begins with a label just where the bytes do. -/
theorem label_prefix_lineText_iff :
    k.label.toList <+: Field.lineText (bytes.take (Field.nameSize - 1)) ↔
      Text.utf8 k.label <+: bytes := by
  rw [Text.Utf8.utf8_eq_encode]
  exact Field.prefix_lineText_iff k.label_ascii k.label_plain k.length_label_le

end Domain

/-! ## Zones -/

/-- The name file of a zone can be read, and holds these bytes. -/
structure Tree.HoldsName (t : Tree) (fs : FileSystem) (a : Address) (bytes : List UInt8) :
    Prop where
  file : ∃ path node permissions, t.attributePath a (.zone .name) = .ok path ∧
    fs.access path .read = .ok node ∧ fs.node? node = some (.file permissions bytes)

variable {t : Tree} {host : Host} {a : Address} {bytes : List UInt8}

/-- The name of a zone is the text of the first bytes of the file. -/
theorem Tree.HoldsName.zoneName_eq_ok (h : t.HoldsName host.files a bytes) (hne : bytes ≠ []) :
    ((t.zoneName a).run host).result =
      .ok (String.ofList (Field.lineText (bytes.take (Field.nameSize - 1)))) := by
  obtain ⟨path, node, permissions, hpath, haccess, hnode⟩ := h.file
  have hread : bytes.take (Field.nameSize - 1) ≠ [] := Field.take_ne_nil hne (by decide)
  have hname : host.files.nameAt node =
      .ok (String.ofList (Field.lineText (bytes.take (Field.nameSize - 1)))) := by
    simp only [FileSystem.nameAt, FileSystem.valueAt, FileSystem.read, hnode, Field.text,
      if_neg hread, Except.mapError]
  calc ((t.zoneName a).run host).result
    _ = (t.nodeFor a (.zone .name) host.files .read).bind host.files.nameAt :=
      (t.realizes_readName a (.zone .name)).result_eq
    _ = host.files.nameAt node := by
      rw [Tree.nodeFor, hpath]
      show ((host.files.access path .read).mapError _).bind _ = _
      rw [haccess]
      rfl
    _ = _ := hname

/-- A RAPL zone is recognised by the first bytes of the file. -/
theorem Tree.HoldsName.recognizes_iff {zones : List UInt32} {k : Domain}
    (h : t.HoldsName host.files (raplAddress zones) bytes) (hne : bytes ≠ []) :
    t.Recognizes host zones k ↔ Text.utf8 k.label <+: bytes := by
  have hname := h.zoneName_eq_ok hne
  rw [← Domain.label_prefix_lineText_iff, Tree.Recognizes, hname]
  constructor
  · rintro ⟨name, hread, hclass⟩
    obtain rfl := Except.ok.inj hread
    rwa [Domain.classify_eq_some_iff, String.toList_ofList] at hclass
  · intro hlabel
    refine ⟨_, rfl, ?_⟩
    rwa [Domain.classify_eq_some_iff, String.toList_ofList]

/-- **The domain of a zone is told by the first bytes of its name file**, whatever comes
after them: by the bytes of a label, and of one label at most, in whatever order the domains
are tried. -/
theorem domain_is_told_by_first_bytes (hname : t.HoldsName host.files a bytes)
    (hne : bytes ≠ []) : ∃ name, ((t.zoneName a).run host).result = .ok name ∧
      (∀ k, Domain.classify name = some k ↔ Text.utf8 k.label <+: bytes) ∧
      (∀ k : Domain, k.label.toList <+: name.toList ↔ Text.utf8 k.label <+: bytes) ∧
      (∀ k k' : Domain, Text.utf8 k.label <+: bytes → Text.utf8 k'.label <+: bytes → k = k') ∧
      ∀ order : List Domain, (∀ k, k ∈ order) →
        Domain.classifyIn order name = Domain.classify name := by
  refine ⟨_, hname.zoneName_eq_ok hne, ?_⟩
  generalize hs : String.ofList (Field.lineText (bytes.take (Field.nameSize - 1))) = name
  have hlabel (k : Domain) : k.label.toList <+: name.toList ↔ Text.utf8 k.label <+: bytes := by
    rw [← hs, String.toList_ofList]
    exact Domain.label_prefix_lineText_iff
  refine ⟨?_, hlabel, ?_, ?_⟩
  · intro k
    rw [Domain.classify_eq_some_iff]
    exact hlabel k
  · intro k k' h h'
    rw [← hlabel] at h h'
    exact Domain.eq_of_begins h h'
  · intro order hall
    apply Option.ext
    intro k
    rw [Domain.classifyIn_eq_some_iff hall, Domain.classify_eq_some_iff]

/-- A file system with one RAPL zone, whose name file holds the given bytes. -/
def Tree.namedPackage (bytes : List UInt8) : FileSystem where
  nodes :=
    let all : Permissions := ⟨true, true, true⟩
    #[.directory ((Directory.empty all 0).insert (.text "intel-rapl") 1 (.refl true)),
      .directory ((Directory.empty all 0).insert (.text "intel-rapl:0") 2 (.refl true)),
      .directory ((Directory.empty all 1).insert (.text "name") 3 (.refl true)),
      .file all bytes]
  top := 0
  current := 0

/-- A label, and after it a byte that begins no character, a NUL and another label. -/
theorem domain_is_told_by_first_bytes_damaged :
    let t : Tree := { root := "/" }
    let bytes : List UInt8 := [0x63, 0x6F, 0x72, 0x65, 0xFF, 0x00, 0x64, 0x72, 0x61, 0x6D]
    let host := Host.ofFiles (Tree.namedPackage bytes)
    let a := raplAddress [0]
    t.HoldsName host.files a bytes ∧ bytes ≠ [] ∧
      ((t.zoneName a).run host).result = .ok "core\uFFFD" ∧
      ∃ name, ((t.zoneName a).run host).result = .ok name ∧
        ∀ k, Domain.classify name = some k ↔ Text.utf8 k.label <+: bytes := by
  intro t bytes host a
  have hname : t.HoldsName host.files a bytes :=
    ⟨"/intel-rapl/intel-rapl:0/name", 3, ⟨true, true, true⟩, by decide +kernel, by decide +kernel,
      rfl⟩
  have hne : bytes ≠ [] := by decide
  have hread : ((t.zoneName a).run host).result = .ok "core\uFFFD" := by decide +kernel
  obtain ⟨name, hok, hclassify, -⟩ := domain_is_told_by_first_bytes hname hne
  exact ⟨hname, hne, hread, name, hok, hclassify⟩

end PowerZones
