import PowerZones.Proofs.Tree.Address
import PowerZones.Proofs.Tree.FileName
import Mathlib.Data.List.Induction

/-!
# Addresses never collide

Different addresses have different paths, and so have different attributes of one
address, but for the switch of a control type, which is also its attribute as the
topmost zone. A single directory name would not do, since `a:0`, `[1]` and `a`,
`[0, 1]` have the same; it takes all the directories on the way.

* **`Address.induction`**: what holds of control types, and of every zone below
  an address of which it holds, holds of all addresses.
* **`Address.directoryNames_injective`**: the directories on the way tell the
  address.
* **`Tree.components_zonePath`**, **`Tree.components_attributePath`**: the
  components of a path are those of the root, then these directories, then the
  file.
* **`addresses_never_collide`** compares paths, as texts and as routes.
-/

namespace PowerZones

namespace Address

/-- Every address is a control type or a zone below an address. -/
theorem induction {P : Address → Prop} (control : ∀ name, P { controlType := name })
    (child : ∀ a index, P a → P (a.child index)) (a : Address) : P a := by
  obtain ⟨name, zones⟩ := a
  induction zones using List.reverseRecOn with
  | nil => exact control name
  | append_singleton above index ih => exact child ⟨name, above⟩ index ih

theorem length_directoryNames (a : Address) :
    a.directoryNames.length = a.zones.length + 1 := by
  simp [directoryNames]

theorem directoryNames_controlType (name : String) :
    directoryNames { controlType := name } = [name] := rfl

theorem child_eq_of_directoryNames_eq {a a' : Address} {index index' : UInt32}
    (ha : a.directoryNames = a'.directoryNames → a = a')
    (h : (a.child index).directoryNames = (a'.child index').directoryNames) :
    a.child index = a'.child index' := by
  rw [directoryNames_child, directoryNames_child] at h
  obtain ⟨habove, hlast⟩ := List.append_inj' h rfl
  obtain rfl := ha habove
  -- below one address, names differ in the index alone
  rw [List.singleton_inj, directoryName_child, directoryName_child, ← String.toList_inj,
    String.toList_append, String.toList_append] at hlast
  obtain rfl := Numeral.repr_inj (String.toList_inj.mp (List.append_cancel_left hlast))
  rfl

/-- The directories on the way to an address tell the address. -/
theorem directoryNames_injective {a a' : Address} (h : a.directoryNames = a'.directoryNames) :
    a = a' := by
  induction a using induction generalizing a' with
  | control name =>
    cases a' using induction with
    | control name' => simpa [directoryNames_controlType] using h
    | child above index _ =>
      have hlength := congrArg List.length h
      simp [length_directoryNames, child] at hlength
  | child above index ih =>
    cases a' using induction with
    | control name' =>
      have hlength := congrArg List.length h
      simp [length_directoryNames, child] at hlength
    | child above' index' _ => exact child_eq_of_directoryNames_eq ih h

theorem plainName_of_mem {a : Address} (hplain : plainComponent a.controlType = true)
    {name : String} (h : name ∈ a.directoryNames) : PlainName name := by
  obtain ⟨depth, -, rfl⟩ := List.mem_map.mp h
  exact plainName (a := a.ancestor depth) hplain

theorem colon_mem_directoryName_child (a : Address) (index : UInt32) :
    ':' ∈ (a.child index).directoryName.toList := by
  rw [directoryName_child, childPrefix, String.toList_append, String.toList_append]
  simp

end Address

/-! ## Components -/

/-- Plain names joined to a path are so many components more. -/
theorem Route.components_foldl_join (path : String) {names : List String}
    (h : ∀ name ∈ names, PlainName name) :
    components (names.foldl join path).toList =
      components path.toList ++ names.map String.toList := by
  induction names generalizing path with
  | nil => simp
  | cons name rest ih =>
    have hname := h name List.mem_cons_self
    rw [List.foldl_cons, ih _ fun name hmem => h name (List.mem_cons_of_mem _ hmem),
      components_join path name hname.ne_empty hname.slash, List.map_cons, List.append_assoc,
      List.singleton_append]

theorem Segment.ofText_injective {x y : List Char} (h : Segment.ofText x = Segment.ofText y) :
    x = y := by
  unfold Segment.ofText at h
  grind [String.ofList_injective]

/-- Where no slash ends them, paths of one route have the same components. -/
theorem Route.components_of_ofText_eq {p q : String} (hp : OpenPath p) (hq : OpenPath q)
    (h : Route.ofText p = Route.ofText q) : components p.toList = components q.toList := by
  have hsegments := congrArg Route.segments h
  simp only [Route.ofText, hp.trailing, hq.trailing, List.append_nil] at hsegments
  exact List.map_injective_iff.mpr (fun _ _ => Segment.ofText_injective) hsegments

namespace Tree

variable {t : Tree} {a a' : Address} {attr attr' : Attribute} {p p' : String}

theorem checkSize_eq_ok : checkSize p = .ok p' ↔ p = p' ∧ p'.utf8ByteSize < maxPathSize := by
  unfold checkSize
  split
  next hsize => exact ⟨nofun, fun ⟨heq, hlt⟩ => absurd hsize (heq ▸ Nat.not_le.mpr hlt)⟩
  next hsize =>
    rw [Except.ok.injEq]
    exact ⟨fun heq => ⟨heq, heq ▸ Nat.not_le.mp hsize⟩, And.left⟩

/-- An attribute has a path where its address has one, unless it is a control
type's and the address is a zone, or the file name makes the path too long. -/
theorem attributePath_eq_ok : t.attributePath a attr = .ok p ↔
    (attr.ofControlType = true → a.zones = []) ∧ ∃ directory, t.zonePath a = .ok directory ∧
      join directory attr.fileName = p ∧ p.utf8ByteSize < maxPathSize := by
  unfold attributePath
  by_cases hzone : attr.ofControlType = true ∧ a.zones ≠ []
  · rw [if_pos hzone]
    exact ⟨nofun, fun h => absurd (h.1 hzone.1) hzone.2⟩
  · rw [if_neg hzone, and_iff_right fun hattr => by_contra fun hne => hzone ⟨hattr, hne⟩]
    cases t.zonePath a with
    | error e => simp [bind, Except.bind]
    | ok directory =>
      show checkSize (join directory attr.fileName) = .ok p ↔ _
      rw [checkSize_eq_ok]
      simp only [Except.ok.injEq, exists_eq_left']

theorem components_zonePath (h : t.zonePath a = .ok p) :
    Route.components p.toList =
      Route.components t.root.toList ++ a.directoryNames.map String.toList := by
  obtain ⟨hplain, -, rfl, -⟩ := zonePath_eq_ok.mp h
  exact Route.components_foldl_join t.root fun _ => Address.plainName_of_mem hplain

theorem components_attributePath (h : t.attributePath a attr = .ok p) :
    Route.components p.toList = Route.components t.root.toList ++
      (a.directoryNames.map String.toList ++ [attr.fileName.toList]) := by
  obtain ⟨-, directory, hdirectory, rfl, -⟩ := attributePath_eq_ok.mp h
  rw [Route.components_join directory _ attr.plainName.ne_empty attr.plainName.slash,
    components_zonePath hdirectory, List.append_assoc]

theorem openPath_of_attributePath (h : t.attributePath a attr = .ok p) : OpenPath p := by
  obtain ⟨-, directory, -, rfl, -⟩ := attributePath_eq_ok.mp h
  exact OpenPath.of_join directory attr.plainName

private theorem directoryNames_of_map_eq
    (h : a.directoryNames.map String.toList = a'.directoryNames.map String.toList) : a = a' :=
  Address.directoryNames_injective
    (List.map_injective_iff.mpr (fun _ _ => String.toList_injective) h)

/-- The route of an address's directory tells the address. -/
theorem eq_of_zonePath_route (h : t.zonePath a = .ok p) (h' : t.zonePath a' = .ok p')
    (hroute : Route.ofText p = Route.ofText p') : a = a' := by
  have hcomponents := Route.components_of_ofText_eq (openPath_of_zonePath h)
    (openPath_of_zonePath h') hroute
  rw [components_zonePath h, components_zonePath h'] at hcomponents
  exact directoryNames_of_map_eq (List.append_cancel_left hcomponents)

/-- The route of an attribute tells its address and its file name. -/
theorem eq_of_attributePath_route (h : t.attributePath a attr = .ok p)
    (h' : t.attributePath a' attr' = .ok p') (hroute : Route.ofText p = Route.ofText p') :
    a = a' ∧ attr.fileName = attr'.fileName := by
  have hcomponents := Route.components_of_ofText_eq (openPath_of_attributePath h)
    (openPath_of_attributePath h') hroute
  rw [components_attributePath h, components_attributePath h'] at hcomponents
  obtain ⟨hnames, hfile⟩ := List.append_inj' (List.append_cancel_left hcomponents) rfl
  exact ⟨directoryNames_of_map_eq hnames, String.toList_inj.mp (List.singleton_inj.mp hfile)⟩

/-- No directory of an address is where an attribute is. -/
theorem zonePath_route_ne (h : t.zonePath a = .ok p) (h' : t.attributePath a' attr = .ok p') :
    Route.ofText p ≠ Route.ofText p' := by
  intro hroute
  have hcomponents := Route.components_of_ofText_eq (openPath_of_zonePath h)
    (openPath_of_attributePath h') hroute
  rw [components_zonePath h, components_attributePath h'] at hcomponents
  have hnames := List.append_cancel_left hcomponents
  cases a using Address.induction with
  | control name =>
    -- a control type is one step below the root, and an attribute at least two
    have hlength := congrArg List.length hnames
    simp [Address.length_directoryNames] at hlength
  | child above index _ =>
    -- a zone has a colon in its name, and a file has none
    rw [Address.directoryNames_child, List.map_append] at hnames
    have hfile := List.singleton_inj.mp (List.append_inj' hnames rfl).2
    exact attr.colon_notMem_fileName (hfile ▸ above.colon_mem_directoryName_child index)

end Tree

/-- **Addresses never collide.** In a tree, wherever its root is, two attributes
have the same path just if both address and attribute are the same, with one
exception: a control type and its topmost zone share the file `enabled`. Two
addresses have the same directory just if they are the same, and no directory has
the path of an attribute. Paths that differ as texts differ as routes as well. -/
theorem addresses_never_collide (t : Tree) :
    (∀ a attr p a' attr' p', t.attributePath a attr = .ok p → t.attributePath a' attr' = .ok p' →
      (p = p' ↔ a = a' ∧ (attr = attr' ∨
        a.zones = [] ∧ attr.isSwitch = true ∧ attr'.isSwitch = true)) ∧
      (Route.ofText p = Route.ofText p' → p = p')) ∧
    (∀ a p a' p', t.zonePath a = .ok p → t.zonePath a' = .ok p' →
      (p = p' ↔ a = a') ∧ (Route.ofText p = Route.ofText p' → p = p')) ∧
    (∀ a p a' attr p', t.zonePath a = .ok p → t.attributePath a' attr = .ok p' →
      p ≠ p' ∧ Route.ofText p ≠ Route.ofText p') := by
  refine ⟨fun a attr p a' attr' p' h h' => ?_, fun a p a' p' h h' => ?_,
    fun a p a' attr p' h h' => ?_⟩
  · have hsame (heq : a = a') (hname : attr.fileName = attr'.fileName) : p = p' := by
      obtain ⟨-, directory, hdirectory, rfl, -⟩ := Tree.attributePath_eq_ok.mp h
      obtain ⟨-, directory', hdirectory', rfl, -⟩ := Tree.attributePath_eq_ok.mp h'
      obtain rfl := Except.ok.inj (hdirectory.symm.trans (heq ▸ hdirectory'))
      rw [hname]
    refine ⟨⟨fun hp => ?_, fun ⟨heq, hattr⟩ => ?_⟩, fun hroute => ?_⟩
    · obtain ⟨rfl, hname⟩ := Tree.eq_of_attributePath_route h h' (congrArg _ hp)
      refine ⟨rfl, or_iff_not_imp_left.mpr fun hne => ?_⟩
      -- of two switches one is a control type's, and that has a path only at a control type
      have hswitch := (Attribute.fileName_eq_iff.mp hname).resolve_left hne
      refine ⟨?_, hswitch⟩
      rcases Attribute.ofControlType_of_isSwitch hswitch.1 hswitch.2 hne with hcontrol | hcontrol
      · exact (Tree.attributePath_eq_ok.mp h).1 hcontrol
      · exact (Tree.attributePath_eq_ok.mp h').1 hcontrol
    · exact hsame heq (Attribute.fileName_eq_iff.mpr (hattr.imp_right And.right))
    · obtain ⟨heq, hname⟩ := Tree.eq_of_attributePath_route h h' hroute
      exact hsame heq hname
  · have hsame (heq : a = a') : p = p' := Except.ok.inj (h.symm.trans (heq ▸ h'))
    exact ⟨⟨fun hp => Tree.eq_of_zonePath_route h h' (congrArg _ hp), hsame⟩,
      fun hroute => hsame (Tree.eq_of_zonePath_route h h' hroute)⟩
  · have hroute := Tree.zonePath_route_ne h h'
    exact ⟨fun hp => hroute (congrArg _ hp), hroute⟩

/-- Two addresses whose directories are called alike have different paths, for a
file in them and for themselves, and neither is the path of a file. -/
theorem addresses_never_collide_sameName :
    let t : Tree := { root := "pc" }
    let a : Address := { controlType := "a:0", zones := [1] }
    let a' : Address := { controlType := "a", zones := [0, 1] }
    (a.directoryName = "a:0:1" ∧ a'.directoryName = "a:0:1") ∧
    (t.attributePath a (.zone .name) = .ok "pc/a:0/a:0:1/name" ∧
      t.attributePath a' (.zone .name) = .ok "pc/a/a:0/a:0:1/name" ∧
      "pc/a:0/a:0:1/name" ≠ "pc/a/a:0/a:0:1/name") ∧
    (t.zonePath a = .ok "pc/a:0/a:0:1" ∧ t.zonePath a' = .ok "pc/a/a:0/a:0:1" ∧
      "pc/a:0/a:0:1" ≠ "pc/a/a:0/a:0:1") ∧
    "pc/a:0/a:0:1" ≠ "pc/a/a:0/a:0:1/name" := by
  intro t a a'
  have hname : t.attributePath a (.zone .name) = .ok "pc/a:0/a:0:1/name" := by decide +kernel
  have hname' : t.attributePath a' (.zone .name) = .ok "pc/a/a:0/a:0:1/name" := by decide +kernel
  have hzone : t.zonePath a = .ok "pc/a:0/a:0:1" := by decide +kernel
  have hzone' : t.zonePath a' = .ok "pc/a/a:0/a:0:1" := by decide +kernel
  have hne : a ≠ a' := by decide
  obtain ⟨hattributes, hzones, hapart⟩ := addresses_never_collide t
  refine ⟨by decide +kernel, ⟨hname, hname', fun hp => hne ?_⟩, ⟨hzone, hzone', fun hp => hne ?_⟩, ?_⟩
  · exact ((hattributes _ _ _ _ _ _ hname hname').1.mp hp).1
  · exact (hzones _ _ _ _ hzone hzone').1.mp hp
  · exact (hapart _ _ _ _ _ hzone hname').1

end PowerZones
