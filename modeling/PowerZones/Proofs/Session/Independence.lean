import PowerZones.Proofs.Session.Lifetime
import PowerZones.Proofs.Session.ReadBack
import PowerZones.Proofs.Session.Survey

/-!
# Setters act on their own slot

The open slots of a handle are like registers of their own, as long as they are on
different files: each of them reads as the number that it was set to last, whatever
was done to the others, and as it did at first if it was never set.

* **`Handle.Apart`** is what it takes, **`Session.Tends`** are the events that are allowed:
  setters of the handle, and whatever leaves the handle and all files alone;
* **`Session.lastSet`** is the number that a slot was set to last;
* **`Session.Tended`** relates two moments, and composes. **`Session.Sourced.tended_happen`**
  is the step lemma, **`Session.Sourced.tended_after`** the run lemma;
* **`Session.Reads`** is what it is to read a slot in every way there is, through the handle
  and once;
* **`setters_act_on_their_own_slot`** puts them together.
-/

namespace PowerZones

open PowerZones.Action

/-! ## Files with a number over them -/

/-- Bytes of a file with a number laid over them, if there is one. -/
def Field.restamp (old : List UInt8) : Option UInt64 → List UInt8
  | none => old
  | some v => Field.overwrite old (Field.stamp v)

/-- A number laid over another covers it, as all numbers are of one size. -/
theorem Field.restamp_restamp (old : List UInt8) (first second : Option UInt64) :
    restamp (restamp old first) second = restamp old (second.or first) := by
  cases second with
  | none => rfl
  | some v =>
    cases first with
    | none => rfl
    | some u =>
      simp only [restamp, overwrite, Option.some_or, length_stamp]
      rw [List.drop_left' (length_stamp u)]

/-- Files with the same bytes read as the same number. -/
theorem FileSystem.numberAt_eq_of_bytes? {fs fs' : FileSystem} {n : NodeId} {bytes : List UInt8}
    (h : fs.bytes? n = some bytes) (h' : fs'.bytes? n = some bytes) :
    fs'.numberAt n = fs.numberAt n := by
  simp only [numberAt, valueAt, read_of_bytes? h, read_of_bytes? h']

/-! ## Slots apart -/

/-- The node that a slot is open on. -/
def Host.node? (host : Host) (slot : Slot) : Option NodeId :=
  (slot.descriptor?.bind host.descriptors.find?).map OpenFile.node

/-- The open slots of a handle are on regular files, and no two are on the same. -/
structure Handle.Apart (h : Handle) (host : Host) : Prop where
  regular : ∀ key n, host.node? (h.slot key) = some n → ∃ old, host.files.bytes? n = some old
  distinct : ∀ key other n, host.node? (h.slot key) = some n →
    host.node? (h.slot other) = some n → other = key

/-- A handle has a slot that is open only if it is of the kind that has it. -/
theorem Handle.takes_of_isOpen {h : Handle} {key : SlotKey} (hopen : (h.slot key).isOpen = true) :
    h.takes key = true := by
  cases h <;> cases key <;> first | rfl | cases hopen

namespace Session

/-! ## Setters -/

/-- The number that an event sets a slot of a handle to, if it succeeds. -/
def setBy (s : Session) (name : String) (key : SlotKey) : Event → Option UInt64
  | .request (.call other what) =>
    match what.set?, (s.step (.call other what)).2.result with
    | some (own, v), .ok .done => if other = name ∧ own = key then some v else none
    | _, _ => none
  | _ => none

/-- The number that a slot of a handle is set to last in the course of some events. -/
def lastSet (s : Session) (name : String) (key : SlotKey) : List Event → Option UInt64
  | [] => none
  | e :: rest => ((s.happen e).lastSet name key rest).or (s.setBy name key e)

/-- An event sets a slot of a handle. -/
def IsSetterOf (name : String) (e : Event) : Prop :=
  ∃ what key v, e = .request (.call name what) ∧ what.set? = some (key, v)

/-- An event sets a slot of a handle, successfully or not, or it leaves the handle and
all files alone. -/
def Tends (name : String) (s : Session) (e : Event) : Prop :=
  IsSetterOf name e ∨
    s.Leaves name e ∧ e.closes name = false ∧ (s.happen e).host.files = s.host.files

/-- Between two moments a handle and the nodes of its slots stayed, all entries stayed,
and the files of its slots hold what they held, with the number that the slot was set to
laid over it. -/
structure Tended (name : String) (h : Handle) (set : SlotKey → Option UInt64) (s s' : Session) :
    Prop where
  handle : s'.handles.lookup name = some h
  node : ∀ key, s'.host.node? (h.slot key) = s.host.node? (h.slot key)
  skeleton : s'.host.files.skeleton = s.host.files.skeleton
  bytes : ∀ key n old, s.host.node? (h.slot key) = some n → s.host.files.bytes? n = some old →
    s'.host.files.bytes? n = some (Field.restamp old (set key))

variable {s s' s'' : Session} {name : String} {h : Handle} {known known' : Origins} {e : Event}

namespace Tended

theorem refl (hlook : s.handles.lookup name = some h) : Tended name h (fun _ => none) s s where
  handle := hlook
  node _ := rfl
  skeleton := rfl
  bytes _ _ _ _ hold := hold

theorem trans {first second : SlotKey → Option UInt64} (h₁ : Tended name h first s s')
    (h₂ : Tended name h second s' s'') :
    Tended name h (fun key => (second key).or (first key)) s s'' where
  handle := h₂.handle
  node key := (h₂.node key).trans (h₁.node key)
  skeleton := h₂.skeleton.trans h₁.skeleton
  bytes key n old hnode hold := by
    have hnode' : s'.host.node? (h.slot key) = some n := (h₁.node key).trans hnode
    have hbytes := h₂.bytes key n _ hnode' (h₁.bytes key n old hnode hold)
    rw [hbytes, Field.restamp_restamp]

theorem apart {set : SlotKey → Option UInt64} (ht : Tended name h set s s')
    (hapart : h.Apart s.host) : h.Apart s'.host where
  regular key n hnode := by
    rw [ht.node] at hnode
    obtain ⟨old, hold⟩ := hapart.regular key n hnode
    exact ⟨_, ht.bytes key n old hnode hold⟩
  distinct key other n hnode hother := by
    rw [ht.node] at hnode hother
    exact hapart.distinct key other n hnode hother

end Tended

/-! ## Steps -/

theorem IsSetterOf.leaves (h : IsSetterOf name e) : s.Leaves name e ∧ e.closes name = false := by
  obtain ⟨what, key, v, rfl, hset⟩ := h
  refine ⟨trivial, ?_⟩
  cases what with
  | close => cases hset
  | _ => rfl

theorem setBy_eq_none (h : ¬ IsSetterOf name e) (key : SlotKey) : s.setBy name key e = none := by
  unfold setBy
  split
  case h_1 other what =>
    split
    next own v hset _ =>
      refine if_neg fun hboth => h ⟨what, own, v, ?_, hset⟩
      rw [hboth.1]
    next => rfl
  case h_2 => rfl

/-- The slots of a handle are open on the same nodes all through its life. -/
theorem Sourced.node?_eq (hs : s.Sourced known) (hs' : s'.Sourced known')
    (hknown : known' name = known name) (hlook : s.handles.lookup name = some h)
    (hlook' : s'.handles.lookup name = some h) (key : SlotKey) :
    s'.host.node? (h.slot key) = s.host.node? (h.slot key) := by
  cases hslot : h.slot key with
  | absent => rfl
  | opened id path grant =>
    obtain ⟨n, hfind, hfind'⟩ := hs.same_node hs' hknown hlook hlook' hslot
    simp only [Host.node?, Slot.descriptor?, Option.bind_some, hfind, hfind']

/-- A setter lays its number over the file of its slot if it succeeds, and leaves the
files of all other slots as they are. -/
theorem Sourced.bytes?_setter (hs : s.Sourced known) (hlook : s.handles.lookup name = some h)
    (hapart : h.Apart s.host) {what : Call} {own : SlotKey} {v : UInt64}
    (hset : what.set? = some (own, v)) {key : SlotKey} {n : NodeId} {old : List UInt8}
    (hnode : s.host.node? (h.slot key) = some n) (hold : s.host.files.bytes? n = some old) :
    (s.step (.call name what)).1.host.files.bytes? n =
      some (Field.restamp old (s.setBy name key (.request (.call name what)))) := by
  have hsetter : (Request.call name what).isSetter = true := by simp [Request.isSetter, hset]
  by_cases hdone : (s.step (.call name what)).2.result = .ok .done
  · obtain ⟨m, u, hsets, hwrite⟩ := hs.write_of_done hsetter hdone
    cases hsets with
    | call hlook' hset' _ _ _ _ _ hslot hfind =>
      rw [hlook] at hlook'
      cases hlook'
      rw [hset] at hset'
      cases hset'
      have hown : s.host.node? (h.slot own) = some m := by
        simp only [Host.node?, hslot, Slot.descriptor?, Option.bind_some, hfind, Option.map_some]
      by_cases hkey : own = key
      · subst hkey
        obtain rfl : m = n := Option.some.inj (hown.symm.trans hnode)
        have hby : s.setBy name own (.request (.call name what)) = some v := by
          simp only [setBy, hset, hdone, and_self, if_true]
        rw [hby, FileSystem.bytes?_write_self hold hwrite]
        rfl
      · have hne : n ≠ m := by
          rintro rfl
          exact hkey (hapart.distinct key own n hnode hown)
        have hby : s.setBy name key (.request (.call name what)) = none := by
          simp only [setBy, hset, hdone, hkey, and_false, if_false]
        rw [hby, FileSystem.bytes?_write_of_ne hwrite hne, hold]
        rfl
  · have hby : s.setBy name key (.request (.call name what)) = none := by
      simp only [setBy]
      split
      next hresult => exact absurd hresult hdone
      next => rfl
    have hfiles : (s.step (.call name what)).1.host.files = s.host.files := by
      rcases hs.written (r := .call name what) rfl with ⟨hfiles, -⟩ | ⟨_, _, _, hdone', -⟩
      · exact hfiles
      · exact absurd hdone' hdone
    rw [hby, hfiles, hold]
    rfl

/-- One event that tends to a handle. -/
theorem Sourced.tended_happen (hs : s.Sourced known) (hlook : s.handles.lookup name = some h)
    (hapart : h.Apart s.host) (htends : s.Tends name e) :
    Tended name h (fun key => s.setBy name key e) s (s.happen e) := by
  obtain ⟨hleaves, hcloses⟩ : s.Leaves name e ∧ e.closes name = false := by
    rcases htends with hsetter | ⟨hleaves, hcloses, -⟩
    · exact hsetter.leaves
    · exact ⟨hleaves, hcloses⟩
  have hhandle : (s.happen e).handles.lookup name = some h := by
    rw [lookup_happen hlook hleaves, hcloses]
    rfl
  have hnode (key : SlotKey) : (s.happen e).host.node? (h.slot key) = s.host.node? (h.slot key) :=
    hs.node?_eq (hs.happen e) (remember_of_leaves hleaves) hlook hhandle key
  by_cases hsetter : IsSetterOf name e
  · obtain ⟨what, own, v, rfl, hset⟩ := hsetter
    exact ⟨hhandle, hnode, (hs.framed rfl).entries,
      fun key n old hnode hold => hs.bytes?_setter hlook hapart hset hnode hold⟩
  · rcases htends with hsetter' | ⟨-, -, hfiles⟩
    · exact absurd hsetter' hsetter
    · refine ⟨hhandle, hnode, by rw [hfiles], fun key n old _ hold => ?_⟩
      rw [hfiles, hold, setBy_eq_none hsetter key]
      rfl

/-- A run of events that tend to a handle. -/
theorem Sourced.tended_after (hs : s.Sourced known) (hlook : s.handles.lookup name = some h)
    (hapart : h.Apart s.host) {events : List Event} (htends : s.Along (Tends name) events) :
    Tended name h (fun key => s.lastSet name key events) s (s.after events) := by
  induction events generalizing s known with
  | nil => exact .refl hlook
  | cons e rest ih =>
    obtain ⟨hfirst, hrest⟩ := htends
    have hstep := hs.tended_happen hlook hapart hfirst
    exact hstep.trans (ih (hs.happen e) hstep.handle (hstep.apart hapart) hrest)

/-! ## Readings -/

/-- A slot reads as a number, or fails to: through every getter of the handle under a
name, where a switch is on unless the number is zero, and once at the address that the
slot stands for. -/
structure Reads (s : Session) (name : String) (h : Handle) (what : Opening) (key : SlotKey)
    (r : Except Failure UInt64) : Prop where
  number : ∀ call : Call, call.get? = some (key, .number) →
    (s.step (.call name call)).2.result = r.map Reply.number
  switch : ∀ call : Call, call.get? = some (key, .switch) →
    (s.step (.call name call)).2.result = r.map fun v => Reply.flag (switchedOn v)
  once : ∃ a attr, what.Place h key a attr ∧
    (s.step (.oneShot (.readNumber a attr))).2.result = r.map Reply.number

/-- An open slot reads as what is on its node, as long as the entries are those with
which it was opened. -/
theorem Sourced.reads (hs : s.Sourced known) {what : Opening} {fs : FileSystem}
    (hlook : s.handles.lookup name = some h) (hknown : known name = some (what, fs))
    (hskeleton : s.host.files.skeleton = fs.skeleton) {key : SlotKey} {n : NodeId}
    (hnode : s.host.node? (h.slot key) = some n) :
    s.Reads name h what key (s.host.files.numberAt n) := by
  obtain ⟨what', fs', hknown', hopened⟩ := hs.opened name h hlook
  rw [hknown] at hknown'
  cases hknown'
  have hkey := hopened key
  cases hslot : h.slot key with
  | absent =>
    rw [hslot] at hnode
    cases hnode
  | opened id path grant =>
    rw [hslot] at hkey hnode
    cases hkey with
    | @opened a attr _ _ _ m hplace hpath haccess hfind _ =>
      obtain rfl : m = n := by
        simpa only [Host.node?, Slot.descriptor?, Option.bind_some, hfind, Option.map_some,
          Option.some.injEq] using hnode
      have hstands : (h.slot key).StandsOn s.host.descriptors (some ⟨path, m, grant⟩) := by
        rw [hslot]
        exact .opened (b := ⟨path, m, grant⟩) hfind
      have htakes : h.takes key = true := Handle.takes_of_isOpen (by rw [hslot]; rfl)
      have hcall (call : Call) (reading : Reading) (hget : call.get? = some (key, reading)) :
          (s.step (.call name call)).2.result = reading.at s.host.files m := by
        rw [result_step_call hlook, h.reply_of_get? hget hstands, if_pos htakes]
        rfl
      have hread : s.host.files.access path .read = .ok m := by
        rw [FileSystem.access_of_skeleton hskeleton]
        cases grant with
        | readWrite => exact (FileSystem.access_of_readWrite haccess).1
        | readOnly | readOnlyFallback => exact haccess
      refine ⟨fun call hget => hcall call .number hget, fun call hget => hcall call .switch hget,
        a, attr, hplace, ?_⟩
      have honce : ((s.tree.readNumber a attr).run s.host).result = s.host.files.numberAt m := by
        rw [(s.tree.realizes_readNumber a attr).result_eq, Tree.surveyNumber, Survey.result_look,
          Tree.nodeFor, hpath]
        simp only [Except.bind, FileSystem.nodeFor, hread, Except.mapError]
      rw [result_step_oneShot, OneShot.act, run_map, honce]

/-! ## Registers -/

theorem Tends.leaves (h : s.Tends name e) : s.Leaves name e := by
  rcases h with hsetter | ⟨hleaves, -, -⟩
  · exact hsetter.leaves.1
  · exact hleaves

/-- An open slot whose file is its own reads as it was set last, or as it did before. -/
theorem Sourced.independent (hs : s.Sourced known) {what : Opening} {fs : FileSystem}
    (hlook : s.handles.lookup name = some h) (hknown : known name = some (what, fs))
    (hskeleton : s.host.files.skeleton = fs.skeleton) (hapart : h.Apart s.host)
    {later : List Event} (htends : s.Along (Tends name) later) {key : SlotKey}
    (hopen : (h.slot key).isOpen = true) :
    ∃ r, s.Reads name h what key r ∧
      (s.after later).Reads name h what key ((s.lastSet name key later).elim r .ok) := by
  have htended := hs.tended_after hlook hapart htends
  have hknown' : (s.origins known later) name = some (what, fs) :=
    (origins_of_leaves (htends.imp fun _ _ h => h.leaves)).trans hknown
  obtain ⟨n, hnode⟩ : ∃ n, s.host.node? (h.slot key) = some n := by
    obtain ⟨_, _, -, hopened⟩ := hs.opened name h hlook
    have hkey := hopened key
    revert hkey hopen
    cases h.slot key with
    | absent => exact nofun
    | opened id path grant =>
      rintro - (_ | ⟨-, -, -, hfind, -⟩)
      exact ⟨_, by simp only [Host.node?, Slot.descriptor?, Option.bind_some, hfind]; rfl⟩
  obtain ⟨old, hold⟩ := hapart.regular key n hnode
  have hnode' : (s.after later).host.node? (h.slot key) = some n := (htended.node key).trans hnode
  have hbytes := htended.bytes key n old hnode hold
  have hreads' := (hs.after later).reads htended.handle hknown'
    (htended.skeleton.trans hskeleton) hnode'
  refine ⟨s.host.files.numberAt n, hs.reads hlook hknown hskeleton hnode, ?_⟩
  cases hset : s.lastSet name key later with
  | none =>
    rw [hset] at hbytes
    rw [FileSystem.numberAt_eq_of_bytes? hold hbytes] at hreads'
    exact hreads'
  | some v =>
    rw [hset] at hbytes
    have hnumber : (s.after later).host.files.numberAt n = .ok v :=
      FileSystem.numberAt_of_bytes? hbytes
    rw [hnumber] at hreads'
    exact hreads'

/-- What was opened has its name and its origin. -/
theorem opened_of_done {what : Opening}
    (hdone : (s.step (.openHandle name what)).2.result = .ok .done) :
    (∃ h, ((what.act s.tree).run s.host).result = .ok h ∧
      (s.step (.openHandle name what)).1.handles.lookup name = some h) ∧
    s.remember known (.request (.openHandle name what)) name = some (what, s.host.files) := by
  constructor
  · rcases hrun : (what.act s.tree).run s.host with ⟨e | h, next, records⟩
    · simp only [step, Request.act, run_bind, hrun] at hdone
      cases hdone
    · refine ⟨h, rfl, ?_⟩
      simp only [step, Request.act, run_bind, hrun, Handles.run_release, run_pure]
      exact Handles.lookup_insert name h
  · simp only [remember, hdone, Function.update_self]

end Session

/-- **Setters act on their own slot.** Take a package that was just opened, whatever
happened before, and whether or not the constraints of a zone were the other way round.
If its open slots are on different regular files, then after any run of setters, between
which other things may happen that leave the package and all files alone, each open slot
reads as the number that it was set to last, or as it read at first if it was never set:
through the package, and once at the path of its zone and the number of its constraint.
A slot that is absent is not supported. -/
theorem package_setters_act_on_their_own_slot (t : Tree) (files : FileSystem)
    (earlier : List Event) (name : String) (id : UInt32) (readOnly : Bool) :
    let before := (Session.start t files).after earlier
    let opening := Request.openHandle name (.package id readOnly)
    let s := (before.step opening).1
    (before.step opening).2.result = .ok .done →
    ∃ p, s.handles.lookup name = some (.package p) ∧
      ((Handle.package p).Apart s.host → ∀ later, s.Along (Session.Tends name) later →
        let s' := s.after later
        ∀ key,
          (((Handle.package p).slot key).isOpen = true →
            ∃ r, s.Reads name (.package p) (.package id readOnly) key r ∧
              s'.Reads name (.package p) (.package id readOnly) key
                ((s.lastSet name key later).elim r .ok)) ∧
          ((Handle.package p).takes key = true → (Handle.package p).slot key = .absent →
            s'.Silenced name key)) := by
  intro before opening s hdone
  have hbefore := Session.sourced_after t files earlier
  have hs : s.Sourced _ := hbefore.happen (.request opening)
  have hfiles : s.host.files = before.host.files := (hbefore.framed rfl).still rfl
  obtain ⟨⟨h, hopened, hlook⟩, hknown⟩ := Session.opened_of_done hdone
  obtain ⟨p, rfl⟩ : ∃ p, h = .package p := by
    simp only [Opening.act, run_map] at hopened
    cases hresult : ((before.tree.openPackage id readOnly).run before.host).result with
    | error e =>
      rw [hresult] at hopened
      cases hopened
    | ok p =>
      rw [hresult] at hopened
      cases hopened
      exact ⟨p, rfl⟩
  refine ⟨p, hlook, fun hapart later htends key => ⟨fun hopen => ?_, fun htakes habsent => ?_⟩⟩
  · exact hs.independent hlook hknown (congrArg FileSystem.skeleton hfiles) hapart htends hopen
  · have hlook' := (hs.tended_after hlook hapart htends).handle
    exact Session.silenced_of_absent hlook' htakes habsent

/-! ## A package with its constraints the other way round -/

namespace SwappedPackage

/-- A package of one zone, whose long term constraint is the one with the number 1. -/
def files : FileSystem where
  nodes :=
    let all : Permissions := ⟨true, true, true⟩
    let text (s : String) : Node := .file all (s.toList.map fun c => c.val.toUInt8)
    let zone := ((((Directory.empty all 2).insert (.text "name") 4 (.refl true)).insert
      (.text "constraint_0_name") 5 (.refl true)).insert
      (.text "constraint_0_power_limit_uw") 6 (.refl true)).insert
      (.text "constraint_1_name") 7 (.refl true)
    #[.directory ((Directory.empty all 0).insert (.text "p") 1 (.refl true)),
      .directory ((Directory.empty all 0).insert (.text "intel-rapl") 2 (.refl true)),
      .directory ((Directory.empty all 1).insert (.text "intel-rapl:0") 3 (.refl true)),
      .directory (zone.insert (.text "constraint_1_power_limit_uw") 8 (.refl true)),
      text "package-0\n", text "short_term\n", text "100\n", text "long_term\n", text "200\n"]
  top := 0
  current := 0

/-- The slots of a table, of which these are open. -/
def table {α : Type} [Vocabulary α] [DecidableEq α] (opened : Slots α) : Slots α :=
  Vocabulary.members.map fun a => (a, opened.slot a)

/-- The package as it is when it was opened. -/
def package : Package where
  id := 0
  domains :=
    let path (file : String) := "/p/intel-rapl/intel-rapl:0/" ++ file
    [(.package,
      { zone := ⟨[0], table [(.name, .opened 1 (path "name") .readOnly)]⟩
        longTerm := ⟨1, table
          [(.powerLimit, .opened 4 (path "constraint_1_power_limit_uw") .readWrite),
            (.name, .opened 5 (path "constraint_1_name") .readOnly)]⟩
        shortTerm := ⟨0, table
          [(.powerLimit, .opened 2 (path "constraint_0_power_limit_uw") .readWrite),
            (.name, .opened 3 (path "constraint_0_name") .readOnly)]⟩ })]

/-- A session that has opened the package and nothing else. -/
def session : Session where
  tree := { root := "/p" }
  host :=
    { files := files
      descriptors :=
        { entries := [(5, ⟨7, .read⟩), (4, ⟨8, .readWrite⟩), (3, ⟨5, .read⟩), (2, ⟨6, .readWrite⟩),
            (1, ⟨4, .read⟩)]
          next := 6
          fresh := by decide
          nodup := by decide } }
  handles := [("p", .package package)]

/-- What the files of the open slots are for. -/
def keyOf : NodeId → SlotKey
  | 4 => .domainZone .package .name
  | 5 => .domainConstraint .package .short .name
  | 6 => .domainConstraint .package .short .powerLimit
  | 7 => .domainConstraint .package .long .name
  | _ => .domainConstraint .package .long .powerLimit

theorem apart : (Handle.package package).Apart session.host := by
  have hkey (key : SlotKey) (n : NodeId)
      (h : session.host.node? ((Handle.package package).slot key) = some n) :
      key = keyOf n ∧ (files.bytes? n).isSome = true := by
    cases key with
    | domainZone k attr => cases k <;> cases attr <;> cases h; exact ⟨rfl, rfl⟩
    | domainConstraint k term attr =>
      cases k <;> cases term <;> cases attr <;> cases h <;> exact ⟨rfl, rfl⟩
    | _ => cases h
  constructor
  · intro key n hnode
    exact Option.isSome_iff_exists.mp (hkey key n hnode).2
  · intro key other n hnode hother
    exact (hkey other n hother).1.trans (hkey key n hnode).1.symm

/-- What opening a handle comes to, as far as it can be decided. -/
def summary (o : Outcome Handle) :
    Except Failure Handle × List (DescriptorId × OpenFile) × DescriptorId :=
  (o.result, o.host.descriptors.entries, o.host.descriptors.next)

theorem summary_run :
    summary (((Opening.package 0 false).act { root := "/p" }).run (.ofFiles files)) =
      (.ok (.package package), session.host.descriptors.entries, 6) := by
  decide +kernel

theorem run_act : ∃ records,
    ((Opening.package 0 false).act { root := "/p" }).run (.ofFiles files) =
      ⟨.ok (.package package), session.host, records⟩ := by
  have hsummary := summary_run
  have hfiles := ((Opening.package 0 false).realizes_act { root := "/p" } (.ofFiles files)).files
  -- from here on the outcome is not computed again
  generalize ((Opening.package 0 false).act { root := "/p" }).run (.ofFiles files) = o at *
  obtain ⟨result, ⟨left, ⟨entries, next, fresh, nodup⟩⟩, records⟩ := o
  simp only [summary, Prod.mk.injEq] at hsummary
  obtain ⟨rfl, rfl, rfl⟩ := hsummary
  obtain rfl : left = files := hfiles
  exact ⟨records, rfl⟩

end SwappedPackage

/-- The first handle of a session is its only one. -/
theorem Session.step_first {t : Tree} {files : FileSystem} {what : Opening} {h : Handle}
    {next : Host} {records : List Record} (name : String)
    (hrun : (what.act t).run (.ofFiles files) = ⟨.ok h, next, records⟩) :
    ((Session.start t files).after []).step (.openHandle name what) =
      (⟨t, next, [(name, h)]⟩, ⟨.ok .done, records⟩) := by
  simp only [Session.after, List.foldl_nil, Session.step, Session.start, Request.act, run_bind,
    hrun, Handles.run_release, run_pure]
  simp [Handles.insert, Handles.erase, Host.closing]

/-- The long term limit is set, which is on constraint 1, and the short term one stays. -/
theorem package_setters_act_on_their_own_slot_swapped :
    let setLong : Event :=
      .request (.call "p" (.package (.constraint .package .long (.setPowerLimit 7))))
    let s := SwappedPackage.session.after [setLong]
    (s.step (.oneShot (.readNumber (raplAddress [0]) (.constraint 1 .powerLimit)))).2.result =
      .ok (.number 7) ∧
    (s.step (.oneShot (.readNumber (raplAddress [0]) (.constraint 0 .powerLimit)))).2.result =
      .ok (.number 100) := by
  intro setLong s
  obtain ⟨records, hrun⟩ := SwappedPackage.run_act
  have hstep := Session.step_first "p" hrun
  have hdone := congrArg (fun outcome => outcome.2.result) hstep
  have hfirst : (((Session.start { root := "/p" } SwappedPackage.files).after []).step
      (.openHandle "p" (.package 0 false))).1 = SwappedPackage.session := by
    rw [hstep]
    rfl
  obtain ⟨p, hlook, hset⟩ := package_setters_act_on_their_own_slot { root := "/p" }
    SwappedPackage.files [] "p" 0 false hdone
  rw [hfirst] at hlook hset
  obtain rfl : SwappedPackage.package = p := Handle.package.inj (Option.some.inj hlook)
  have htends : SwappedPackage.session.Along (Session.Tends "p") [setLong] :=
    ⟨.inl ⟨_, _, _, rfl, rfl⟩, trivial⟩
  have hkeys := hset SwappedPackage.apart [setLong] htends
  have hseven : SwappedPackage.session.lastSet "p"
      (.domainConstraint .package .long .powerLimit) [setLong] = some 7 := by rfl
  have hnever : SwappedPackage.session.lastSet "p"
      (.domainConstraint .package .short .powerLimit) [setLong] = none := by rfl
  have hlong : s.Reads "p" (.package SwappedPackage.package) (.package 0 false)
      (.domainConstraint .package .long .powerLimit) (.ok 7) := by
    obtain ⟨r, -, hreads⟩ := (hkeys (.domainConstraint .package .long .powerLimit)).1 rfl
    rw [hseven] at hreads
    exact hreads
  have hshort : s.Reads "p" (.package SwappedPackage.package) (.package 0 false)
      (.domainConstraint .package .short .powerLimit) (.ok 100) := by
    obtain ⟨r, hbefore, hreads⟩ := (hkeys (.domainConstraint .package .short .powerLimit)).1 rfl
    rw [hnever] at hreads
    -- the number before is what the getter reads before
    have hread := hbefore.number (.package (.constraint .package .short .powerLimit)) rfl
    cases r with
    | error e => cases hread
    | ok v =>
      cases hread
      exact hreads
  constructor
  · obtain ⟨a, attr, hplace, honce⟩ := hlong.once
    obtain ⟨rfl, rfl⟩ : a = raplAddress [0] ∧ attr = .constraint 1 .powerLimit := by
      cases hplace with
      | domainConstraint hzone _ hconstraint =>
        cases hzone
        cases hconstraint
        exact ⟨rfl, rfl⟩
    exact honce
  · obtain ⟨a, attr, hplace, honce⟩ := hshort.once
    obtain ⟨rfl, rfl⟩ : a = raplAddress [0] ∧ attr = .constraint 0 .powerLimit := by
      cases hplace with
      | domainConstraint hzone _ hconstraint =>
        cases hzone
        cases hconstraint
        exact ⟨rfl, rfl⟩
    exact honce

end PowerZones
