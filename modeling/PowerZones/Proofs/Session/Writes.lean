import PowerZones.Proofs.Files.Skeleton
import PowerZones.Proofs.Session.Origin

/-!
# Writes are framed

A request changes a file only if it sets an attribute and succeeds, and then that
one file only: the one that the path of the attribute leads to, now for one-shot
access, or when the handle was opened for a call on a handle. Nothing else is ever
different in the file system after a request, whether it fails or not.

* **`Session.Sets`** ties a setter to the node that it writes to, and
  **`Session.Sourced.written`** is what a request may do there;
* **`Session.Framed`** is what follows for the files as a whole, and
  **`Session.Sourced.framed`** is the step lemma;
* **`writes_are_framed`** says it of every session, and that handles opened for
  reading only refuse every setter.
-/

namespace PowerZones

open PowerZones.Action

/-! ## Entries and contents -/

theorem FileSystem.Stamped.skeleton_eq {fs fs' : FileSystem} {n : NodeId} {v : UInt64}
    (h : fs.Stamped n v fs') : fs'.skeleton = fs.skeleton := by
  obtain ⟨permissions, old, hnode, rfl⟩ := h
  have hnodes : (fs.setNode n (.file permissions (Field.overwrite old (Field.stamp v)))).nodes.map
      Node.blank = fs.nodes.map Node.blank := by
    apply Array.ext_getElem?
    intro i
    unfold node? at hnode
    by_cases hi : i = n
    · subst hi
      obtain ⟨hlt, hget⟩ := Array.getElem?_eq_some_iff.mp hnode
      simp [setNode, hlt, hget, Node.blank]
    · simp [setNode, Array.getElem?_setIfInBounds_ne (Ne.symm hi)]
  simp only [skeleton, hnodes]
  rfl

namespace Session

/-! ## What setters write to -/

/-- A setter writes a number to a node. For one-shot access, that is the node
that the path of the attribute leads to; for a call on a handle, the one that it
led to when the handle was opened, and that the slot is still open on. -/
inductive Sets (s : Session) (known : Origins) : Request → NodeId → UInt64 → Prop
  | once {o : OneShot} {a : Address} {attr : Attribute} {v : UInt64} {path : String} {n : NodeId} :
    o.set? = some (a, attr, v) → attr.writable = true → s.tree.attributePath a attr = .ok path →
    s.host.files.access path .write = .ok n → Sets s known (.oneShot o) n v
  | call {name : String} {h : Handle} {what : Call} {key : SlotKey} {v : UInt64}
      {opening : Opening} {fs : FileSystem} {a : Address} {attr : Attribute}
      {id : DescriptorId} {path : String} {n : NodeId} :
    s.handles.lookup name = some h → what.set? = some (key, v) →
    known name = some (opening, fs) → opening.Place h key a attr → attr.writable = true →
    s.tree.attributePath a attr = .ok path → fs.access path .readWrite = .ok n →
    h.slot key = .opened id path .readWrite →
    s.host.descriptors.find? id = some ⟨n, .readWrite⟩ → Sets s known (.call name what) n v

theorem Sets.isSetter {s : Session} {known : Origins} {r : Request} {n : NodeId} {v : UInt64}
    (h : s.Sets known r n v) : r.isSetter = true := by
  cases h with
  | once hset => simp [Request.isSetter, hset]
  | call hlook hset => simp [Request.isSetter, hset]

/-- What a request does to the files: it leaves all entries, it changes nothing if
it fails or sets nothing, and otherwise it may only have written the number that it
sets over the beginning of the file that it sets. -/
structure Framed (s : Session) (known : Origins) (r : Request) : Prop where
  entries : (s.step r).1.host.files.skeleton = s.host.files.skeleton
  atomic : ∀ e, (s.step r).2.result = .error e → (s.step r).1.host.files = s.host.files
  still : r.isSetter = false → (s.step r).1.host.files = s.host.files
  written : (s.step r).1.host.files = s.host.files ∨ ∃ n v, s.Sets known r n v ∧
    (s.step r).2.result = .ok .done ∧ s.host.files.Stamped n v (s.step r).1.host.files

variable {s : Session} {known : Origins} {r : Request}

theorem host_step (s : Session) (r : Request) :
    (s.step r).1.host = ((r.act s.tree s.handles).run s.host).host := by
  rcases hrun : (r.act s.tree s.handles).run s.host with ⟨_ | answer, next, records⟩ <;>
    simp only [step, hrun]

theorem files_of_still (h : (r.act s.tree s.handles).Still) :
    (s.step r).1.host.files = s.host.files := by
  rw [host_step]
  exact h s.host

/-- A request that does nothing but write a number. -/
theorem step_of_writes {w : Action Unit} {handles : Handles} {node : NodeId → Prop} {v : UInt64}
    (hact : r.act s.tree s.handles = (fun _ => (.done, handles)) <$> w)
    (hw : w.Writes s.host node v) :
    (s.step r).1.host.files = s.host.files ∧ (s.step r).2.result ≠ .ok .done ∨
    (s.step r).2.result = .ok .done ∧
      ∃ n, node n ∧ s.host.files.write n (Field.stamp v) = .ok (s.step r).1.host.files := by
  unfold Writes at hw
  simp only [step, hact, ← bind_pure_comp, run_bind]
  rcases hrun : w.run s.host with ⟨_ | _, next, records⟩
  · rw [hrun] at hw
    refine .inl ⟨hw, fun hdone => ?_⟩
    cases hdone
  · rw [hrun] at hw
    exact .inr ⟨rfl, hw⟩

/-- What a request may do to the files: nothing, and then no setter succeeds, or it
is a setter that succeeds and writes to its node. -/
def Written (s : Session) (known : Origins) (r : Request) : Prop :=
  (s.step r).1.host.files = s.host.files ∧ (r.isSetter = true → (s.step r).2.result ≠ .ok .done) ∨
  ∃ n v, s.Sets known r n v ∧ (s.step r).2.result = .ok .done ∧
    s.host.files.write n (Field.stamp v) = .ok (s.step r).1.host.files

theorem written_of_still (h : (r.act s.tree s.handles).Still)
    (hnot : r.isSetter = true → (s.step r).2.result ≠ .ok .done) : s.Written known r :=
  .inl ⟨files_of_still h, hnot⟩

/-- A request that writes a number has written, if the node that it writes to is
one that it sets. -/
theorem written_of_writes {w : Action Unit} {handles : Handles} {node : NodeId → Prop} {v : UInt64}
    (hact : r.act s.tree s.handles = (fun _ => (.done, handles)) <$> w)
    (hw : w.Writes s.host node v) (hsets : ∀ n, node n → s.Sets known r n v) :
    s.Written known r := by
  rcases step_of_writes hact hw with ⟨hfiles, hnot⟩ | ⟨hdone, n, hnode, hwrite⟩
  · exact .inl ⟨hfiles, fun _ => hnot⟩
  · exact .inr ⟨n, v, hsets n hnode, hdone, hwrite⟩

theorem written_oneShot (o : OneShot) : s.Written known (.oneShot o) := by
  cases hset : o.set? with
  | none =>
    refine written_of_still ((o.still_of_set? _ hset).returns _) ?_
    simp [Request.isSetter, hset]
  | some set =>
    obtain ⟨a, attr, v⟩ := set
    have hact : (Request.oneShot o).act s.tree s.handles =
        (fun _ => (.done, s.handles)) <$> s.tree.writeNumber a attr v := by
      simp only [Request.act, o.act_of_set? s.tree hset, Reply.after, bind_pure_comp, ← comp_map]
      rfl
    refine written_of_writes hact (s.tree.writes_writeNumber a attr v s.host) ?_
    rintro n ⟨hattr, path, hpath, hnode⟩
    exact .once hset hattr hpath hnode

theorem Sourced.written_call (hs : s.Sourced known) (name : String) (what : Call) :
    s.Written known (.call name what) := by
  cases hlook : s.handles.lookup name with
  | none =>
    have hact : (Request.call name what).act s.tree s.handles = pure (.noHandle, s.handles) := by
      simp only [Request.act, hlook]
    refine written_of_still (hact ▸ (silent_pure _).still) fun _ => ?_
    simp [Session.step, hact]
  | some h =>
    cases hset : what.set? with
    | none =>
      refine written_of_still ?_ (by simp [Request.isSetter, hset])
      simp only [Request.act, hlook]
      exact (h.silent_of_set? hset).still.returns _
    | some set =>
      obtain ⟨key, v⟩ := set
      have hcall := h.call_of_set? hset
      split at hcall
      next htakes =>
        have hact : (Request.call name what).act s.tree s.handles =
            (fun _ => (.done, s.handles.insert name h)) <$> (h.slot key).writeNumber v := by
          simp only [Request.act, hlook, hcall, map_eq_pure_bind, Action.bind_assoc, Action.pure_bind]
        refine written_of_writes hact ((h.slot key).writes_writeNumber v s.host) ?_
        rintro n ⟨id, path, access, hslot, hfind⟩
        -- the slot is open where it was opened, so the node is the one found then
        obtain ⟨opening, fs, hknown, hopened⟩ := hs.opened name h hlook
        have hkey := hopened key
        rw [hslot] at hkey
        cases hkey with
        | opened hplace hpath hnode hfind' hgrant =>
          rw [hfind'] at hfind
          cases hfind
          exact .call hlook hset hknown hplace (hgrant rfl).2 hpath hnode hslot hfind'
      next =>
        have hact : (Request.call name what).act s.tree s.handles =
            pure (.noHandle, s.handles.insert name h) := by
          simp only [Request.act, hlook, hcall, Action.pure_bind]
        refine written_of_still (hact ▸ (silent_pure _).still) fun _ => ?_
        simp [Session.step, hact]

/-- Every request other than a change from outside does no more to the files. -/
theorem Sourced.written (hs : s.Sourced known) (hout : r.outside = false) : s.Written known r := by
  cases r with
  | query q => exact written_of_still ((q.silent_act _).still.returns _) nofun
  | contents route => exact written_of_still ((silent_observe _).still.returns _) nofun
  | openDescriptors => exact written_of_still ((silent_observe _).still.returns _) nofun
  | edit e => cases hout
  | drop name => exact written_of_still ((s.handles.silent_release name).still.returns _) nofun
  | openHandle name what =>
    have hstill : (Request.act s.tree s.handles (.openHandle name what)).Still :=
      (what.still_act _).bind fun _ => (s.handles.silent_release name).still.returns _
    exact written_of_still hstill nofun
  | oneShot o => exact written_oneShot o
  | call name what => exact hs.written_call name what

theorem Sourced.write_of_done (hs : s.Sourced known) (hsetter : r.isSetter = true)
    (hdone : (s.step r).2.result = .ok .done) : ∃ n v, s.Sets known r n v ∧
      s.host.files.write n (Field.stamp v) = .ok (s.step r).1.host.files := by
  have hout : r.outside = false := by
    cases r with
    | edit e => cases hsetter
    | _ => rfl
  rcases hs.written hout with ⟨-, hnot⟩ | ⟨n, v, hsets, -, hwrite⟩
  · exact absurd hdone (hnot hsetter)
  · exact ⟨n, v, hsets, hwrite⟩

/-- Every request other than a change from outside is framed. -/
theorem Sourced.framed (hs : s.Sourced known) (hout : r.outside = false) : s.Framed known r := by
  -- a device that keeps nothing can be written, and stays as it is
  have hwritten : (s.step r).1.host.files = s.host.files ∨ ∃ n v, s.Sets known r n v ∧
      (s.step r).2.result = .ok .done ∧ s.host.files.Stamped n v (s.step r).1.host.files := by
    rcases hs.written hout with ⟨hfiles, -⟩ | ⟨n, v, hsets, hdone, hwrite⟩
    · exact .inl hfiles
    · exact (FileSystem.stamped_of_write hwrite).imp_right fun hst => ⟨n, v, hsets, hdone, hst⟩
  refine ⟨?_, fun e he => ?_, fun hsetter => ?_, hwritten⟩
  · rcases hwritten with heq | ⟨n, v, -, -, hstamped⟩
    · rw [heq]
    · exact hstamped.skeleton_eq
  · rcases hwritten with heq | ⟨n, v, -, hdone, -⟩
    · exact heq
    · rw [hdone] at he
      cases he
  · rcases hwritten with heq | ⟨n, v, hsets, -, -⟩
    · exact heq
    · rw [hsets.isSetter] at hsetter
      cases hsetter

/-! ## Handles for reading only -/

/-- A setter that a handle opened for reading only takes is refused. -/
theorem Sourced.refused (hs : s.Sourced known) {name : String} {h : Handle} {opening : Opening}
    {fs : FileSystem} (hlook : s.handles.lookup name = some h)
    (hknown : known name = some (opening, fs)) (hreadOnly : opening.readOnly = true)
    {what : Call} {key : SlotKey} {v : UInt64} (hset : what.set? = some (key, v))
    (htakes : h.takes key = true) :
    (s.step (.call name what)).2.result = .error (match h.slot key with
      | .absent => .unsupported
      | .opened _ path _ => .permissionDenied path .openedReadOnly) := by
  obtain ⟨opening', fs', hknown', hopened⟩ := hs.opened name h hlook
  rw [hknown] at hknown'
  cases hknown'
  have hcall := h.call_of_set? hset
  rw [if_pos htakes] at hcall
  have hkey := hopened key
  rw [hreadOnly] at hkey
  cases hslot : h.slot key with
  | absent =>
    rw [hslot] at hcall
    simp only [Session.step, Request.act, hlook, hcall]
    rfl
  | opened id path grant =>
    rw [hslot] at hcall hkey
    have hgrant : grant ≠ .readWrite := by
      intro heq
      cases hkey with
      | opened _ _ _ _ hwritable => cases (hwritable heq).1
    have hwrite : (Slot.opened id path grant).writeNumber v =
        fail (.permissionDenied path .openedReadOnly) := if_neg hgrant
    simp only [Session.step, Request.act, hlook, hcall, hwrite]
    rfl

/-- No call on a handle opened for reading only changes a file. -/
theorem Sourced.untouched (hs : s.Sourced known) {name : String} {h : Handle} {opening : Opening}
    {fs : FileSystem} (hlook : s.handles.lookup name = some h)
    (hknown : known name = some (opening, fs)) (hreadOnly : opening.readOnly = true) (what : Call) :
    (s.step (.call name what)).1.host.files = s.host.files := by
  have hframed : s.Framed known (.call name what) := hs.framed rfl
  cases hset : what.set? with
  | none => exact hframed.still (by simp [Request.isSetter, hset])
  | some set =>
    obtain ⟨key, v⟩ := set
    by_cases htakes : h.takes key = true
    · exact hframed.atomic _ (hs.refused hlook hknown hreadOnly hset htakes)
    · refine files_of_still ?_
      have hcall := h.call_of_set? hset
      rw [if_neg htakes] at hcall
      simp only [Request.act, hlook, hcall, Action.pure_bind]
      exact (silent_pure _).still

end Session

/-- **Writes are framed.** After all events, whatever is asked next: no entry is
made, removed or renamed; nothing changes unless a setter succeeds, and it then has
written to one file, the one of its address. Every handle has an origin, from which
its slots are open; one that was opened for reading only never changes a file, and
answers every setter it takes with a denial, or says that it is not supported where
the slot is absent. -/
theorem writes_are_framed (t : Tree) (files : FileSystem) (events : List Event) :
    let s := (Session.start t files).after events
    let known := (Session.start t files).origins (fun _ => none) events
    (∀ r : Request, r.outside = false → s.Framed known r) ∧
    (∀ name h, s.handles.lookup name = some h → ∃ opening fs, known name = some (opening, fs) ∧
      h.OpenedAs s.tree fs s.host.descriptors opening ∧
      (opening.readOnly = true →
        (∀ what, (s.step (.call name what)).1.host.files = s.host.files) ∧
        ∀ what key v, what.set? = some (key, v) → h.takes key = true →
          (s.step (.call name what)).2.result = .error (match h.slot key with
            | .absent => .unsupported
            | .opened _ path _ => .permissionDenied path .openedReadOnly))) := by
  intro s known
  have hs : s.Sourced known := Session.sourced_after t files events
  refine ⟨fun r hout => hs.framed hout, fun name h hlook => ?_⟩
  obtain ⟨opening, fs, hknown, hopened⟩ := hs.opened name h hlook
  refine ⟨opening, fs, hknown, hopened, fun hreadOnly => ⟨?_, fun what key v hset htakes => ?_⟩⟩
  · exact hs.untouched hlook hknown hreadOnly
  · exact hs.refused hlook hknown hreadOnly hset htakes

/-- A session that has a switch open for reading only, on a file that anybody may
write. -/
def Session.guardedSwitch : Session :=
  (start { root := "/powercap" } (switchOnly [0x31])).after
    [.request (.openHandle "h" (.controlType "dtpm" true))]

/-- Setting a switch is refused by a handle opened for reading only, and done once. -/
theorem writes_are_framed_guardedSwitch :
    let byHandle := Session.guardedSwitch.step (.call "h" (.controlType (.setEnabled false)))
    let once := Session.guardedSwitch.step (.oneShot (.setControlTypeEnabled "dtpm" false))
    (byHandle.2.result = .error (.permissionDenied "/powercap/dtpm/enabled" .openedReadOnly) ∧
      byHandle.1.host.files = Session.guardedSwitch.host.files) ∧
    once.2.result = .ok .done ∧
      once.1.host.files.skeleton = Session.guardedSwitch.host.files.skeleton := by
  intro byHandle once
  obtain ⟨hframed, hhandles⟩ := writes_are_framed { root := "/powercap" } (switchOnly [0x31])
    [.request (.openHandle "h" (.controlType "dtpm" true))]
  have hhandle : Session.guardedSwitch.handles.lookup "h" = some (.controlType
      ⟨"dtpm", .opened 0 "/powercap/dtpm/enabled" .readOnly⟩) := by rfl
  obtain ⟨opening, fs, hknown, -, hreadOnly⟩ := hhandles "h" _ hhandle
  cases hknown
  obtain ⟨hfiles, hrefused⟩ := hreadOnly rfl
  exact ⟨⟨hrefused _ .controlType 0 rfl rfl, hfiles _⟩, by rfl, (hframed _ rfl).entries⟩

end PowerZones
