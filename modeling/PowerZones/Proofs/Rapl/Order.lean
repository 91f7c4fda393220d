import PowerZones.Proofs.Entity.Agreement
import PowerZones.Rapl.PowerDomain

/-!
# The order of the constraints

A power domain takes constraint 0 for the long term one and constraint 1 for the short
term one, unless both have a name and neither has the name expected of it.

* **`Tree.openParts`** opens the parts of a domain one after the other, and
  **`Tree.run_openDomain`** says that opening the domain puts just these in order;
* **`Action.Never`**: an action makes no record of a severity;
* **`PowerDomain.run_order_of_misnamed`** and **`PowerDomain.run_order_of_not`** are what
  putting in order comes to;
* **`PowerDomain.Ordered`** is what the order promises to whoever reads the names, and
  **`openDomain_puts_in_order`** that the promise is kept.
-/

namespace PowerZones

open PowerZones.Action

/-! ## Opening the parts -/

/-- Opens the parts of a power domain one after the other: the zone, constraint 0 and
constraint 1. -/
def Tree.openParts (t : Tree) (zones : List UInt32) (readOnly : Bool) :
    Action (Zone × Constraint × Constraint) := do
  let zone ← t.openZone (raplAddress zones) readOnly
  let first ← t.openConstraint (raplAddress zones) 0 readOnly
  let second ← t.openConstraint (raplAddress zones) 1 readOnly
  return (zone, first, second)

/-- Where a cleanup is not called for, it makes no difference. -/
theorem Action.run_onFailure_eq_iff {α : Type} {a : Action α} (cleanup : Action Unit)
    {host next : Host} {x : α} {records : List Record} :
    (a.onFailure cleanup).run host = ⟨.ok x, next, records⟩ ↔
      a.run host = ⟨.ok x, next, records⟩ := by
  rcases hrun : a.run host with ⟨_ | _, _, _⟩ <;> simp [onFailure, hrun]

namespace Tree

variable {t : Tree} {zones : List UInt32} {readOnly : Bool} {host next : Host} {z : Zone}
  {c0 c1 : Constraint} {records : List Record}

/-- To open a domain is to open its parts and to put them in order. -/
theorem run_openDomain
    (hparts : (t.openParts zones readOnly).run host = ⟨.ok (z, c0, c1), next, records⟩) :
    (t.openDomain zones readOnly).run host =
      ⟨((PowerDomain.order t.logger (raplAddress zones) ⟨z, c0, c1⟩).run next).result,
        ((PowerDomain.order t.logger (raplAddress zones) ⟨z, c0, c1⟩).run next).host,
        records ++ ((PowerDomain.order t.logger (raplAddress zones) ⟨z, c0, c1⟩).run next).records⟩ := by
  have h : ((t.openParts zones readOnly).run host).result = .ok (z, c0, c1) := by rw [hparts]
  obtain ⟨z', host1, records1, hzone, h, hrun⟩ := run_bind_of_ok h
  obtain ⟨c0', host2, records2, hfirst, h, hrun1⟩ := run_bind_of_ok h
  obtain ⟨c1', host3, records3, hsecond, h, hrun2⟩ := run_bind_of_ok h
  cases h
  have hends : (⟨.ok (z, c0, c1), host3, records1 ++ (records2 ++ (records3 ++ []))⟩ :
      Outcome (Zone × Constraint × Constraint)) = ⟨.ok (z, c0, c1), next, records⟩ := by
    rw [← hparts, openParts, hrun, hrun1, hrun2, run_pure]
  cases hends
  have hfirst' := (run_onFailure_eq_iff z.slots.closeAll).mpr hfirst
  have hsecond' := (run_onFailure_eq_iff do
    z.slots.closeAll
    c0.slots.closeAll).mpr hsecond
  unfold openDomain
  simp only [run_bind, hzone, Term.number, hfirst', hsecond', List.append_nil, List.append_assoc]

/-- A domain can only be opened where its parts can. -/
theorem exists_run_openParts {d : PowerDomain}
    (h : ((t.openDomain zones readOnly).run host).result = .ok d) :
    ∃ z c0 c1 next records,
      (t.openParts zones readOnly).run host = ⟨.ok (z, c0, c1), next, records⟩ := by
  simp only [openDomain, Term.number] at h
  obtain ⟨z, host1, records1, hzone, h, -⟩ := run_bind_of_ok h
  obtain ⟨c0, host2, records2, hfirst, h, -⟩ := run_bind_of_ok h
  obtain ⟨c1, host3, records3, hsecond, -⟩ := run_bind_of_ok h
  rw [run_onFailure_eq_iff] at hfirst hsecond
  refine ⟨z, c0, c1, host3, records1 ++ (records2 ++ records3), ?_⟩
  simp only [openParts, run_bind, hzone, hfirst, hsecond, run_pure, List.append_nil]

theorem numbers_of_openParts
    (h : ((t.openParts zones readOnly).run host).result = .ok (z, c0, c1)) :
    c0.number = 0 ∧ c1.number = 1 := by
  obtain ⟨z', -, h⟩ := result_bind_eq_ok h
  obtain ⟨c0', hfirst, h⟩ := result_bind_eq_ok h
  obtain ⟨c1', hsecond, h⟩ := result_bind_eq_ok h
  cases h
  obtain ⟨_, -, hnumber0, -⟩ := (t.realizes_openConstraint _ readOnly _ 0).of_ok hfirst
  obtain ⟨_, -, hnumber1, -⟩ := (t.realizes_openConstraint _ readOnly _ 1).of_ok hsecond
  exact ⟨hnumber0, hnumber1⟩

end Tree

/-! ## Records of a severity -/

namespace Action

variable {α β : Type} {severity : Severity}

/-- An action makes no record of a severity. -/
def Never (severity : Severity) (a : Action α) : Prop :=
  ∀ host, ∀ r ∈ (a.run host).records, r.severity ≠ severity

theorem never_of_records {a : Action α} (h : ∀ host, (a.run host).records = []) :
    a.Never severity := by
  intro host r hr
  rw [h] at hr
  cases hr

theorem never_note {logger : Logger} {other : Severity} (hne : other ≠ severity) (text : String) :
    (note logger other text).Never severity := by
  intro host r hr
  have hr : r ∈ logger.filter ⟨other, text⟩ := hr
  unfold Logger.filter at hr
  split at hr
  · obtain rfl := List.mem_singleton.mp hr
    exact hne
  · cases hr

theorem Never.bind {a : Action α} {f : α → Action β} (ha : a.Never severity)
    (hf : ∀ x, (f x).Never severity) : (a >>= f).Never severity := by
  intro host r hr
  have hfirst := ha host
  rw [run_bind] at hr
  rcases hrun : a.run host with ⟨_ | x, next, records⟩
  · rw [hrun] at hr hfirst
    exact hfirst r hr
  · rw [hrun] at hr hfirst
    rcases List.mem_append.mp hr with hr | hr
    · exact hfirst r hr
    · exact hf x next r hr

theorem Never.onFailure {a : Action α} {cleanup : Action Unit} (ha : a.Never severity)
    (hc : cleanup.Never severity) : (a.onFailure cleanup).Never severity := by
  intro host r hr
  have hfirst := ha host
  rcases hrun : a.run host with ⟨_ | x, next, records⟩
  · simp only [Action.onFailure, hrun] at hr hfirst
    rcases List.mem_append.mp hr with hr | hr
    · exact hfirst r hr
    · exact hc next r hr
  · simp only [Action.onFailure, hrun] at hr hfirst
    exact hfirst r hr

end Action

namespace Tree

variable (t : Tree) (a : Address) (readOnly : Bool)

/-- Slots are opened with records for debugging and of errors, never with warnings. -/
theorem never_openSlot (attr : Attribute) (write : Bool) :
    (t.openSlot a attr write).Never .warn := by
  refine (never_of_records fun host => by simp).bind fun path => ?_
  refine (never_of_records fun host => by simp).bind fun verdict => ?_
  split
  · exact (never_of_records fun _ => rfl).bind fun _ => never_of_records fun _ => rfl
  · exact (never_note (by decide) _).bind fun _ => never_of_records fun _ => rfl
  · exact (never_note (by decide) _).bind fun _ => never_of_records fun _ => rfl

theorem never_openAll {α : Type} {openOne : α → Action Slot}
    (h : ∀ x, (openOne x).Never .warn) (as : List α) : (Slots.openAll openOne as).Never .warn := by
  induction as with
  | nil => exact never_of_records fun _ => rfl
  | cons x rest ih =>
    refine (h x).bind fun slot => ?_
    have hclose : slot.close.Never .warn := never_of_records fun host => by rw [slot.run_close]
    exact (ih.onFailure hclose).bind fun _ => never_of_records fun _ => rfl

theorem never_openParts (zones : List UInt32) : (t.openParts zones readOnly).Never .warn := by
  have hconstraint (number : UInt32) :
      (t.openConstraint (raplAddress zones) number readOnly).Never .warn :=
    (never_openAll (fun _ => t.never_openSlot _ _ _) _).bind fun _ => never_of_records fun _ => rfl
  refine ((never_openAll (fun _ => t.never_openSlot _ _ _) _).bind
    fun _ => never_of_records fun _ => rfl).bind fun zone => ?_
  exact (hconstraint 0).bind fun _ => (hconstraint 1).bind fun _ => never_of_records fun _ => rfl

end Tree

/-! ## Names -/

/-- Reading a name leaves everything as it is. -/
theorem Slot.run_readName (slot : Slot) (host : Host) :
    slot.readName.run host = ⟨(slot.readName.run host).result, host, []⟩ := by
  have hsize : Field.nameSize ≠ 0 := by decide
  cases slot with
  | absent => rfl
  | opened id path grant => simp only [readName, readText, if_neg hsize, run_observe]

/-- The name of a slot depends on the files and on what its descriptor is open on. -/
theorem Slot.readName_congr {slot : Slot} {host later : Host} (hfiles : later.files = host.files)
    (hkept : ∀ id ∈ slot.descriptor?, later.descriptors.find? id = host.descriptors.find? id) :
    (slot.readName.run later).result = (slot.readName.run host).result := by
  have hsize : Field.nameSize ≠ 0 := by decide
  cases slot with
  | absent => rfl
  | opened id path grant =>
    simp only [readName, readText, if_neg hsize, run_observe, Host.read, hfiles, hkept id rfl]

namespace Constraint

/-- What a constraint is named on a host. -/
def nameOn (c : Constraint) (host : Host) : Except Failure String :=
  (c.name.run host).result

/-- A constraint has a name on a host, and not the one of that term. -/
def Misnamed (c : Constraint) (term : Term) (host : Host) : Prop :=
  ∃ n, c.nameOn host = .ok n ∧ n ≠ term.label

theorem run_misnamed (c : Constraint) (term : Term) (host : Host) :
    ∃ found, (c.misnamed term).run host = ⟨.ok found, host, []⟩ ∧
      (found = true ↔ c.Misnamed term host) := by
  have hrun : c.name.run host = ⟨c.nameOn host, host, []⟩ := (c.slot .name).run_readName host
  unfold Misnamed misnamed
  simp only [run_bind, run_attempt, hrun]
  cases c.nameOn host with
  | error e => exact ⟨false, rfl, by simp⟩
  | ok n => exact ⟨decide (n ≠ term.label), rfl, by simp⟩

theorem nameOn_of_undisturbed {c : Constraint} {host later : Host} {ids : List DescriptorId}
    (hlater : host.Undisturbed later ids) (hids : ∀ id ∈ c.descriptors, id ∈ ids) :
    c.nameOn later = c.nameOn host :=
  Slot.readName_congr hlater.files fun id hid =>
    hlater.descriptors id (hids id (Slots.mem_descriptors hid))

end Constraint

/-! ## Order -/

namespace PowerDomain

variable {logger : Logger} {a : Address} {d : PowerDomain} {host : Host}

/-- Both constraints are misnamed, and change places. -/
theorem run_order_of_misnamed (hlong : d.longTerm.Misnamed .long host)
    (hshort : d.shortTerm.Misnamed .short host) :
    (d.order logger a).run host = ⟨.ok d.swap, host, logger.filter ⟨.warn, swapText a⟩⟩ := by
  obtain ⟨long, hrunLong, hiffLong⟩ := d.longTerm.run_misnamed .long host
  obtain ⟨short, hrunShort, hiffShort⟩ := d.shortTerm.run_misnamed .short host
  obtain rfl := hiffLong.mpr hlong
  obtain rfl := hiffShort.mpr hshort
  unfold order
  simp only [run_bind, hrunLong, hrunShort, Bool.and_self, if_true, run_note, run_pure,
    List.nil_append, List.append_nil]

/-- One of the constraints is not misnamed, and both stay where they are. -/
theorem run_order_of_not (h : ¬(d.longTerm.Misnamed .long host ∧ d.shortTerm.Misnamed .short host)) :
    (d.order logger a).run host = ⟨.ok d, host, []⟩ := by
  obtain ⟨long, hrunLong, hiffLong⟩ := d.longTerm.run_misnamed .long host
  obtain ⟨short, hrunShort, hiffShort⟩ := d.shortTerm.run_misnamed .short host
  have hnot : (long && short) = false := by
    rw [← hiffLong, ← hiffShort, ← Bool.and_eq_true] at h
    exact Bool.eq_false_iff.mpr h
  unfold order
  simp only [run_bind, hrunLong, hrunShort, hnot, Bool.false_eq_true, if_false, run_pure,
    List.append_nil]

/-- What the order of the constraints 0 and 1 of a domain promises on a host. If both
have names, and one of them has the name of a term, then the constraint for that term
has it. If one has no name, or one has the name expected of it, then they are in the
order of their numbers. -/
structure Ordered (d : PowerDomain) (c0 c1 : Constraint) (host : Host) : Prop where
  named : ∀ term n0 n1, c0.nameOn host = .ok n0 → c1.nameOn host = .ok n1 →
    n0 = term.label ∨ n1 = term.label → (d.constraint term).nameOn host = .ok term.label
  kept : (∀ n, c0.nameOn host ≠ .ok n) ∨ (∀ n, c1.nameOn host ≠ .ok n) ∨
    c0.nameOn host = .ok Term.long.label ∨ c1.nameOn host = .ok Term.short.label →
    d.longTerm = c0 ∧ d.shortTerm = c1

variable {z : Zone} {c0 c1 : Constraint}

theorem ordered_of_misnamed (hlong : c0.Misnamed .long host) (hshort : c1.Misnamed .short host) :
    Ordered ⟨z, c1, c0⟩ c0 c1 host := by
  obtain ⟨n0, hn0, hne0⟩ := hlong
  obtain ⟨n1, hn1, hne1⟩ := hshort
  refine ⟨fun term m0 m1 hm0 hm1 hterm => ?_, ?_⟩
  · obtain rfl := Except.ok.inj (hn0.symm.trans hm0)
    obtain rfl := Except.ok.inj (hn1.symm.trans hm1)
    cases term with
    | long =>
      obtain rfl := hterm.resolve_left hne0
      exact hn1
    | short =>
      obtain rfl := hterm.resolve_right hne1
      exact hn0
  · rintro (hnone | hnone | hnamed | hnamed)
    · exact absurd hn0 (hnone n0)
    · exact absurd hn1 (hnone n1)
    · exact absurd (Except.ok.inj (hn0.symm.trans hnamed)) hne0
    · exact absurd (Except.ok.inj (hn1.symm.trans hnamed)) hne1

theorem ordered_of_not (h : ¬(c0.Misnamed .long host ∧ c1.Misnamed .short host)) :
    Ordered ⟨z, c0, c1⟩ c0 c1 host := by
  refine ⟨fun term n0 n1 hn0 hn1 hterm => ?_, fun _ => ⟨rfl, rfl⟩⟩
  -- a constraint with the name of the other term is misnamed, so the other one is not
  have hfine : n0 = Term.long.label ∨ n1 = Term.short.label := by
    by_contra hboth
    rw [not_or] at hboth
    exact h ⟨⟨n0, hn0, hboth.1⟩, n1, hn1, hboth.2⟩
  have hlabels : Term.long.label ≠ Term.short.label := by decide
  cases term with
  | long =>
    rcases hterm with rfl | rfl
    · exact hn0
    · obtain rfl := hfine.resolve_right hlabels
      exact hn0
  | short =>
    rcases hterm with rfl | rfl
    · obtain rfl := hfine.resolve_left hlabels.symm
      exact hn1
    · exact hn1

/-- The promise lasts as long as the names do. -/
theorem Ordered.of_undisturbed (h : d.Ordered c0 c1 host)
    (hparts : d = ⟨z, c0, c1⟩ ∨ d = ⟨z, c1, c0⟩) {later : Host}
    (hlater : host.Undisturbed later d.descriptors) : d.Ordered c0 c1 later := by
  have hname0 : c0.nameOn later = c0.nameOn host :=
    Constraint.nameOn_of_undisturbed hlater fun id hid => by
      rcases hparts with rfl | rfl <;> simp [descriptors, hid]
  have hname1 : c1.nameOn later = c1.nameOn host :=
    Constraint.nameOn_of_undisturbed hlater fun id hid => by
      rcases hparts with rfl | rfl <;> simp [descriptors, hid]
  have hnames (term : Term) : (d.constraint term).nameOn later = (d.constraint term).nameOn host := by
    rcases hparts with rfl | rfl <;> cases term
    all_goals first | exact hname0 | exact hname1
  refine ⟨fun term n0 n1 hn0 hn1 hterm => ?_, fun hkept => h.kept ?_⟩
  · rw [hname0] at hn0
    rw [hname1] at hn1
    rw [hnames]
    exact h.named term n0 n1 hn0 hn1 hterm
  · rwa [hname0, hname1] at hkept

end PowerDomain

/-- A domain that was opened has the constraints 0 and 1, which were opened with it, in
one of the two orders. As long as nothing is changed the order keeps its promise, and a
logger that lets warnings pass has one if they are in the other order, and no other. -/
theorem openDomain_puts_in_order (t : Tree) (zones : List UInt32) (readOnly : Bool) (host : Host)
    (d : PowerDomain) (hopen : ((t.openDomain zones readOnly).run host).result = .ok d) :
    let opened := (t.openDomain zones readOnly).run host
    let parts := (t.openParts zones readOnly).run host
    ∃ z c0 c1, parts.result = .ok (z, c0, c1) ∧ opened.host = parts.host ∧
      c0.number = 0 ∧ c1.number = 1 ∧ (d = ⟨z, c0, c1⟩ ∨ d = ⟨z, c1, c0⟩) ∧
      (∀ later, opened.host.Undisturbed later d.descriptors → d.Ordered c0 c1 later) ∧
      (t.logger.verbosity.passes .warn = true →
        opened.records.filter (fun r => r.severity = .warn) =
          if d.longTerm.number = 1 then [⟨.warn, PowerDomain.swapText (raplAddress zones)⟩]
          else []) := by
  intro opened parts
  obtain ⟨z, c0, c1, next, records, hparts⟩ := Tree.exists_run_openParts hopen
  have hresult : parts.result = .ok (z, c0, c1) := congrArg Outcome.result hparts
  obtain ⟨hnumber0, hnumber1⟩ := Tree.numbers_of_openParts hresult
  have hnever : records.filter (fun r => r.severity = .warn) = [] := by
    rw [List.filter_eq_nil_iff]
    intro r hr
    have hmem : r ∈ ((t.openParts zones readOnly).run host).records := by rwa [hparts]
    simpa using t.never_openParts readOnly zones host r hmem
  have hrun := Tree.run_openDomain hparts
  refine ⟨z, c0, c1, hresult, ?_⟩
  subst opened parts
  by_cases hmisnamed : c0.Misnamed .long next ∧ c1.Misnamed .short next
  · rw [PowerDomain.run_order_of_misnamed hmisnamed.1 hmisnamed.2] at hrun
    rw [hrun] at hopen ⊢
    rw [hparts]
    obtain rfl : (⟨z, c1, c0⟩ : PowerDomain) = d := Except.ok.inj hopen
    refine ⟨rfl, hnumber0, hnumber1, .inr rfl, fun later hlater => ?_, fun hpasses => ?_⟩
    · exact (PowerDomain.ordered_of_misnamed hmisnamed.1 hmisnamed.2).of_undisturbed (.inr rfl)
        hlater
    · rw [List.filter_append, hnever, if_pos hnumber1]
      simp [Logger.filter, hpasses]
  · rw [PowerDomain.run_order_of_not hmisnamed] at hrun
    rw [hrun] at hopen ⊢
    rw [hparts]
    obtain rfl : (⟨z, c0, c1⟩ : PowerDomain) = d := Except.ok.inj hopen
    refine ⟨rfl, hnumber0, hnumber1, .inl rfl, fun later hlater => ?_, fun _ => ?_⟩
    · exact (PowerDomain.ordered_of_not hmisnamed).of_undisturbed (.inl rfl) hlater
    · have hfirst : ¬c0.number = 1 := by rw [hnumber0]; decide
      rw [List.append_nil, hnever, if_neg hfirst]

/-- A zone whose constraints have each the name of the other term. -/
def crossedNames : FileSystem where
  nodes :=
    let all : Permissions := ⟨true, true, true⟩
    let text (s : String) : Node := .file all (s.toList.map fun c => c.val.toUInt8)
    let zone := (Directory.empty all 2).insert (.text "constraint_0_name") 4 (.refl true)
    #[.directory ((Directory.empty all 0).insert (.text "p") 1 (.refl true)),
      .directory ((Directory.empty all 0).insert (.text "intel-rapl") 2 (.refl true)),
      .directory ((Directory.empty all 1).insert (.text "intel-rapl:0") 3 (.refl true)),
      .directory (zone.insert (.text "constraint_1_name") 5 (.refl true)),
      text "short_term\n", text "long_term\n"]
  top := 0
  current := 0

/-- The two constraints change places, with one warning, and have the right names then. -/
theorem openDomain_puts_in_order_crossed :
    let opened := (Tree.openDomain { root := "/p" } [0] false).run (.ofFiles crossedNames)
    ∃ d, opened.result = .ok d ∧ d.longTerm.number = 1 ∧ d.shortTerm.number = 0 ∧
      (∀ term, (d.constraint term).nameOn opened.host = .ok term.label) ∧
      opened.records.filter (fun r => r.severity = .warn) =
        [⟨.warn, "long and short term constraints are out of order for zone intel-rapl:0"⟩] := by
  intro opened
  subst opened
  have hnames : (((Tree.openParts { root := "/p" } [0] false).run
      (.ofFiles crossedNames)).result.toOption.map fun parts =>
        let host := ((Tree.openParts { root := "/p" } [0] false).run (.ofFiles crossedNames)).host
        (parts.2.1.nameOn host, parts.2.2.nameOn host)) =
      some (.ok "short_term", .ok "long_term") := by
    decide +kernel
  rcases hrun : (Tree.openParts { root := "/p" } [0] false).run (.ofFiles crossedNames) with
    ⟨_ | ⟨z, c0, c1⟩, next, records⟩
  · rw [hrun] at hnames
    cases hnames
  · rw [hrun] at hnames
    obtain ⟨hname0, hname1⟩ := Prod.mk.inj (Option.some.inj hnames)
    have hmisnamed : c0.Misnamed .long next ∧ c1.Misnamed .short next :=
      ⟨⟨_, hname0, by decide⟩, _, hname1, by decide⟩
    have hdomain := Tree.run_openDomain hrun
    rw [PowerDomain.run_order_of_misnamed hmisnamed.1 hmisnamed.2] at hdomain
    obtain ⟨z', c0', c1', hparts, hhost, hnumber0, hnumber1, -, hordered, hwarned⟩ :=
      openDomain_puts_in_order { root := "/p" } [0] false (.ofFiles crossedNames) ⟨z, c1, c0⟩
        (congrArg Outcome.result hdomain)
    rw [hrun] at hparts hhost
    cases hparts
    refine ⟨⟨z, c1, c0⟩, congrArg Outcome.result hdomain, hnumber1, hnumber0, fun term => ?_, ?_⟩
    · refine (hordered _ ⟨rfl, fun _ _ => rfl⟩).named term "short_term" "long_term" ?_ ?_ ?_
      · rw [hhost]
        exact hname0
      · rw [hhost]
        exact hname1
      · cases term <;> simp [Term.label]
    · rw [hwarned rfl]
      exact (if_pos hnumber1).trans (by decide +kernel)

end PowerZones
