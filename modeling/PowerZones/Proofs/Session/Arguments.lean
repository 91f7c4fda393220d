import PowerZones.Proofs.Session.Getters
import PowerZones.Proofs.Tree.Refusal

/-!
# Arguments are judged by themselves

Whether a request is refused for its arguments can be told from the request alone:
no file system, no tree and no handle makes a difference, and a request that is
refused does nothing.

* **`Request.Misaddressed`** says, for each request, what is wrong with its arguments;
* **`Request.refusal?`** is the refusal itself, and **`Request.refuses_act`** that it is what
  the request comes to;
* **`arguments_are_judged_alone`** ties both to the steps of a session.
-/

namespace PowerZones

open PowerZones.Action

/-! ## What is wrong -/

def Query.Misaddressed : Query → Prop
  | .zonePath a | .zoneExists a | .constraintExists a _ | .constraintCount a
  | .zoneIndices a => a.Improper
  | .attributePath a attr => a.Improper ∨ a.Lacks attr
  | .zoneCount parent => parent.Improper ∨ 16 ≤ parent.zones.length
  | .controlTypes | .raplSupported => False

def OneShot.Misaddressed : OneShot → Prop
  | .readNumber a attr => a.Improper ∨ a.Lacks attr
  | .writeNumber a attr _ => a.Improper ∨ a.Lacks attr ∨ attr.writable = false
  | .controlTypeEnabled controlType | .setControlTypeEnabled controlType _ =>
    ({ controlType := controlType } : Address).Improper
  | .zoneName a | .zoneEnabled a | .setZoneEnabled a _ | .resetZoneEnergy a
  | .constraintName a _ => a.Improper
  | .packageCount | .raplEnabled | .setRaplEnabled _ => False

def Opening.Misaddressed : Opening → Prop
  | .controlType name _ => ({ controlType := name } : Address).Improper
  | .zone a _ | .constraint a _ _ => a.Improper
  | .package _ _ => False

/-- Something is wrong with the arguments of a request. A handle has been found at
its address, so nothing is wrong with what is asked of it. -/
def Request.Misaddressed : Request → Prop
  | .query q => q.Misaddressed
  | .oneShot o => o.Misaddressed
  | .openHandle _ what => what.Misaddressed
  | .call _ _ | .drop _ | .edit _ | .contents _ | .openDescriptors => False

/-- Whether a request is about RAPL or one of its packages. -/
def Request.isRapl : Request → Bool
  | .query .raplSupported => true
  | .oneShot .packageCount | .oneShot .raplEnabled | .oneShot (.setRaplEnabled _) => true
  | .openHandle _ (.package _ _) => true
  | .call _ (.package _) => true
  | _ => false

/-! ## Calls -/

namespace Slot

variable (slot : Slot)

theorem accepts_answer (reading : Reading) : (slot.answer reading).Accepts := by
  have hnumber : slot.readNumber.Accepts := by
    cases slot with
    | absent => exact accepts_fail rfl
    | opened id path grant => exact Action.accepts_readNumber id
  have hname : slot.readName.Accepts := by
    cases slot with
    | absent => exact accepts_fail rfl
    | opened id path grant => exact accepts_readText id (by decide)
  cases reading with
  | number => exact hnumber.map _
  | switch => exact hnumber.map _
  | name => exact hname.map _

theorem accepts_writeNumber (v : UInt64) : (slot.writeNumber v).Accepts := by
  cases slot with
  | absent => exact accepts_fail rfl
  | opened id path grant =>
    rw [writeNumber]
    split
    · exact Action.accepts_writeNumber id v
    · exact accepts_fail rfl

end Slot

theorem Slots.accepts_report {α : Type} (name : α → String) (slots : Slots α) :
    (slots.report name).Accepts := by
  induction slots with
  | nil => exact accepts_pure _
  | cons s rest ih => exact (accepts_attempt _).bind fun _ => ih.bind fun _ => accepts_pure _

theorem Package.accepts_reportTerms (p : Package) (k : Domain) (terms : List Term) :
    (p.reportTerms k terms).Accepts := by
  induction terms with
  | nil => exact accepts_pure _
  | cons term rest ih => exact (accepts_attempt _).bind fun _ => ih.bind fun _ => accepts_pure _

theorem Package.accepts_reportDomains (p : Package) (ks : List Domain) :
    (p.reportDomains ks).Accepts := by
  induction ks with
  | nil => exact accepts_pure _
  | cons k rest ih =>
    refine (accepts_attempt _).bind fun zone => ?_
    refine (p.accepts_reportTerms k _).bind fun terms => ?_
    exact ih.bind fun _ => accepts_pure _

namespace Handle

variable (hd : Handle)

theorem accepts_report : hd.report.Accepts := by
  cases hd with
  | controlType c => exact accepts_pure _
  | zone z => exact ((Slots.accepts_report _ _).returns _).map _
  | constraint c => exact ((Slots.accepts_report _ _).returns _).map _
  | package p => exact (p.accepts_reportDomains _).map _

/-- A call that is about no slot tells what the handle knows by itself, reports it or
closes it. -/
theorem accepts_call_of_plain {what : Call} (h : what.Plain) : (hd.call what).Accepts := by
  cases h with
  | close => exact accepts_of_closing hd.run_call_close
  | report =>
    have hcall : hd.call .report = (do let reply ← hd.report; return (reply, hd)) := by
      cases hd <;> rfl
    rw [hcall]
    exact hd.accepts_report.returns _
  | constraintNumber k term =>
    cases hd with
    | package p =>
      -- a domain that the package lacks is not supported, which is no refusal
      have hnumber : refusalOf (p.constraintNumber k term) = none := by
        simp only [Package.constraintNumber, Package.constraint, Package.domain]
        cases p.domains.lookup k <;> rfl
      have hfound := refuses_ofExcept (p.constraintNumber k term)
      rw [hnumber] at hfound
      exact (hfound.map _).returns _
    | _ => exact accepts_pure _
  | _ => cases hd <;> exact accepts_pure _

/-- Whatever is asked of a handle, nothing is refused. -/
theorem accepts_call (what : Call) : (hd.call what).Accepts := by
  rcases what.kinds with ⟨key, v, hset⟩ | ⟨key, reading, hget⟩ | ⟨key, hsupports⟩ | hplain
  · rw [hd.call_of_set? hset]
    split
    · exact ((hd.slot key).accepts_writeNumber v).map _
    · exact accepts_pure _
  · rw [hd.call_of_get? hget]
    split
    · exact ((hd.slot key).accepts_answer reading).map _
    · exact accepts_pure _
  · rw [hd.call_of_supports? hsupports]
    exact accepts_pure _
  · exact hd.accepts_call_of_plain hplain

end Handle

/-! ## Requests -/

/-- Why a question is refused. -/
def Query.refusal? : Query → Option Refusal
  | .zonePath a | .zoneExists a | .constraintExists a _ | .constraintCount a
  | .zoneIndices a => a.refusal?
  | .attributePath a attr => attr.refusal? a
  | .zoneCount parent => parent.countRefusal?
  | .controlTypes | .raplSupported => none

/-- Why a one-shot access is refused. -/
def OneShot.refusal? : OneShot → Option Refusal
  | .readNumber a attr => attr.refusal? a
  | .writeNumber a attr _ => attr.writeRefusal? a
  | .controlTypeEnabled controlType | .setControlTypeEnabled controlType _ =>
    ({ controlType := controlType } : Address).refusal?
  | .zoneName a | .zoneEnabled a | .setZoneEnabled a _ | .resetZoneEnergy a
  | .constraintName a _ => a.refusal?
  | .packageCount | .raplEnabled | .setRaplEnabled _ => none

/-- Why a handle is not opened. -/
def Opening.refusal? : Opening → Option Refusal
  | .controlType name _ => ({ controlType := name } : Address).refusal?
  | .zone a _ | .constraint a _ _ => a.refusal?
  | .package _ _ => none

/-- Why a request is refused. -/
def Request.refusal? : Request → Option Refusal
  | .query q => q.refusal?
  | .oneShot o => o.refusal?
  | .openHandle _ what => what.refusal?
  | _ => none

theorem Query.isSome_refusal? (q : Query) : q.refusal?.isSome = true ↔ q.Misaddressed := by
  cases q with
  | attributePath a attr => exact a.isSome_attributeRefusal? attr
  | zoneCount parent => exact parent.isSome_countRefusal?
  | controlTypes | raplSupported => exact Bool.false_eq_true ▸ Iff.rfl
  | zonePath a | zoneExists a | constraintExists a _ | constraintCount a | zoneIndices a =>
    exact a.isSome_refusal?

theorem OneShot.isSome_refusal? (o : OneShot) : o.refusal?.isSome = true ↔ o.Misaddressed := by
  cases o with
  | readNumber a attr => exact a.isSome_attributeRefusal? attr
  | writeNumber a attr v => exact a.isSome_writeRefusal? attr
  | packageCount | raplEnabled | setRaplEnabled _ => exact Bool.false_eq_true ▸ Iff.rfl
  | controlTypeEnabled _ | setControlTypeEnabled _ _ | zoneName _ | zoneEnabled _
  | setZoneEnabled _ _ | resetZoneEnergy _ | constraintName _ _ =>
    exact Address.isSome_refusal? _

theorem Opening.isSome_refusal? (what : Opening) :
    what.refusal?.isSome = true ↔ what.Misaddressed := by
  cases what with
  | package id readOnly => exact Bool.false_eq_true ▸ Iff.rfl
  | controlType _ _ | zone _ _ | constraint _ _ _ => exact Address.isSome_refusal? _

/-- What is refused is what is wrong. -/
theorem Request.isSome_refusal? (r : Request) : r.refusal?.isSome = true ↔ r.Misaddressed := by
  cases r with
  | query q => exact q.isSome_refusal?
  | oneShot o => exact o.isSome_refusal?
  | openHandle name what => exact what.isSome_refusal?
  | _ => exact Bool.false_eq_true ▸ Iff.rfl

/-- RAPL and its packages are at addresses of which nothing is wrong. -/
theorem Request.refusal?_of_isRapl {r : Request} (h : r.isRapl = true) : r.refusal? = none := by
  cases r with
  | query q => cases q <;> first | rfl | cases h
  | oneShot o => cases o <;> first | rfl | cases h
  | openHandle name what => cases what <;> first | rfl | cases h
  | _ => rfl

theorem Reply.refuses_after {a : Action Unit} {why? : Option Refusal} (h : a.Refuses why?) :
    (Reply.after a).Refuses why? :=
  h.map _

section Requests

variable (t : Tree)

theorem Query.refuses_act (q : Query) : (q.act t).Refuses q.refusal? := by
  cases q with
  | zonePath a =>
    rw [refusal?, ← t.refusalOf_zonePath a]
    exact (refuses_ofExcept _).map _
  | attributePath a attr =>
    rw [refusal?, ← t.refusalOf_attributePath a attr]
    exact (refuses_ofExcept _).map _
  | zoneExists a => exact (refuses_query (t.refusalOf_zoneExists a)).map _
  | constraintExists a number =>
    exact (refuses_query fun fs => t.refusalOf_constraintExists a fs number).map _
  | zoneCount parent => exact (refuses_query (t.refusalOf_zoneCount parent)).map _
  | constraintCount a => exact (refuses_query (t.refusalOf_constraintCount a)).map _
  | zoneIndices a => exact (refuses_query (t.refusalOf_zoneIndices a)).map _
  | controlTypes => exact (refuses_query t.refusalOf_controlTypes).map _
  | raplSupported =>
    exact (refuses_query (t.refusalOf_zoneExists { controlType := raplControlType })).map _

theorem OneShot.refuses_act (o : OneShot) : (o.act t).Refuses o.refusal? := by
  have hswitch (controlType : String) :
      (t.readNumber { controlType := controlType } (.controlType .enabled)).Refuses
        ({ controlType := controlType } : Address).refusal? := by
    rw [← Address.attributeRefusal?_controlType controlType (.controlType .enabled)]
    exact t.refuses_readNumber _ _
  have hset (controlType : String) (v : UInt64) :
      (t.writeNumber { controlType := controlType } (.controlType .enabled) v).Refuses
        ({ controlType := controlType } : Address).refusal? := by
    rw [← Address.attributeRefusal?_controlType controlType (.controlType .enabled)]
    exact t.refuses_writeNumber _ _ v
  cases o with
  | readNumber a attr => exact (t.refuses_readNumber a attr).map _
  | writeNumber a attr v => exact Reply.refuses_after (t.refuses_writeNumber a attr v)
  | controlTypeEnabled controlType => exact ((hswitch controlType).map _).map _
  | setControlTypeEnabled controlType on => exact Reply.refuses_after (hset controlType _)
  | zoneName a => exact (t.refuses_readName a (.zone .name)).map _
  | zoneEnabled a => exact ((t.refuses_readNumber a (.zone .enabled)).map _).map _
  | setZoneEnabled a on => exact Reply.refuses_after (t.refuses_writeNumber a (.zone .enabled) _)
  | resetZoneEnergy a => exact Reply.refuses_after (t.refuses_writeNumber a (.zone .energy) _)
  | constraintName a number =>
    exact (t.refuses_readName a (.constraint number .name)).map _
  | packageCount => exact t.accepts_packageCount.map _
  | raplEnabled => exact ((hswitch raplControlType).map _).map _
  | setRaplEnabled on => exact Reply.refuses_after (hset raplControlType _)

theorem Opening.refuses_act (what : Opening) : (what.act t).Refuses what.refusal? := by
  cases what with
  | controlType name readOnly => exact (t.refuses_openControlType readOnly name).map _
  | zone a readOnly => exact (t.refuses_openZone a readOnly).map _
  | constraint a number readOnly => exact (t.refuses_openConstraint a readOnly number).map _
  | package id readOnly => exact (t.accepts_openPackage readOnly id).map _

/-- A request comes to its refusal, or to something else than a refusal. -/
theorem Request.refuses_act (handles : Handles) (r : Request) :
    (r.act t handles).Refuses r.refusal? := by
  have hrelease (name : String) : (handles.release name).Accepts :=
    accepts_of_closing (handles.run_release name)
  cases r with
  | query q => exact (q.refuses_act t).bind fun _ => accepts_pure _
  | oneShot o => exact (o.refuses_act t).bind fun _ => accepts_pure _
  | openHandle name what =>
    refine (what.refuses_act t).bind fun handle => ?_
    exact (hrelease name).bind fun _ => accepts_pure _
  | call name what =>
    simp only [act, refusal?]
    cases handles.lookup name with
    | none => exact accepts_pure _
    | some handle => exact (handle.accepts_call what).bind fun _ => accepts_pure _
  | drop name => exact (hrelease name).bind fun _ => accepts_pure _
  | edit e =>
    have hedit : (Action.edit e).Accepts := by
      intro host
      simp only [Action.edit]
      split <;> rfl
    exact hedit.bind fun _ => accepts_pure _
  | contents route =>
    have hcontents (fs : FileSystem) :
        refusalOf ((fs.contents route).mapError Failure.system) = none :=
      refusalOf_mapError fun _ => rfl
    exact (refuses_query hcontents).bind fun _ => accepts_pure _
  | openDescriptors => exact fun host => rfl

end Requests

/-! ## Sessions -/

namespace Session

variable {s : Session} {r : Request} {why : Refusal}

/-- A request that is refused leaves the session as it is, and makes no record. -/
theorem step_of_refusal? (h : r.refusal? = some why) :
    s.step r = (s, ⟨.error (.refused why), []⟩) := by
  have hrefuses := r.refuses_act s.tree s.handles
  rw [h] at hrefuses
  simp only [step, hrefuses s.host]

/-- A request is refused for what its arguments are refused for. -/
theorem result_step_refused :
    (s.step r).2.result = .error (.refused why) ↔ r.refusal? = some why := by
  constructor
  · intro hresult
    cases hrefusal : r.refusal? with
    | some why' =>
      rw [step_of_refusal? hrefusal] at hresult
      cases hresult
      rfl
    | none =>
      have haccepts := r.refuses_act s.tree s.handles
      rw [hrefusal] at haccepts
      have hnone := haccepts s.host
      -- the step fails with what the action failed with
      rcases hrun : (r.act s.tree s.handles).run s.host with ⟨e | answer, next, records⟩
      · rw [hrun] at hnone
        simp only [step, hrun] at hresult
        cases hresult
        cases hnone
      · simp only [step, hrun] at hresult
        cases hresult
  · intro h
    rw [step_of_refusal? h]

end Session

/-- **Arguments are judged by themselves.** In every session, a request is refused
just if something is wrong with its arguments. It is refused for the same reason in
every other session then, whatever its file system, its tree and its handles, and it
leaves the session as it is: nothing is opened, written or recorded. RAPL and its
packages never refuse anything. -/
theorem arguments_are_judged_alone (s : Session) (r : Request) :
    ((∃ why, (s.step r).2.result = .error (.refused why)) ↔ r.Misaddressed) ∧
    (∀ why, (s.step r).2.result = .error (.refused why) →
      ∀ s' : Session, s'.step r = (s', ⟨.error (.refused why), []⟩)) ∧
    (r.isRapl = true → ∀ why, (s.step r).2.result ≠ .error (.refused why)) := by
  refine ⟨?_, ?_, ?_⟩
  · rw [← r.isSome_refusal?, Option.isSome_iff_exists]
    exact exists_congr fun why => Session.result_step_refused
  · intro why hwhy s'
    exact Session.step_of_refusal? (Session.result_step_refused.mp hwhy)
  · intro hrapl why hwhy
    have hnone := r.refusal?_of_isRapl hrapl
    rw [Session.result_step_refused.mp hwhy] at hnone
    cases hnone

/-- A zone seventeen levels deep is not opened, on whatever file system. -/
example (s : Session) (readOnly : Bool) :
    (s.step (.openHandle "z" (.zone ⟨"dtpm", List.replicate 17 0⟩ readOnly))).2.result =
      .error (.refused (.tooDeep 17 16)) :=
  Session.result_step_refused.mpr rfl

end PowerZones
