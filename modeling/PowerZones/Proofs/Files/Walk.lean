import PowerZones.Files.Walk

/-!
# Walks go through where they lead

A walk of a route that goes on from another ends where the rest of it leads from
the end of the first part. Since links on the way are counted, what is left of the
bound on them depends on the first part alone.

* **`FileSystem.walk_induction`** is induction over a walk that leads somewhere:
  one case for its end, one for a step, and two for links.
* **`FileSystem.walk_append`** takes a walk apart, and
  **`FileSystem.walk_append_error`** says that one that fails is not saved by going on.
* **`FileSystem.walk_follow`**: following a link at the end makes no difference
  where there is none.
-/

namespace PowerZones.FileSystem

variable {fs : FileSystem} {caller : Caller} {followLast : Bool} {links : Nat}
  {segment : Segment} {segments rest : List Segment} {place next p : NodeId} {target : String}

@[simp] theorem walk_nil : fs.walk caller followLast links [] place = .ok place := by
  cases links <;> rfl

/-- Where the target of a link in a directory starts. -/
def targetStart (fs : FileSystem) (place : NodeId) (target : String) : NodeId :=
  if (Route.ofText target).absolute then fs.top else place

/-- A step to what is no link. -/
theorem walk_of_step (hstep : fs.step caller place segment = .ok next)
    (hlink : fs.link? next = none) :
    fs.walk caller followLast links (segment :: rest) place =
      fs.walk caller followLast links rest next := by
  cases links <;> simp [walk, walkWith, hstep, hlink]

/-- A step to a link that is followed, with one link more to be allowed. -/
theorem walk_of_link (hstep : fs.step caller place segment = .ok next)
    (hlink : fs.link? next = some target) (hfollow : rest = [] → followLast = true) :
    fs.walk caller followLast (links + 1) (segment :: rest) place =
      fs.walk caller followLast links ((Route.ofText target).segments ++ rest)
        (fs.targetStart place target) := by
  have hgo : ¬(rest = [] ∧ followLast = false) := fun h => by
    rw [hfollow h.1] at h
    exact absurd h.2 (by decide)
  simp only [walk, walkWith, hstep, hlink, if_neg hgo]
  rfl

/-- A step to a link at the end that is not followed. -/
theorem walk_of_last (hstep : fs.step caller place segment = .ok next)
    (hlink : fs.link? next = some target) :
    fs.walk caller false links [segment] place = .ok next := by
  cases links <;> simp [walk, walkWith, hstep, hlink]

theorem walk_of_error {e : OsError} (hstep : fs.step caller place segment = .error e) :
    fs.walk caller followLast links (segment :: rest) place = .error e := by
  cases links <;> simp [walk, walkWith, hstep]

/-- A step to a link that is one too many. -/
theorem walk_of_tooManyLinks (hstep : fs.step caller place segment = .ok next)
    (hlink : fs.link? next = some target) (hfollow : ¬(rest = [] ∧ followLast = false)) :
    fs.walk caller followLast 0 (segment :: rest) place = .error .tooManyLinks := by
  simp only [walk, walkWith, hstep, hlink, if_neg hfollow]

/-- What holds at the end of a walk, and of a walk if it holds of what remains of
it after its first step, holds of every walk that leads somewhere. -/
theorem walk_induction {P : Nat → List Segment → NodeId → NodeId → Prop}
    (done : ∀ links place, P links [] place place)
    (step : ∀ links segment rest place next p, fs.step caller place segment = .ok next →
      fs.link? next = none → P links rest next p → P links (segment :: rest) place p)
    (last : ∀ links segment place next, followLast = false →
      fs.step caller place segment = .ok next → (fs.link? next).isSome = true →
      P links [segment] place next)
    (link : ∀ links segment rest place next target p,
      fs.step caller place segment = .ok next → fs.link? next = some target →
      (rest = [] → followLast = true) →
      P links ((Route.ofText target).segments ++ rest) (fs.targetStart place target) p →
      P (links + 1) (segment :: rest) place p)
    (links : Nat) (segments : List Segment) (place p : NodeId)
    (h : fs.walk caller followLast links segments place = .ok p) :
    P links segments place p :=
  -- a link puts its target before the rest, but uses up one of the links allowed
  match segments with
  | [] => by
    obtain rfl := Except.ok.inj (walk_nil.symm.trans h)
    exact done links place
  | segment :: rest => by
    cases hstep : fs.step caller place segment with
    | error e =>
      rw [walk_of_error hstep] at h
      cases h
    | ok next =>
      cases hlink : fs.link? next with
      | none =>
        rw [walk_of_step hstep hlink] at h
        exact step links segment rest place next p hstep hlink
          (walk_induction done step last link links rest next p h)
      | some target =>
        by_cases hlast : rest = [] ∧ followLast = false
        · obtain ⟨rfl, rfl⟩ := hlast
          obtain rfl := Except.ok.inj ((walk_of_last hstep hlink).symm.trans h)
          exact last links segment place _ rfl hstep (by rw [hlink]; rfl)
        · cases links with
          | zero =>
            rw [walk_of_tooManyLinks hstep hlink hlast] at h
            cases h
          | succ links =>
            have hfollow : rest = [] → followLast = true := fun hrest => by
              cases hf : followLast with
              | true => rfl
              | false => exact absurd ⟨hrest, hf⟩ hlast
            rw [walk_of_link hstep hlink hfollow] at h
            exact link links segment rest place next target p hstep hlink hfollow
              (walk_induction done step last link links _ _ p h)
termination_by (links, segments.length)

/-- A walk goes on from where its first part has come to. -/
theorem walk_append (h : fs.walk caller true links segments place = .ok p) :
    ∃ left, ∀ rest, fs.walk caller true links (segments ++ rest) place =
      fs.walk caller true left rest p := by
  refine walk_induction (P := fun links segments place p => ∃ left, ∀ rest,
    fs.walk caller true links (segments ++ rest) place = fs.walk caller true left rest p)
    ?_ ?_ ?_ ?_ links segments place p h
  · exact fun links place => ⟨links, fun _ => rfl⟩
  · rintro links segment rest place next p hstep hlink ⟨left, hleft⟩
    exact ⟨left, fun more => (walk_of_step hstep hlink).trans (hleft more)⟩
  · exact fun _ _ _ _ hfollow => nomatch hfollow
  · rintro links segment rest place next target p hstep hlink - ⟨left, hleft⟩
    refine ⟨left, fun more => (walk_of_link hstep hlink fun _ => rfl).trans ?_⟩
    rw [← hleft more, List.append_assoc]
    rfl

/-- A walk that fails is not saved by going on. -/
theorem walk_append_error {e : OsError} (rest : List Segment) (links : Nat)
    (segments : List Segment) (place : NodeId)
    (h : fs.walk caller true links segments place = .error e) :
    fs.walk caller true links (segments ++ rest) place = .error e := by
  match segments, h with
  | [], h =>
    rw [walk_nil] at h
    cases h
  | segment :: more, h =>
    rw [List.cons_append]
    cases hstep : fs.step caller place segment with
    | error e' =>
      rw [walk_of_error hstep] at h ⊢
      exact h
    | ok next =>
      cases hlink : fs.link? next with
      | none =>
        rw [walk_of_step hstep hlink] at h ⊢
        exact walk_append_error rest links more next h
      | some target =>
        match links, h with
        | 0, h =>
          have hgo (l : List Segment) : ¬(l = [] ∧ true = false) := fun h => nomatch h.2
          rw [walk_of_tooManyLinks hstep hlink (hgo _)] at h ⊢
          exact h
        | links + 1, h =>
          rw [walk_of_link hstep hlink fun _ => rfl] at h ⊢
          rw [← List.append_assoc]
          exact walk_append_error rest links _ _ h
termination_by (links, segments.length)

/-- A walk that does not end at a link is the same whether such a link were
followed or not. -/
theorem walk_follow (h : fs.walk caller false links segments place = .ok p)
    (hp : fs.link? p = none) : fs.walk caller true links segments place = .ok p := by
  refine walk_induction (P := fun links segments place p => fs.link? p = none →
    fs.walk caller true links segments place = .ok p) ?_ ?_ ?_ ?_ links segments place p h hp
  · exact fun links place _ => walk_nil
  · exact fun links segment rest place next p hstep hlink ih hp =>
      (walk_of_step hstep hlink).trans (ih hp)
  · intro links segment place next _ _ hlink hp
    rw [hp] at hlink
    cases hlink
  · exact fun links segment rest place next target p hstep hlink _ ih hp =>
      (walk_of_link hstep hlink fun _ => rfl).trans (ih hp)

end PowerZones.FileSystem
