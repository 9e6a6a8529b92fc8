import Mathlib
import GraphSchema.Proofs.Inheritance
import GraphSchema.Proofs.Outcomes
import GraphSchema.Proofs.Resolution.Claims
import GraphSchema.Proofs.Resolution.Restoring
import GraphSchema.Recognition.Described

/-!
# Appending recognizers

The first recognizer that claims a type wins, and nested types go through all recognizers again.  So
recognizers that are appended to a registry come into play exactly where none of the earlier ones
claims a type, at whatever depth that is, and there the resolution reports that no recognizer
matched.

**Main statement.**  `Resolver.append_resolves_alike`: a resolution that reports no such event
returns the same schema, in the same state, with any recognizers appended.

Two resolutions are compared step by step.  The log of the first says whether the second may differ,
so `Resolution.AgreesUnless` speaks of the events that a step adds, as `Resolution.YieldsUnless`
does; it has a rule for each way to build steps, and the run lemma is by induction on the bound for
nested calls.
-/

namespace GraphSchema

variable {W τ σ ν α β : Type}

/-! ## Steps that agree -/

/-- No recognizer has claimed a type. -/
def Event.IsUnrecognized (event : Event τ) : Prop := ∃ ty title, event = .unrecognized ty title

/-- A step only adds to the log, and another step has the same result and leaves the same state,
unless an event that the first one adds excuses it. -/
def Resolution.AgreesUnless (excuse : Event τ → Prop) (step step' : Resolution W τ α) : Prop :=
  ∀ run result after, step run = .ok (result, after) →
    ∃ events, after.log = events ++ run.log ∧
      ((∀ event ∈ events, ¬ excuse event) → step' run = .ok (result, after))

namespace Resolution

variable {checker : Checker W τ σ ν} {excuse : Event τ → Prop}

/-- A step that only adds to the log agrees with itself. -/
theorem YieldsUnless.agrees {step : Resolution W τ α}
    (h : step.YieldsUnless excuse fun _ => True) : step.AgreesUnless excuse step := by
  intro run result after hrun
  obtain ⟨events, hlog, -⟩ := h run result after hrun
  exact ⟨events, hlog, fun _ => hrun⟩

theorem AgreesUnless.pure (result : α) :
    (Pure.pure result : Resolution W τ α).AgreesUnless excuse (Pure.pure result) :=
  YieldsUnless.agrees (.pure trivial)

theorem AgreesUnless.throw (stop : Stop) (step' : Resolution W τ α) :
    (throw stop : Resolution W τ α).AgreesUnless excuse step' := by
  intro run _ _ hrun
  cases hrun

theorem agreesUnless_report (event : Event τ) :
    (report event : Resolution W τ Unit).AgreesUnless excuse (report event) :=
  ((yieldsUnless_report event).mono fun _ _ => trivial).agrees

/-- Steps after steps that agree: the second is only asked to go on from where the first one is. -/
theorem AgreesUnless.bind {step step' : Resolution W τ α} {rest rest' : α → Resolution W τ β}
    (h : step.AgreesUnless excuse step')
    (hrest : ∀ result, (rest result).AgreesUnless excuse (rest' result)) :
    (step >>= rest).AgreesUnless excuse (step' >>= rest') := by
  intro run result after hrun
  obtain ⟨value, hstep, hlast⟩ := exists_of_bind_eq_ok hrun
  obtain ⟨events, hevents, hagree⟩ := h run value.1 value.2 hstep
  obtain ⟨later, hlater, hagreeLater⟩ := hrest value.1 value.2 result after hlast
  refine ⟨later ++ events, by rw [hlater, hevents, List.append_assoc], fun hquiet => ?_⟩
  obtain ⟨hquietLater, hquietFirst⟩ := List.forall_mem_append.mp hquiet
  have hstep' : step' run = .ok value := hagree hquietFirst
  show (step' run >>= fun value => rest' value.1 value.2) = .ok (result, after)
  rw [hstep', ok_bind]
  exact hagreeLater hquietLater

/-- What agreement says of the events of a run, in the order in which they happen. -/
theorem AgreesUnless.of_run {step step' : Resolution W τ α}
    (h : step.AgreesUnless Event.IsUnrecognized step') {run after : Run W τ} {result : α}
    (hrun : step run = .ok (result, after)) :
    ∃ events, after.events = run.events ++ events ∧
      ((∀ ty title, .unrecognized ty title ∉ events) → step' run = .ok (result, after)) := by
  obtain ⟨events, hlog, hagree⟩ := h run result after hrun
  refine ⟨events.reverse, ?_, fun hquiet => hagree ?_⟩
  · rw [Run.events, Run.events, hlog, List.reverse_append]
  · rintro event hevent ⟨ty, title, rfl⟩
    exact hquiet ty title (List.mem_reverse.mpr hevent)

variable [DecidableEq τ]

theorem AgreesUnless.guarded {ty : τ} {step step' : Resolution W τ (Option Schema)}
    (h : step.AgreesUnless excuse step') :
    (guarded checker ty step).AgreesUnless excuse (guarded checker ty step') := by
  intro run result after hrun
  by_cases hactive : ty ∈ run.active
  · -- The step is not carried out, so nothing can differ.
    have hguarded : Resolution.guarded checker ty step' run =
        Resolution.guarded checker ty step run := by
      rw [guarded_apply, guarded_apply, if_pos hactive, if_pos hactive]
    have hback : (some <$> backReference checker ty : Resolution W τ (Option Schema)).YieldsUnless
        excuse fun _ => True := by
      rw [backReference, map_eq_pure_bind, bind_assoc]
      refine (yieldsUnless_symbolName ty).after fun name => ?_
      rw [bind_assoc]
      exact ((yieldsUnless_report _).mono fun _ _ => trivial).after fun _ => .pure trivial
    rw [hguarded]
    rw [guarded_apply, if_pos hactive] at hrun ⊢
    exact hback.agrees run result after hrun
  · rw [guarded_apply, if_neg hactive] at hrun
    obtain ⟨value, hstep, hlast⟩ := exists_of_bind_eq_ok hrun
    cases hlast
    obtain ⟨events, hevents, hagree⟩ := h _ value.1 value.2 hstep
    refine ⟨events, hevents, fun hquiet => ?_⟩
    have hstep' : step' { run with active := ty :: run.active } = .ok value := hagree hquiet
    rw [guarded_apply, if_neg hactive, hstep']
    rfl

/-- An inquiry has the same result where the nested resolutions agree. -/
theorem agreesUnless_carryOut {nested nested' : τ → Resolution W τ Schema}
    (hnested : ∀ ty, (nested ty).AgreesUnless excuse (nested' ty)) (inquiry : Inquiry τ σ ν α) :
    (inquiry.carryOut checker nested).AgreesUnless excuse (inquiry.carryOut checker nested') := by
  induction inquiry with
  | done result => exact .pure _
  | ask question next ih => exact (yieldsUnless_ask question).agrees.bind ih
  | resolve ty next ih => exact (hnested ty).bind ih
  | guarded ty body next ihbody ih => exact ihbody.guarded.bind ih
  | exhausted => exact .throw _ _

end Resolution

/-! ## Resolutions that agree -/

namespace Resolver

open Resolution (AgreesUnless agreesUnless_carryOut agreesUnless_report yieldsUnless_ask
  yieldsUnless_typeName)

variable {resolver : Resolver W τ σ ν}

/-- The resolver that tries more recognizers after its own. -/
def append (resolver : Resolver W τ σ ν) (more : Registry τ σ ν) : Resolver W τ σ ν :=
  { resolver with registry := resolver.registry ++ more }

@[simp] theorem append_checker (more : Registry τ σ ν) :
    (resolver.append more).checker = resolver.checker := rfl

@[simp] theorem append_options (more : Registry τ σ ν) :
    (resolver.append more).options = resolver.options := rfl

@[simp] theorem append_registry (more : Registry τ σ ν) :
    (resolver.append more).registry = resolver.registry ++ more := rfl

variable [DecidableEq τ]

/-- The recognizers at the end are tried only after none of the others has claimed the type. -/
theorem agreesUnless_dispatch {nested nested' : τ → Resolution W τ Schema}
    (hnested : ∀ ty, (nested ty).AgreesUnless Event.IsUnrecognized (nested' ty)) (fuel : Nat)
    (location : ν) (ty : τ) (title : Option String) (registry more : Registry τ σ ν) :
    (resolver.dispatch nested fuel location ty title registry).AgreesUnless Event.IsUnrecognized
      ((resolver.append more).dispatch nested' fuel location ty title (registry ++ more)) := by
  induction registry with
  | nil =>
    -- This is where the two part, and the event that says so is in the log.
    intro run schema after hrun
    cases hrun
    refine ⟨[.unrecognized ty title], rfl, fun hquiet => ?_⟩
    exact absurd ⟨ty, title, rfl⟩ (hquiet _ List.mem_cons_self)
  | cons recognizer rest ih =>
    refine (agreesUnless_carryOut hnested _).bind fun claimed => ?_
    cases claimed with
    | none => exact ih
    | some schema => exact (agreesUnless_report _).bind fun _ => .pure schema

theorem agreesUnless_resolveType (more : Registry τ σ ν) (fuel : Nat) (location : ν) (ty : τ)
    (title : Option String) :
    (resolver.resolveType fuel location ty title).AgreesUnless Event.IsUnrecognized
      ((resolver.append more).resolveType fuel location ty title) := by
  induction fuel generalizing ty title with
  | zero => exact .throw _ _
  | succ fuel ih =>
    intro run schema after hrun
    rw [resolveType_succ] at hrun
    rw [resolveType_succ]
    by_cases hdepth : resolver.options.maxDepth ≤ run.depth
    · rw [if_pos hdepth] at hrun
      rw [append_options, if_pos hdepth]
      cases hrun
      exact ⟨[.depthLimit ty run.depth], rfl, fun _ => rfl⟩
    · rw [if_neg hdepth] at hrun
      rw [append_options, if_neg hdepth]
      have hdispatch : (resolver.dispatch (fun ty => resolver.resolveType fuel location ty none)
          fuel location ty title resolver.registry).AgreesUnless Event.IsUnrecognized _ :=
        agreesUnless_dispatch (fun ty => ih ty none) fuel location ty title resolver.registry more
      have hguarded : (Resolution.guarded resolver.checker ty _).AgreesUnless Event.IsUnrecognized
          (Resolution.guarded resolver.checker ty _) :=
        (hdispatch.bind fun schema => .pure (some schema)).guarded
      obtain ⟨value, hstep, hlast⟩ := exists_of_bind_eq_ok hrun
      cases hlast
      obtain ⟨events, hevents, hagree⟩ := hguarded _ value.1 value.2 hstep
      refine ⟨events, hevents, fun hquiet => ?_⟩
      rw [append_checker, append_registry, hagree hquiet]
      rfl

theorem agreesUnless_resolveNode (more : Registry τ σ ν) (fuel : Nat) (node : ν) :
    (resolver.resolveNode fuel node).AgreesUnless Event.IsUnrecognized
      ((resolver.append more).resolveNode fuel node) := by
  refine (yieldsUnless_ask _).agrees.bind fun ty => ?_
  refine (yieldsUnless_typeName ty node).agrees.bind fun name => ?_
  refine (agreesUnless_report _).bind fun _ => ?_
  exact agreesUnless_resolveType more fuel node ty name

/-- A resolution that comes to an end and does not report that no recognizer matched has the same
result with any recognizers appended, be it the resolution of a type, from any state on, or of a
site.  The state after it is the same as well, and so are all events. -/
theorem append_resolves_alike (resolver : Resolver W τ σ ν) (more : Registry τ σ ν) (fuel : Nat) :
    (∀ location ty title run schema after,
      resolver.resolveType fuel location ty title run = .ok (schema, after) →
      ∃ events, after.events = run.events ++ events ∧
        ((∀ ty title, .unrecognized ty title ∉ events) →
          (resolver.append more).resolveType fuel location ty title run =
            .ok (schema, after))) ∧
    ∀ node run schema after, resolver.resolveNode fuel node run = .ok (schema, after) →
      ∃ events, after.events = run.events ++ events ∧
        ((∀ ty title, .unrecognized ty title ∉ events) →
          (resolver.append more).resolveNode fuel node run = .ok (schema, after)) := by
  constructor
  · intro location ty title run schema after hrun
    exact (agreesUnless_resolveType more fuel location ty title).of_run hrun
  · intro node run schema after hrun
    exact (agreesUnless_resolveNode more fuel node).of_run hrun

end Resolver

namespace Table

/-- A resolver that takes a type with a child for that child. -/
def parental : Resolver Unit (Fin 3) (Symbol 3) (Site 3) where
  checker := childOfOwnChild.checker
  registry := Registry.ofRules [.intrinsic, .member "child", .object]
  options := {}

/-- The child of a `Base` has the `Base`, which is in progress, for its base type, and every type on
the way is recognized. -/
theorem exists_child : ∃ outcome, parental.resolveNode 3 ⟨0, none⟩ (.fresh ()) = .ok outcome ∧
    outcome.1.title? = some "Derived" ∧ outcome.2.events =
      [.started 0 (some "Base"), .recursion 0 (some "Base"), .recognized "intrinsic" 2,
        .recognized "object" 1, .recognized "member" 0] := by
  have hany : (parental.resolveNode 3 ⟨0, none⟩ (.fresh ())).toOption.any (fun outcome =>
      outcome.1.title? = some "Derived" ∧ outcome.2.events =
        [.started 0 (some "Base"), .recursion 0 (some "Base"), .recognized "intrinsic" 2,
          .recognized "object" 1, .recognized "member" 0]) = true := by
    decide +kernel
  obtain ⟨outcome, hsome, hchild⟩ := Option.any_eq_true _ _ |>.mp hany
  exact ⟨outcome, toOption_eq_some_iff.mp hsome, of_decide_eq_true hchild⟩

/-- Recognizers that claim every type and every application make no difference to what is read of
that `Base` where they come last. -/
theorem append_resolves_alike_child :
    ∃ schema after, parental.resolveNode 3 ⟨0, none⟩ (.fresh ()) = .ok (schema, after) ∧
      schema.title? = some "Derived" ∧
      (parental.append (Registry.ofRules [.const (.any none), .args])).resolveNode 3 ⟨0, none⟩
        (.fresh ()) = .ok (schema, after) := by
  obtain ⟨⟨schema, after⟩, hrun, htitle, hlogged⟩ := exists_child
  obtain ⟨events, hevents, hagree⟩ := (parental.append_resolves_alike
    (Registry.ofRules [.const (.any none), .args]) 3).2 ⟨0, none⟩ (.fresh ()) _ _ hrun
  refine ⟨schema, after, hrun, htitle, hagree ?_⟩
  rw [show events = _ from hevents.symm.trans hlogged]
  simp

end Table

end GraphSchema
