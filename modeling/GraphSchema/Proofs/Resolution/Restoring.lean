import Mathlib
import GraphSchema.Resolution.Resolver

/-!
# What resolutions put back

The types in progress and the nesting depth are changed at every level of a resolution and put
back at its end: a step that succeeds leaves both as it found them
(`Resolver.restores_resolveType`), whatever was in progress at its start, with any checker and any
recognizers.  A type that is met again while it is in progress stays so, because the answer to it
is a back-reference, which changes neither.

In between more types are in progress.  `Inquiry.Passes`, `Resolver.Tries` and `Resolver.Passes`
hold of the states that a resolution goes through, and `Resolver.nodup_of_passes` says that in none
of them a type is in progress twice.  So there are never more of them than there are types.
-/

namespace GraphSchema

variable {W τ σ ν α β : Type}

/-- A step leaves the types in progress and the nesting depth as it found them where it
succeeds. -/
def Resolution.Restores (step : Resolution W τ α) : Prop :=
  ∀ run result after, step run = .ok (result, after) →
    after.active = run.active ∧ after.depth = run.depth

namespace Resolution

variable {checker : Checker W τ σ ν}

theorem Restores.pure (result : α) : (Pure.pure result : Resolution W τ α).Restores := by
  intro run _ _ h
  cases h
  exact ⟨rfl, rfl⟩

theorem Restores.throw (stop : Stop) : (throw stop : Resolution W τ α).Restores := by
  intro run _ _ h
  cases h

theorem Restores.bind {step : Resolution W τ α} {rest : α → Resolution W τ β}
    (h : step.Restores) (hrest : ∀ result, (rest result).Restores) :
    (step >>= rest).Restores := by
  intro run result after hrun
  change (step run).bind _ = _ at hrun
  cases hstep : step run with
  | error stop =>
    rw [hstep] at hrun
    cases hrun
  | ok value =>
    rw [hstep] at hrun
    obtain ⟨hactive, hdepth⟩ := h run value.1 value.2 hstep
    obtain ⟨hactive', hdepth'⟩ := hrest value.1 value.2 result after hrun
    exact ⟨hactive'.trans hactive, hdepth'.trans hdepth⟩

theorem restores_report (event : Event τ) : (report event : Resolution W τ Unit).Restores := by
  intro run _ _ h
  cases h
  exact ⟨rfl, rfl⟩

theorem restores_ask (question : Question τ σ ν) : (ask checker question).Restores := by
  intro run result after h
  change (checker.reply question run.world).bind _ = _ at h
  cases hreply : checker.reply question run.world with
  | error stop =>
    rw [hreply] at h
    cases h
  | ok reply =>
    rw [hreply] at h
    cases h
    exact ⟨rfl, rfl⟩

theorem restores_symbolName (ty : τ) : (symbolName checker ty).Restores := by
  refine (restores_ask _).bind fun symbol => ?_
  cases symbol with
  | none => exact .pure _
  | some symbol => exact (restores_ask _).bind fun _ => .pure _

theorem restores_typeName (ty : τ) (node : ν) : (typeName checker ty node).Restores := by
  refine (restores_symbolName ty).bind fun name => ?_
  cases name with
  | none => exact restores_ask _
  | some name => exact .pure _

theorem restores_backReference (ty : τ) : (backReference checker ty).Restores :=
  (restores_symbolName ty).bind fun _ => (restores_report _).bind fun _ => .pure _

variable [DecidableEq τ]

/-- What a step does with a type marked as in progress. -/
theorem guarded_apply (ty : τ) (step : Resolution W τ (Option Schema)) (run : Run W τ) :
    guarded checker ty step run =
      if ty ∈ run.active then (some <$> backReference checker ty) run
      else (step { run with active := ty :: run.active }).bind fun result =>
        .ok (result.1, { result.2 with active := result.2.active.erase ty }) := by
  show (if ty ∈ run.active then _ else _ : Resolution W τ (Option Schema)) run = _
  split <;> rfl

/-- A type that is marked for a step is unmarked after it, and one that was marked before stays
marked. -/
theorem restores_guarded (ty : τ) {step : Resolution W τ (Option Schema)} (h : step.Restores) :
    (guarded checker ty step).Restores := by
  intro run result after hrun
  rw [guarded_apply] at hrun
  split at hrun
  · exact (restores_backReference ty).bind (fun _ => .pure _) run result after hrun
  · cases hstep : step { run with active := ty :: run.active } with
    | error stop =>
      rw [hstep] at hrun
      cases hrun
    | ok value =>
      rw [hstep] at hrun
      cases hrun
      obtain ⟨hactive, hdepth⟩ := h _ value.1 value.2 hstep
      refine ⟨?_, hdepth⟩
      show value.2.active.erase ty = run.active
      rw [hactive, List.erase_cons_head]

/-- An inquiry restores what nested resolutions restore. -/
theorem restores_carryOut {nested : τ → Resolution W τ Schema}
    (hnested : ∀ ty, (nested ty).Restores) (inquiry : Inquiry τ σ ν α) :
    (inquiry.carryOut checker nested).Restores := by
  induction inquiry with
  | done result => exact .pure _
  | ask question next ih => exact (restores_ask question).bind ih
  | resolve ty next ih => exact (hnested ty).bind ih
  | guarded ty body next ihbody ih => exact (restores_guarded ty ihbody).bind ih
  | exhausted => exact .throw _

end Resolution

namespace Resolver

variable [DecidableEq τ] {resolver : Resolver W τ σ ν}

open Resolution (Restores restores_report restores_guarded restores_carryOut restores_ask
  restores_typeName)

theorem restores_dispatch {nested : τ → Resolution W τ Schema}
    (hnested : ∀ ty, (nested ty).Restores) (fuel : Nat) (location : ν) (ty : τ)
    (title : Option String) (registry : Registry τ σ ν) :
    (resolver.dispatch nested fuel location ty title registry).Restores := by
  induction registry with
  | nil => exact (restores_report _).bind fun _ => .pure _
  | cons recognizer rest ih =>
    refine (restores_carryOut hnested _).bind fun claimed => ?_
    cases claimed with
    | none => exact ih
    | some schema => exact (restores_report _).bind fun _ => .pure _

/-- What a resolution does from a run on: the depth is put back at its end. -/
theorem resolveType_succ (resolver : Resolver W τ σ ν) (fuel : Nat) (location : ν) (ty : τ)
    (title : Option String) (run : Run W τ) :
    resolver.resolveType (fuel + 1) location ty title run =
      if resolver.options.maxDepth ≤ run.depth then
        .ok (.any title, { run with log := .depthLimit ty run.depth :: run.log })
      else
        (Resolution.guarded resolver.checker ty
          (resolver.dispatch (fun ty => resolver.resolveType fuel location ty none) fuel location
            ty title resolver.registry >>= fun schema => pure (some schema))
          { run with depth := run.depth + 1 }).bind fun result =>
            .ok (result.1.getD (.any none), { result.2 with depth := run.depth }) := by
  rw [Resolver.resolveType]
  show (if _ then _ else _ : Resolution W τ Schema) run = _
  split
  · rfl
  · rfl

/-- A resolution that ends leaves the types in progress and the depth as it found them. -/
theorem restores_resolveType (fuel : Nat) (location : ν) (ty : τ) (title : Option String) :
    (resolver.resolveType fuel location ty title).Restores := by
  induction fuel generalizing ty title with
  | zero => exact .throw _
  | succ fuel ih =>
    intro run schema after hrun
    rw [resolveType_succ] at hrun
    split at hrun
    · cases hrun
      exact ⟨rfl, rfl⟩
    · have hdispatch : (resolver.dispatch _ fuel location ty title resolver.registry).Restores :=
        restores_dispatch (fun ty => ih ty none) fuel location ty title resolver.registry
      have hguarded : (Resolution.guarded resolver.checker ty _).Restores :=
        restores_guarded ty (hdispatch.bind fun schema => .pure (some schema))
      cases hstep : Resolution.guarded resolver.checker ty _ { run with depth := run.depth + 1 }
        with
      | error stop =>
        rw [hstep] at hrun
        cases hrun
      | ok value =>
        rw [hstep] at hrun
        cases hrun
        exact ⟨(hguarded _ value.1 value.2 hstep).1, rfl⟩

end Resolver

/-! ## The states in between -/

variable [DecidableEq τ]

/-- Carrying out an inquiry from one state on goes through another.  `nested` resolves nested
types and `inner` says which states that goes through. -/
inductive Inquiry.Passes (checker : Checker W τ σ ν) (nested : τ → Resolution W τ Schema)
    (inner : τ → Run W τ → Run W τ → Prop) :
    {α : Type} → Inquiry τ σ ν α → Run W τ → Run W τ → Prop where
  | start {α : Type} (inquiry : Inquiry τ σ ν α) (run : Run W τ) :
      Passes checker nested inner inquiry run run
  | answered {α : Type} {question : Question τ σ ν} {next : question.Answer → Inquiry τ σ ν α}
      {run after moment : Run W τ} {answer : question.Answer}
      (hask : Resolution.ask checker question run = .ok (answer, after))
      (h : Passes checker nested inner (next answer) after moment) :
      Passes checker nested inner (.ask question next) run moment
  | resolving {α : Type} {ty : τ} {next : Schema → Inquiry τ σ ν α} {run moment : Run W τ}
      (h : inner ty run moment) : Passes checker nested inner (.resolve ty next) run moment
  | resolved {α : Type} {ty : τ} {next : Schema → Inquiry τ σ ν α} {run after moment : Run W τ}
      {schema : Schema} (hnested : nested ty run = .ok (schema, after))
      (h : Passes checker nested inner (next schema) after moment) :
      Passes checker nested inner (.resolve ty next) run moment
  | entered {α : Type} {ty : τ} {body : Inquiry τ σ ν (Option Schema)}
      {next : Option Schema → Inquiry τ σ ν α} {run moment : Run W τ} (hnew : ty ∉ run.active)
      (h : Passes checker nested inner body { run with active := ty :: run.active } moment) :
      Passes checker nested inner (.guarded ty body next) run moment
  | left {α : Type} {ty : τ} {body : Inquiry τ σ ν (Option Schema)}
      {next : Option Schema → Inquiry τ σ ν α} {run after moment : Run W τ}
      {claimed : Option Schema}
      (hguarded : Resolution.guarded checker ty (body.carryOut checker nested) run =
        .ok (claimed, after))
      (h : Passes checker nested inner (next claimed) after moment) :
      Passes checker nested inner (.guarded ty body next) run moment

namespace Resolver

/-- Trying recognizers one after the other goes through a state. -/
inductive Tries (resolver : Resolver W τ σ ν) (nested : τ → Resolution W τ Schema)
    (inner : τ → Run W τ → Run W τ → Prop) (fuel : Nat) (location : ν) (ty : τ) :
    Registry τ σ ν → Run W τ → Run W τ → Prop where
  | trying {recognizer : Recognizer τ σ ν} {rest : Registry τ σ ν} {run moment : Run W τ}
      (h : (recognizer.recognize fuel ⟨resolver.options, location⟩ ty).Passes resolver.checker
        nested inner run moment) :
      Tries resolver nested inner fuel location ty (recognizer :: rest) run moment
  | declined {recognizer : Recognizer τ σ ν} {rest : Registry τ σ ν}
      {run after moment : Run W τ}
      (hcall : (recognizer.recognize fuel ⟨resolver.options, location⟩ ty).carryOut
        resolver.checker nested run = .ok (none, after))
      (h : Tries resolver nested inner fuel location ty rest after moment) :
      Tries resolver nested inner fuel location ty (recognizer :: rest) run moment

/-- The resolution of a type from one state on goes through another.  The state at its end is not
listed, as it has the same types in progress as the one at its start (`restores_resolveType`). -/
def Passes (resolver : Resolver W τ σ ν) (location : ν) :
    Nat → τ → Run W τ → Run W τ → Prop
  | 0, _, run, moment => moment = run
  | fuel + 1, ty, run, moment => moment = run ∨
      run.depth < resolver.options.maxDepth ∧ ty ∉ run.active ∧
        resolver.Tries (fun ty => resolver.resolveType fuel location ty none)
          (Passes resolver location fuel) fuel location ty resolver.registry
          { run with active := ty :: run.active, depth := run.depth + 1 } moment

/-- The resolution of a site from one state on goes through another.  Of the states in which the
checker is asked for the type and the name only the first two are listed, and the state at the end
is not; these have the same types in progress as the first one. -/
def PassesNode (resolver : Resolver W τ σ ν) (fuel : Nat) (node : ν) (run moment : Run W τ) :
    Prop :=
  moment = run ∨ ∃ ty asked,
    Resolution.ask resolver.checker (.siteType node) run = .ok (ty, asked) ∧
    (moment = asked ∨ ∃ name named,
      Resolution.typeName resolver.checker ty node asked = .ok (name, named) ∧
      resolver.Passes node fuel ty { named with log := .started ty name :: named.log } moment)

variable {resolver : Resolver W τ σ ν} {location : ν}

theorem nodup_of_inquiry {nested : τ → Resolution W τ Schema}
    {inner : τ → Run W τ → Run W τ → Prop} {inquiry : Inquiry τ σ ν α} {run moment : Run W τ}
    (hnested : ∀ ty, (nested ty).Restores)
    (hinner : ∀ ty run moment, inner ty run moment → run.active.Nodup → moment.active.Nodup)
    (h : inquiry.Passes resolver.checker nested inner run moment) (hrun : run.active.Nodup) :
    moment.active.Nodup := by
  induction h with
  | start => exact hrun
  | answered hask _ ih =>
    rw [← (Resolution.restores_ask _ _ _ _ hask).1] at hrun
    exact ih hrun
  | resolving h => exact hinner _ _ _ h hrun
  | resolved hresolved _ ih =>
    rw [← (hnested _ _ _ _ hresolved).1] at hrun
    exact ih hrun
  | entered hnew _ ih => exact ih (List.nodup_cons.mpr ⟨hnew, hrun⟩)
  | @left _ ty body _ _ _ _ _ hguarded _ ih =>
    have hbody : (body.carryOut resolver.checker nested).Restores :=
      Resolution.restores_carryOut hnested body
    rw [← (Resolution.restores_guarded ty hbody _ _ _ hguarded).1] at hrun
    exact ih hrun

theorem nodup_of_tries {nested : τ → Resolution W τ Schema}
    {inner : τ → Run W τ → Run W τ → Prop} {fuel : Nat} {ty : τ} {registry : Registry τ σ ν}
    {run moment : Run W τ} (hnested : ∀ ty, (nested ty).Restores)
    (hinner : ∀ ty run moment, inner ty run moment → run.active.Nodup → moment.active.Nodup)
    (h : resolver.Tries nested inner fuel location ty registry run moment)
    (hrun : run.active.Nodup) : moment.active.Nodup := by
  induction h with
  | trying h => exact nodup_of_inquiry hnested hinner h hrun
  | declined hcall _ ih =>
    rw [← (Resolution.restores_carryOut hnested _ _ _ _ hcall).1] at hrun
    exact ih hrun

/-- No state that a resolution goes through has a type in progress twice. -/
theorem nodup_of_passes {fuel : Nat} {ty : τ} {run moment : Run W τ}
    (h : resolver.Passes location fuel ty run moment) (hrun : run.active.Nodup) :
    moment.active.Nodup := by
  induction fuel generalizing ty run moment with
  | zero => exact (show moment = run from h) ▸ hrun
  | succ fuel ih =>
    rcases h with rfl | ⟨-, hnew, htries⟩
    · exact hrun
    · exact nodup_of_tries (fun ty => restores_resolveType fuel location ty none)
        (fun _ _ _ => ih) htries (List.nodup_cons.mpr ⟨hnew, hrun⟩)

theorem nodup_of_passesNode {fuel : Nat} {node : ν} {run moment : Run W τ}
    (h : resolver.PassesNode fuel node run moment) (hrun : run.active.Nodup) :
    moment.active.Nodup := by
  rcases h with rfl | ⟨ty, asked, hasked, h⟩
  · exact hrun
  have hask : (Resolution.ask resolver.checker (.siteType node)).Restores :=
    Resolution.restores_ask _
  rw [← (hask _ _ _ hasked).1] at hrun
  rcases h with rfl | ⟨name, named, hnamed, h⟩
  · exact hrun
  have hname : (Resolution.typeName resolver.checker ty node).Restores :=
    Resolution.restores_typeName ty node
  rw [← (hname _ _ _ hnamed).1] at hrun
  exact nodup_of_passes h hrun

end Resolver

end GraphSchema
