import Mathlib
import GraphSchema.Proofs.Outcomes
import GraphSchema.Proofs.Resolution.Restoring

/-!
# What resolutions keep

A resolution changes the world of its checker only by putting questions.  So whatever holds of a
world and is kept by every reply holds after any resolution, of any type, with any recognizers,
whether these are shipped or not: `Resolver.keeps_resolveType` and `Resolver.keeps_resolveNode`.
The same goes for what holds in the middle of a resolution, which has the rest of its questions
still ahead (`Resolver.keeps_of_passes`).
-/

namespace GraphSchema

variable {W τ σ ν α β : Type}

/-- Every reply of a checker leaves a world with this property. -/
def Checker.Keeps (checker : Checker W τ σ ν) (property : W → Prop) : Prop :=
  ∀ question world reply, property world → checker.reply question world = .ok reply →
    property reply.world

/-- A step leaves a world with this property where it succeeds. -/
def Resolution.Keeps (step : Resolution W τ α) (property : W → Prop) : Prop :=
  ∀ run result after, property run.world → step run = .ok (result, after) → property after.world

namespace Resolution

variable {checker : Checker W τ σ ν} {property : W → Prop}

theorem Keeps.pure (result : α) : (Pure.pure result : Resolution W τ α).Keeps property := by
  intro run _ _ hworld h
  cases h
  exact hworld

theorem Keeps.throw (stop : Stop) : (throw stop : Resolution W τ α).Keeps property := by
  intro run _ _ _ h
  cases h

theorem Keeps.bind {step : Resolution W τ α} {rest : α → Resolution W τ β}
    (h : step.Keeps property) (hrest : ∀ result, (rest result).Keeps property) :
    (step >>= rest).Keeps property := by
  intro run result after hworld hrun
  cases hstep : step run with
  | error stop =>
    rw [show (step >>= rest) run = (step run).bind _ from rfl, hstep] at hrun
    cases hrun
  | ok value =>
    rw [show (step >>= rest) run = (step run).bind _ from rfl, hstep] at hrun
    exact hrest value.1 value.2 result after (h run value.1 value.2 hworld hstep) hrun

theorem Keeps.get : (get : Resolution W τ (Run W τ)).Keeps property := by
  intro run _ _ hworld h
  cases h
  exact hworld

/-- A change of the run that leaves its world alone. -/
theorem Keeps.modify {change : Run W τ → Run W τ} (h : ∀ run, (change run).world = run.world) :
    (modify change : Resolution W τ Unit).Keeps property := by
  intro run _ _ hworld hrun
  cases hrun
  rwa [h]

theorem keeps_report (event : Event τ) :
    (report event : Resolution W τ Unit).Keeps property :=
  .modify fun _ => rfl

theorem keeps_ask (hchecker : checker.Keeps property) (question : Question τ σ ν) :
    (ask checker question).Keeps property := by
  intro run result after hworld hrun
  cases hreply : checker.reply question run.world with
  | error stop =>
    rw [show ask checker question run = (checker.reply question run.world).bind _ from rfl,
      hreply] at hrun
    cases hrun
  | ok reply =>
    rw [show ask checker question run = (checker.reply question run.world).bind _ from rfl,
      hreply] at hrun
    cases hrun
    exact hchecker question run.world reply hworld hreply

theorem keeps_symbolName (hchecker : checker.Keeps property) (ty : τ) :
    (symbolName checker ty).Keeps property := by
  refine (keeps_ask hchecker _).bind fun symbol => ?_
  cases symbol with
  | none => exact .pure _
  | some symbol => exact (keeps_ask hchecker _).bind fun _ => .pure _

theorem keeps_typeName (hchecker : checker.Keeps property) (ty : τ) (node : ν) :
    (typeName checker ty node).Keeps property := by
  refine (keeps_symbolName hchecker ty).bind fun name => ?_
  cases name with
  | none => exact keeps_ask hchecker _
  | some name => exact .pure _

theorem keeps_backReference (hchecker : checker.Keeps property) (ty : τ) :
    (backReference checker ty).Keeps property :=
  (keeps_symbolName hchecker ty).bind fun _ => (keeps_report _).bind fun _ => .pure _

variable [DecidableEq τ]

theorem keeps_guarded (hchecker : checker.Keeps property) (ty : τ)
    {step : Resolution W τ (Option Schema)} (h : step.Keeps property) :
    (guarded checker ty step).Keeps property := by
  refine Keeps.get.bind fun run => ?_
  split
  · exact (keeps_backReference hchecker ty).bind fun _ => .pure _
  · refine .bind (.modify fun _ => by rfl) fun _ => h.bind fun schema => ?_
    exact .bind (.modify fun _ => by rfl) fun _ => .pure _

/-- An inquiry keeps what questions and nested resolutions keep. -/
theorem keeps_carryOut (hchecker : checker.Keeps property) {nested : τ → Resolution W τ Schema}
    (hnested : ∀ ty, (nested ty).Keeps property) (inquiry : Inquiry τ σ ν α) :
    (inquiry.carryOut checker nested).Keeps property := by
  induction inquiry with
  | done result => exact .pure _
  | ask question next ih => exact (keeps_ask hchecker question).bind ih
  | resolve ty next ih => exact (hnested ty).bind ih
  | guarded ty body next ihbody ih => exact (keeps_guarded hchecker ty ihbody).bind ih
  | exhausted => exact .throw _

end Resolution

namespace Resolver

variable [DecidableEq τ] {resolver : Resolver W τ σ ν} {property : W → Prop}

open Resolution (Keeps keeps_report keeps_guarded keeps_carryOut keeps_ask keeps_typeName)

theorem keeps_dispatch (hchecker : resolver.checker.Keeps property)
    {nested : τ → Resolution W τ Schema} (hnested : ∀ ty, (nested ty).Keeps property)
    (fuel : Nat) (location : ν) (ty : τ) (title : Option String) (registry : Registry τ σ ν) :
    (resolver.dispatch nested fuel location ty title registry).Keeps property := by
  induction registry with
  | nil => exact (keeps_report _).bind fun _ => .pure _
  | cons recognizer rest ih =>
    refine (keeps_carryOut hchecker hnested _).bind fun claimed => ?_
    cases claimed with
    | none => exact ih
    | some schema => exact (keeps_report _).bind fun _ => .pure _

theorem keeps_resolveType (hchecker : resolver.checker.Keeps property) (fuel : Nat)
    (location : ν) (ty : τ) (title : Option String) :
    (resolver.resolveType fuel location ty title).Keeps property := by
  induction fuel generalizing ty title with
  | zero => exact .throw _
  | succ fuel ih =>
    refine Keeps.get.bind fun run => ?_
    dsimp only
    split
    · exact (keeps_report _).bind fun _ => .pure _
    · refine .bind (.modify fun _ => by rfl) fun _ => ?_
      refine .bind (keeps_guarded hchecker ty ?_) fun _ =>
        .bind (.modify fun _ => by rfl) fun _ => .pure _
      exact (keeps_dispatch hchecker (fun ty => ih ty none) fuel location ty title _).bind
        fun _ => .pure _

theorem keeps_resolveNode (hchecker : resolver.checker.Keeps property) (fuel : Nat) (node : ν) :
    (resolver.resolveNode fuel node).Keeps property := by
  refine (keeps_ask hchecker _).bind fun ty => ?_
  refine (keeps_typeName hchecker ty node).bind fun name => ?_
  exact (keeps_report _).bind fun _ => keeps_resolveType hchecker fuel node ty name

/-! ## From a state in between on -/

/-- Where nested resolutions keep a property from every state in between to their ends, an inquiry
does so too. -/
theorem keeps_of_inquiry {nested : τ → Resolution W τ Schema}
    {inner : τ → Run W τ → Run W τ → Prop} {inquiry : Inquiry τ σ ν α}
    {run moment after : Run W τ} {result : α} (hchecker : resolver.checker.Keeps property)
    (hnested : ∀ ty, (nested ty).Keeps property)
    (hinner : ∀ ty run moment schema after, inner ty run moment →
      nested ty run = .ok (schema, after) → property moment.world → property after.world)
    (h : inquiry.Passes resolver.checker nested inner run moment)
    (hcarry : inquiry.carryOut resolver.checker nested run = .ok (result, after))
    (hmoment : property moment.world) : property after.world := by
  induction h generalizing after with
  | start inquiry run => exact keeps_carryOut hchecker hnested inquiry _ _ _ hmoment hcarry
  | answered hask _ ih =>
    obtain ⟨⟨answer, asked⟩, hfirst, hlast⟩ := exists_of_bind_eq_ok hcarry
    cases hask.symm.trans hfirst
    exact ih hlast hmoment
  | @resolving _ ty next run moment h =>
    obtain ⟨⟨schema, resolved⟩, hfirst, hlast⟩ := exists_of_bind_eq_ok hcarry
    have hresolved : property resolved.world := hinner ty _ _ _ _ h hfirst hmoment
    exact keeps_carryOut hchecker hnested (next schema) _ _ _ hresolved hlast
  | resolved hnested _ ih =>
    obtain ⟨⟨schema, resolved⟩, hfirst, hlast⟩ := exists_of_bind_eq_ok hcarry
    cases hnested.symm.trans hfirst
    exact ih hlast hmoment
  | @entered _ ty body next run moment hnew _ ih =>
    obtain ⟨⟨claimed, left⟩, hfirst, hlast⟩ := exists_of_bind_eq_ok hcarry
    rw [Resolution.guarded_apply, if_neg hnew] at hfirst
    obtain ⟨⟨_, inside⟩, hbody, hleft⟩ := exists_of_bind_eq_ok hfirst
    have hinside : property inside.world := ih hbody hmoment
    have hleft' : property left.world := by
      cases hleft
      exact hinside
    exact keeps_carryOut hchecker hnested (next claimed) _ _ _ hleft' hlast
  | left hguarded _ ih =>
    obtain ⟨⟨claimed, left⟩, hfirst, hlast⟩ := exists_of_bind_eq_ok hcarry
    cases hguarded.symm.trans hfirst
    exact ih hlast hmoment

theorem keeps_of_tries {nested : τ → Resolution W τ Schema}
    {inner : τ → Run W τ → Run W τ → Prop} {fuel : Nat} {location : ν} {ty : τ}
    {title : Option String} {registry : Registry τ σ ν} {run moment after : Run W τ}
    {schema : Schema} (hchecker : resolver.checker.Keeps property)
    (hnested : ∀ ty, (nested ty).Keeps property)
    (hinner : ∀ ty run moment schema after, inner ty run moment →
      nested ty run = .ok (schema, after) → property moment.world → property after.world)
    (h : resolver.Tries nested inner fuel location ty registry run moment)
    (hdispatch : resolver.dispatch nested fuel location ty title registry run =
      .ok (schema, after)) (hmoment : property moment.world) : property after.world := by
  induction h with
  | @trying recognizer rest run moment h =>
    obtain ⟨⟨claimed, called⟩, hcall, hlast⟩ := exists_of_bind_eq_ok hdispatch
    have hcalled := keeps_of_inquiry hchecker hnested hinner h hcall hmoment
    cases claimed with
    | none => exact keeps_dispatch hchecker hnested fuel location ty title rest _ _ _ hcalled hlast
    | some claimed =>
      cases hlast
      exact hcalled
  | declined hcall _ ih =>
    obtain ⟨⟨claimed, called⟩, hfirst, hlast⟩ := exists_of_bind_eq_ok hdispatch
    cases hcall.symm.trans hfirst
    exact ih hlast hmoment

/-- What holds in a state that a resolution goes through holds at its end. -/
theorem keeps_of_passes (hchecker : resolver.checker.Keeps property) {fuel : Nat} {location : ν}
    {ty : τ} {title : Option String} {run moment after : Run W τ} {schema : Schema}
    (h : resolver.Passes location fuel ty run moment)
    (hrun : resolver.resolveType fuel location ty title run = .ok (schema, after))
    (hmoment : property moment.world) : property after.world := by
  induction fuel generalizing ty title run moment schema after with
  | zero => cases hrun
  | succ fuel ih =>
    rcases h with rfl | ⟨hdepth, hnew, htries⟩
    · exact keeps_resolveType hchecker _ location ty title _ _ _ hmoment hrun
    · rw [resolveType_succ, if_neg (Nat.not_le.mpr hdepth), Resolution.guarded_apply,
        if_neg hnew] at hrun
      obtain ⟨⟨_, guarded⟩, hguarded, hend⟩ := exists_of_bind_eq_ok hrun
      obtain ⟨⟨_, inside⟩, hinside, hleft⟩ := exists_of_bind_eq_ok hguarded
      obtain ⟨⟨_, tried⟩, hdispatch, hlast⟩ := exists_of_bind_eq_ok hinside
      have htried : property tried.world := keeps_of_tries hchecker
        (fun ty => keeps_resolveType hchecker fuel location ty none) (fun _ _ _ _ _ => ih) htries
        hdispatch hmoment
      cases hlast
      cases hleft
      cases hend
      exact htried

end Resolver

end GraphSchema
