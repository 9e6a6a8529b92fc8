import Mathlib
import GraphSchema.Resolution.Resolver

/-!
# What resolutions return

A checker may answer the same question differently each time, so what holds of all the schemas that
a resolution can return does not come from values.  `Inquiry.Yields` says what has to hold of an
inquiry for its result to have a property, whatever the checker answers, and
`Resolver.yieldsUnless_resolveType` carries a property of the schemas that recognizers claim types
with over to whole resolutions, whatever the recognizers are.

A resolution also makes schemas of its own: back-references, and schemas of anything where it goes
no further.  Each of them comes with an event.  So a property that they lack is still had by what a
resolution returns that reports no such event: the event excuses the lack.
-/

namespace GraphSchema

variable {W τ σ ν α β : Type}

/-! ## What steps return -/

/-- Whatever a step returns has a property. -/
def Resolution.Yields (step : Resolution W τ α) (property : α → Prop) : Prop :=
  ∀ run result after, step run = .ok (result, after) → property result

/-- A step only adds to the log, and what it returns has a property unless an event that it adds
excuses it. -/
def Resolution.YieldsUnless (excuse : Event τ → Prop) (step : Resolution W τ α)
    (property : α → Prop) : Prop :=
  ∀ run result after, step run = .ok (result, after) →
    ∃ events, after.log = events ++ run.log ∧
      ((∀ event ∈ events, ¬ excuse event) → property result)

namespace Resolution

variable {checker : Checker W τ σ ν} {excuse : Event τ → Prop} {property : α → Prop}

/-- Where nothing is an excuse, the property holds. -/
theorem YieldsUnless.yields {step : Resolution W τ α}
    (h : step.YieldsUnless (fun _ => False) property) : step.Yields property := by
  intro run result after hrun
  obtain ⟨events, -, hresult⟩ := h run result after hrun
  exact hresult fun _ _ => not_false

theorem YieldsUnless.mono {step : Resolution W τ α} {property' : α → Prop}
    (h : step.YieldsUnless excuse property) (himp : ∀ result, property result → property' result) :
    step.YieldsUnless excuse property' := by
  intro run result after hrun
  obtain ⟨events, hlog, hresult⟩ := h run result after hrun
  exact ⟨events, hlog, fun hquiet => himp result (hresult hquiet)⟩

theorem YieldsUnless.pure {result : α} (h : property result) :
    (Pure.pure result : Resolution W τ α).YieldsUnless excuse property := by
  intro run _ _ hrun
  cases hrun
  exact ⟨[], rfl, fun _ => h⟩

theorem YieldsUnless.throw (stop : Stop) :
    (throw stop : Resolution W τ α).YieldsUnless excuse property := by
  intro run _ _ hrun
  cases hrun

/-- What the first step is known to return is a premise for the rest.  The rest adds to the log in
any case, also where the first step is excused. -/
theorem YieldsUnless.bind {step : Resolution W τ α} {rest : α → Resolution W τ β}
    {property' : β → Prop} (h : step.YieldsUnless excuse property)
    (hrest : ∀ result,
      (rest result).YieldsUnless excuse fun last => property result → property' last) :
    (step >>= rest).YieldsUnless excuse property' := by
  intro run result after hrun
  rw [show (step >>= rest) run = (step run).bind fun value => rest value.1 value.2 from rfl] at hrun
  cases hstep : step run with
  | error stop =>
    rw [hstep] at hrun
    cases hrun
  | ok value =>
    rw [hstep] at hrun
    obtain ⟨events, hevents, hvalue⟩ := h run value.1 value.2 hstep
    obtain ⟨later, hlater, hresult⟩ := hrest value.1 value.2 result after hrun
    refine ⟨later ++ events, by rw [hlater, hevents, List.append_assoc], fun hquiet => ?_⟩
    obtain ⟨hquietLater, hquietFirst⟩ := List.forall_mem_append.mp hquiet
    exact hresult hquietLater (hvalue hquietFirst)

/-- A step whose result does not matter may come first. -/
theorem YieldsUnless.after {step : Resolution W τ α} {rest : α → Resolution W τ β}
    {property' : β → Prop} (h : step.YieldsUnless excuse fun _ => True)
    (hrest : ∀ result, (rest result).YieldsUnless excuse property') :
    (step >>= rest).YieldsUnless excuse property' :=
  h.bind fun result => (hrest result).mono fun _ hlast _ => hlast

/-- A change of the run that leaves its log alone. -/
theorem YieldsUnless.modify {change : Run W τ → Run W τ} (h : ∀ run, (change run).log = run.log) :
    (modify change : Resolution W τ Unit).YieldsUnless excuse fun _ => True := by
  intro run _ _ hrun
  cases hrun
  exact ⟨[], h run, fun _ => trivial⟩

theorem YieldsUnless.get :
    (get : Resolution W τ (Run W τ)).YieldsUnless excuse fun _ => True := by
  intro run _ _ hrun
  cases hrun
  exact ⟨[], rfl, fun _ => trivial⟩

theorem yieldsUnless_report (event : Event τ) :
    (report event : Resolution W τ Unit).YieldsUnless excuse fun _ => ¬ excuse event := by
  intro run _ _ hrun
  cases hrun
  exact ⟨[event], rfl, fun hquiet => hquiet event List.mem_cons_self⟩

theorem yieldsUnless_ask (question : Question τ σ ν) :
    (ask checker question).YieldsUnless excuse fun _ => True := by
  intro run result after hrun
  rw [show ask checker question run = (checker.reply question run.world).bind _ from rfl] at hrun
  cases hreply : checker.reply question run.world with
  | error stop =>
    rw [hreply] at hrun
    cases hrun
  | ok reply =>
    rw [hreply] at hrun
    cases hrun
    exact ⟨reply.notices.reverse, rfl, fun _ => trivial⟩

theorem yieldsUnless_symbolName (ty : τ) :
    (symbolName checker ty).YieldsUnless excuse fun _ => True := by
  refine (yieldsUnless_ask _).after fun symbol => ?_
  cases symbol with
  | none => exact .pure trivial
  | some symbol => exact (yieldsUnless_ask _).after fun _ => .pure trivial

theorem yieldsUnless_typeName (ty : τ) (node : ν) :
    (typeName checker ty node).YieldsUnless excuse fun _ => True := by
  refine (yieldsUnless_symbolName ty).after fun name => ?_
  cases name with
  | none => exact yieldsUnless_ask _
  | some name => exact .pure trivial

variable [DecidableEq τ]

/-- A type that is marked as in progress is answered by the step inside or by a back-reference. -/
theorem YieldsUnless.guarded {ty : τ} {step : Resolution W τ (Option Schema)}
    {property : Option Schema → Prop} (h : step.YieldsUnless excuse property)
    (hback : ∀ name, ¬ excuse (.recursion ty name) →
      property (some (.reference ("#" ++ name.getD "")))) :
    (guarded checker ty step).YieldsUnless excuse property := by
  refine YieldsUnless.get.after fun run => ?_
  split
  · rw [backReference, bind_assoc]
    refine (yieldsUnless_symbolName ty).after fun name => ?_
    rw [bind_assoc]
    exact (yieldsUnless_report _).bind fun _ => .pure (hback name)
  · refine YieldsUnless.after (.modify fun _ => by rfl) fun _ => h.bind fun claimed => ?_
    exact YieldsUnless.after (.modify fun _ => by rfl) fun _ => .pure id

end Resolution

/-! ## What inquiries return -/

namespace Inquiry

/-- The result of an inquiry has a property, whatever the checker answers, where the nested types
are resolved to schemas of a kind and back-references are of that kind. -/
def Yields (kind : Schema → Prop) {α : Type} : Inquiry τ σ ν α → (α → Prop) → Prop
  | done result, property => property result
  | ask _ next, property => ∀ answer, (next answer).Yields kind property
  | resolve _ next, property => ∀ schema, kind schema → (next schema).Yields kind property
  | guarded _ body next, property =>
    body.Yields kind (fun claimed => ∀ schema ∈ claimed, kind schema) ∧
      ∀ claimed : Option Schema, (∀ schema ∈ claimed, kind schema) →
        (next claimed).Yields kind property
  | exhausted, _ => True

variable {kind : Schema → Prop} {property : α → Prop}

theorem yields_pure {result : α} (h : property result) :
    (pure result : Inquiry τ σ ν α).Yields kind property := h

theorem yields_schemaOf (ty : τ) : (schemaOf ty : Inquiry τ σ ν Schema).Yields kind kind :=
  fun _ h => h

theorem yields_bind {first : Inquiry τ σ ν α} {rest : α → Inquiry τ σ ν β} {property' : β → Prop}
    (h : first.Yields kind property)
    (hrest : ∀ result, property result → (rest result).Yields kind property') :
    (first >>= rest).Yields kind property' := by
  show (first.andThen rest).Yields kind property'
  induction first with
  | done result => exact hrest result h
  | ask question next ih => exact fun answer => ih answer (h answer) hrest
  | resolve ty next ih => exact fun schema hschema => ih schema (h schema hschema) hrest
  | guarded ty body next _ ih =>
    exact ⟨h.1, fun claimed hclaimed => ih claimed (h.2 claimed hclaimed) hrest⟩
  | exhausted => trivial

/-- A question may come first, whatever it is answered with. -/
theorem yields_ask {q : Question τ σ ν} {rest : q.Answer → Inquiry τ σ ν β} {property' : β → Prop}
    (hrest : ∀ answer, (rest answer).Yields kind property') :
    (question q >>= rest).Yields kind property' := hrest

/-- What an inquiry claims a type with is a schema of a kind. -/
def Claims (kind : Schema → Prop) (inquiry : Inquiry τ σ ν (Option Schema)) : Prop :=
  inquiry.Yields kind fun claimed => ∀ schema ∈ claimed, kind schema

theorem claims_none : (pure none : Inquiry τ σ ν (Option Schema)).Claims kind :=
  yields_pure fun _ h => by cases h

theorem claims_some {schema : Schema} (h : kind schema) :
    (pure (some schema) : Inquiry τ σ ν (Option Schema)).Claims kind := by
  refine yields_pure ?_
  rintro _ ⟨⟩
  exact h

theorem claims_within {ty : τ} {body : Inquiry τ σ ν (Option Schema)} (h : body.Claims kind) :
    (within ty body).Claims kind :=
  ⟨h, fun _ hclaimed => hclaimed⟩

/-- Carrying out an inquiry returns what the inquiry yields. -/
theorem yieldsUnless_carryOut [DecidableEq τ] {checker : Checker W τ σ ν}
    {excuse : Event τ → Prop} {nested : τ → Resolution W τ Schema}
    (hnested : ∀ ty, (nested ty).YieldsUnless excuse kind)
    (hback : ∀ ty name, ¬ excuse (.recursion ty name) → kind (.reference ("#" ++ name.getD "")))
    (inquiry : Inquiry τ σ ν α) (property : α → Prop) :
    (inquiry.carryOut checker nested).YieldsUnless excuse
      fun result => inquiry.Yields kind property → property result := by
  induction inquiry with
  | done result => exact .pure id
  | ask question next ih =>
    refine (Resolution.yieldsUnless_ask question).after fun answer => ?_
    exact (ih answer property).mono fun _ hresult hyields => hresult (hyields answer)
  | resolve ty next ih =>
    refine (hnested ty).bind fun schema => ?_
    exact (ih schema property).mono fun _ hresult hschema hyields =>
      hresult (hyields schema hschema)
  | guarded ty body next ihbody ih =>
    let claims (claimed : Option Schema) : Prop := ∀ schema ∈ claimed, kind schema
    have hclaims : (Resolution.guarded checker ty (body.carryOut checker nested)).YieldsUnless
        excuse fun claimed => body.Yields kind claims → claims claimed := by
      refine (ihbody claims).guarded fun name hquiet _ => ?_
      rintro _ ⟨⟩
      exact hback ty name hquiet
    refine hclaims.bind fun claimed => ?_
    exact (ih claimed property).mono fun _ hresult hclaimed hyields =>
      hresult (hyields.2 claimed (hclaimed hyields.1))
  | exhausted => exact .throw _

end Inquiry

/-! ## What resolutions return -/

/-- What a recognizer claims any type with is a schema of a kind. -/
def Recognizer.Claims (recognizer : Recognizer τ σ ν) (kind : Schema → Prop) : Prop :=
  ∀ fuel context ty, (recognizer.recognize fuel context ty).Claims kind

/-- The schemas that a resolution makes by itself are of a kind, or come with an event that excuses
them. -/
structure Event.Covers (excuse : Event τ → Prop) (kind : Schema → Prop) : Prop where
  recursion : ∀ ty name, ¬ excuse (.recursion ty name) → kind (.reference ("#" ++ name.getD ""))
  depthLimit : ∀ ty depth title, ¬ excuse (.depthLimit ty depth) → kind (.any title)
  unrecognized : ∀ ty title, ¬ excuse (.unrecognized ty title) → kind (.any title)

namespace Resolver

variable [DecidableEq τ] {resolver : Resolver W τ σ ν} {excuse : Event τ → Prop}
  {kind : Schema → Prop}

theorem yieldsUnless_dispatch {nested : τ → Resolution W τ Schema}
    (hnested : ∀ ty, (nested ty).YieldsUnless excuse kind) (hcovers : Event.Covers excuse kind)
    (fuel : Nat) (location : ν) (ty : τ) (title : Option String) {registry : Registry τ σ ν}
    (hregistry : ∀ recognizer ∈ registry, recognizer.Claims kind) :
    (resolver.dispatch nested fuel location ty title registry).YieldsUnless excuse kind := by
  induction registry with
  | nil =>
    exact (Resolution.yieldsUnless_report _).bind fun _ => .pure (hcovers.unrecognized ty title)
  | cons recognizer rest ih =>
    obtain ⟨hrecognizer, hrest⟩ := List.forall_mem_cons.mp hregistry
    have hclaims := hrecognizer fuel ⟨resolver.options, location⟩ ty
    refine (Inquiry.yieldsUnless_carryOut hnested hcovers.recursion _
      fun claimed => ∀ schema ∈ claimed, kind schema).bind fun claimed => ?_
    cases claimed with
    | none => exact (ih hrest).mono fun _ hschema _ => hschema
    | some schema =>
      have hquiet : (Resolution.report (.recognized recognizer.name ty) :
          Resolution W τ Unit).YieldsUnless excuse fun _ => True :=
        (Resolution.yieldsUnless_report _).mono fun _ _ => trivial
      exact hquiet.after fun _ => .pure fun hclaimed => hclaimed hclaims schema rfl

/-- A resolution returns schemas of a kind where all recognizers claim types with such, unless it
reports an event that excuses a schema of another kind. -/
theorem yieldsUnless_resolveType (hcovers : Event.Covers excuse kind)
    (hregistry : ∀ recognizer ∈ resolver.registry, recognizer.Claims kind) (fuel : Nat)
    (location : ν) (ty : τ) (title : Option String) :
    (resolver.resolveType fuel location ty title).YieldsUnless excuse kind := by
  induction fuel generalizing ty title with
  | zero => exact .throw _
  | succ fuel ih =>
    refine Resolution.YieldsUnless.get.after fun run => ?_
    dsimp only
    split
    · exact (Resolution.yieldsUnless_report _).bind fun _ =>
        .pure (hcovers.depthLimit ty _ title)
    · refine Resolution.YieldsUnless.after (.modify fun _ => by rfl) fun _ => ?_
      have hdispatch : (resolver.dispatch (fun ty => resolver.resolveType fuel location ty none)
          fuel location ty title resolver.registry).YieldsUnless excuse kind :=
        yieldsUnless_dispatch (fun ty => ih ty none) hcovers fuel location ty title hregistry
      have hentered : Resolution.YieldsUnless excuse (do
          return some (← resolver.dispatch (fun ty => resolver.resolveType fuel location ty none)
            fuel location ty title resolver.registry))
          fun claimed => ∃ schema, claimed = some schema ∧ kind schema :=
        hdispatch.bind fun schema => .pure fun hschema => ⟨schema, rfl, hschema⟩
      refine (hentered.guarded fun name hquiet => ?_).bind fun claimed => ?_
      · exact ⟨_, rfl, hcovers.recursion ty name hquiet⟩
      · refine Resolution.YieldsUnless.after (.modify fun _ => by rfl) fun _ => .pure ?_
        rintro ⟨schema, rfl, hschema⟩
        exact hschema

theorem yieldsUnless_resolveNode (hcovers : Event.Covers excuse kind)
    (hregistry : ∀ recognizer ∈ resolver.registry, recognizer.Claims kind) (fuel : Nat) (node : ν) :
    (resolver.resolveNode fuel node).YieldsUnless excuse kind := by
  refine (Resolution.yieldsUnless_ask _).after fun ty => ?_
  refine (Resolution.yieldsUnless_typeName ty node).after fun name => ?_
  refine ((Resolution.yieldsUnless_report _).mono fun _ _ => trivial).after fun _ => ?_
  exact yieldsUnless_resolveType hcovers hregistry fuel node ty name

/-- A resolution returns schemas of a kind, where all recognizers claim types with such, and
where unknown schemas and back-references are such. -/
theorem yields_resolveType (hback : ∀ name, kind (.reference name))
    (hany : ∀ title, kind (.any title))
    (hregistry : ∀ recognizer ∈ resolver.registry, recognizer.Claims kind) (fuel : Nat)
    (location : ν) (ty : τ) (title : Option String) :
    (resolver.resolveType fuel location ty title).Yields kind :=
  (yieldsUnless_resolveType
    ⟨fun _ _ _ => hback _, fun _ _ _ _ => hany _, fun _ _ _ => hany _⟩
    hregistry fuel location ty title).yields

theorem yields_resolveNode (hback : ∀ name, kind (.reference name))
    (hany : ∀ title, kind (.any title))
    (hregistry : ∀ recognizer ∈ resolver.registry, recognizer.Claims kind) (fuel : Nat) (node : ν) :
    (resolver.resolveNode fuel node).Yields kind :=
  (yieldsUnless_resolveNode
    ⟨fun _ _ _ => hback _, fun _ _ _ _ => hany _, fun _ _ _ => hany _⟩
    hregistry fuel node).yields

end Resolver

end GraphSchema
