import Mathlib
import GraphSchema.Proofs.Resolution.Meeting

/-!
# What is in progress on a way

A resolution enters types one after the other, and as long as it is inside one of them that type is
in progress.  `Answers.InProgress` lists the types in progress together with the level of nesting at
which the last of them has been entered: each one is a step onwards from the one before
(`Answers.Onward`), none is entered twice, and none beyond the nesting limit.

In these terms it can be said what a resolution has made of a type on its way (`Answers.Makes`),
which is not what it would make of the type alone: with other types in progress there are other
back-references.
-/

namespace GraphSchema.Answers

variable {τ σ ν : Type} [DecidableEq τ]

section Relations

variable (answers : Answers τ σ ν) (options : Options) (location : ν)

/-- While a type is resolved, these types are in progress, the last one first, at a level. -/
inductive InProgress (start : τ) : Nat → List τ → Prop where
  | start (hlimit : 0 < options.maxDepth) : InProgress start 0 [start]
  | onward {level levels : Nat} {ty next : τ} {active : List τ}
      (h : InProgress start level (ty :: active))
      (hnext : answers.Onward options location levels ty next)
      (hlimit : level + levels < options.maxDepth) (hnew : next ∉ ty :: active) :
      InProgress start (level + levels) (next :: ty :: active)

/-- While a type is resolved and these types are in progress, another one is looked at: it is
entered unless it lies too deep or is in progress itself. -/
def ComesTo (start : τ) (level : Nat) (active : List τ) (ty : τ) : Prop :=
  level < options.maxDepth → ty ∉ active →
    answers.InProgress options location start level (ty :: active)

/-- The resolution of a type comes to this schema for another one that it enters at a level, with
what is in progress there. -/
def Makes (start : τ) (level : Nat) (ty : τ) (schema : Schema) : Prop :=
  ∃ active fuel title, answers.InProgress options location start level (ty :: active) ∧
    answers.resolveValue Registry.shipped options location fuel level active ty title = some schema

end Relations

variable {answers : Answers τ σ ν} {options : Options} {location location' : ν} {start : τ}
  {level levels : Nat} {active : List τ} {ty ty' next : τ}

namespace InProgress

theorem lt_maxDepth (h : answers.InProgress options location start level active) :
    level < options.maxDepth := by
  cases h <;> assumption

theorem start_mem (h : answers.InProgress options location start level active) :
    start ∈ active := by
  induction h with
  | start => exact List.mem_singleton_self _
  | onward _ _ _ _ ih => exact List.mem_cons_of_mem _ ih

/-- What is met from the last type in progress is met from the first one. -/
theorem meets (h : answers.InProgress options location start level active) {rest : Nat}
    {other : τ} (hhead : active.head? = some ty)
    (hmeets : answers.Meets options location rest ty other) :
    answers.Meets options location (rest + level) start other := by
  induction h generalizing rest ty with
  | start =>
    cases hhead
    exact hmeets
  | @onward level levels _ _ _ _ hnext _ _ ih =>
    cases hhead
    rw [Nat.add_comm level, ← Nat.add_assoc]
    exact ih rfl (.onward hnext hmeets)

/-- No resolution leaves a closed set. -/
theorem mem_of_closed {types : Set τ} (hclosed : Closed answers options location types)
    (hstart : start ∈ types)
    (h : answers.InProgress options location start level (ty :: active)) : ty ∈ types := by
  have hself : answers.Meets options location 1 ty ty := .here
  exact hclosed.mem_of_meets hstart (h.meets rfl hself)

/-- A type looks at those that are a step onwards from it. -/
theorem comesTo (h : answers.InProgress options location start level (ty :: active))
    (hnext : answers.Onward options location levels ty next) :
    answers.ComesTo options location start (level + levels) (ty :: active) next :=
  h.onward hnext

/-- A step that goes down no level is bounded by nothing but what is in progress. -/
theorem call (h : answers.InProgress options location start level (ty :: active))
    (hnext : answers.Onward options location 0 ty next) (hnew : next ∉ ty :: active) :
    answers.InProgress options location start level (next :: ty :: active) :=
  h.onward hnext h.lt_maxDepth hnew

end InProgress

/-- A resolution comes to its own type first. -/
theorem comesTo_start (start : τ) : answers.ComesTo options location start 0 [] start :=
  fun hlimit _ => .start hlimit

/-- Without a step down, what a type leads to is met at any level. -/
theorem meets_of_calls {other : τ} (h : Relation.ReflTransGen
    (answers.Onward options location 0) ty other) (limit : Nat) :
    answers.Meets options location (limit + 1) ty other := by
  induction h using Relation.ReflTransGen.head_induction_on with
  | refl => exact .here
  | head hnext _ ih => exact (MeetsBelow.of_call hnext ih).meets

/-- What a type in progress leads to without a step down is met within the nesting limit. -/
theorem InProgress.meets_of_calls {other : τ}
    (h : answers.InProgress options location start level (ty :: active))
    (hcalls : Relation.ReflTransGen (answers.Onward options location 0) ty other) :
    answers.Meets options location options.maxDepth start other := by
  obtain ⟨rest, hrest⟩ := Nat.exists_eq_add_of_lt h.lt_maxDepth
  have hlimit : options.maxDepth = rest + 1 + level := by omega
  rw [hlimit]
  exact h.meets rfl (Answers.meets_of_calls hcalls rest)

/-! ## Types that are alike -/

theorem Alike.memberNames (halike : answers.Alike options location location' ty ty') :
    answers.memberNames ty' = answers.memberNames ty := by
  rw [← map_fst_members answers location', ← map_fst_members answers location, halike.members]

theorem Alike.ownRecord (halike : answers.Alike options location location' ty ty')
    (h : OwnRecord answers options active ty) : OwnRecord answers options active ty' where
  object := halike.flags ▸ h.object
  container := halike.container.trans h.container
  tuple := halike.flags ▸ h.tuple
  redirect target htarget := h.redirect target (halike.redirect ▸ htarget)

/-- Two types that are alike lead to the same types. -/
theorem Alike.onward (halike : answers.Alike options location location' ty ty')
    (h : answers.Onward options location levels ty next) :
    answers.Onward options location' levels ty' next := by
  cases h with
  | item hcontainer hitem =>
    exact .item (halike.container.trans hcontainer) (halike.item.trans hitem)
  | target hcontainer htarget =>
    exact .target (halike.container.trans hcontainer) (halike.redirect.trans htarget)
  | base hrecord hbase => exact .base (halike.ownRecord hrecord) (halike.baseTypes ▸ hbase)
  | member hrecord hmember => exact .member (halike.ownRecord hrecord) (halike.members ▸ hmember)

theorem Meets.of_members (hmembers : answers.members location' = answers.members location)
    {limit : Nat} {other : τ} (h : answers.Meets options location' limit ty other) :
    answers.Meets options location limit ty other := by
  induction h with
  | here => exact .here
  | onward hnext _ ih => exact .onward ((Alike.refl hmembers _).symm.onward hnext) ih

/-- Two types that are alike meet the same types, apart from themselves. -/
theorem Alike.meets (hmembers : answers.members location' = answers.members location)
    (halike : answers.Alike options location location' ty ty') {limit : Nat} {other : τ}
    (h : answers.Meets options location' limit ty' other) :
    other = ty' ∨ answers.Meets options location limit ty other := by
  cases h with
  | here => exact .inl rfl
  | onward hnext h => exact .inr (.onward (halike.symm.onward hnext) (h.of_members hmembers))

end GraphSchema.Answers
