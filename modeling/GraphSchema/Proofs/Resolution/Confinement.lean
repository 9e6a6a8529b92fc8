import Mathlib
import GraphSchema.Proofs.Resolution.Closure
import GraphSchema.Proofs.Resolution.Simulation

/-!
# Resolutions enter no other types

`Answers.Closed` holds of a set of types that the answers never lead out of, at least for the
questions that a resolution puts.  Here a resolution is carried out, over a world that may change
with every question, and the conclusion is about every state that it goes through: what is in
progress there was in progress at the start, or stands for a type of the set
(`Models.confined_of_passes`).

A state in between belongs to a part of the inquiry, and the parts before it have ended
(`Inquiry.Passes.of_bind`).  Those follow their values (`Models.Similar`), so the answers that
have brought the inquiry to this part are known, and they are what `Answers.Closed` asks for.
-/

namespace GraphSchema

variable {W τ σ ν τ' σ' ν' α β γ δ : Type}

/-! ## States in between, part by part -/

/-- What a sequence goes through, its first part goes through, or its second from where the first
has ended. -/
theorem Inquiry.Passes.of_bind [DecidableEq τ] {checker : Checker W τ σ ν}
    {nested : τ → Resolution W τ Schema} {inner : τ → Run W τ → Run W τ → Prop}
    {first : Inquiry τ σ ν α} {rest : α → Inquiry τ σ ν β} {run moment : Run W τ}
    (h : (first >>= rest).Passes checker nested inner run moment) :
    first.Passes checker nested inner run moment ∨
      ∃ result after, first.carryOut checker nested run = .ok (result, after) ∧
        (rest result).Passes checker nested inner after moment := by
  change (first.andThen rest).Passes checker nested inner run moment at h
  induction first generalizing run with
  | done result => exact .inr ⟨result, run, rfl, h⟩
  | ask question next ih =>
    cases h with
    | start => exact .inl (.start _ _)
    | answered hask h =>
      rcases ih _ h with h | ⟨result, after, hcarry, h⟩
      · exact .inl (.answered hask h)
      · refine .inr ⟨result, after, ?_, h⟩
        show (Resolution.ask checker question _).bind _ = _
        rw [hask]
        exact hcarry
  | resolve ty next ih =>
    cases h with
    | start => exact .inl (.start _ _)
    | resolving h => exact .inl (.resolving h)
    | resolved hnested h =>
      rcases ih _ h with h | ⟨result, after, hcarry, h⟩
      · exact .inl (.resolved hnested h)
      · refine .inr ⟨result, after, ?_, h⟩
        show (nested ty _).bind _ = _
        rw [hnested]
        exact hcarry
  | guarded ty body next _ ih =>
    cases h with
    | start => exact .inl (.start _ _)
    | entered hnew h => exact .inl (.entered hnew h)
    | left hguarded h =>
      rcases ih _ h with h | ⟨result, after, hcarry, h⟩
      · exact .inl (.left hguarded h)
      · refine .inr ⟨result, after, ?_, h⟩
        show (Resolution.guarded checker ty _ _).bind _ = _
        rw [hguarded]
        exact hcarry
  | exhausted =>
    cases h with
    | start => exact .inl (.start _ _)

namespace Models

variable {checker : Checker W τ σ ν} {answers : Answers τ' σ' ν'}

section States

variable (M : Models checker answers) (types : Set τ')

/-- In a later state, what is in progress was in progress before or stands for one of the types. -/
structure Confined (run moment : Run W τ) : Prop where
  sound : M.Sound moment.world
  later : M.Later run.world moment.world
  active : ∀ ty ∈ moment.active, ty ∈ run.active ∨ ∃ ty' ∈ types, M.type moment.world ty ty'

/-- Nested types are resolved alike, and confined where they stand for one of the types. -/
structure NestedConfined (world : W) (depth : Nat) (nested : τ → Resolution W τ Schema)
    (nestedValue : List τ' → τ' → Option Schema) (inner : τ → Run W τ → Run W τ → Prop) :
    Prop where
  follows : M.NestedFollows world depth nested nestedValue
  confined : ∀ {run active moment ty ty'}, M.Later world run.world → M.Matches run active depth →
    M.type run.world ty ty' → ty' ∈ types → inner ty run moment → M.Confined types run moment

/-- Carrying out an inquiry is confined, from `world` on. -/
def Confines [DecidableEq τ] (world : W) (inquiry : Inquiry τ σ ν α) : Prop :=
  ∀ depth nested nestedValue inner, M.NestedConfined types world depth nested nestedValue inner →
    ∀ run active moment, M.Later world run.world → M.Matches run active depth →
      inquiry.Passes checker nested inner run moment → M.Confined types run moment

end States

variable {M : Models checker answers} {types : Set τ'} {world : W} {depth : Nat}
  {run after moment : Run W τ} {active : List τ'}

theorem Confined.refl (h : M.Sound run.world) : M.Confined types run run :=
  ⟨h, M.later_refl _, fun _ => .inl⟩

/-- What has ended leaves the types in progress as they were. -/
theorem Confined.of_later (hlater : M.Later run.world after.world)
    (hactive : after.active = run.active) (h : M.Confined types after moment) :
    M.Confined types run moment :=
  ⟨h.sound, M.later_trans hlater h.later, hactive ▸ h.active⟩

/-- A type that is entered stands for one of the types. -/
theorem Confined.enter {ty : τ} {ty' : τ'} (h : M.Confined types after moment)
    (hworld : after.world = run.world) (hactive : after.active = ty :: run.active)
    (hty : M.type run.world ty ty') (hmem : ty' ∈ types) : M.Confined types run moment := by
  have hlater : M.Later run.world moment.world := hworld ▸ h.later
  refine ⟨h.sound, hlater, fun other hother => ?_⟩
  rcases h.active other hother with hbefore | hstands
  · rw [hactive, List.mem_cons] at hbefore
    rcases hbefore with rfl | hbefore
    · exact .inr ⟨ty', hmem, M.type_later hlater hty⟩
    · exact .inl hbefore
  · exact .inr hstands

theorem NestedConfined.later {later : W} {nested : τ → Resolution W τ Schema}
    {nestedValue : List τ' → τ' → Option Schema} {inner : τ → Run W τ → Run W τ → Prop}
    (h : M.NestedConfined types world depth nested nestedValue inner)
    (hlater : M.Later world later) :
    M.NestedConfined types later depth nested nestedValue inner where
  follows := h.follows.later hlater
  confined hrun := h.confined (M.later_trans hlater hrun)

/-- Where a step has ended, its result is related to its value. -/
theorem Follows.of_ok {related : W → α → β → Prop} {step : Resolution W τ α}
    {value : List τ' → Option β} {result : α} (h : M.Follows world depth related step value)
    (hrun : M.Later world run.world) (hmatch : M.Matches run active depth)
    (hstep : step run = .ok (result, after)) :
    M.Later run.world after.world ∧ after.active = run.active ∧ M.Matches after active depth ∧
      ∃ other, value active = some other ∧ related after.world result other := by
  have hends := h run active hrun hmatch
  cases hvalue : value active with
  | none =>
    rw [hvalue] at hends
    cases hstep.symm.trans hends
  | some other =>
    rw [hvalue] at hends
    obtain ⟨result', after', hok, hsound, hlater, hactive, hdepth, hrelated⟩ := hends
    cases hstep.symm.trans hok
    exact ⟨hlater, hactive, hmatch.after hsound hlater hactive hdepth, other, rfl, hrelated⟩

variable [DecidableEq τ]

/-! ## Parts of inquiries -/

theorem confines_pure (result : α) :
    M.Confines types world (pure result : Inquiry τ σ ν α) := by
  intro _ _ _ _ _ run _ moment _ hmatch h
  change (Inquiry.done result).Passes checker _ _ run moment at h
  cases h
  exact .refl hmatch.sound

theorem confines_exhausted :
    M.Confines types world (.exhausted : Inquiry τ σ ν α) := by
  intro _ _ _ _ _ run _ moment _ hmatch h
  cases h
  exact .refl hmatch.sound

theorem confines_question {q : Question τ σ ν} {q' : Question τ' σ' ν'}
    {related : W → q.Answer → q'.Answer → Prop}
    (h : ∀ later, M.Later world later → M.Sound later →
      checker.Replies M.Sound M.Later later q fun last answer =>
        related last answer (answers q')) :
    M.Confines types world (Inquiry.question q) := by
  intro depth _ _ _ _ run active moment hrun hmatch hpasses
  cases hpasses with
  | start => exact .refl hmatch.sound
  | answered hask hlast =>
    have hfollows : M.Follows world depth related (Resolution.ask checker q)
        fun _ => some (answers q') := follows_ask h
    obtain ⟨hlater, hactive, hmatch', -⟩ := hfollows.of_ok hrun hmatch hask
    cases hlast
    exact .of_later hlater hactive (.refl hmatch'.sound)

theorem confines_schemaOf {ty : τ} {ty' : τ'} (hty : M.type world ty ty') (hmem : ty' ∈ types) :
    M.Confines types world (Inquiry.schemaOf ty) := by
  intro _ _ _ _ hnested run active moment hrun hmatch hpasses
  cases hpasses with
  | start => exact .refl hmatch.sound
  | resolving hinner => exact hnested.confined hrun hmatch (M.type_later hrun hty) hmem hinner
  | resolved hstep hlast =>
    obtain ⟨hlater, hactive, hmatch', -⟩ :=
      (hnested.follows world ty ty' (M.later_refl _) hty).of_ok hrun hmatch hstep
    cases hlast
    exact .of_later hlater hactive (.refl hmatch'.sound)

variable [DecidableEq τ']

/-- The second part of a sequence is known to start from the value of the first. -/
theorem Confines.bind {related : W → α → β → Prop} {first : Inquiry τ σ ν α}
    {second : Inquiry τ' σ' ν' β} {rest : α → Inquiry τ σ ν γ}
    (h : M.Confines types world first) (hsimilar : M.Similar world related first second)
    (hrest : ∀ later result other, M.Later world later → related later result other →
      (∃ nestedValue active, second.value answers nestedValue active = some other) →
      M.Confines types later (rest result)) :
    M.Confines types world (first >>= rest) := by
  intro depth nested nestedValue inner hnested run active moment hrun hmatch hpasses
  rcases hpasses.of_bind with hfirst | ⟨result, after, hcarry, hlast⟩
  · exact h _ _ _ _ hnested _ _ _ hrun hmatch hfirst
  · obtain ⟨hlater, hactive, hmatch', other, hvalue, hrelated⟩ :=
      (hsimilar depth nested nestedValue hnested.follows).of_ok hrun hmatch hcarry
    have hafter := M.later_trans hrun hlater
    exact .of_later hlater hactive (hrest after.world result other hafter hrelated
      ⟨nestedValue, active, hvalue⟩ depth nested nestedValue inner
      (hnested.later hafter) after active _ (M.later_refl _) hmatch' hlast)

/-- What follows a question is known to start from the answer. -/
theorem confines_question_bind {q : Question τ σ ν} {q' : Question τ' σ' ν'}
    {related : W → q.Answer → q'.Answer → Prop} {rest : q.Answer → Inquiry τ σ ν α}
    (h : ∀ later, M.Later world later → M.Sound later →
      checker.Replies M.Sound M.Later later q fun last answer =>
        related last answer (answers q'))
    (hrest : ∀ later answer, M.Later world later → related later answer (answers q') →
      M.Confines types later (rest answer)) :
    M.Confines types world (Inquiry.question q >>= rest) := by
  refine (confines_question h).bind (similar_question h) ?_
  rintro later answer other hlater hrelated ⟨nestedValue, active, hvalue⟩
  rw [Inquiry.value_question, Option.some.injEq] at hvalue
  exact hrest later answer hlater (hvalue ▸ hrelated)

theorem confines_within {ty : τ} {ty' : τ'} {body : Inquiry τ σ ν (Option Schema)}
    {body' : Inquiry τ' σ' ν' (Option Schema)} (hty : M.type world ty ty') (hmem : ty' ∈ types)
    (h : M.Confines types world body) (hsimilar : M.Similar world (fun _ => Eq) body body') :
    M.Confines types world (Inquiry.within ty body) := by
  intro depth nested nestedValue inner hnested run active moment hrun hmatch hpasses
  have hty' := M.type_later hrun hty
  cases hpasses with
  | start => exact .refl hmatch.sound
  | entered hnew hbody =>
    have hentered := h depth nested nestedValue inner hnested
      { run with active := ty :: run.active } (ty' :: active) moment hrun
      ⟨hmatch.sound, .cons hty' hmatch.active, hmatch.depth⟩ hbody
    exact hentered.enter rfl rfl hty' hmem
  | left hguarded hlast =>
    obtain ⟨hlater, hactive, hmatch', -⟩ :=
      ((hsimilar depth nested nestedValue hnested.follows).guarded hty).of_ok hrun hmatch hguarded
    cases hlast
    exact .of_later hlater hactive (.refl hmatch'.sound)

/-! ## The shipped recognizers -/

section Shipped

variable {ty : τ} {ty' : τ'} {options : Options} {location : ν} {location' : ν'}

theorem confines_recognizeIntrinsic (h : M.type world ty ty') :
    M.Confines types world (recognizeIntrinsic ty) :=
  confines_question_bind (fun _ hlater hsound => M.intrinsic hsound (M.type_later hlater h))
    fun _ _ _ _ => confines_pure _

theorem confines_symbolNameOf (h : M.type world ty ty') :
    M.Confines types world (symbolNameOf ty) := by
  refine confines_question_bind
    (fun _ hlater hsound => M.symbolOf hsound (M.type_later hlater h)) ?_
  intro later symbol hlater hsymbol
  generalize answers (.symbol ty') = symbol' at hsymbol
  cases hsymbol with
  | none => exact confines_pure _
  | some hsymbol =>
    exact confines_question_bind
      (fun _ hlast hsound => M.symbolName hsound (M.symbol_later hlast hsymbol))
      fun _ _ _ _ => confines_pure _

theorem confines_redirectTarget (flags : Flags) (h : M.type world ty ty') :
    M.Confines types world (redirectTarget options flags ty) := by
  rw [redirectTarget]
  split
  · exact confines_question_bind
      (fun _ hlater hsound => M.target hsound (M.type_later hlater h))
      fun _ _ _ _ => confines_pure _
  · exact confines_pure _

variable (hclosed : answers.Closed options location' types)

include hclosed

theorem confines_arrayItems (h : M.type world ty ty') (hmem : ty' ∈ types)
    (harray : answers.container? ty' = some .array) :
    M.Confines types world (arrayItems ty) := by
  refine confines_question_bind
    (fun _ hlater hsound => M.arguments hsound (M.type_later hlater h)) ?_
  intro later list hlater hlist
  generalize hlist' : answers (.arguments ty') = list' at hlist
  cases hlist with
  | none => exact confines_pure _
  | some hlist =>
    cases hlist with
    | nil => exact confines_pure _
    | @cons item item' _ _ hitem hrest =>
      cases hrest with
      | nil =>
        refine confines_question_bind
          (fun _ hlast hsound => M.flags hsound (M.type_later (M.later_trans hlater hlast) h)) ?_
        rintro last flags hlast rfl
        split
        · rename_i hreference
          have hitem' : answers.item? ty' = some item' := by
            rw [Answers.item?, hlist']
            exact if_pos hreference
          exact confines_schemaOf (M.type_later hlast hitem) (hclosed.item hmem harray hitem')
        · exact confines_pure _
      | cons _ _ => exact confines_pure _

theorem confines_recognizeContainer (h : M.type world ty ty') (hmem : ty' ∈ types) :
    M.Confines types world (recognizeContainer ty) := by
  refine confines_question_bind (fun _ hlater hsound => M.flags hsound (M.type_later hlater h)) ?_
  rintro world₁ flags hlater₁ rfl
  split
  · exact confines_pure _
  rename_i hobject
  have hty₁ := M.type_later hlater₁ h
  refine confines_question_bind
    (fun _ hlast hsound => M.symbolOf hsound (M.type_later hlast hty₁)) ?_
  intro world₂ symbol hlater₂ hsymbol
  generalize hsymbol' : answers (.symbol ty') = symbol' at hsymbol
  cases hsymbol with
  | none => exact confines_pure _
  | some hsymbol =>
    refine confines_question_bind
      (fun _ hlast hsound => M.memberNames hsound (M.symbol_later hlast hsymbol)) ?_
    rintro world₃ members hlater₃ hmembers
    cases members with
    | none => exact confines_pure _
    | some members =>
      refine confines_question_bind (fun _ hlast hsound =>
        M.symbolName hsound (M.symbol_later (M.later_trans hlater₃ hlast) hsymbol)) ?_
      rintro world₄ name hlater₄ rfl
      split
      · rename_i haccepts
        have harray : answers.container? ty' = some .array := by
          simp only [Bool.not_eq_true, Bool.not_eq_false'] at hobject
          rw [Answers.container?, if_pos hobject, hsymbol', Option.bind_some, ← hmembers,
            Option.bind_some, if_pos haccepts]
        have hty₄ := M.type_later (M.later_trans hlater₂ (M.later_trans hlater₃ hlater₄)) hty₁
        exact (confines_arrayItems hclosed hty₄ hmem harray).bind (similar_arrayItems hty₄)
          fun _ _ _ _ _ _ => confines_pure _
      · split
        · exact confines_pure _
        · split
          · exact confines_pure _
          · exact confines_pure _

omit hclosed

theorem confines_inheritFrom {recognize : τ → Inquiry τ σ ν (Option Schema)}
    {recognize' : τ' → Inquiry τ' σ' ν' (Option Schema)}
    (hsimilar : ∀ later ty ty', M.Later world later → M.type later ty ty' →
      M.Similar later (fun _ => Eq) (recognize ty) (recognize' ty'))
    (hrecognize : ∀ later ty ty', M.Later world later → M.type later ty ty' → ty' ∈ types →
      M.Confines types later (recognize ty))
    {bases : List τ} {bases' : List τ'} (hbases : List.Forall₂ (M.type world) bases bases')
    (hmem : ∀ base' ∈ bases', base' ∈ types) (inherited : Fields Schema) :
    M.Confines types world (inheritFrom recognize bases inherited) := by
  induction bases generalizing world bases' inherited with
  | nil => exact confines_pure _
  | cons base rest ih =>
    cases hbases with | @cons _ base' _ _ hbase hrest
    obtain ⟨hmem', hmemRest⟩ := List.forall_mem_cons.mp hmem
    have hbaseSimilar := hsimilar world base base' (M.later_refl _) hbase
    have hbaseConfined := hrecognize world base base' (M.later_refl _) hbase hmem'
    refine (confines_within hbase hmem' hbaseConfined hbaseSimilar).bind
      (similar_within hbase hbaseSimilar) ?_
    rintro later schema _ hlater rfl -
    exact ih (fun last ty ty' hlast => hsimilar last ty ty' (M.later_trans hlater hlast))
      (fun last ty ty' hlast => hrecognize last ty ty' (M.later_trans hlater hlast))
      (hrest.imp fun _ _ => M.type_later hlater) hmemRest _

theorem confines_resolveMembers (hlocation : M.site location location') {symbols : List σ}
    {symbols' : List σ'} (hsymbols : List.Forall₂ (M.symbol world) symbols symbols')
    (hmem : ∀ symbol' ∈ symbols', answers (.memberType symbol' location') ∈ types)
    (fields : Fields Schema) :
    M.Confines types world (resolveMembers location symbols fields) := by
  induction symbols generalizing world symbols' fields with
  | nil => exact confines_pure _
  | cons symbol rest ih =>
    cases hsymbols with | @cons _ symbol' _ _ hsymbol hrest
    obtain ⟨hmem', hmemRest⟩ := List.forall_mem_cons.mp hmem
    refine confines_question_bind (fun _ hlast hsound =>
      M.memberType hsound (M.symbol_later hlast hsymbol) hlocation) ?_
    intro world₁ member hlater₁ hmember
    refine confines_question_bind (fun _ hlast hsound =>
      M.symbolName hsound (M.symbol_later (M.later_trans hlater₁ hlast) hsymbol)) ?_
    rintro world₂ name hlater₂ rfl
    have hmember₂ := M.type_later hlater₂ hmember
    refine (confines_schemaOf hmember₂ hmem').bind (similar_schemaOf hmember₂) ?_
    rintro world₃ schema _ hlater₃ rfl -
    exact ih (hrest.imp fun _ _ =>
      M.symbol_later (M.later_trans hlater₁ (M.later_trans hlater₂ hlater₃))) hmemRest _

theorem confines_memberRecord {recognize : τ → Inquiry τ σ ν (Option Schema)}
    {recognize' : τ' → Inquiry τ' σ' ν' (Option Schema)}
    (hsimilar : ∀ later ty ty', M.Later world later → M.type later ty ty' →
      M.Similar later (fun _ => Eq) (recognize ty) (recognize' ty'))
    (hrecognize : ∀ later ty ty', M.Later world later → M.type later ty ty' → ty' ∈ types →
      M.Confines types later (recognize ty))
    (hlocation : M.site location location') (h : M.type world ty ty')
    (hbases : ∀ base' ∈ answers.baseTypes ty', base' ∈ types)
    (hmembers : ∀ member' ∈ (answers.members location' ty').map Prod.snd, member' ∈ types) :
    M.Confines types world (memberRecord recognize location (answers (.flags ty')) ty) := by
  -- What follows the question for base types, which is asked in one branch only.
  have hrest : ∀ later bases bases', M.Later world later →
      Option.Rel (List.Forall₂ (M.type later)) bases bases' →
      bases'.getD [] = answers.baseTypes ty' →
      M.Confines types later
        (do
          let inherited ← inheritFrom recognize (bases.getD []) []
          let own ← resolveMembers location (← Inquiry.question (.properties ty)) []
          let title ← symbolNameOf ty
          return some (.object title (Fields.merge inherited own)
            (Names.union (Names.union [] (Fields.keys inherited)) (Fields.keys own))) :
          Inquiry τ σ ν (Option Schema)) := by
    intro world₁ bases bases' hlater₁ hrel heq
    have hlists : List.Forall₂ (M.type world₁) (bases.getD []) (answers.baseTypes ty') := by
      rw [← heq]
      cases hrel with
      | none => exact .nil
      | some hrel => exact hrel
    have hsimilar₁ := fun later ty ty' hlater =>
      hsimilar later ty ty' (M.later_trans hlater₁ hlater)
    refine (confines_inheritFrom hsimilar₁
      (fun later ty ty' hlater => hrecognize later ty ty' (M.later_trans hlater₁ hlater))
      hlists hbases []).bind (similar_inheritFrom hsimilar₁ hlists []) ?_
    rintro world₂ inherited _ hlater₂ rfl -
    have hty₂ := M.type_later (M.later_trans hlater₁ hlater₂) h
    refine confines_question_bind
      (fun _ hlast hsound => M.properties hsound (M.type_later hlast hty₂)) ?_
    intro world₃ symbols hlater₃ hsymbols
    have hmembers' : ∀ symbol' ∈ answers (.properties ty'),
        answers (.memberType symbol' location') ∈ types := fun symbol' hsymbol' =>
      hmembers _ (List.mem_map_of_mem (List.mem_map_of_mem hsymbol'))
    refine (confines_resolveMembers hlocation hsymbols hmembers' []).bind
      (similar_resolveMembers hlocation hsymbols []) ?_
    rintro world₄ own _ hlater₄ rfl -
    have hty₄ := M.type_later (M.later_trans hlater₃ hlater₄) hty₂
    exact (confines_symbolNameOf hty₄).bind (similar_symbolNameOf hty₄)
      fun _ _ _ _ _ _ => confines_pure _
  rw [memberRecord]
  split
  · rename_i hinterface
    refine confines_question_bind
      (fun _ hlater hsound => M.bases hsound (M.type_later hlater h)) ?_
    intro later bases hlater hrel
    exact hrest later bases _ hlater hrel (if_pos hinterface).symm
  · rename_i hinterface
    exact hrest world none none (M.later_refl _) .none (if_neg hinterface).symm

/-- A call for a record of one of the types stays among them. -/
theorem confines_recognizeObject (hclosed : answers.Closed options location' types)
    (hlocation : M.site location location') (steps : Nat) (h : M.type world ty ty')
    (hmem : ty' ∈ types) :
    M.Confines types world (recognizeObject steps ⟨options, location⟩ ty) := by
  induction steps generalizing world ty ty' with
  | zero => exact confines_exhausted
  | succ steps ih =>
    rw [recognizeObject]
    refine confines_question_bind (fun _ hlater hsound => M.flags hsound (M.type_later hlater h)) ?_
    rintro world₁ flags hlater₁ rfl
    split
    · exact confines_pure _
    rename_i hobject
    have hty₁ := M.type_later hlater₁ h
    refine (confines_recognizeContainer hclosed hty₁ hmem).bind (similar_recognizeContainer hty₁) ?_
    rintro world₂ container _ hlater₂ rfl ⟨nestedValue, active, hcontainer⟩
    cases container with
    | some container => exact confines_pure _
    | none =>
      have hty₂ := M.type_later hlater₂ hty₁
      have hcontainer' : answers.container? ty' = none := by
        rw [value_recognizeContainer] at hcontainer
        cases hnone : answers.container? ty' with
        | none => rfl
        | some container =>
          rw [hnone, Option.elim_some, Option.map_eq_some_iff] at hcontainer
          obtain ⟨_, -, hcontainer⟩ := hcontainer
          cases hcontainer
      dsimp only
      split
      · exact confines_pure _
      rename_i htuple
      -- Whether there is no definition or it comes to nothing, the type makes its own record.
      have hrecord : ∀ later active nestedValue, M.Later world₂ later →
          (∀ target, answers.redirect? options ty' = some target →
            (Inquiry.within target (recognizeObject steps ⟨options, location'⟩ target)).value
              answers nestedValue active = some none) →
          M.Confines types later (memberRecord (recognizeObject steps ⟨options, location⟩)
            location (answers (.flags ty')) ty) := by
        intro later active nestedValue hlater hredirect
        have hown : Answers.OwnRecord answers options [] ty' :=
          (Answers.OwnRecord.of_redirect (by simpa using hobject) hcontainer'
            (Bool.eq_false_iff.mpr htuple) hredirect).mono (List.nil_subset active)
        exact confines_memberRecord
          (fun _ _ _ _ => similar_recognizeObject options hlocation steps) (fun _ _ _ _ => ih)
          hlocation (M.type_later hlater hty₂) (fun _ => hclosed.base hmem hown)
          fun _ => hclosed.member hmem hown
      refine (confines_redirectTarget _ hty₂).bind (similar_redirectTarget options _ hty₂) ?_
      rintro world₃ target target' hlater₃ htarget ⟨nestedValue, active, hvalue⟩
      rw [value_redirectTarget, Option.some.injEq] at hvalue
      cases htarget with
      | none =>
        refine hrecord world₃ active nestedValue hlater₃ fun target htarget => ?_
        cases hvalue.symm.trans htarget
      | @some target target' htarget =>
        have hmem' := hclosed.target hmem hvalue
        have hsimilar := similar_recognizeObject options hlocation steps htarget
        refine (confines_within htarget hmem' (ih htarget hmem') hsimilar).bind
          (similar_within htarget hsimilar) ?_
        rintro world₄ redirected _ hlater₄ rfl ⟨nestedValue', active', hredirected⟩
        cases redirected with
        | some schema => exact confines_pure _
        | none =>
          refine hrecord world₄ active' nestedValue' (M.later_trans hlater₃ hlater₄) ?_
          intro other hother
          cases hvalue.symm.trans hother
          exact hredirected

/-! ## Resolutions -/

/-- Trying recognizers one after the other stays among the types where each of them does. -/
theorem confined_of_tries {registered registry : Registry τ σ ν} {registry' : Registry τ' σ' ν'}
    {nested : τ → Resolution W τ Schema} {nestedValue : List τ' → τ' → Option Schema}
    {inner : τ → Run W τ → Run W τ → Prop} {fuel : Nat}
    (halike : List.Forall₂ M.AskAlike registry registry')
    (hconfines : ∀ recognizer ∈ registry,
      M.Confines types world (recognizer.recognize fuel ⟨options, location⟩ ty))
    (hlocation : M.site location location') (h : M.type world ty ty')
    (hnested : M.NestedConfined types world depth nested nestedValue inner)
    (hrun : M.Later world run.world) (hmatch : M.Matches run active depth)
    (htries : Resolver.Tries ⟨checker, registered, options⟩ nested inner fuel location ty registry
      run moment) : M.Confined types run moment := by
  induction htries generalizing registry' with
  | trying hpasses =>
    exact hconfines _ List.mem_cons_self depth nested nestedValue inner hnested _ active _ hrun
      hmatch hpasses
  | declined hcall _ ih =>
    cases halike with | cons hhead hrest
    obtain ⟨hlater, hactive, hmatch', -⟩ := (hhead fuel options location location' world ty ty'
      hlocation h depth nested nestedValue hnested.follows).of_ok hrun hmatch hcall
    exact .of_later hlater hactive (ih hrest
      (fun recognizer hmem => hconfines recognizer (List.mem_cons_of_mem _ hmem))
      (M.later_trans hrun hlater) hmatch')

/-- Every recognizer of the shipped registry stays among the types. -/
theorem confines_shipped (hclosed : answers.Closed options location' types)
    (hlocation : M.site location location') (fuel : Nat) (h : M.type world ty ty')
    (hmem : ty' ∈ types) : ∀ recognizer ∈ (Registry.shipped : Registry τ σ ν),
      M.Confines types world (recognizer.recognize fuel ⟨options, location⟩ ty) := by
  refine List.forall_mem_cons.mpr ⟨confines_recognizeIntrinsic h, ?_⟩
  refine List.forall_mem_cons.mpr ⟨confines_recognizeContainer hclosed h hmem, ?_⟩
  exact List.forall_mem_singleton.mpr (confines_recognizeObject hclosed hlocation fuel h hmem)

/-- In every state that a resolution of one of the types goes through, what is in progress was in
progress before or stands for one of them. -/
theorem confined_of_passes (hclosed : answers.Closed options location' types)
    (hlocation : M.site location location') {fuel : Nat} (hmatch : M.Matches run active depth)
    (h : M.type run.world ty ty') (hmem : ty' ∈ types)
    (hpasses : (Resolver.shipped checker options).Passes location fuel ty run moment) :
    M.Confined types run moment := by
  induction fuel generalizing ty ty' run active depth moment with
  | zero =>
    obtain rfl : moment = run := hpasses
    exact .refl hmatch.sound
  | succ fuel ih =>
    rcases hpasses with rfl | ⟨-, -, htries⟩
    · exact .refl hmatch.sound
    · have hnested : M.NestedConfined types run.world (depth + 1)
          (fun ty => (Resolver.shipped checker options).resolveType fuel location ty none)
          (fun active ty' => answers.resolveValue Registry.shipped options location' fuel
            (depth + 1) active ty' none)
          ((Resolver.shipped checker options).Passes location fuel) := {
        follows := fun _ _ _ _ => follows_resolveType askAlike_shipped hlocation fuel none
        confined := fun _ => ih }
      have hentered : M.Confined types
          { run with active := ty :: run.active, depth := run.depth + 1 } moment :=
        confined_of_tries askAlike_shipped (confines_shipped hclosed hlocation fuel h hmem)
          hlocation h hnested (M.later_refl _)
          ⟨hmatch.sound, .cons h hmatch.active, congrArg (· + 1) hmatch.depth⟩ htries
      exact hentered.enter rfl rfl h hmem

end Shipped

end Models

end GraphSchema
