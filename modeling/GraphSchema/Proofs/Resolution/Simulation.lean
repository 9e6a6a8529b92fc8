import Mathlib
import GraphSchema.Proofs.Resolution.Restoring
import GraphSchema.Proofs.Resolution.Value

/-!
# Runs that follow their values

A checker *models* fixed answers when, in every sound state of its world, each of its handles
stands for one type of the answers and each reply agrees with the answer about that type.  The
world may change with every question, as long as what a handle stands for stays: `Models.Later`
orders the worlds, and the relations `Models.type` and `Models.symbol` persist along it.

The main statement is `Models.follows_resolveType`: a resolution by recognizers that ask alike
ends exactly when its value is not `none`, with that value, and it puts the types in progress and
the nesting depth back.  It is proved inquiry by inquiry: `Models.Similar` relates two inquiries
of which one is carried out and one has a value, and each of the shipped recognizers is similar
to itself (`Models.similar_recognizeObject` and the lemmas before it).
-/

namespace GraphSchema

variable {W τ σ ν τ' σ' ν' α β γ δ : Type}

/-- A question is replied to, in a sound state that is later than the one it was put in. -/
def Checker.Replies (checker : Checker W τ σ ν) (Sound : W → Prop) (Later : W → W → Prop)
    (world : W) (question : Question τ σ ν) (related : W → question.Answer → Prop) : Prop :=
  ∃ reply, checker.reply question world = .ok reply ∧ Sound reply.world ∧
    Later world reply.world ∧ related reply.world reply.answer

/-- How the handles, symbols and sites of a checker stand for those of fixed answers. -/
structure Models (checker : Checker W τ σ ν) (answers : Answers τ' σ' ν') where
  Sound : W → Prop
  Later : W → W → Prop
  type : W → τ → τ' → Prop
  symbol : W → σ → σ' → Prop
  site : ν → ν' → Prop
  later_refl : ∀ world, Later world world
  later_trans : ∀ {first second third},
    Later first second → Later second third → Later first third
  type_later : ∀ {world later ty ty'}, Later world later → type world ty ty' → type later ty ty'
  symbol_later : ∀ {world later s s'},
    Later world later → symbol world s s' → symbol later s s'
  type_unique : ∀ {world a a' b b'},
    Sound world → type world a a' → type world b b' → (a = b ↔ a' = b')
  flags : ∀ {world ty ty'}, Sound world → type world ty ty' →
    checker.Replies Sound Later world (.flags ty) fun _ answer => answer = answers (.flags ty')
  intrinsic : ∀ {world ty ty'}, Sound world → type world ty ty' →
    checker.Replies Sound Later world (.intrinsic ty)
      fun _ answer => answer = answers (.intrinsic ty')
  symbolOf : ∀ {world ty ty'}, Sound world → type world ty ty' →
    checker.Replies Sound Later world (.symbol ty)
      fun later answer => Option.Rel (symbol later) answer (answers (.symbol ty'))
  symbolName : ∀ {world s s'}, Sound world → symbol world s s' →
    checker.Replies Sound Later world (.symbolName s)
      fun _ answer => answer = answers (.symbolName s')
  memberNames : ∀ {world s s'}, Sound world → symbol world s s' →
    checker.Replies Sound Later world (.memberNames s)
      fun _ answer => answer = answers (.memberNames s')
  properties : ∀ {world ty ty'}, Sound world → type world ty ty' →
    checker.Replies Sound Later world (.properties ty)
      fun later answer => List.Forall₂ (symbol later) answer (answers (.properties ty'))
  target : ∀ {world ty ty'}, Sound world → type world ty ty' →
    checker.Replies Sound Later world (.target ty)
      fun later answer => Option.Rel (type later) answer (answers (.target ty'))
  arguments : ∀ {world ty ty'}, Sound world → type world ty ty' →
    checker.Replies Sound Later world (.arguments ty)
      fun later answer =>
        Option.Rel (List.Forall₂ (type later)) answer (answers (.arguments ty'))
  bases : ∀ {world ty ty'}, Sound world → type world ty ty' →
    checker.Replies Sound Later world (.bases ty)
      fun later answer => Option.Rel (List.Forall₂ (type later)) answer (answers (.bases ty'))
  memberType : ∀ {world s s' node node'}, Sound world → symbol world s s' → site node node' →
    checker.Replies Sound Later world (.memberType s node)
      fun later answer => type later answer (answers (.memberType s' node'))
  siteType : ∀ {world node node'}, Sound world → site node node' →
    checker.Replies Sound Later world (.siteType node)
      fun later answer => type later answer (answers (.siteType node'))
  siteName : ∀ {world node node'}, Sound world → site node node' →
    checker.Replies Sound Later world (.siteName node)
      fun _ answer => answer = answers (.siteName node')

namespace Models

variable {checker : Checker W τ σ ν} {answers : Answers τ' σ' ν'} (M : Models checker answers)

/-! ## Steps and their values -/

/-- The state of a run is the one that a value is taken in. -/
structure Matches (run : Run W τ) (active : List τ') (depth : Nat) : Prop where
  sound : M.Sound run.world
  active : List.Forall₂ (M.type run.world) run.active active
  depth : run.depth = depth

/-- What leaves the types in progress and the depth as they were leaves a state for the same
values. -/
theorem Matches.after {M : Models checker answers} {run after : Run W τ} {active : List τ'}
    {depth : Nat} (h : M.Matches run active depth) (hsound : M.Sound after.world)
    (hlater : M.Later run.world after.world) (hactive : after.active = run.active)
    (hdepth : after.depth = run.depth) : M.Matches after active depth :=
  ⟨hsound, hactive ▸ h.active.imp fun _ _ => M.type_later hlater, hdepth.trans h.depth⟩

/-- A step that started in `run` ends with a value, or exhausted where there is none. -/
def Ends (run : Run W τ) (related : W → α → β → Prop) (outcome : Except Stop (α × Run W τ)) :
    Option β → Prop
  | none => outcome = .error .exhausted
  | some value => ∃ result after, outcome = .ok (result, after) ∧ M.Sound after.world ∧
      M.Later run.world after.world ∧ after.active = run.active ∧ after.depth = run.depth ∧
      related after.world result value

/-- A step ends with its value whenever it starts in a world later than `world`. -/
def Follows (world : W) (depth : Nat) (related : W → α → β → Prop) (step : Resolution W τ α)
    (value : List τ' → Option β) : Prop :=
  ∀ run active, M.Later world run.world → M.Matches run active depth →
    M.Ends run related (step run) (value active)

variable {M} {world : W} {depth : Nat} {related : W → α → β → Prop} {step : Resolution W τ α}
  {value : List τ' → Option β}

theorem Follows.of_eq {g : List τ' → Option β} (h : M.Follows world depth related step g)
    (heq : ∀ active, value active = g active) : M.Follows world depth related step value := by
  rwa [funext heq]

theorem Follows.pure {a : α} {b : β}
    (h : ∀ later, M.Later world later → M.Sound later → related later a b) :
    M.Follows world depth related (Pure.pure a) fun _ => some b := by
  intro run active hrun hmatch
  exact ⟨a, run, rfl, hmatch.sound, M.later_refl _, rfl, rfl, h _ hrun hmatch.sound⟩

theorem follows_exhausted :
    M.Follows world depth related (throw .exhausted : Resolution W τ α) fun _ => none :=
  fun _ _ _ _ => rfl

/-- A sequence of steps follows the sequence of their values. -/
theorem Follows.bind {S : W → γ → δ → Prop} {f : α → Resolution W τ γ}
    {g : β → List τ' → Option δ} (h : M.Follows world depth related step value)
    (hrest : ∀ later a b, M.Later world later → related later a b →
      M.Follows later depth S (f a) (g b)) :
    M.Follows world depth S (step >>= f) fun active => (value active).bind fun b => g b active := by
  intro run active hrun hmatch
  have hstep := h run active hrun hmatch
  show M.Ends run S ((step run).bind fun result => f result.1 result.2)
    ((value active).bind fun b => g b active)
  cases hvalue : value active with
  | none =>
    rw [hvalue] at hstep
    rw [show step run = .error .exhausted from hstep]
    rfl
  | some b =>
    rw [hvalue] at hstep
    obtain ⟨a, after, hok, hsound, hlater, hactive, hdepth, hab⟩ := hstep
    have hnext := hrest after.world a b (M.later_trans hrun hlater) hab after active
      (M.later_refl _) (hmatch.after hsound hlater hactive hdepth)
    rw [hok]
    show M.Ends run S (f a after) (g b active)
    cases hvalue' : g b active with
    | none => rwa [hvalue'] at hnext
    | some d =>
      rw [hvalue'] at hnext
      obtain ⟨c, last, hok', hsound', hlater', hactive', hdepth', hcd⟩ := hnext
      exact ⟨c, last, hok', hsound', M.later_trans hlater hlater', hactive'.trans hactive,
        hdepth'.trans hdepth, hcd⟩

/-- Leaving a type keeps the value of the step inside, at the depth outside. -/
theorem Ends.leave {run : Run W τ} {outcome : Except Stop (Option Schema × Run W τ)}
    {value : Option (Option Schema)}
    (h : M.Ends { run with depth := depth } (fun _ => Eq) outcome value) :
    M.Ends run (fun _ => Eq)
      (outcome.bind fun result =>
        .ok (result.1.getD (.any none), { result.2 with depth := run.depth }))
      (value.map fun schema => schema.getD (.any none)) := by
  cases value with
  | none =>
    rw [show outcome = .error .exhausted from h]
    rfl
  | some schema =>
    obtain ⟨result, after, rfl, hsound, hlater, hactive, -, rfl⟩ := h
    exact ⟨_, _, rfl, hsound, hlater, hactive, rfl, rfl⟩

theorem follows_report (event : Event τ) :
    M.Follows world depth (fun _ _ _ => True) (Resolution.report event) fun _ => some () :=
  fun run _ _ hmatch =>
    ⟨(), { run with log := event :: run.log }, rfl, hmatch.sound, M.later_refl _, rfl, rfl,
      trivial⟩

/-- Putting a question follows the answer that the reply agrees with. -/
theorem follows_ask {q : Question τ σ ν} {q' : Question τ' σ' ν'}
    {related : W → q.Answer → q'.Answer → Prop}
    (h : ∀ later, M.Later world later → M.Sound later →
      checker.Replies M.Sound M.Later later q fun last answer =>
        related last answer (answers q')) :
    M.Follows world depth related (Resolution.ask checker q) fun _ => some (answers q') := by
  intro run active hrun hmatch
  obtain ⟨reply, hok, hsound, hlater, hrel⟩ := h run.world hrun hmatch.sound
  refine ⟨reply.answer,
    { run with world := reply.world, log := reply.notices.reverse ++ run.log }, ?_, hsound,
    hlater, rfl, rfl, hrel⟩
  show (checker.reply q run.world).bind _ = _
  rw [hok]
  rfl

theorem follows_symbolName {ty : τ} {ty' : τ'} (h : M.type world ty ty') :
    M.Follows world depth (fun _ => Eq) (Resolution.symbolName checker ty)
      fun _ => some (answers.symbolName ty') := by
  have hask : M.Follows world depth _ _ _ := follows_ask
    fun later hlater hsound => M.symbolOf hsound (M.type_later hlater h)
  refine hask.bind (g := fun symbol _ =>
    some (symbol.map fun symbol => answers (.symbolName symbol))) ?_
  intro later symbol symbol' _ hsymbol
  cases hsymbol with
  | none => exact .pure fun _ _ _ => rfl
  | some hsymbol =>
    have hname : M.Follows later depth _ _ _ := follows_ask
      fun last hlater hsound => M.symbolName hsound (M.symbol_later hlater hsymbol)
    refine hname.bind (g := fun name _ => some (some name)) ?_
    rintro last name _ _ rfl
    exact .pure fun _ _ _ => rfl

theorem follows_typeName {location : ν} {location' : ν'} {ty : τ} {ty' : τ'}
    (hlocation : M.site location location') (h : M.type world ty ty') :
    M.Follows world depth (fun _ => Eq) (Resolution.typeName checker ty location)
      fun _ => some (answers.siteTitle location' ty') := by
  refine (follows_symbolName h).bind
    (g := fun name _ => some (name.or (answers (.siteName location')))) ?_
  rintro later name _ _ rfl
  cases name with
  | some name => exact .pure fun _ _ _ => rfl
  | none => exact follows_ask fun last _ hsound => M.siteName hsound hlocation

theorem follows_backReference {ty : τ} {ty' : τ'} (h : M.type world ty ty') :
    M.Follows world depth (fun _ => Eq) (Resolution.backReference checker ty)
      fun _ => some (answers.backReference ty') := by
  refine (follows_symbolName h).bind
    (g := fun name _ => some (Schema.reference ("#" ++ name.getD ""))) ?_
  rintro later name _ _ rfl
  refine (follows_report (.recursion ty name)).bind
    (g := fun _ _ => some (Schema.reference ("#" ++ name.getD ""))) ?_
  exact fun _ _ _ _ _ => .pure fun _ _ _ => rfl

/-- A type is in progress in a run where what it stands for is in progress for the value. -/
theorem mem_active_iff {handles : List τ} {types : List τ'} (hsound : M.Sound world)
    (hall : List.Forall₂ (M.type world) handles types) {ty : τ} {ty' : τ'}
    (h : M.type world ty ty') : ty ∈ handles ↔ ty' ∈ types := by
  induction hall with
  | nil => simp
  | cons hhead _ ih => rw [List.mem_cons, List.mem_cons, ih, M.type_unique hsound h hhead]

variable (M) in
/-- Nested types are resolved alike, from `world` on. -/
def NestedFollows (world : W) (depth : Nat) (nested : τ → Resolution W τ Schema)
    (nestedValue : List τ' → τ' → Option Schema) : Prop :=
  ∀ later ty ty', M.Later world later → M.type later ty ty' →
    M.Follows later depth (fun _ => Eq) (nested ty) fun active => nestedValue active ty'

theorem NestedFollows.later {later : W} {nested : τ → Resolution W τ Schema}
    {nestedValue : List τ' → τ' → Option Schema}
    (h : M.NestedFollows world depth nested nestedValue) (hlater : M.Later world later) :
    M.NestedFollows later depth nested nestedValue :=
  fun last ty ty' hlast => h last ty ty' (M.later_trans hlater hlast)

variable [DecidableEq τ] [DecidableEq τ']

/-- A step that marks a type as in progress follows the value with the type in progress. -/
theorem Follows.guarded {ty : τ} {ty' : τ'} {body : Resolution W τ (Option Schema)}
    {g : List τ' → Option (Option Schema)} (hty : M.type world ty ty')
    (h : M.Follows world depth (fun _ => Eq) body g) :
    M.Follows world depth (fun _ => Eq) (Resolution.guarded checker ty body) fun active =>
      if ty' ∈ active then some (some (answers.backReference ty')) else g (ty' :: active) := by
  intro run active hrun hmatch
  have hmem := mem_active_iff hmatch.sound hmatch.active (M.type_later hrun hty)
  rw [Resolution.guarded_apply]
  dsimp only
  by_cases hactive : ty ∈ run.active
  · rw [if_pos hactive, if_pos (hmem.mp hactive)]
    have hsame : M.Follows world depth _ _ _ := follows_backReference hty
    have hback := hsame.bind (S := fun _ => Eq) (f := fun schema => Pure.pure (some schema))
      (g := fun schema _ => some (some schema))
      (by rintro later schema _ _ rfl; exact .pure fun _ _ _ => rfl)
    exact hback run active hrun hmatch
  · rw [if_neg hactive, if_neg fun hmem' => hactive (hmem.mpr hmem')]
    have hbody := h { run with active := ty :: run.active } (ty' :: active) hrun
      ⟨hmatch.sound, .cons (M.type_later hrun hty) hmatch.active, hmatch.depth⟩
    show M.Ends run (fun _ => Eq) ((body { run with active := ty :: run.active }).bind
      fun result => .ok (result.1, { result.2 with active := result.2.active.erase ty }))
      (g (ty' :: active))
    cases hvalue : g (ty' :: active) with
    | none =>
      rw [hvalue] at hbody
      rw [show body _ = .error .exhausted from hbody]
      rfl
    | some schema' =>
      rw [hvalue] at hbody
      obtain ⟨schema, after, hok, hsound, hlater, hafter, hdepth, heq⟩ := hbody
      rw [hok]
      refine ⟨schema, _, rfl, hsound, hlater, ?_, hdepth, heq⟩
      show after.active.erase ty = run.active
      rw [hafter, List.erase_cons_head]

/-! ## Inquiries that ask alike -/

variable (M) in
/-- Carrying out the first inquiry follows the value of the second, from `world` on. -/
def Similar (world : W) (related : W → α → β → Prop) (first : Inquiry τ σ ν α)
    (second : Inquiry τ' σ' ν' β) : Prop :=
  ∀ depth nested nestedValue, M.NestedFollows world depth nested nestedValue →
    M.Follows world depth related (first.carryOut checker nested)
      (second.value answers nestedValue)

theorem similar_pure {a : α} {b : β}
    (h : ∀ later, M.Later world later → M.Sound later → related later a b) :
    M.Similar world related (pure a) (pure b) :=
  fun _ _ _ _ => .pure h

theorem similar_exhausted : M.Similar world related .exhausted .exhausted :=
  fun _ _ _ _ => follows_exhausted

/-- Carrying out a sequence is carrying out its parts in sequence. -/
theorem carryOut_bind (checker : Checker W τ σ ν) (nested : τ → Resolution W τ Schema)
    (first : Inquiry τ σ ν α) (rest : α → Inquiry τ σ ν γ) :
    (first >>= rest).carryOut checker nested =
      first.carryOut checker nested >>= fun result => (rest result).carryOut checker nested := by
  show (first.andThen rest).carryOut checker nested = _
  induction first with
  | done result => rfl
  | ask question next ih =>
    rw [Inquiry.andThen, Inquiry.carryOut, Inquiry.carryOut, bind_assoc]
    exact bind_congr fun answer => ih answer rest
  | resolve ty next ih =>
    rw [Inquiry.andThen, Inquiry.carryOut, Inquiry.carryOut, bind_assoc]
    exact bind_congr fun schema => ih schema rest
  | guarded ty body next _ ih =>
    rw [Inquiry.andThen, Inquiry.carryOut, Inquiry.carryOut, bind_assoc]
    exact bind_congr fun schema => ih schema rest
  | exhausted => rfl

theorem similar_bind {S : W → γ → δ → Prop} {first : Inquiry τ σ ν α}
    {second : Inquiry τ' σ' ν' β} {f : α → Inquiry τ σ ν γ} {g : β → Inquiry τ' σ' ν' δ}
    (h : M.Similar world related first second)
    (hrest : ∀ later a b, M.Later world later → related later a b →
      M.Similar later S (f a) (g b)) :
    M.Similar world S (first >>= f) (second >>= g) := by
  intro depth nested nestedValue hnested
  rw [carryOut_bind]
  have hbind := (h depth nested nestedValue hnested).bind (S := S)
    (f := fun a => (f a).carryOut checker nested)
    (g := fun b => (g b).value answers nestedValue)
    fun later a b hlater hab => hrest later a b hlater hab depth nested nestedValue
      (hnested.later hlater)
  exact hbind.of_eq fun active => Inquiry.value_bind answers nestedValue active second g

theorem similar_of_ite {condition : Prop} [Decidable condition] {first second : Inquiry τ σ ν α}
    {first' second' : Inquiry τ' σ' ν' β} (hfirst : M.Similar world related first first')
    (hsecond : M.Similar world related second second') :
    M.Similar world related (if condition then first else second)
      (if condition then first' else second') := by
  split
  · exact hfirst
  · exact hsecond

theorem similar_question {q : Question τ σ ν} {q' : Question τ' σ' ν'}
    {related : W → q.Answer → q'.Answer → Prop}
    (h : ∀ later, M.Later world later → M.Sound later →
      checker.Replies M.Sound M.Later later q fun last answer =>
        related last answer (answers q')) :
    M.Similar world related (Inquiry.question q) (Inquiry.question q') := by
  intro depth nested nestedValue _
  show M.Follows world depth related (Resolution.ask checker q >>= Pure.pure)
    fun _ => some (answers q')
  rw [bind_pure]
  exact follows_ask h

theorem similar_schemaOf {ty : τ} {ty' : τ'} (h : M.type world ty ty') :
    M.Similar world (fun _ => Eq) (Inquiry.schemaOf ty) (Inquiry.schemaOf ty') := by
  intro depth nested nestedValue hnested
  show M.Follows world depth (fun _ => Eq) (nested ty >>= Pure.pure) _
  rw [bind_pure]
  exact (hnested world ty ty' (M.later_refl _) h).of_eq fun active =>
    Inquiry.value_schemaOf answers nestedValue active ty'

theorem similar_within {ty : τ} {ty' : τ'} {body : Inquiry τ σ ν (Option Schema)}
    {body' : Inquiry τ' σ' ν' (Option Schema)} (hty : M.type world ty ty')
    (h : M.Similar world (fun _ => Eq) body body') :
    M.Similar world (fun _ => Eq) (Inquiry.within ty body) (Inquiry.within ty' body') := by
  intro depth nested nestedValue hnested
  show M.Follows world depth (fun _ => Eq)
    (Resolution.guarded checker ty (body.carryOut checker nested) >>= Pure.pure) _
  rw [bind_pure]
  exact ((h depth nested nestedValue hnested).guarded hty).of_eq fun active =>
    Inquiry.value_within answers nestedValue active ty' body'

/-! ## The shipped recognizers ask alike -/

section Shipped

variable {ty : τ} {ty' : τ'}

theorem similar_flags (h : M.type world ty ty') :
    M.Similar world (fun _ => Eq) (Inquiry.question (.flags ty))
      (Inquiry.question (.flags ty')) :=
  similar_question fun _ hlater hsound => M.flags hsound (M.type_later hlater h)

theorem similar_recognizeIntrinsic (h : M.type world ty ty') :
    M.Similar world (fun _ => Eq) (recognizeIntrinsic ty) (recognizeIntrinsic ty') := by
  refine similar_bind
    (similar_question fun _ hlater hsound => M.intrinsic hsound (M.type_later hlater h)) ?_
  intro later kind kind' _ hkind
  exact similar_pure fun _ _ _ => by rw [hkind]

theorem similar_arrayItems (h : M.type world ty ty') :
    M.Similar world (fun _ => Eq) (arrayItems ty) (arrayItems ty') := by
  refine similar_bind
    (similar_question fun _ hlater hsound => M.arguments hsound (M.type_later hlater h)) ?_
  intro later list list' hlater hlist
  cases hlist with
  | none => exact similar_pure fun _ _ _ => rfl
  | some hlist =>
    cases hlist with
    | nil => exact similar_pure fun _ _ _ => rfl
    | cons hitem hrest =>
      cases hrest with
      | nil =>
        refine similar_bind (similar_flags (M.type_later hlater h)) ?_
        rintro last flags _ hlast rfl
        split
        · exact similar_schemaOf (M.type_later hlast hitem)
        · exact similar_pure fun _ _ _ => rfl
      | cons _ _ => exact similar_pure fun _ _ _ => rfl

theorem similar_recognizeContainer (h : M.type world ty ty') :
    M.Similar world (fun _ => Eq) (recognizeContainer ty) (recognizeContainer ty') := by
  refine similar_bind (similar_flags h) ?_
  rintro later flags _ hlater rfl
  split
  · exact similar_pure fun _ _ _ => rfl
  have hty := M.type_later hlater h
  refine similar_bind
    (similar_question fun _ hlast hsound => M.symbolOf hsound (M.type_later hlast hty)) ?_
  rintro world₁ symbol symbol' hlater₁ hsymbol
  cases hsymbol with
  | none => exact similar_pure fun _ _ _ => rfl
  | some hsymbol =>
    refine similar_bind (similar_question fun _ hlast hsound =>
      M.memberNames hsound (M.symbol_later hlast hsymbol)) ?_
    rintro world₂ members _ hlater₂ rfl
    split
    · exact similar_pure fun _ _ _ => rfl
    refine similar_bind (similar_question fun _ hlast hsound =>
      M.symbolName hsound (M.symbol_later (M.later_trans hlater₂ hlast) hsymbol)) ?_
    rintro world₃ name _ hlater₃ rfl
    have hty₃ := M.type_later (M.later_trans hlater₁ (M.later_trans hlater₂ hlater₃)) hty
    split
    · refine similar_bind (similar_arrayItems hty₃) ?_
      rintro last items _ _ rfl
      exact similar_pure fun _ _ _ => rfl
    · exact similar_of_ite (similar_pure fun _ _ _ => rfl)
        (similar_of_ite (similar_pure fun _ _ _ => rfl) (similar_pure fun _ _ _ => rfl))

theorem similar_symbolNameOf (h : M.type world ty ty') :
    M.Similar world (fun _ => Eq) (symbolNameOf ty) (symbolNameOf ty') := by
  refine similar_bind
    (similar_question fun _ hlater hsound => M.symbolOf hsound (M.type_later hlater h)) ?_
  intro later symbol symbol' _ hsymbol
  cases hsymbol with
  | none => exact similar_pure fun _ _ _ => rfl
  | some hsymbol =>
    refine similar_bind (similar_question fun _ hlast hsound =>
      M.symbolName hsound (M.symbol_later hlast hsymbol)) ?_
    rintro last name _ _ rfl
    exact similar_pure fun _ _ _ => rfl

/-- The target of an instantiation is set aside where it is the type itself, in both answers. -/
theorem rel_filter_ne {later : W} (hlater : M.Later world later) (hsound : M.Sound later)
    (h : M.type world ty ty') {target : Option τ} {target' : Option τ'}
    (htarget : Option.Rel (M.type world) target target') :
    Option.Rel (M.type later) (target.filter (· ≠ ty)) (target'.filter (· ≠ ty')) := by
  cases htarget with
  | none => exact .none
  | @some target target' htarget =>
    have heq := M.type_unique hsound (M.type_later hlater htarget) (M.type_later hlater h)
    rw [Option.filter_some, Option.filter_some]
    by_cases hself : target = ty
    · rw [if_neg (by simpa using hself), if_neg (by simpa using heq.mp hself)]
      exact .none
    · have hself' : target' ≠ ty' := fun h' => hself (heq.mpr h')
      rw [if_pos (by simpa using hself), if_pos (by simpa using hself')]
      exact .some (M.type_later hlater htarget)

theorem similar_redirectTarget (options : Options) (flags : Flags) (h : M.type world ty ty') :
    M.Similar world (fun later => Option.Rel (M.type later)) (redirectTarget options flags ty)
      (redirectTarget options flags ty') := by
  rw [redirectTarget, redirectTarget]
  split
  · refine similar_bind
      (similar_question fun _ hlater hsound => M.target hsound (M.type_later hlater h)) ?_
    intro later target target' hlater htarget
    refine similar_pure fun last hlast hsound => ?_
    exact rel_filter_ne hlast hsound (M.type_later hlater h) htarget
  · exact similar_pure fun _ _ _ => .none

theorem similar_inheritFrom {recognize : τ → Inquiry τ σ ν (Option Schema)}
    {recognize' : τ' → Inquiry τ' σ' ν' (Option Schema)}
    (hrecognize : ∀ later ty ty', M.Later world later → M.type later ty ty' →
      M.Similar later (fun _ => Eq) (recognize ty) (recognize' ty'))
    {bases : List τ} {bases' : List τ'} (hbases : List.Forall₂ (M.type world) bases bases')
    (inherited : Fields Schema) :
    M.Similar world (fun _ => Eq) (inheritFrom recognize bases inherited)
      (inheritFrom recognize' bases' inherited) := by
  induction bases generalizing world bases' inherited with
  | nil =>
    cases hbases
    exact similar_pure fun _ _ _ => rfl
  | cons base rest ih =>
    cases hbases with | cons hbase hrest
    refine similar_bind
      (similar_within hbase (hrecognize world _ _ (M.later_refl _) hbase)) ?_
    rintro later schema _ hlater rfl
    exact ih (fun last ty ty' hlast => hrecognize last ty ty' (M.later_trans hlater hlast))
      (hrest.imp fun _ _ => M.type_later hlater) _

theorem similar_resolveMembers {location : ν} {location' : ν'}
    (hlocation : M.site location location') {symbols : List σ} {symbols' : List σ'}
    (hsymbols : List.Forall₂ (M.symbol world) symbols symbols') (fields : Fields Schema) :
    M.Similar world (fun _ => Eq) (resolveMembers location symbols fields)
      (resolveMembers location' symbols' fields) := by
  induction symbols generalizing world symbols' fields with
  | nil =>
    cases hsymbols
    exact similar_pure fun _ _ _ => rfl
  | cons symbol rest ih =>
    cases hsymbols with | cons hsymbol hrest
    refine similar_bind (similar_question fun _ hlast hsound =>
      M.memberType hsound (M.symbol_later hlast hsymbol) hlocation) ?_
    intro world₁ member member' hlater₁ hmember
    refine similar_bind (similar_question fun _ hlast hsound =>
      M.symbolName hsound (M.symbol_later (M.later_trans hlater₁ hlast) hsymbol)) ?_
    rintro world₂ name _ hlater₂ rfl
    refine similar_bind (similar_schemaOf (M.type_later hlater₂ hmember)) ?_
    rintro world₃ schema _ hlater₃ rfl
    exact ih (hrest.imp fun _ _ =>
      M.symbol_later (M.later_trans hlater₁ (M.later_trans hlater₂ hlater₃))) _

theorem similar_memberRecord {recognize : τ → Inquiry τ σ ν (Option Schema)}
    {recognize' : τ' → Inquiry τ' σ' ν' (Option Schema)}
    (hrecognize : ∀ later ty ty', M.Later world later → M.type later ty ty' →
      M.Similar later (fun _ => Eq) (recognize ty) (recognize' ty'))
    {location : ν} {location' : ν'} (hlocation : M.site location location') (flags : Flags)
    (h : M.type world ty ty') :
    M.Similar world (fun _ => Eq) (memberRecord recognize location flags ty)
      (memberRecord recognize' location' flags ty') := by
  -- What follows the question for base types, which is asked in one branch only.
  have hrest : ∀ later bases bases', M.Later world later →
      Option.Rel (List.Forall₂ (M.type later)) bases bases' →
      M.Similar later (fun _ => Eq)
        (do
          let inherited ← inheritFrom recognize (bases.getD []) []
          let own ← resolveMembers location (← Inquiry.question (.properties ty)) []
          let title ← symbolNameOf ty
          return some (.object title (Fields.merge inherited own)
            (Names.union (Names.union [] (Fields.keys inherited)) (Fields.keys own))) :
          Inquiry τ σ ν (Option Schema))
        (do
          let inherited ← inheritFrom recognize' (bases'.getD []) []
          let own ← resolveMembers location' (← Inquiry.question (.properties ty')) []
          let title ← symbolNameOf ty'
          return some (.object title (Fields.merge inherited own)
            (Names.union (Names.union [] (Fields.keys inherited)) (Fields.keys own))) :
          Inquiry τ' σ' ν' (Option Schema)) := by
    intro world₁ bases bases' hlater₁ hbases
    have hlists : List.Forall₂ (M.type world₁) (bases.getD []) (bases'.getD []) := by
      cases hbases with
      | none => exact .nil
      | some hbases => exact hbases
    refine similar_bind (similar_inheritFrom
      (fun later ty ty' hlater => hrecognize later ty ty' (M.later_trans hlater₁ hlater))
      hlists []) ?_
    rintro world₂ inherited _ hlater₂ rfl
    have hty₂ := M.type_later (M.later_trans hlater₁ hlater₂) h
    refine similar_bind (similar_question fun _ hlast hsound =>
      M.properties hsound (M.type_later hlast hty₂)) ?_
    intro world₃ symbols symbols' hlater₃ hsymbols
    refine similar_bind (similar_resolveMembers hlocation hsymbols []) ?_
    rintro world₄ own _ hlater₄ rfl
    refine similar_bind
      (similar_symbolNameOf (M.type_later (M.later_trans hlater₃ hlater₄) hty₂)) ?_
    rintro world₅ title _ _ rfl
    exact similar_pure fun _ _ _ => rfl
  rw [memberRecord, memberRecord]
  split
  · exact similar_bind
      (similar_question fun _ hlater hsound => M.bases hsound (M.type_later hlater h)) hrest
  · exact similar_bind (similar_pure fun _ _ _ => .none) hrest

theorem similar_recognizeObject (options : Options) {location : ν} {location' : ν'}
    (hlocation : M.site location location') (steps : Nat) (h : M.type world ty ty') :
    M.Similar world (fun _ => Eq) (recognizeObject steps ⟨options, location⟩ ty)
      (recognizeObject steps ⟨options, location'⟩ ty') := by
  induction steps generalizing world ty ty' with
  | zero => exact similar_exhausted
  | succ steps ih =>
    rw [recognizeObject, recognizeObject]
    refine similar_bind (similar_flags h) ?_
    rintro world₁ flags _ hlater₁ rfl
    split
    · exact similar_pure fun _ _ _ => rfl
    have hty₁ := M.type_later hlater₁ h
    refine similar_bind (similar_recognizeContainer hty₁) ?_
    rintro world₂ container _ hlater₂ rfl
    cases container with
    | some container => exact similar_pure fun _ _ _ => rfl
    | none =>
      have hty₂ := M.type_later hlater₂ hty₁
      refine similar_of_ite (similar_pure fun _ _ _ => rfl) ?_
      refine similar_bind (similar_redirectTarget options flags hty₂) ?_
      intro world₃ target target' hlater₃ htarget
      have hty₃ := M.type_later hlater₃ hty₂
      -- Both ways of asking for the target end in the same choice.
      have hrecord : ∀ later, M.Later world₃ later →
          M.Similar later (fun _ => Eq)
            (memberRecord (recognizeObject steps ⟨options, location⟩) location flags ty)
            (memberRecord (recognizeObject steps ⟨options, location'⟩) location' flags ty') := by
        intro later hlater
        exact similar_memberRecord (fun _ _ _ _ => ih) hlocation flags (M.type_later hlater hty₃)
      cases htarget with
      | none =>
        refine similar_bind (similar_pure fun _ _ _ => rfl) ?_
        rintro later redirected _ hlater rfl
        cases redirected with
        | none => exact hrecord later hlater
        | some schema => exact similar_pure fun _ _ _ => rfl
      | some htarget =>
        refine similar_bind (similar_within htarget (ih htarget)) ?_
        rintro later redirected _ hlater rfl
        cases redirected with
        | none => exact hrecord later hlater
        | some schema => exact similar_pure fun _ _ _ => rfl

variable (M) in
/-- Two recognizers ask alike about every type. -/
def AskAlike (first : Recognizer τ σ ν) (second : Recognizer τ' σ' ν') : Prop :=
  ∀ steps options location location' world ty ty', M.site location location' →
    M.type world ty ty' →
    M.Similar world (fun _ => Eq) (first.recognize steps ⟨options, location⟩ ty)
      (second.recognize steps ⟨options, location'⟩ ty')

/-- The shipped registry asks the same questions about handles of every kind. -/
theorem askAlike_shipped :
    List.Forall₂ M.AskAlike (Registry.shipped : Registry τ σ ν)
      (Registry.shipped : Registry τ' σ' ν') := by
  refine .cons ?_ (.cons ?_ (.cons ?_ .nil))
  · exact fun _ _ _ _ _ _ _ _ h => similar_recognizeIntrinsic h
  · exact fun _ _ _ _ _ _ _ _ h => similar_recognizeContainer h
  · exact fun steps options _ _ _ _ _ hlocation h =>
      similar_recognizeObject options hlocation steps h

end Shipped

end Models

/-! ## Outcomes -/

/-- An outcome: the schema, or what a resolution is stopped by. -/
abbrev Outcome := Except Stop Schema

/-- The outcome that a value stands for. -/
def Outcome.ofValue : Option Schema → Outcome
  | some schema => .ok schema
  | none => .error .exhausted

/-- The outcome for a site, from a world in which nothing is in progress. -/
def Resolver.outcome [DecidableEq τ] (resolver : Resolver W τ σ ν) (fuel : Nat) (node : ν)
    (world : W) : Outcome :=
  (resolver.resolveNode fuel node).run' (.fresh world)

theorem Resolution.run'_bind_of_ok {step : Resolution W τ α} {rest : α → Resolution W τ β}
    {run after : Run W τ} {result : α} (h : step run = .ok (result, after)) :
    (step >>= rest).run' run = (rest result).run' after := by
  show Prod.fst <$> (step run).bind _ = _
  rw [h]
  rfl

theorem Resolution.run'_bind_of_error {step : Resolution W τ α} {stop : Stop} {run : Run W τ}
    (h : step run = .error stop) (rest : α → Resolution W τ β) :
    (step >>= rest).run' run = .error stop := by
  show Prod.fst <$> (step run).bind _ = _
  rw [h]
  rfl

theorem Resolution.run'_bind_pure (step : Resolution W τ α) (f : α → β) (run : Run W τ) :
    (step >>= fun result => pure (f result)).run' run = f <$> step.run' run := by
  show Prod.fst <$> (step run).bind _ = f <$> Prod.fst <$> step run
  cases step run <;> rfl

/-- The outcome of a step that ends with a value. -/
theorem Models.Ends.run'_eq {checker : Checker W τ σ ν} {answers : Answers τ' σ' ν'}
    {M : Models checker answers} {step : Resolution W τ Schema} {run : Run W τ}
    {value : Option Schema} (h : M.Ends run (fun _ => Eq) (step run) value) :
    step.run' run = Outcome.ofValue value := by
  show Prod.fst <$> step run = _
  cases value with
  | none =>
    rw [show step run = .error .exhausted from h]
    rfl
  | some schema =>
    obtain ⟨_, after, hok, -, -, -, -, rfl⟩ := h
    rw [hok]
    rfl

namespace Models

/-! ## Resolutions -/

variable {checker : Checker W τ σ ν} {answers : Answers τ' σ' ν'} {M : Models checker answers}
  {world : W} {depth : Nat} [DecidableEq τ] [DecidableEq τ']

section Resolutions

variable {registry : Registry τ σ ν} {registry' : Registry τ' σ' ν'} {options : Options}
  {location : ν} {location' : ν'} {ty : τ} {ty' : τ'}

theorem follows_dispatch (registered : Registry τ σ ν) (options : Options)
    (hlocation : M.site location location')
    {nested : τ → Resolution W τ Schema} {nestedValue : List τ' → τ' → Option Schema}
    (hnested : M.NestedFollows world depth nested nestedValue) (fuel : Nat)
    (title : Option String) (halike : List.Forall₂ M.AskAlike registry registry')
    (h : M.type world ty ty') :
    M.Follows world depth (fun _ => Eq)
      (Resolver.dispatch ⟨checker, registered, options⟩ nested fuel location ty title registry)
      fun active => answers.dispatchValue options nestedValue fuel location' active ty' title
        registry' := by
  induction halike generalizing world with
  | nil =>
    refine (follows_report _).bind (g := fun _ _ => some (Schema.any title)) ?_
    exact fun _ _ _ _ _ => .pure fun _ _ _ => rfl
  | cons hhead _ ih =>
    rename_i recognizer recognizer' rest rest' _
    have hclaim := hhead fuel options location location' world ty ty' hlocation h depth nested
      nestedValue hnested
    refine hclaim.bind (g := fun claimed active => claimed.elim
      (answers.dispatchValue options nestedValue fuel location' active ty' title rest') some) ?_
    rintro later claimed _ hlater rfl
    cases claimed with
    | none => exact ih (hnested.later hlater) (M.type_later hlater h)
    | some schema =>
      refine (follows_report _).bind (g := fun _ _ => some schema) ?_
      exact fun _ _ _ _ _ => .pure fun _ _ _ => rfl

/-- A resolution by recognizers that ask alike follows its value. -/
theorem follows_resolveType (halike : List.Forall₂ M.AskAlike registry registry')
    (hlocation : M.site location location') (fuel : Nat) (title : Option String)
    (h : M.type world ty ty') :
    M.Follows world depth (fun _ => Eq)
      (Resolver.resolveType ⟨checker, registry, options⟩ fuel location ty title)
      fun active => answers.resolveValue registry' options location' fuel depth active ty'
        title := by
  induction fuel generalizing world depth ty ty' title with
  | zero => exact follows_exhausted
  | succ fuel ih =>
    have hnested : M.NestedFollows world (depth + 1)
        (fun ty => Resolver.resolveType ⟨checker, registry, options⟩ fuel location ty none)
        fun active ty' => answers.resolveValue registry' options location' fuel (depth + 1) active
          ty' none :=
      fun later ty ty' _ hty => ih none hty
    have hdispatch :=
      follows_dispatch (M := M) registry options hlocation hnested fuel title halike h
    have hbody := hdispatch.bind (S := fun _ => Eq) (f := fun schema => Pure.pure (some schema))
      (g := fun schema _ => some (some schema))
      (by rintro later schema _ _ rfl; exact .pure fun _ _ _ => rfl)
    have hguarded := hbody.guarded h
    rintro run active hrun ⟨hsound, hactive, rfl⟩
    show M.Ends run _ _ (answers.resolveValue registry' options location' (fuel + 1) run.depth
      active ty' title)
    rw [Resolver.resolveType_succ, Answers.resolveValue]
    split
    · exact ⟨_, _, rfl, hsound, M.later_refl _, rfl, rfl, rfl⟩
    · have hentered := hguarded { run with depth := run.depth + 1 } active hrun
        ⟨hsound, hactive, rfl⟩
      convert hentered.leave using 1
      show _ = Option.map _ (if _ then _ else _)
      split <;> simp [Option.map_bind]

/-- A resolution of a site follows the value of the type that the site denotes. -/
theorem follows_resolveNode (halike : List.Forall₂ M.AskAlike registry registry')
    (hlocation : M.site location location') (fuel : Nat) :
    M.Follows world depth (fun _ => Eq)
      (Resolver.resolveNode ⟨checker, registry, options⟩ fuel location)
      fun active => answers.resolveValue registry' options location' fuel depth active
        (answers (.siteType location'))
        (answers.siteTitle location' (answers (.siteType location'))) := by
  have hty : M.Follows world depth _ _ _ := follows_ask
    fun _ _ hsound => M.siteType hsound hlocation
  refine hty.bind (g := fun ty active => answers.resolveValue registry' options location' fuel
    depth active ty (answers.siteTitle location' ty)) ?_
  intro world₁ ty ty' _ hty
  refine (follows_typeName hlocation hty).bind (g := fun title active =>
    answers.resolveValue registry' options location' fuel depth active ty' title) ?_
  rintro world₂ title _ hlater₂ rfl
  refine (follows_report _).bind (g := fun _ active =>
    answers.resolveValue registry' options location' fuel depth active ty' title) ?_
  exact fun world₃ _ _ hlater₃ _ => follows_resolveType halike hlocation fuel title
    (M.type_later (M.later_trans hlater₂ hlater₃) hty)

/-- From a state with nothing in progress, a resolution of a site ends with the site's value. -/
theorem ends_resolveNode (halike : List.Forall₂ M.AskAlike registry registry')
    (hlocation : M.site location location') (fuel : Nat) {run : Run W τ}
    (hsound : M.Sound run.world) (hactive : run.active = []) (hdepth : run.depth = 0) :
    M.Ends run (fun _ => Eq) (Resolver.resolveNode ⟨checker, registry, options⟩ fuel location run)
      (answers.siteValue registry' options fuel location') :=
  follows_resolveNode halike hlocation fuel run [] (M.later_refl _)
    ⟨hsound, hactive ▸ .nil, hdepth⟩

/-- The outcome for a type is its value. -/
theorem run'_resolveType_eq (halike : List.Forall₂ M.AskAlike registry registry')
    (hlocation : M.site location location') (hsound : M.Sound world) (fuel : Nat)
    (title : Option String) (h : M.type world ty ty') :
    (Resolver.resolveType ⟨checker, registry, options⟩ fuel location ty title).run'
        (.fresh world) =
      Outcome.ofValue (answers.resolveValue registry' options location' fuel 0 [] ty' title) :=
  Ends.run'_eq (follows_resolveType halike hlocation fuel title h (.fresh world) []
    (M.later_refl _) ⟨hsound, .nil, rfl⟩)

/-- The outcome for a site is the value of the type that the site denotes. -/
theorem outcome_eq (halike : List.Forall₂ M.AskAlike registry registry')
    (hlocation : M.site location location') (hsound : M.Sound world) (fuel : Nat) :
    Resolver.outcome ⟨checker, registry, options⟩ fuel location world =
      Outcome.ofValue (answers.siteValue registry' options fuel location') :=
  Ends.run'_eq (ends_resolveNode halike hlocation fuel hsound rfl rfl)

/-- Sites that are resolved one after the other have the outcomes that each has by itself, because
every resolution leaves the types in progress and the depth as it found them. -/
theorem mapM_resolveNode_eq (halike : List.Forall₂ M.AskAlike registry registry')
    (hsound : M.Sound world) (fuel : Nat) {nodes : List ν}
    (hnodes : ∀ node ∈ nodes, ∃ node', M.site node node') :
    (nodes.mapM (Resolver.resolveNode ⟨checker, registry, options⟩ fuel)).run' (.fresh world) =
      nodes.mapM fun node => Resolver.outcome ⟨checker, registry, options⟩ fuel node world := by
  -- A site may be resolved in any state that has nothing in progress.
  suffices h : ∀ run : Run W τ, M.Sound run.world → run.active = [] → run.depth = 0 →
      (nodes.mapM (Resolver.resolveNode ⟨checker, registry, options⟩ fuel)).run' run =
        nodes.mapM fun node => Resolver.outcome ⟨checker, registry, options⟩ fuel node world from
    h (.fresh world) hsound rfl rfl
  induction nodes with
  | nil => exact fun _ _ _ _ => rfl
  | cons node rest ih =>
    obtain ⟨⟨node', hnode⟩, hrest⟩ := List.forall_mem_cons.mp hnodes
    intro run hrun hactive hdepth
    rw [List.mapM_cons, List.mapM_cons, outcome_eq halike hnode hsound fuel]
    have hends : M.Ends run (fun _ => Eq)
        (Resolver.resolveNode ⟨checker, registry, options⟩ fuel node run) _ :=
      ends_resolveNode halike hnode fuel hrun hactive hdepth
    cases hvalue : answers.siteValue registry' options fuel node' with
    | none =>
      rw [hvalue] at hends
      exact Resolution.run'_bind_of_error hends _
    | some schema =>
      rw [hvalue] at hends
      obtain ⟨_, after, hok, hsound', -, hactive', hdepth', rfl⟩ := hends
      rw [Resolution.run'_bind_of_ok hok, Resolution.run'_bind_pure,
        ih hrest after hsound' (hactive'.trans hactive) (hdepth'.trans hdepth)]
      rfl

end Resolutions

end Models

end GraphSchema
