import Mathlib

/-!
# Programs that may fail

What is known of the steps of a program from what the whole returns.  Two programs that read the
same things but complain differently are compared by `Except.toOption`, which forgets the
complaints.  `Reports` says which complaint a program has: the first of the faults that its steps
find, in the order of the steps.
-/

namespace GraphSchema

section Steps

variable {α β ε δ : Type}

@[simp] theorem ok_bind (value : α) (rest : α → Except ε β) :
    (.ok value : Except ε α) >>= rest = rest value := rfl

@[simp] theorem error_bind (cause : ε) (rest : α → Except ε β) :
    (.error cause : Except ε α) >>= rest = .error cause := rfl

@[simp] theorem map_ok (f : α → β) (value : α) :
    f <$> (.ok value : Except ε α) = .ok (f value) := rfl

@[simp] theorem map_error (f : α → β) (cause : ε) :
    f <$> (.error cause : Except ε α) = .error cause := rfl

@[simp] theorem pure_eq_ok (value : α) : (pure value : Except ε α) = .ok value := rfl

/-- A sequence that succeeds is made of steps that succeed. -/
theorem exists_of_bind_eq_ok {first : Except ε α} {rest : α → Except ε β} {result : β}
    (h : first >>= rest = .ok result) :
    ∃ value, first = .ok value ∧ rest value = .ok result := by
  cases first with
  | error cause => cases h
  | ok value => exact ⟨value, rfl, h⟩

/-- Sequences agree that go on in the same way from what their first step returns. -/
theorem bind_congr_ok {first : Except ε α} {rest rest' : α → Except ε β}
    (h : ∀ value, first = .ok value → rest value = rest' value) :
    first >>= rest = first >>= rest' := by
  cases first with
  | error cause => rfl
  | ok value => exact h value rfl

/-- A change of the complaint does not change what is returned. -/
theorem mapError_eq_ok_iff {change : ε → δ} {program : Except ε α} {value : α} :
    program.mapError change = .ok value ↔ program = .ok value := by
  cases program with
  | error cause => constructor <;> intro h <;> cases h
  | ok found =>
    constructor <;> intro h <;> cases h <;> rfl

/-! ## What is returned, complaints aside -/

@[simp] theorem toOption_ok (value : α) : (.ok value : Except ε α).toOption = some value := rfl

@[simp] theorem toOption_error (cause : ε) : (.error cause : Except ε α).toOption = none := rfl

@[simp] theorem toOption_bind (first : Except ε α) (rest : α → Except ε β) :
    (first >>= rest).toOption = first.toOption.bind fun value => (rest value).toOption := by
  cases first <;> rfl

@[simp] theorem toOption_map (f : α → β) (program : Except ε α) :
    (f <$> program).toOption = program.toOption.map f := by
  cases program <;> rfl

@[simp] theorem toOption_mapError (change : ε → δ) (program : Except ε α) :
    (program.mapError change).toOption = program.toOption := by
  cases program <;> rfl

theorem toOption_eq_some_iff {program : Except ε α} {value : α} :
    program.toOption = some value ↔ program = .ok value := by
  cases program <;> simp

/-- A reading that succeeds where another does and something holds does so element by element. -/
theorem mapM_eq_some_iff {read : α → Option β} {read' : α → Except ε β} {holds : α → Prop}
    {items : List α}
    (h : ∀ item ∈ items, ∀ result, read item = some result ↔ read' item = .ok result ∧ holds item)
    {results : List β} :
    items.mapM read = some results ↔
      items.mapM read' = .ok results ∧ ∀ item ∈ items, holds item := by
  induction items generalizing results with
  | nil => simp
  | cons item rest ih =>
    obtain ⟨hitem, hrest⟩ := List.forall_mem_cons.mp h
    rw [List.mapM_cons, List.mapM_cons]
    constructor
    · intro h
      obtain ⟨first, hfirst, h⟩ := Option.bind_eq_some_iff.mp h
      obtain ⟨others, hothers, h⟩ := Option.bind_eq_some_iff.mp h
      cases h
      obtain ⟨hread, hholds⟩ := (hitem first).mp hfirst
      obtain ⟨hmore, hall⟩ := (ih hrest).mp hothers
      rw [hread, hmore]
      exact ⟨rfl, List.forall_mem_cons.mpr ⟨hholds, hall⟩⟩
    · rintro ⟨h, hall⟩
      obtain ⟨first, hfirst, h⟩ := exists_of_bind_eq_ok h
      obtain ⟨others, hothers, h⟩ := exists_of_bind_eq_ok h
      cases h
      obtain ⟨hholds, hall⟩ := List.forall_mem_cons.mp hall
      rw [(hitem first).mpr ⟨hfirst, hholds⟩, (ih hrest).mpr ⟨hothers, hall⟩]
      rfl

end Steps

/-! ## Lists of results -/

/-- The results of steps that all succeed, one for each item. -/
theorem forall₂_of_mapM {α β ε : Type} {step : α → Except ε β} {items : List α}
    {results : List β} (h : items.mapM step = .ok results) :
    List.Forall₂ (fun item result => step item = .ok result) items results := by
  induction items generalizing results with
  | nil =>
    cases h
    exact .nil
  | cons item rest ih =>
    rw [List.mapM_cons] at h
    obtain ⟨result, hitem, h⟩ := exists_of_bind_eq_ok h
    obtain ⟨others, hrest, h⟩ := exists_of_bind_eq_ok h
    cases h
    exact .cons hitem (ih hrest)

/-- In lists that agree item by item, what stands at a place agrees with what stands there. -/
theorem exists_getElem?_of_forall₂ {α β : Type} {related : α → β → Prop} {items : List α}
    {others : List β} (h : List.Forall₂ related items others) {place : Nat} {other : β}
    (hother : others[place]? = some other) :
    ∃ item, items[place]? = some item ∧ related item other := by
  induction h generalizing place with
  | nil => simp at hother
  | cons hhead _ ih =>
    cases place with
    | zero =>
      rw [List.getElem?_cons_zero, Option.some.injEq] at hother
      exact ⟨_, rfl, hother ▸ hhead⟩
    | succ place => exact ih hother

theorem exists_mem_of_forall₂ {α β : Type} {related : α → β → Prop} {items : List α}
    {others : List β} (h : List.Forall₂ related items others) {other : β}
    (hother : other ∈ others) : ∃ item ∈ items, related item other := by
  obtain ⟨place, hplace⟩ := List.mem_iff_getElem?.mp hother
  obtain ⟨item, hitem, hrelated⟩ := exists_getElem?_of_forall₂ h hplace
  exact ⟨item, List.mem_of_getElem? hitem, hrelated⟩

/-! ## The first fault -/

/-- A program fails with the first of these faults, and succeeds where there is none. -/
def Reports {α ε : Type} (result : Except ε α) : List ε → Prop
  | [] => ∃ value, result = .ok value
  | fault :: _ => result = .error fault

section Reports

variable {α β ε : Type} {first : Except ε α} {faults others : List ε}

/-- The faults of a step that is made after another one come after those of the other. -/
theorem Reports.bind {rest : α → Except ε β} (h : Reports first faults)
    (hrest : ∀ value, first = .ok value → Reports (rest value) others) :
    Reports (first >>= rest) (faults ++ others) := by
  cases faults with
  | nil =>
    obtain ⟨value, hvalue⟩ := h
    rw [hvalue]
    exact hrest value hvalue
  | cons fault more =>
    have herror : first = .error fault := h
    rw [herror]
    rfl

theorem Reports.map (h : Reports first faults) (f : α → β) :
    Reports (first >>= fun value => .ok (f value)) faults := by
  have hbind : Reports (first >>= fun value => .ok (f value)) (faults ++ []) :=
    h.bind fun value _ => ⟨f value, rfl⟩
  rwa [List.append_nil] at hbind

theorem Reports.mapM {step : α → Except ε β} {faultsOf : α → List ε}
    (h : ∀ item, Reports (step item) (faultsOf item)) (items : List α) :
    Reports (items.mapM step) (items.flatMap faultsOf) := by
  induction items with
  | nil => exact ⟨[], rfl⟩
  | cons item rest ih =>
    rw [List.mapM_cons, List.flatMap_cons]
    exact (h item).bind fun value _ => ih.map (value :: ·)

/-- A program that succeeds has no faults. -/
theorem Reports.eq_nil (h : Reports first faults) {value : α} (hvalue : first = .ok value) :
    faults = [] := by
  cases faults with
  | nil => rfl
  | cons fault more => cases hvalue.symm.trans h

theorem Reports.eq_error_iff (h : Reports first faults) {cause : ε} :
    first = .error cause ↔ faults.head? = some cause := by
  cases faults with
  | nil =>
    obtain ⟨value, rfl⟩ := h
    simp
  | cons fault more =>
    have herror : first = .error fault := h
    simp [herror]

end Reports

end GraphSchema
