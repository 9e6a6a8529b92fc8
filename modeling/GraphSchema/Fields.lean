/-!
# Fields: named entries that keep the order of their first writing

Documents, member lists and object schemas are all lists of named entries in which a name
occurs once.  A second write under a name replaces the value and leaves the entry where it
was, so the position comes from the first write and the value from the last.

`Fields.put` is one write and `Fields.merge` a sequence of them; `Names.insert` and
`Names.union` are the same idea for bare names.  The lemmas say what a write does to the
names (`keys_put`), to a look-up (`get?_put`) and to freedom from repetition (`nodup_put`).
-/

namespace GraphSchema

/-- Named entries in order. -/
abbrev Fields (α : Type) := List (String × α)

namespace Fields

variable {α β : Type}

/-- The names, in order. -/
def keys (fields : Fields α) : List String := fields.map Prod.fst

/-- The value of the first entry with this name. -/
def get? : Fields α → String → Option α
  | [], _ => none
  | (name, value) :: rest, key => if name = key then some value else get? rest key

/-- Write `value` under `key`: in place where the name is present, else at the end. -/
def put : Fields α → String → α → Fields α
  | [], key, value => [(key, value)]
  | (name, old) :: rest, key, value =>
    if name = key then (name, value) :: rest else (name, old) :: put rest key value

/-- Write every entry of `later` into `fields`, from left to right. -/
def merge (fields later : Fields α) : Fields α :=
  later.foldl (fun acc entry => put acc entry.1 entry.2) fields

/-- The fields written by a sequence of entries that may repeat names. -/
def ofEntries (entries : List (String × α)) : Fields α := merge [] entries

/-- Apply `f` to every value. -/
def mapValues (f : α → β) (fields : Fields α) : Fields β :=
  fields.map fun entry => (entry.1, f entry.2)

@[simp] theorem keys_nil : keys ([] : Fields α) = [] := rfl

@[simp] theorem keys_cons (name : String) (value : α) (rest : Fields α) :
    keys ((name, value) :: rest) = name :: keys rest := rfl

@[simp] theorem merge_nil (fields : Fields α) : merge fields [] = fields := rfl

@[simp] theorem merge_cons (fields : Fields α) (entry : String × α) (later : Fields α) :
    merge fields (entry :: later) = merge (put fields entry.1 entry.2) later := rfl

/-- Writing under a present name changes no name; writing under a new one appends it. -/
theorem keys_put (fields : Fields α) (key : String) (value : α) :
    keys (put fields key value) =
      if key ∈ keys fields then keys fields else keys fields ++ [key] := by
  induction fields with
  | nil => simp [put]
  | cons entry rest ih =>
    obtain ⟨name, old⟩ := entry
    by_cases h : name = key
    · simp [put, h]
    · have h' : ¬ key = name := fun e => h e.symm
      by_cases hk : key ∈ keys rest <;> simp [put, h, h', hk, ih]

/-- A look-up after a write finds the new value under its name and the old ones elsewhere. -/
theorem get?_put (fields : Fields α) (key : String) (value : α) (name : String) :
    get? (put fields key value) name = if key = name then some value else get? fields name := by
  induction fields with
  | nil => simp [put, get?]
  | cons entry rest ih =>
    obtain ⟨first, old⟩ := entry
    by_cases h : first = key
    · by_cases hn : key = name
      · simp [put, get?, h, ← hn]
      · simp [put, get?, h, hn]
    · by_cases hf : first = name
      · have hk : ¬ key = name := fun e => h (hf.trans e.symm)
        have hn : ¬ name = key := fun e => hk e.symm
        simp [put, get?, hf, hk, hn]
      · simp [put, get?, h, hf, ih]

/-- A write keeps the names free of repetition. -/
theorem nodup_put {fields : Fields α} (h : (keys fields).Nodup) (key : String) (value : α) :
    (keys (put fields key value)).Nodup := by
  rw [keys_put]
  split
  · exact h
  · rename_i hk
    rw [List.nodup_append]
    refine ⟨h, by simp, ?_⟩
    intro a ha b hb heq
    simp only [List.mem_singleton] at hb
    exact hk (hb ▸ heq ▸ ha)

/-- Merging keeps the names free of repetition. -/
theorem nodup_merge {fields : Fields α} (h : (keys fields).Nodup) (later : Fields α) :
    (keys (merge fields later)).Nodup := by
  induction later generalizing fields with
  | nil => exact h
  | cons entry rest ih => exact ih (nodup_put h entry.1 entry.2)

end Fields

/-! ## Bare names -/

namespace Names

/-- Add a name at the end unless it is there already. -/
def insert (names : List String) (name : String) : List String :=
  if name ∈ names then names else names ++ [name]

/-- Add the names of `later` from left to right, each at its first appearance. -/
def union (names later : List String) : List String :=
  later.foldl insert names

@[simp] theorem union_nil (names : List String) : union names [] = names := rfl

@[simp] theorem union_cons (names : List String) (name : String) (later : List String) :
    union names (name :: later) = union (insert names name) later := rfl

end Names

/-- Merging fields has the effect on the names that the union of names describes. -/
theorem Fields.keys_merge {α : Type} (fields later : Fields α) :
    Fields.keys (Fields.merge fields later) =
      Names.union (Fields.keys fields) (Fields.keys later) := by
  induction later generalizing fields with
  | nil => rfl
  | cons entry rest ih =>
    rw [Fields.merge_cons, ih, Fields.keys_put]
    rfl

end GraphSchema
