import Mathlib
import GraphSchema.Proofs.Resolution.Records
import GraphSchema.Proofs.Table.Answering

/-!
# Which inherited names a record carries

A record is meant to carry its own names and all names that its base types list.  A base type is
looked up under the guard that cuts cycles, and a base type in progress is answered with a
back-reference, which hands on no names at all.  `Table.inherits_iff` says what that comes to, for
every table, every state of a resolution and every call for a record in it: the names of a base
type that is not in progress are all there, and those of one in progress exactly where they are
own names or another base type hands them on.  In `childOfOwnChild` they are not
(`outcome_childOfOwnChild`).
-/

namespace GraphSchema.Table

variable {n : Nat} (table : Table n)

/-- The names that a table lists for a type. -/
def names (ty : Fin n) : List String := (table ty).properties.map Prod.fst

theorem memberNames_answers (ty : Fin n) : table.answers.memberNames ty = table.names ty := by
  simp [Answers.memberNames, answers, names]

/-! ## Calls for a record -/

/-- A call for the record of a type, as a resolution from a site makes it. -/
def recognize (options : Options) (location : Site n) (fuel steps : Nat) (ty : Fin n) :
    Resolution Unit (Fin n) (Option Schema) :=
  (recognizeObject steps ⟨options, location⟩ ty).carryOut table.checker
    fun ty => (Resolver.shipped table.checker options).resolveType fuel location ty none

variable {table} {options : Options} {location : Site n} {fuel steps : Nat} {ty : Fin n}
  {run after : Run Unit (Fin n)}

variable (table options location fuel steps ty run) in
/-- The value of a call in the state that it is made in. -/
def recognizeValue : Option (Option Schema) :=
  (recognizeObject steps ⟨options, location⟩ ty).value table.answers
    (fun active ty => table.answers.resolveValue Registry.shipped options location fuel run.depth
      active ty none) run.active

theorem ends_recognize :
    table.models.Ends run (fun _ => Eq) (table.recognize options location fuel steps ty run)
      (table.recognizeValue options location fuel steps ty run) := by
  have hsimilar : table.models.Similar run.world (fun _ => Eq)
      (recognizeObject steps ⟨options, location⟩ ty)
      (recognizeObject steps ⟨options, location⟩ ty) :=
    Models.similar_recognizeObject options rfl steps rfl
  refine hsimilar run.depth _ _ ?_ run run.active trivial ⟨trivial, forall₂_eq _, rfl⟩
  rintro _ ty _ - rfl
  exact Models.follows_resolveType Models.askAlike_shipped rfl fuel none rfl

/-- What a call has returned is its value. -/
theorem recognizeValue_eq_some {claimed : Option Schema}
    (hcall : table.recognize options location fuel steps ty run = .ok (claimed, after)) :
    table.recognizeValue options location fuel steps ty run = some claimed := by
  have hends : table.models.Ends run (fun _ => Eq) _
    (table.recognizeValue options location fuel steps ty run) := ends_recognize
  cases hvalue : table.recognizeValue options location fuel steps ty run with
  | none =>
    rw [hvalue] at hends
    cases hcall.symm.trans hends
  | some value =>
    rw [hvalue] at hends
    obtain ⟨claimed, _, hok, -, -, -, -, rfl⟩ := hends
    cases hcall.symm.trans hok
    rfl

/-- A type that is expected to hand its names on to the types it is a base of: a record that is
no tuple, no container and no instantiation of another type. -/
structure Plain (table : Table n) (ty : Fin n) : Prop where
  object : (table ty).flags.object
  tuple : (table ty).flags.tuple = false
  container : table.answers.container? ty = none
  target : (table ty).flags.reference → ∀ target, (table ty).target = some target → target = ty

/-- A plain type makes a record of its own, whatever is in progress. -/
theorem Plain.ownRecord (h : table.Plain ty) (options : Options) (active : List (Fin n)) :
    Answers.OwnRecord table.answers options active ty := by
  refine ⟨h.object, h.container, h.tuple, fun target htarget => ?_⟩
  unfold Answers.redirect? at htarget
  split at htarget
  · rename_i hreference
    obtain ⟨hsome, hne⟩ := Option.filter_eq_some_iff.mp htarget
    exact absurd (h.target hreference.1 target hsome) (of_decide_eq_true hne)
  · cases htarget

/-- Which names of its base types the record of an interface has, whenever a call makes it: all
those of a base type that is not in progress, and all names of all base types exactly where every
name of a base type in progress is an own name or comes from another base type. -/
theorem inherits_iff {title : Option String} {properties : Fields Schema} {required : List String}
    (hinterface : (table ty).flags.interface)
    (hown : ∀ target, table.answers.redirect? options ty = some target →
      (table target).flags.object = false)
    (hcall : table.recognize options location fuel steps ty run =
      .ok (some (.object title properties required), after)) :
    (∀ base ∈ (table ty).bases.getD [], table.Plain base → base ∉ run.active →
      ∀ name ∈ table.names base, name ∈ Fields.keys properties) ∧
    ((∀ base ∈ (table ty).bases.getD [], table.Plain base →
        ∀ name ∈ table.names base, name ∈ Fields.keys properties) ↔
      ∀ base ∈ (table ty).bases.getD [], table.Plain base → base ∈ run.active →
        ∀ name ∈ table.names base, name ∈ table.names ty ∨
          ∃ other ∈ (table ty).bases.getD [], other ∉ run.active ∧
            Answers.Carries table.answers options (other :: run.active) other name) := by
  have hvalue := recognizeValue_eq_some hcall
  have hbases : table.answers.baseTypes ty = (table ty).bases.getD [] := if_pos hinterface
  have hkeys : ∀ name, name ∈ Fields.keys properties ↔ name ∈ table.names ty ∨
      ∃ base ∈ (table ty).bases.getD [], base ∉ run.active ∧
        Answers.Carries table.answers options (base :: run.active) base name := by
    intro name
    rw [← hbases, ← memberNames_answers,
      ← (Answers.OwnRecord.of_value hown hvalue).carries_iff]
    exact Answers.mem_keys_iff_carries hvalue
  have hfresh : ∀ base ∈ (table ty).bases.getD [], table.Plain base → base ∉ run.active →
      ∀ name ∈ table.names base, name ∈ Fields.keys properties := by
    intro base hbase hplain hactive name hname
    refine (hkeys name).mpr (.inr ⟨base, hbase, hactive, ?_⟩)
    exact .own (hplain.ownRecord _ _) (by rwa [memberNames_answers])
  refine ⟨hfresh, fun hall base hbase hplain _ name hname => ?_, ?_⟩
  · exact (hkeys name).mp (hall base hbase hplain name hname)
  · intro hheld base hbase hplain name hname
    by_cases hactive : base ∈ run.active
    · exact (hkeys name).mpr (hheld base hbase hplain hactive name hname)
    · exact hfresh base hbase hplain hactive name hname

/-! ## A base type in progress -/

/-- `Base` has a child of type `Derived`, which is an interface over `Base` with a name of its
own. -/
def childOfOwnChild : Table 3
  | 0 =>
    { flags := { object := true, interface := true }, symbol := some "Base",
      properties := [("child", 1)] }
  | 1 =>
    { flags := { object := true, interface := true }, symbol := some "Derived",
      properties := [("own", 2)], bases := some [0] }
  | 2 => { intrinsic := some .string }

/-- The child comes without the name that it inherits. -/
theorem outcome_childOfOwnChild :
    (Resolver.shipped childOfOwnChild.checker {}).outcome 3 ⟨0, none⟩ () =
      .ok (.object (some "Base")
        [("child", .object (some "Derived") [("own", .intrinsic .string)] ["own"])]
        ["child"]) := by
  rw [Resolver.shipped, Models.outcome_eq (M := childOfOwnChild.models) Models.askAlike_shipped rfl
    trivial]
  rfl

theorem plain_childOfOwnChild : childOfOwnChild.Plain 0 :=
  ⟨rfl, rfl, rfl, fun h => absurd h Bool.false_ne_true⟩

/-- In that resolution the child is asked for while `Base` and `Derived` are in progress. -/
theorem inherits_iff_childOfOwnChild :
    ∃ after, childOfOwnChild.recognize {} ⟨0, none⟩ 1 1 1
        { world := (), active := [1, 0], depth := 2 } =
          .ok (some (.object (some "Derived") [("own", .intrinsic .string)] ["own"]), after) ∧
      ¬ ∀ base ∈ (childOfOwnChild 1).bases.getD [], childOfOwnChild.Plain base →
        ∀ name ∈ childOfOwnChild.names base,
          name ∈ Fields.keys [("own", Schema.intrinsic .string)] := by
  have hvalue : childOfOwnChild.recognizeValue {} ⟨0, none⟩ 1 1 1
      { world := (), active := [1, 0], depth := 2 } =
        some (some (.object (some "Derived") [("own", .intrinsic .string)] ["own"])) := rfl
  have hends : childOfOwnChild.models.Ends _ _ _ (childOfOwnChild.recognizeValue {} ⟨0, none⟩ 1 1 1
    { world := (), active := [1, 0], depth := 2 }) := ends_recognize
  rw [hvalue] at hends
  obtain ⟨_, after, hcall, -, -, -, -, rfl⟩ := hends
  refine ⟨after, hcall, fun hall => ?_⟩
  have hcarried := (inherits_iff rfl (fun _ h => by cases h) hcall).2.mp hall 0 (by decide)
    plain_childOfOwnChild (by decide) "child" (by decide)
  revert hcarried
  simp [childOfOwnChild, names]

end GraphSchema.Table
