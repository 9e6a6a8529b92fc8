import Mathlib
import GraphSchema.Proofs.Nesting
import GraphSchema.Proofs.Resolution.Kinds
import GraphSchema.Proofs.Table.Limits

/-!
# Nothing is lost without a warning

A schema can say less than its type in two ways: by a schema of anything, and by a back-reference.
The items of an array may be unknown in good order, for tuples and for arrays without an argument.
Everywhere else a resolution makes such a schema only together with a warning
(`Table.undegraded_of_quiet`).  The converse does not hold: what a base type hands on may be
overwritten, and a back-reference that takes the place of a base type is dropped.
-/

namespace GraphSchema

namespace Schema

/-- The schema says all that there is to say: anything occurs only as the items of an array, and
no reference is a back-reference. -/
structure Undegraded (schema : Schema) : Prop where
  /-- The node right above a schema of anything is an array. -/
  any : ∀ above title, schema.Below above (.any title) →
    ∃ items, above.getLast? = some (.array items)
  reference : ∀ above name, schema.Below above (.reference name) → name.toList.head? ≠ some '#'

theorem undegraded_intrinsic (kind : Intrinsic) : (intrinsic kind).Undegraded := by
  constructor <;> (intro above _ h; cases h)

theorem undegraded_reference {name : String} (hname : name.toList.head? ≠ some '#') :
    (reference name).Undegraded := by
  constructor
  · intro above title h
    cases h
  · intro above other h
    cases h
    exact hname

/-- The items of an array are right below it, so they may be unknown. -/
theorem undegraded_array {items : Schema} (h : items.Undegraded ∨ ∃ title, items = .any title) :
    (array items).Undegraded := by
  constructor
  · intro above title hbelow
    cases hbelow with
    | @items _ _ above hbelow =>
      rcases h with h | ⟨other, rfl⟩
      · obtain ⟨inner, hinner⟩ := h.any above title hbelow
        exact ⟨inner, by simp [List.getLast?_cons, hinner]⟩
      · cases hbelow
        exact ⟨.any title, rfl⟩
  · intro above name hbelow
    cases hbelow with
    | items hbelow =>
      rcases h with h | ⟨other, rfl⟩
      · exact h.reference _ name hbelow
      · cases hbelow

theorem undegraded_object (title : Option String) {properties : Fields Schema}
    (required : List String) (h : ∀ entry ∈ properties, entry.2.Undegraded) :
    (object title properties required).Undegraded := by
  constructor
  · intro above _ hbelow
    cases hbelow with
    | @property _ _ _ name schema _ above hproperty hbelow =>
      obtain ⟨inner, hinner⟩ := (h _ hproperty).any above _ hbelow
      exact ⟨inner, by simp [List.getLast?_cons, hinner]⟩
  · intro above name hbelow
    cases hbelow with
    | property hproperty hbelow => exact (h _ hproperty).reference _ name hbelow

/-- The properties of a record that is not degraded are not. -/
theorem Undegraded.forall_mem_recordProperties {claimed : Option Schema}
    (h : ∀ schema ∈ claimed, schema.Undegraded) :
    ∀ entry ∈ recordProperties claimed, entry.2.Undegraded := by
  intro entry hentry
  unfold recordProperties at hentry
  split at hentry
  · rename_i title properties required
    have hrecord := h _ rfl
    constructor
    · intro above other hbelow
      obtain ⟨items, hitems⟩ := hrecord.any _ other (.property hentry hbelow)
      cases above with
      | nil => cases hitems
      | cons first rest => exact ⟨items, by simpa [List.getLast?_cons] using hitems⟩
    · intro above name hbelow
      exact hrecord.reference _ name (.property hentry hbelow)
  · simp at hentry

/-- The shipped recognizers degrade nothing themselves. -/
theorem made_undegraded :
    Made Undegraded fun fields => ∀ entry ∈ fields, entry.2.Undegraded where
  intrinsic := undegraded_intrinsic
  array _ hitems := undegraded_array (.inl hitems)
  arrayOfAny := undegraded_array (.inr ⟨none, rfl⟩)
  date := undegraded_reference (by decide)
  promise := undegraded_reference (by decide)
  nil := by simp
  put _ _ _ hfields hschema := Fields.forall_mem_put hfields hschema
  inherit fields claimed hfields hclaimed :=
    Fields.forall_mem_merge hfields (Undegraded.forall_mem_recordProperties hclaimed)
  object title inherited own hinherited hown :=
    undegraded_object title _ (Fields.forall_mem_merge hinherited hown)

end Schema

/-- Whatever a resolution degrades comes with a warning. -/
theorem Event.covers_warn {τ : Type} :
    Event.Covers (fun event : Event τ => event.level = .warn) Schema.Undegraded where
  recursion _ _ hquiet := absurd rfl hquiet
  depthLimit _ _ _ hquiet := absurd rfl hquiet
  unrecognized _ _ hquiet := absurd rfl hquiet

namespace Table

variable {n : Nat} (table : Table n) (options : Options)

/-- Every resolution of a site comes to an end, and it has degraded nothing if it has logged no
warning.  So it is for a resolution of a type, whatever state it begins in. -/
theorem undegraded_of_quiet :
    (∀ node fuel, n < fuel →
      ∃ schema after,
        (Resolver.shipped table.checker options).resolveNode fuel node (.fresh ()) =
          .ok (schema, after) ∧
        ((∀ event ∈ after.events, event.level ≠ .warn) → schema.Undegraded)) ∧
    ∀ location ty title fuel run schema after,
      (Resolver.shipped table.checker options).resolveType fuel location ty title run =
        .ok (schema, after) →
      ∃ events, after.events = run.events ++ events ∧
        ((∀ event ∈ events, event.level ≠ .warn) → schema.Undegraded) := by
  have hregistry : ∀ recognizer ∈ (Resolver.shipped table.checker options).registry,
      recognizer.Claims Schema.Undegraded :=
    Schema.made_undegraded.claims_ofRules (List.Subset.refl Rule.shipped)
  constructor
  · intro node fuel hfuel
    obtain ⟨value, hvalue⟩ := table.exists_siteValue options node
    have hends : table.models.Ends (.fresh ()) (fun _ => Eq)
        ((Resolver.shipped table.checker options).resolveNode fuel node (.fresh ()))
        (table.answers.siteValue Registry.shipped options fuel node) :=
      Models.ends_resolveNode Models.askAlike_shipped rfl fuel trivial rfl rfl
    rw [hvalue fuel hfuel] at hends
    obtain ⟨schema, after, hrun, -, -, -, -, rfl⟩ := hends
    obtain ⟨events, hlog, hquiet⟩ := Resolver.yieldsUnless_resolveNode Event.covers_warn hregistry
      fuel node (.fresh ()) schema after hrun
    refine ⟨schema, after, hrun, fun h => hquiet fun event hevent => h event ?_⟩
    rw [Run.events, hlog]
    exact List.mem_reverse.mpr (List.mem_append_left _ hevent)
  · intro location ty title fuel run schema after hrun
    obtain ⟨events, hlog, hquiet⟩ := Resolver.yieldsUnless_resolveType Event.covers_warn hregistry
      fuel location ty title run schema after hrun
    refine ⟨events.reverse, ?_, fun h => hquiet fun event hevent => h event ?_⟩
    · rw [Run.events, Run.events, hlog, List.reverse_append]
    · exact List.mem_reverse.mpr hevent

/-- A `Job` has a place, which is a tuple, a result that is still to come, a name, a day and a
rank. -/
def job : Table 6 := ![
  { flags := { object := true, interface := true }, symbol := some "Job",
    properties := [("place", 1), ("result", 2), ("name", 3), ("due", 4), ("rank", 5)] },
  { flags := { object := true, tuple := true } },
  { flags := { object := true }, symbol := some "Promise",
    members := some Signature.promise.members },
  { intrinsic := some .string },
  { flags := { object := true }, symbol := some "Date", members := some Signature.date.members },
  { intrinsic := some .number }]

theorem outcome_job :
    (Resolver.shipped job.checker {}).outcome 7 ⟨0, none⟩ () =
      .ok (.object (some "Job")
        [("place", .array (.any none)), ("result", .reference Schema.promiseReference),
          ("name", .intrinsic .string), ("due", .reference Schema.dateReference),
          ("rank", .intrinsic .number)] ["place", "result", "name", "due", "rank"]) := by
  rw [outcome_eq]
  rfl

theorem quiet_job :
    (match (Resolver.shipped job.checker {}).resolveNode 7 ⟨0, none⟩ (.fresh ()) with
      | .ok (_, after) => after.events.all fun event => event.level != .warn
      | .error _ => false) = true := by
  decide +kernel

/-- The resolution of a `Job` is quiet, because what is not known of it are the items of an array.
So is the resolution of its place while the `Job` is in progress. -/
theorem undegraded_of_quiet_job :
    (∃ schema after,
      (Resolver.shipped job.checker {}).resolveNode 7 ⟨0, none⟩ (.fresh ()) =
        .ok (schema, after) ∧
      schema = .object (some "Job")
        [("place", .array (.any none)), ("result", .reference Schema.promiseReference),
          ("name", .intrinsic .string), ("due", .reference Schema.dateReference),
          ("rank", .intrinsic .number)] ["place", "result", "name", "due", "rank"] ∧
      schema.Undegraded) ∧
    ∃ after, (Resolver.shipped job.checker {}).resolveType 2 ⟨0, none⟩ 1 none
        { world := (), active := [0], depth := 1 } = .ok (.array (.any none), after) ∧
      (Schema.array (.any none)).Undegraded := by
  constructor
  · obtain ⟨schema, after, hrun, hquiet⟩ :=
      (job.undegraded_of_quiet {}).1 ⟨0, none⟩ 7 (by decide)
    have hschema := outcome_job
    have hlog := quiet_job
    rw [Resolver.outcome, StateT.run', hrun] at hschema
    rw [hrun] at hlog
    refine ⟨schema, after, hrun, Except.ok.inj hschema, hquiet fun event hevent => ?_⟩
    simpa using List.all_eq_true.mp hlog event hevent
  · have hpart : (Resolver.shipped job.checker {}).resolveType 2 ⟨0, none⟩ 1 none
        { world := (), active := [0], depth := 1 } = .ok (.array (.any none),
          { world := (), active := [0], depth := 1, log := [.recognized "object" 1] }) := rfl
    obtain ⟨events, hevents, hquiet⟩ :=
      (job.undegraded_of_quiet {}).2 ⟨0, none⟩ 1 none 2 _ _ _ hpart
    have hlog : [Event.recognized "object" 1] = events := hevents
    exact ⟨_, hpart, hquiet (hlog ▸ by decide)⟩

end Table

end GraphSchema
