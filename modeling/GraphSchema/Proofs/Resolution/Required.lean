import Mathlib
import GraphSchema.Proofs.Fields
import GraphSchema.Proofs.Nesting
import GraphSchema.Proofs.Resolution.Kinds
import GraphSchema.Proofs.Table.Sequences

/-!
# Every record requires what it has

The shipped recognizers make no property optional: at every level of a schema that they make, a
record requires exactly its properties, in the order of the properties and each of them once
(`Resolver.requiresProperties_of_shipped`).  The list of required names and the properties are
merged separately, so this rests on two facts about merging: it has the same effect on the names of
both (`Names.union_keys`), and it keeps them free of repetition, however often a checker lists a
name.  Nothing is assumed of the checker.
-/

namespace GraphSchema

variable {W τ σ ν : Type}

/-! ## Records that require their properties -/

namespace Schema

/-- At every level, a record requires exactly its properties, in their order and each once. -/
def RequiresProperties (schema : Schema) : Prop :=
  ∀ above title properties required,
    schema.Below above (.object title properties required) →
      required = Fields.keys properties ∧ required.Nodup

theorem requiresProperties_any (title : Option String) : (any title).RequiresProperties := by
  intro above _ _ _ h
  cases h

theorem requiresProperties_intrinsic (kind : Intrinsic) :
    (intrinsic kind).RequiresProperties := by
  intro above _ _ _ h
  cases h

theorem requiresProperties_reference (name : String) : (reference name).RequiresProperties := by
  intro above _ _ _ h
  cases h

theorem requiresProperties_array {items : Schema} (h : items.RequiresProperties) :
    (array items).RequiresProperties := by
  intro above title properties required hbelow
  cases hbelow with
  | items hbelow => exact h _ title properties required hbelow

end Schema

/-- Properties that a record can be made of. -/
structure Fields.Requirable (fields : Fields Schema) : Prop where
  nodup : (Fields.keys fields).Nodup
  properties : ∀ entry ∈ fields, entry.2.RequiresProperties

namespace Fields.Requirable

variable {fields later : Fields Schema}

theorem nil : Requirable [] := ⟨List.nodup_nil, by simp⟩

theorem put (h : fields.Requirable) {schema : Schema} (hschema : schema.RequiresProperties)
    (key : String) : Requirable (Fields.put fields key schema) :=
  ⟨nodup_put h.nodup key schema, forall_mem_put h.properties hschema⟩

theorem merge (h : fields.Requirable) (hlater : later.Requirable) :
    Requirable (Fields.merge fields later) := by
  refine ⟨nodup_merge h.nodup later, fun entry hentry => ?_⟩
  rcases mem_merge h.nodup hentry with hmem | ⟨hmem, -⟩
  · exact hlater.properties entry hmem
  · exact h.properties entry hmem

theorem object (h : fields.Requirable) (title : Option String) :
    (Schema.object title fields (keys fields)).RequiresProperties := by
  intro above title properties required hbelow
  cases hbelow with
  | here => exact ⟨rfl, h.nodup⟩
  | property hproperty hbelow => exact h.properties _ hproperty _ title properties required hbelow

/-- What a base type hands on can be merged into a record. -/
theorem of_recordProperties {claimed : Option Schema}
    (h : ∀ schema ∈ claimed, schema.RequiresProperties) :
    (Schema.recordProperties claimed).Requirable := by
  unfold Schema.recordProperties
  split
  · rename_i title properties required
    have hschema := h _ rfl
    obtain ⟨rfl, hnodup⟩ := hschema _ title properties required (.here _)
    refine ⟨hnodup, fun entry hentry above title properties required hbelow => ?_⟩
    exact hschema _ title properties required (.property hentry hbelow)
  · exact .nil

end Fields.Requirable

/-- The names required of a record are those of the merged properties. -/
theorem Names.union_keys {fields : Fields Schema} (h : (Fields.keys fields).Nodup)
    (later : Fields Schema) :
    Names.union (Names.union [] (Fields.keys fields)) (Fields.keys later) =
      Fields.keys (Fields.merge fields later) := by
  have hunion : Names.union [] (Fields.keys fields) = Fields.keys fields := by
    have hmerge : Fields.merge [] fields = fields := Fields.merge_of_nodup h
    calc Names.union [] (Fields.keys fields)
      _ = Fields.keys (Fields.merge [] fields) := (Fields.keys_merge [] fields).symm
      _ = Fields.keys fields := by rw [hmerge]
  rw [hunion, Fields.keys_merge]

/-- The shipped recognizers make such records, because they merge the required names as they merge
the properties. -/
theorem Schema.made_requiresProperties :
    Schema.Made RequiresProperties Fields.Requirable where
  intrinsic := requiresProperties_intrinsic
  array _ := requiresProperties_array
  arrayOfAny := requiresProperties_array (requiresProperties_any none)
  date := requiresProperties_reference _
  promise := requiresProperties_reference _
  nil := .nil
  put _ name _ hfields hschema := hfields.put hschema name
  inherit _ _ hfields hclaimed := hfields.merge (.of_recordProperties hclaimed)
  object title inherited own hinherited hown := by
    rw [Names.union_keys hinherited.nodup]
    exact (hinherited.merge hown).object title

/-- The shipped recognizers claim types with schemas that require their properties. -/
theorem Rule.claims_of_shipped [DecidableEq τ] {rule : Rule} (h : rule ∈ Rule.shipped) :
    (rule.toRecognizer : Recognizer τ σ ν).Claims Schema.RequiresProperties :=
  Schema.made_requiresProperties.claims h

/-! ## The shipped recognizers -/

/-- Whatever a resolution by shipped recognizers returns, in whichever order and however often they
are registered, requires its properties, for every checker and from every state of a run. -/
theorem Resolver.requiresProperties_of_shipped [DecidableEq τ] (checker : Checker W τ σ ν)
    {rules : List Rule} (hrules : rules ⊆ Rule.shipped) (options : Options) (fuel : Nat) :
    (∀ location ty title (run : Run W τ) schema after,
      Resolver.resolveType ⟨checker, Registry.ofRules rules, options⟩ fuel location ty title run =
        .ok (schema, after) → schema.RequiresProperties) ∧
    ∀ node (run : Run W τ) schema after,
      Resolver.resolveNode ⟨checker, Registry.ofRules rules, options⟩ fuel node run =
        .ok (schema, after) → schema.RequiresProperties := by
  have hregistry : ∀ recognizer ∈ (Registry.ofRules rules : Registry τ σ ν),
      recognizer.Claims Schema.RequiresProperties := by
    intro recognizer hrecognizer
    obtain ⟨rule, hrule, rfl⟩ := List.mem_map.mp hrecognizer
    exact Rule.claims_of_shipped (hrules hrule)
  constructor
  · exact fun location ty title => yields_resolveType Schema.requiresProperties_reference
      Schema.requiresProperties_any hregistry fuel location ty title
  · exact fun node => yields_resolveNode Schema.requiresProperties_reference
      Schema.requiresProperties_any hregistry fuel node

/-! ## Names that are listed again -/

/-- A type that lists a name twice, over a base type that lists one twice and shares another. -/
def Table.relisted : Table 5 := ![
  { flags := { object := true, interface := true }, symbol := some "Derived",
    properties := [("a", 2), ("b", 3), ("a", 1)], bases := some [1] },
  { flags := { object := true, interface := true }, symbol := some "Base",
    properties := [("b", 3), ("c", 4), ("b", 2)] },
  { intrinsic := some .string },
  { intrinsic := some .number },
  { intrinsic := some .boolean }]

theorem Table.siteValue_relisted :
    Table.relisted.answers.siteValue (Registry.ofRules [.object, .intrinsic, .builtin]) {} 4
        ⟨0, none⟩ =
      some (.object (some "Derived")
        [("b", .intrinsic .number), ("c", .intrinsic .boolean),
          ("a", .object (some "Base") [("b", .intrinsic .string), ("c", .intrinsic .boolean)]
            ["b", "c"])] ["b", "c", "a"]) := rfl

/-- Every name is required once, at its first place, also where records are tried first. -/
theorem Resolver.requiresProperties_relisted :
    ∃ schema after, Resolver.resolveNode ⟨Table.relisted.checker,
        Registry.ofRules [.object, .intrinsic, .builtin], {}⟩ 4 ⟨0, none⟩ (.fresh ()) =
          .ok (schema, after) ∧
      schema = .object (some "Derived")
        [("b", .intrinsic .number), ("c", .intrinsic .boolean),
          ("a", .object (some "Base") [("b", .intrinsic .string), ("c", .intrinsic .boolean)]
            ["b", "c"])] ["b", "c", "a"] ∧
      schema.RequiresProperties := by
  have hends : Table.relisted.models.Ends (.fresh ()) (fun _ => Eq) (Resolver.resolveNode
      ⟨Table.relisted.checker, Registry.ofRules [.object, .intrinsic, .builtin], {}⟩ 4 ⟨0, none⟩
        (.fresh ())) (Table.relisted.answers.siteValue
          (Registry.ofRules [.object, .intrinsic, .builtin]) {} 4 ⟨0, none⟩) :=
    Models.ends_resolveNode (Table.relisted.askAlike_self _) rfl 4 trivial rfl rfl
  rw [Table.siteValue_relisted] at hends
  obtain ⟨schema, after, hrun, -, -, -, -, hschema⟩ := hends
  have hrules : [.object, .intrinsic, .builtin] ⊆ Rule.shipped := by simp [Rule.shipped]
  exact ⟨schema, after, hrun, hschema,
    (requiresProperties_of_shipped _ hrules {} 4).2 _ _ _ _ hrun⟩

end GraphSchema
