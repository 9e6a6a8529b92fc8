import Mathlib
import GraphSchema.Proofs.Resolution.Arrangements
import GraphSchema.Proofs.Table.Limits

/-!
# Handles under other names

A resolution tells types apart and does nothing else with their handles.  So a table whose handles
are renamed by an injective map, with everything that refers to them, gives every type the schema
that it has in the first table, whichever of the shipped recognizers are registered in whichever
order (`Table.Renames.resolves`).  Other handles may be there beside the renamed ones.

The checker of the first table models the answers of the second along the map
(`Table.Renames.models`).  Injectivity is needed where two handles are compared: in the guard
against types in progress, and where the target of a type is compared with the type.
-/

namespace GraphSchema

variable {n m : Nat}

/-- The answers about a type with the handles in them renamed. -/
def Row.map (f : Fin n → Fin m) (row : Row n) : Row m where
  flags := row.flags
  intrinsic := row.intrinsic
  symbol := row.symbol
  members := row.members
  properties := row.properties.map fun entry => (entry.1, f entry.2)
  target := row.target.map f
  arguments := row.arguments.map (List.map f)
  bases := row.bases.map (List.map f)

namespace Table

/-- A table with its rows moved to other places, and what refers to them. -/
def permute (places : Equiv.Perm (Fin n)) (table : Table n) : Table n :=
  fun ty => (table (places.symm ty)).map places

/-- A table answers about the renamed handles as another does about the handles.  A member table
counts only for a type that has a symbol, since there is no other way to ask for it. -/
structure Renames (f : Fin n → Fin m) (table : Table n) (other : Table m) : Prop where
  injective : Function.Injective f
  flags : ∀ ty, (other (f ty)).flags = (table ty).flags
  intrinsic : ∀ ty, (other (f ty)).intrinsic = (table ty).intrinsic
  symbol : ∀ ty, (other (f ty)).symbol = (table ty).symbol
  members : ∀ ty, (table ty).symbol.isSome → (other (f ty)).members = (table ty).members
  properties : ∀ ty, (other (f ty)).properties =
    (table ty).properties.map fun entry => (entry.1, f entry.2)
  target : ∀ ty, (other (f ty)).target = (table ty).target.map f
  arguments : ∀ ty, (other (f ty)).arguments = (table ty).arguments.map (List.map f)
  bases : ∀ ty, (other (f ty)).bases = (table ty).bases.map (List.map f)

/-- Rows that are mapped answer alike. -/
theorem Renames.of_map {f : Fin n → Fin m} {table : Table n} {other : Table m}
    (hinjective : Function.Injective f) (h : ∀ ty, other (f ty) = (table ty).map f) :
    Renames f table other where
  injective := hinjective
  flags ty := congrArg Row.flags (h ty)
  intrinsic ty := congrArg Row.intrinsic (h ty)
  symbol ty := congrArg Row.symbol (h ty)
  members ty _ := congrArg Row.members (h ty)
  properties ty := congrArg Row.properties (h ty)
  target ty := congrArg Row.target (h ty)
  arguments ty := congrArg Row.arguments (h ty)
  bases ty := congrArg Row.bases (h ty)

theorem renames_permute (places : Equiv.Perm (Fin n)) (table : Table n) :
    Renames places table (table.permute places) := by
  refine .of_map places.injective fun ty => ?_
  rw [permute, Equiv.symm_apply_apply]

/-- A symbol and its renaming.  The symbol of a type is there only where the type has one. -/
inductive SymbolRenamed (f : Fin n → Fin m) (table : Table n) : Symbol n → Symbol m → Prop where
  | type {ty : Fin n} (hsymbol : (table ty).symbol.isSome) :
      SymbolRenamed f table (.type ty) (.type (f ty))
  | property (name : String) (ty : Fin n) :
      SymbolRenamed f table (.property name ty) (.property name (f ty))

/-- A site with its type renamed. -/
def Site.map (f : Fin n → Fin m) (node : Site n) : Site m := ⟨f node.type, node.name⟩

theorem rel_map {α β : Type} (f : α → β) (item : Option α) :
    Option.Rel (fun a b => f a = b) item (item.map f) := by
  cases item with
  | none => exact .none
  | some item => exact .some rfl

theorem forall₂_map {α β : Type} (f : α → β) (items : List α) :
    List.Forall₂ (fun a b => f a = b) items (items.map f) := by
  rw [List.forall₂_map_right_iff]
  exact List.forall₂_same.mpr fun _ _ => rfl

theorem rel_map_map {α β : Type} (f : α → β) (items : Option (List α)) :
    Option.Rel (List.Forall₂ fun a b => f a = b) items (items.map (List.map f)) := by
  cases items with
  | none => exact .none
  | some items => exact .some (forall₂_map f items)

/-- Members have the same types from every site. -/
theorem members_eq (table : Table n) (location location' : Site n) :
    table.answers.members location' = table.answers.members location := by
  funext ty
  refine List.map_congr_left fun symbol _ => ?_
  cases symbol <;> rfl

namespace Renames

variable {f : Fin n → Fin m} {table : Table n} {other : Table m}

/-- The checker of a table models the answers of another about the renamed handles. -/
def models (h : Renames f table other) : Models table.checker other.answers where
  Sound _ := True
  Later _ _ := True
  type _ ty ty' := f ty = ty'
  symbol _ := SymbolRenamed f table
  site node node' := node' = node.map f
  later_refl _ := trivial
  later_trans _ _ := trivial
  type_later _ h := h
  symbol_later _ h := h
  type_unique := by
    rintro _ _ _ _ _ _ rfl rfl
    exact h.injective.eq_iff.symm
  flags := by
    rintro _ ty _ _ rfl
    exact table.replies (h.flags ty).symm
  intrinsic := by
    rintro _ ty _ _ rfl
    exact table.replies (h.intrinsic ty).symm
  symbolOf := by
    rintro _ ty _ _ rfl
    refine table.replies ?_
    show Option.Rel _ ((table ty).symbol.map fun _ => Symbol.type ty)
      ((other (f ty)).symbol.map fun _ => Symbol.type (f ty))
    rw [h.symbol]
    cases hsymbol : (table ty).symbol with
    | none => exact .none
    | some name => exact .some (.type (by rw [hsymbol]; rfl))
  symbolName := by
    rintro _ _ _ _ (@⟨ty, -⟩ | ⟨name, ty⟩)
    · refine table.replies ?_
      show (table ty).symbol.getD "" = (other (f ty)).symbol.getD ""
      rw [h.symbol]
    · exact table.replies rfl
  memberNames := by
    rintro _ _ _ _ (@⟨ty, hsymbol⟩ | ⟨name, ty⟩)
    · exact table.replies (h.members ty hsymbol).symm
    · exact table.replies rfl
  properties := by
    rintro _ ty _ _ rfl
    refine table.replies ?_
    show List.Forall₂ _
      ((table ty).properties.map fun entry => Symbol.property entry.1 entry.2)
      ((other (f ty)).properties.map fun entry => Symbol.property entry.1 entry.2)
    rw [h.properties, List.map_map, List.forall₂_map_left_iff, List.forall₂_map_right_iff]
    exact List.forall₂_same.mpr fun entry _ => .property entry.1 entry.2
  target := by
    rintro _ ty _ _ rfl
    refine table.replies ?_
    show Option.Rel _ (table ty).target (other (f ty)).target
    rw [h.target]
    exact rel_map f _
  arguments := by
    rintro _ ty _ _ rfl
    refine table.replies ?_
    show Option.Rel _ (table ty).arguments (other (f ty)).arguments
    rw [h.arguments]
    exact rel_map_map f _
  bases := by
    rintro _ ty _ _ rfl
    refine table.replies ?_
    show Option.Rel _ (table ty).bases (other (f ty)).bases
    rw [h.bases]
    exact rel_map_map f _
  memberType := by
    rintro _ _ _ _ _ _ (@⟨ty, -⟩ | ⟨name, ty⟩) -
    · exact table.replies rfl
    · exact table.replies rfl
  siteType := by
    rintro _ node _ _ rfl
    exact table.replies rfl
  siteName := by
    rintro _ node _ _ rfl
    exact table.replies rfl

/-- In states that correspond, a type and its renaming have the same outcome, from any two sites. -/
theorem run'_resolveType_eq (h : Renames f table other) {rules : List Rule}
    (hrules : rules ⊆ Rule.shipped) (options : Options) {run : Run Unit (Fin n)}
    {run' : Run Unit (Fin m)} (hactive : run'.active = run.active.map f)
    (hdepth : run'.depth = run.depth) (fuel : Nat) (location : Site n) (location' : Site m)
    (ty : Fin n) (title : Option String) :
    (Resolver.resolveType ⟨table.checker, .ofRules rules, options⟩ fuel location ty title).run'
        run =
      (Resolver.resolveType ⟨other.checker, .ofRules rules, options⟩ fuel location' (f ty)
        title).run' run' := by
  have hmatches : h.models.Matches run (run.active.map f) run.depth :=
    ⟨trivial, forall₂_map f run.active, rfl⟩
  have hmatches' : other.models.Matches run' (run.active.map f) run.depth :=
    ⟨trivial, hactive ▸ forall₂_eq _, hdepth⟩
  have hsite : h.models.site location (location.map f) := rfl
  have hsite' : other.models.site location' location' := rfl
  have hty : h.models.type () ty (f ty) := rfl
  have hty' : other.models.type () (f ty) (f ty) := rfl
  have hvalue := Models.run'_resolveType_of_matches (Models.askAlike_ofRules hrules) hsite hmatches
    hty options fuel title
  have hvalue' := Models.run'_resolveType_of_matches (Models.askAlike_ofRules hrules) hsite'
    hmatches' hty' options fuel title
  rw [hvalue, hvalue']
  exact congrArg Outcome.ofValue
    (Answers.resolveValue_location hrules (other.members_eq location' (location.map f)))

theorem outcome_eq (h : Renames f table other) {rules : List Rule} (hrules : rules ⊆ Rule.shipped)
    (options : Options) (fuel : Nat) (node : Site n) :
    Resolver.outcome ⟨table.checker, .ofRules rules, options⟩ fuel node () =
      Resolver.outcome ⟨other.checker, .ofRules rules, options⟩ fuel (node.map f) () := by
  have hsite : h.models.site node (node.map f) := rfl
  have hsite' : other.models.site (node.map f) (node.map f) := rfl
  rw [Models.outcome_eq (Models.askAlike_ofRules hrules) hsite trivial,
    Models.outcome_eq (Models.askAlike_ofRules hrules) hsite' trivial]

end Renames

/-- Every type has a value with a bound on the nesting of calls that exceeds the number of types. -/
theorem isSome_resolveValue (table : Table n) {rules : List Rule} (hrules : rules ⊆ Rule.shipped)
    (options : Options) (location : Site n) {fuel : Nat} (hfuel : n < fuel) (depth : Nat)
    (active : List (Fin n)) (ty : Fin n) (title : Option String) :
    (table.answers.resolveValue (.ofRules rules) options location fuel depth active ty
      title).isSome := by
  have hroom : Answers.room (Finset.univ : Finset (Fin n)) active < fuel := by
    refine lt_of_le_of_lt ((Finset.card_filter_le _ _).trans ?_) hfuel
    rw [Finset.card_univ, Fintype.card_fin]
  exact Answers.isSome_resolveValue_of_shipped hrules (table.closed_univ options location)
    (Finset.mem_univ ty) hroom

/-- A resolution by shipped rules ends, from every state. -/
theorem exists_run'_resolveType_eq_ok (table : Table n) {rules : List Rule}
    (hrules : rules ⊆ Rule.shipped) (options : Options) (run : Run Unit (Fin n)) {fuel : Nat}
    (hfuel : n < fuel) (location : Site n) (ty : Fin n) (title : Option String) :
    ∃ schema, (Resolver.resolveType ⟨table.checker, .ofRules rules, options⟩ fuel location ty
      title).run' run = .ok schema := by
  have hmatches : table.models.Matches run run.active run.depth := ⟨trivial, forall₂_eq _, rfl⟩
  obtain ⟨schema, hschema⟩ := Option.isSome_iff_exists.mp
    (table.isSome_resolveValue hrules options location hfuel run.depth run.active ty title)
  refine ⟨schema, ?_⟩
  have hsite : table.models.site location location := rfl
  have hty : table.models.type () ty ty := rfl
  rw [Models.run'_resolveType_of_matches (Models.askAlike_ofRules hrules) hsite hmatches hty options
    fuel title, hschema]
  rfl

theorem exists_outcome_eq_ok (table : Table n) {rules : List Rule}
    (hrules : rules ⊆ Rule.shipped) (options : Options) {fuel : Nat} (hfuel : n < fuel)
    (node : Site n) :
    ∃ schema, Resolver.outcome ⟨table.checker, .ofRules rules, options⟩ fuel node () =
      .ok schema := by
  obtain ⟨schema, hschema⟩ := Option.isSome_iff_exists.mp
    (table.isSome_resolveValue hrules options node hfuel 0 [] node.type
      (table.answers.siteTitle node node.type))
  refine ⟨schema, ?_⟩
  rw [Models.outcome_eq (M := table.models) (Models.askAlike_ofRules hrules) rfl trivial]
  exact congrArg Outcome.ofValue hschema

/-- Up to an injective renaming of the handles, two tables that answer alike resolve alike: by any
shipped rules in any order, in states that correspond, and from whatever sites the types are seen.
The resolutions end, with the same schema.  Sites whose types are renamed have the same schema, and
so they have where the rows of a table change places. -/
theorem Renames.resolves {f : Fin n → Fin m} {table : Table n} {other : Table m}
    (h : Renames f table other) {rules : List Rule} (hrules : rules ⊆ Rule.shipped)
    (options : Options) :
    (∀ (run : Run Unit (Fin n)) (run' : Run Unit (Fin m)),
      run'.active = run.active.map f → run'.depth = run.depth →
      ∀ fuel, n < fuel → ∀ location location' ty title, ∃ schema,
        (Resolver.resolveType ⟨table.checker, .ofRules rules, options⟩ fuel location ty
          title).run' run = .ok schema ∧
        (Resolver.resolveType ⟨other.checker, .ofRules rules, options⟩ fuel location' (f ty)
          title).run' run' = .ok schema) ∧
    (∀ fuel node,
      Resolver.outcome ⟨table.checker, .ofRules rules, options⟩ fuel node () =
          Resolver.outcome ⟨other.checker, .ofRules rules, options⟩ fuel (node.map f) () ∧
        (n < fuel → ∃ schema,
          Resolver.outcome ⟨table.checker, .ofRules rules, options⟩ fuel node () = .ok schema)) ∧
    ∀ (places : Equiv.Perm (Fin n)) fuel node,
      Resolver.outcome ⟨table.checker, .ofRules rules, options⟩ fuel node () =
        Resolver.outcome ⟨(table.permute places).checker, .ofRules rules, options⟩ fuel
          (node.map places) () := by
  refine ⟨fun run run' hactive hdepth fuel hfuel location location' ty title => ?_, ?_, ?_⟩
  · obtain ⟨schema, hschema⟩ :=
      table.exists_run'_resolveType_eq_ok hrules options run hfuel location ty title
    refine ⟨schema, hschema, ?_⟩
    rw [← h.run'_resolveType_eq hrules options hactive hdepth fuel location location' ty title]
    exact hschema
  · exact fun fuel node => ⟨h.outcome_eq hrules options fuel node,
      fun hfuel => table.exists_outcome_eq_ok hrules options hfuel node⟩
  · exact fun places => (renames_permute places table).outcome_eq hrules options

/-- `Node` has an instantiation of `Box` next, and the definition of `Box` has a `Node` inside. -/
def boxed : Table 4 := ![
  { flags := { object := true, interface := true }, symbol := some "Node",
    properties := [("next", 1), ("label", 3)] },
  { flags := { object := true, reference := true, interface := true }, symbol := some "Box",
    properties := [("content", 0)], target := some 2, arguments := some [0] },
  { flags := { object := true, reference := true, interface := true }, symbol := some "Box",
    properties := [("content", 0)], target := some 2, arguments := some [2] },
  { intrinsic := some .string }]

/-- A table with a row put before those of `boxed`. -/
def shifted : Table 5 := Fin.cons { intrinsic := some .number } fun ty => (boxed ty).map Fin.succ

theorem renames_shifted : Renames Fin.succ boxed shifted :=
  .of_map (Fin.succ_injective 4) fun _ => rfl

theorem outcome_boxed :
    Resolver.outcome ⟨boxed.checker, .ofRules [.object, .intrinsic], {}⟩ 5 ⟨0, none⟩ () =
      .ok (.object (some "Node")
        [("next", .object (some "Box") [("content", .reference "#Node")] ["content"]),
          ("label", .intrinsic .string)] ["next", "label"]) := by
  have hrules : [.object, .intrinsic] ⊆ Rule.shipped := by simp [Rule.shipped]
  rw [Models.outcome_eq (M := boxed.models) (Models.askAlike_ofRules hrules) rfl trivial]
  rfl

/-- `Node` has the same schema behind the new row, where it is met in the state after `Box` was
entered too, and with the rows of `Node` and `Box` exchanged. -/
theorem Renames.resolves_shifted :
    (∃ schema,
      (Resolver.resolveType ⟨boxed.checker, .ofRules [.object, .intrinsic], {}⟩ 5 ⟨0, none⟩ 0
        none).run' { world := (), active := [1], depth := 1 } = .ok schema ∧
      (Resolver.resolveType ⟨shifted.checker, .ofRules [.object, .intrinsic], {}⟩ 5 ⟨0, none⟩ 1
        none).run' { world := (), active := [2], depth := 1 } = .ok schema) ∧
    Resolver.outcome ⟨shifted.checker, .ofRules [.object, .intrinsic], {}⟩ 5 ⟨1, none⟩ () =
      .ok (.object (some "Node")
        [("next", .object (some "Box") [("content", .reference "#Node")] ["content"]),
          ("label", .intrinsic .string)] ["next", "label"]) ∧
    Resolver.outcome ⟨(boxed.permute (Equiv.swap 0 2)).checker, .ofRules [.object, .intrinsic], {}⟩
      5 ⟨2, none⟩ () =
        .ok (.object (some "Node")
          [("next", .object (some "Box") [("content", .reference "#Node")] ["content"]),
            ("label", .intrinsic .string)] ["next", "label"]) := by
  have hrules : [.object, .intrinsic] ⊆ Rule.shipped := by simp [Rule.shipped]
  obtain ⟨hstates, hsites, hplaces⟩ := renames_shifted.resolves hrules {}
  refine ⟨?_, ?_, ?_⟩
  · exact hstates { world := (), active := [1], depth := 1 }
      { world := (), active := [2], depth := 1 } rfl rfl 5 (by decide) ⟨0, none⟩ ⟨0, none⟩ 0 none
  · exact (hsites 5 ⟨0, none⟩).1.symm.trans outcome_boxed
  · exact (hplaces (Equiv.swap 0 2) 5 ⟨0, none⟩).symm.trans outcome_boxed

end Table

end GraphSchema
