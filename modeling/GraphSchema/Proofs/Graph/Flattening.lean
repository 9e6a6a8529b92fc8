import Mathlib
import GraphSchema.Proofs.Graph.Viewing

/-!
# Properties are flattened base type by base type

The properties of an object are collected into one accumulator that passes through its base types
and through theirs in turn, and only an instantiation on the way starts with an empty one.  Midway
the accumulator may hold a property of a far ancestor where an earlier base type has written one
of its own.  What it holds in the end is the same as if the properties of every base type had been
completed for themselves, merged in the order of the base types, and merged with those of the
object last (`ownedBy_collectProperties`).  Merging fields is associative as long as names do not
repeat (`Fields.merge_merge`), and that carries the induction along base types.

**Main statement.** `properties_flatten_bases`: an object and its instantiations have the names
and owners that merging those of its base types with its own gives.
-/

namespace GraphSchema.Graph

variable {base graph : Graph}

/-! ## Owners of properties -/

/-- The name of a property with the object that declares it. -/
def Symbol.declaredBy? : Symbol → Option (String × Handle)
  | .property owner name _ => some (name, owner)
  | .type _ => none

/-- The properties of a type have these names and owners in order, whatever is asked first. -/
def HasOwners (graph : Graph) (ty : Handle) (owners : Fields Handle) : Prop :=
  ∀ later, Reachable graph later → ∃ symbols last, properties ty later = .ok (symbols, last) ∧
    symbols.map Symbol.declaredBy? = owners.map some

theorem HasOwners.unique {ty : Handle} {owners owners' : Fields Handle}
    (h : HasOwners graph ty owners) (h' : HasOwners graph ty owners') : owners = owners' := by
  obtain ⟨symbols, last, hquery, howners⟩ := h graph .start
  obtain ⟨symbols', last', hquery', howners'⟩ := h' graph .start
  cases hquery.symm.trans hquery'
  exact List.map_injective_iff.mpr (Option.some_injective _) (howners.symm.trans howners')

/-- The properties of an object with the owners of the properties of its base types. -/
def mergeOwners (owner : Handle) (decl : ObjectDecl Handle) (inherited : List (Fields Handle)) :
    Fields Handle :=
  Fields.merge (inherited.foldl Fields.merge [])
    (Fields.mapValues (fun _ => owner) decl.properties)

theorem nodup_mergeOwners (owner : Handle) (decl : ObjectDecl Handle)
    (inherited : List (Fields Handle)) :
    (Fields.keys (mergeOwners owner decl inherited)).Nodup :=
  Fields.nodup_merge (Fields.nodup_foldl_merge (by simp) inherited) _

/-- An own property counts, and otherwise the last base type that has the name. -/
theorem get?_mergeOwners {owner : Handle} {decl : ObjectDecl Handle}
    {inherited : List (Fields Handle)}
    (hinherited : ∀ owners ∈ inherited, (Fields.keys owners).Nodup) (name : String) :
    Fields.get? (mergeOwners owner decl inherited) name =
      if name ∈ Fields.keys decl.properties then some owner
      else inherited.reverse.findSome? fun owners => Fields.get? owners name := by
  rw [mergeOwners, Fields.get?_merge_mapValues_const, Fields.get?_foldl_merge hinherited]

/-- The owners of the properties of a declared type: those of the base types are merged in order,
and then its own. -/
def flatten (base : Graph) : Nat → Handle → Fields Handle
  | 0, _ => []
  | steps + 1, handle =>
    match base.definitions[handle]? with
    | some (.object decl) => mergeOwners handle decl (decl.bases.map (flatten base steps))
    | some (.reference target _) => flatten base steps target
    | _ => []

theorem nodup_flatten (steps : Nat) (handle : Handle) :
    (Fields.keys (flatten base steps handle)).Nodup := by
  induction steps generalizing handle with
  | zero => simp [flatten]
  | succ steps ih =>
    rw [flatten]
    split
    · exact nodup_mergeOwners _ _ _
    · exact ih _
    · simp

namespace Term

/-! ## Collecting is flattening -/

/-- Symbols under names are properties of these owners. -/
def OwnedBy : Fields Symbol → Fields Handle → Prop :=
  List.Forall₂ fun entry owner =>
    entry.1 = owner.1 ∧ ∃ through, entry.2 = .property (declared owner.2) owner.1 through

theorem OwnedBy.put {symbols : Fields Symbol} {owners : Fields Handle}
    (h : OwnedBy symbols owners) (name : String) (owner : Handle) (through : Option Term) :
    OwnedBy (Fields.put symbols name (.property (declared owner) name through))
      (Fields.put owners name owner) :=
  Fields.forall₂_put (fun h => h.1) h ⟨rfl, through, rfl⟩

/-- An object writes its own properties. -/
theorem OwnedBy.merge {symbols : Fields Symbol} {owners : Fields Handle}
    (h : OwnedBy symbols owners) (owner : Handle) (properties : Fields Handle) :
    OwnedBy ((Fields.mapValues declared properties).foldl
        (fun known property =>
          Fields.put known property.1 (.property (declared owner) property.1 none)) symbols)
      (Fields.merge owners (Fields.mapValues (fun _ => owner) properties)) := by
  induction properties generalizing symbols owners with
  | nil => exact h
  | cons property rest ih => exact ih (h.put property.1 owner none)

theorem OwnedBy.unique {symbols : Fields Symbol} {owners owners' : Fields Handle}
    (h : OwnedBy symbols owners) (h' : OwnedBy symbols owners') : owners = owners' := by
  refine Relator.RightUnique.forall₂ ?_ h h'
  rintro entry ⟨name, owner⟩ ⟨name', owner'⟩ ⟨hname, through, howner⟩ ⟨hname', through', howner'⟩
  cases howner.symm.trans howner'
  rfl

section Collecting

variable {steps : Nat} {known : Fields Symbol} {owners : Fields Handle}

/-- The properties of the target are seen through an instantiation under the same names, with the
same owners. -/
theorem ownedBy_collectProperties_reference {term : Term} {target : Handle}
    {arguments : List Term} {inner : Fields Handle}
    (hterm : term.definition base = .reference (declared target) arguments)
    (hinner : OwnedBy (collectProperties base steps (declared target) []) inner)
    (hknown : OwnedBy known owners) :
    OwnedBy (collectProperties base (steps + 1) term known) (Fields.merge owners inner) := by
  rw [collectProperties, hterm]
  dsimp only
  generalize collectProperties base steps (declared target) [] = symbols at hinner
  induction hinner generalizing known owners with
  | nil => exact hknown
  | @cons entry owner _ _ hhead _ ih =>
    obtain ⟨name, symbol⟩ := entry
    obtain ⟨rfl, through, rfl⟩ : name = owner.1 ∧ ∃ through, symbol = _ := hhead
    rw [List.foldl_cons, Fields.merge_cons]
    cases through with
    | none => exact ih (hknown.put _ _ _)
    | some inner => exact ih (hknown.put _ _ _)

/-- Base types are collected one after the other. -/
theorem ownedBy_foldl (parents : List Handle)
    (hparents : ∀ parent ∈ parents, ∀ {known : Fields Symbol} {owners : Fields Handle},
      OwnedBy known owners → (Fields.keys owners).Nodup →
      OwnedBy (collectProperties base steps (declared parent) known)
        (Fields.merge owners (flatten base steps parent)))
    (hknown : OwnedBy known owners) (hnodup : (Fields.keys owners).Nodup) :
    OwnedBy ((parents.map declared).foldl
        (fun known parent => collectProperties base steps parent known) known)
      ((parents.map (flatten base steps)).foldl Fields.merge owners) := by
  induction parents generalizing known owners with
  | nil => exact hknown
  | cons parent rest ih =>
    obtain ⟨hparent, hrest⟩ := List.forall_mem_cons.mp hparents
    exact ih hrest (hparent hknown hnodup) (Fields.nodup_merge hnodup _)

/-- Writing into what is known already comes to merging with it at the end. -/
theorem ownedBy_collectProperties {handle : Handle} (hknown : OwnedBy known owners)
    (hnodup : (Fields.keys owners).Nodup) :
    OwnedBy (collectProperties base steps (declared handle) known)
      (Fields.merge owners (flatten base steps handle)) := by
  induction steps generalizing handle known owners with
  | zero => exact hknown
  | succ steps ih =>
    cases hdefinition : base.definitions[handle]? with
    | none => simpa [collectProperties, flatten, definition, hdefinition] using hknown
    | some found =>
      cases found with
      | object decl =>
        have hflat : ∀ later ∈ decl.bases.map (flatten base steps), (Fields.keys later).Nodup :=
          List.forall_mem_map.mpr fun parent _ => nodup_flatten steps parent
        have hinherited := ownedBy_foldl decl.bases (fun _ _ _ _ => ih) hknown hnodup
        rw [collectProperties, definition_declared hdefinition, flatten, hdefinition]
        dsimp only [Definition.map]
        rw [mergeOwners, Fields.merge_merge hnodup (Fields.nodup_foldl_merge (by simp) _),
          ← Fields.foldl_merge hnodup hflat]
        exact hinherited.merge handle decl.properties
      | reference target arguments =>
        have hinner : OwnedBy (collectProperties base steps (declared target) [])
            (Fields.merge [] (flatten base steps target)) := ih .nil List.nodup_nil
        rw [← Fields.ofEntries, Fields.ofEntries_of_nodup (nodup_flatten _ _)] at hinner
        rw [flatten, hdefinition]
        exact ownedBy_collectProperties_reference (definition_declared hdefinition) hinner hknown
      | _ =>
        simpa [collectProperties, flatten, definition, hdefinition, Definition.map] using hknown

theorem ownedBy_flatten (steps : Nat) (handle : Handle) :
    OwnedBy (collectProperties base steps (declared handle) []) (flatten base steps handle) := by
  have hempty : OwnedBy (collectProperties base steps (declared handle) [])
      (Fields.merge [] (flatten base steps handle)) :=
    ownedBy_collectProperties .nil List.nodup_nil
  rwa [← Fields.ofEntries, Fields.ofEntries_of_nodup (nodup_flatten _ _)] at hempty

end Collecting

/-- The owners of the properties of a type. -/
def owners (base : Graph) : Term → Fields Handle
  | declared handle => flatten base (2 * base.definitions.size + 3) handle
  | applied target _ => flatten base (2 * base.definitions.size + 2) target
  | unknown => []

theorem ownedBy_owners (term : Term) :
    OwnedBy (collectProperties base (2 * base.definitions.size + 3) term [])
      (term.owners base) := by
  cases term with
  | declared handle => exact ownedBy_flatten _ handle
  | applied target arguments =>
    have hinner : OwnedBy
        (collectProperties base (2 * base.definitions.size + 3) (applied target arguments) [])
        (Fields.merge [] (flatten base (2 * base.definitions.size + 2) target)) :=
      ownedBy_collectProperties_reference rfl (ownedBy_flatten _ target) .nil
    rwa [← Fields.ofEntries, Fields.ofEntries_of_nodup (nodup_flatten _ _)] at hinner
  | unknown => exact .nil

/-- A step more makes no difference, since the walk along base types is over by then. -/
theorem owners_declared (hbase : base.Linked) {handle : Handle}
    (hlt : handle < base.definitions.size) :
    (declared handle).owners base = flatten base (2 * base.definitions.size + 2) handle := by
  have hsteps : collectProperties base (2 * base.definitions.size + 3) (declared handle) [] =
      collectProperties base (2 * base.definitions.size + 2) (declared handle) [] :=
    collectProperties_congr hbase (hbase.clear handle hlt) (by omega) (by omega)
  have howned : OwnedBy (collectProperties base _ (declared handle) []) _ := ownedBy_owners _
  rw [hsteps] at howned
  exact howned.unique (ownedBy_flatten _ _)

/-- An object merges the properties of its base types, and then its own. -/
theorem owners_object (hbase : base.Linked) {handle : Handle} {decl : ObjectDecl Handle}
    (hdecl : base.definitions[handle]? = some (.object decl)) :
    (declared handle).owners base =
      mergeOwners handle decl (decl.bases.map fun parent => (declared parent).owners base) := by
  rw [owners, flatten, hdecl]
  dsimp only
  congr 1
  exact List.map_congr_left fun parent hmem =>
    (owners_declared hbase (hbase.lt_of_mem_bases hdecl hmem)).symm

/-- An instantiation has the properties of its target. -/
theorem owners_reference (hbase : base.Linked) {term : Term} {target : Handle}
    {decl : ObjectDecl Handle} {arguments : List Term}
    (hterm : term.definition base = .reference (declared target) arguments)
    (hdecl : base.definitions[target]? = some (.object decl)) :
    term.owners base = (declared target).owners base := by
  rw [owners_declared hbase (Array.getElem?_eq_some_iff.mp hdecl).1]
  cases term with
  | declared handle =>
    obtain ⟨target', others, hdefinition, heq⟩ := exists_getElem?_of_reference hterm
    cases heq
    rw [owners, flatten, hdefinition]
  | applied target' others =>
    cases hterm
    rfl
  | unknown => cases hterm

end Term

/-! ## Flattening on graphs -/

/-- The properties of a type have the owners of those of its term. -/
theorem Grown.hasOwners (hbase : base.Linked) (hgrown : Grown base graph) {ty : Handle}
    {term : Term} (hterm : Denotes base graph ty term) :
    HasOwners graph ty (term.owners base) := by
  intro later hreachable
  obtain ⟨hgrown', hlater⟩ := hreachable.later hbase hgrown
  obtain ⟨symbols, last, hquery, hlast, -, hsymbols⟩ :=
    properties_gives hbase hgrown' (hterm.later hlater)
  refine ⟨symbols, last, hquery, ?_⟩
  rw [Term.properties, List.forall₂_map_right_iff] at hsymbols
  rw [← List.forall₂_eq_eq_eq, List.forall₂_map_left_iff, List.forall₂_map_right_iff]
  refine forall₂_trans hsymbols term.ownedBy_owners fun hsymbol howned => ?_
  obtain ⟨-, through, heq⟩ := howned
  rw [heq] at hsymbol
  cases hsymbol with
  | property name howner _ =>
    rcases hlast.denotes_cases howner with ⟨-, heq⟩ | ⟨-, hadded⟩
    · cases heq
      rfl
    · cases hadded

variable {document : Document} {fresh : Graph} {ty : Handle} {decl : ObjectDecl Handle}

/-- In every state that queries and resolutions leave an accepted document's graph in, the
properties of an object are those of its base types, merged in the order of the base types, and
then its own: a name keeps its first place and takes its last owner.  Instantiations of the object
have the same names in the same order with the same owners.  So names do not repeat, an own
property always counts, and otherwise the last base type that has the name. -/
theorem properties_flatten_bases (haccepted : ofDocument document = .ok fresh)
    (hgraph : Reachable fresh graph) (hdecl : graph.definitions[ty]? = some (.object decl)) :
    ∃ inherited owners, List.Forall₂ (HasOwners graph) decl.bases inherited ∧
      owners = Fields.merge (inherited.foldl Fields.merge [])
        (Fields.mapValues (fun _ => ty) decl.properties) ∧
      HasOwners graph ty owners ∧
      (∀ instantiation arguments,
        graph.definitions[instantiation]? = some (.reference ty arguments) →
        HasOwners graph instantiation owners) ∧
      (Fields.keys owners).Nodup ∧
      ∀ name, Fields.get? owners name =
        if name ∈ Fields.keys decl.properties then some ty
        else inherited.reverse.findSome? fun owners => Fields.get? owners name := by
  have hbase := linked_of_ofDocument haccepted
  have hgrown := hgraph.grown hbase
  have hdecl' := hgrown.definition_of_object hdecl
  obtain ⟨hlt, -⟩ := Array.getElem?_eq_some_iff.mp hdecl'
  have hown := hgrown.hasOwners hbase (hgrown.denotes_declared hlt)
  refine ⟨decl.bases.map fun parent => (Term.declared parent).owners fresh, _, ?_,
    Term.owners_object hbase hdecl', hown, ?_, ?_, fun name => ?_⟩
  · refine forall₂_map_right fun parent hmem => hgrown.hasOwners hbase ?_
    exact hgrown.denotes_declared (hbase.lt_of_mem_bases hdecl' hmem)
  · intro instantiation arguments hdefinition
    obtain ⟨term, others, hterm, hreference⟩ :=
      hgrown.exists_denotes_of_reference hbase hdefinition
    rw [← Term.owners_reference hbase hreference hdecl']
    exact hgrown.hasOwners hbase hterm
  · exact nodup_flatten _ _
  · rw [Term.owners_object hbase hdecl']
    exact get?_mergeOwners (List.forall_mem_map.mpr fun parent _ => nodup_flatten _ _) name

/-- A generic object over two base types that have one in common.  The first declares a property of
the common one again, and the second is an instantiation. -/
def diamond : Document where
  types := [
    ("T", .opaqueType none),
    ("string", .intrinsic .string),
    ("Top", .object {
      symbol := some "Top"
      interface := true
      bases := []
      parameters := []
      properties := [("a", "string")]
      members := [] }),
    ("Left", .object {
      symbol := some "Left"
      interface := true
      bases := ["Top"]
      parameters := []
      properties := [("a", "string"), ("b", "string")]
      members := [] }),
    ("Right", .object {
      symbol := some "Right"
      interface := true
      bases := ["Top"]
      parameters := ["T"]
      properties := [("c", "T")]
      members := [] }),
    ("Right<string>", .reference "Right" ["string"]),
    ("Bottom", .object {
      symbol := some "Bottom"
      interface := true
      bases := ["Left", "Right<string>"]
      parameters := ["T"]
      properties := [("d", "T")]
      members := [] }),
    ("Bottom<string>", .reference "Bottom" ["string"])]

/-- The graph of `diamond`. -/
def diamondGraph : Graph where
  ids := ["T", "string", "Top", "Left", "Right", "Right<string>", "Bottom", "Bottom<string>"]
  definitions := #[
    .opaqueType none,
    .intrinsic .string,
    .object {
      symbol := some "Top"
      interface := true
      bases := []
      parameters := []
      properties := [("a", 1)]
      members := [] },
    .object {
      symbol := some "Left"
      interface := true
      bases := [2]
      parameters := []
      properties := [("a", 1), ("b", 1)]
      members := [] },
    .object {
      symbol := some "Right"
      interface := true
      bases := [2]
      parameters := [0]
      properties := [("c", 0)]
      members := [] },
    .reference 4 [1],
    .object {
      symbol := some "Bottom"
      interface := true
      bases := [3, 5]
      parameters := [0]
      properties := [("d", 0)]
      members := [] },
    .reference 6 [1]]
  instances := [((4, [1]), 5), ((6, [1]), 7)]
  unknown := none

/-- The property that `Left` declares again is the one of `Top` in `Bottom`, since `Right<string>`
comes later; its place is the one that `Left` gives it. -/
theorem properties_flatten_bases_diamond :
    ofDocument diamond = .ok diamondGraph ∧
      diamondGraph.definitions[6]? = some (.object {
        symbol := some "Bottom"
        interface := true
        bases := [3, 5]
        parameters := [0]
        properties := [("d", 0)]
        members := [] }) ∧
      diamondGraph.definitions[7]? = some (.reference 6 [1]) ∧
      HasOwners diamondGraph 3 [("a", 3), ("b", 3)] ∧
      HasOwners diamondGraph 5 [("a", 2), ("c", 4)] ∧
      HasOwners diamondGraph 6 [("a", 2), ("b", 3), ("c", 4), ("d", 6)] ∧
      HasOwners diamondGraph 7 [("a", 2), ("b", 3), ("c", 4), ("d", 6)] := by
  have haccepted : ofDocument diamond = .ok diamondGraph := rfl
  have hbase := linked_of_ofDocument haccepted
  have hstart : Grown diamondGraph diamondGraph := .start
  have hleft : HasOwners diamondGraph 3 [("a", 3), ("b", 3)] :=
    hstart.hasOwners hbase (hstart.denotes_declared (by decide))
  have hright : HasOwners diamondGraph 5 [("a", 2), ("c", 4)] :=
    hstart.hasOwners hbase (hstart.denotes_declared (by decide))
  have hdecl : diamondGraph.definitions[6]? = some (.object _) := rfl
  have hreference : diamondGraph.definitions[7]? = some (.reference 6 [1]) := rfl
  obtain ⟨inherited, owners, hinherited, howners, hbottom, hinstantiations, -, -⟩ :=
    properties_flatten_bases haccepted .start hdecl
  -- What the base types have is known, and the theorem says what becomes of it.
  obtain ⟨_, _, hfirst, hrest, rfl⟩ := List.forall₂_cons_left_iff.mp hinherited
  obtain ⟨_, _, hsecond, hnil, rfl⟩ := List.forall₂_cons_left_iff.mp hrest
  rw [List.forall₂_nil_left_iff.mp hnil, hfirst.unique hleft, hsecond.unique hright] at howners
  have hmerged : owners = [("a", 2), ("b", 3), ("c", 4), ("d", 6)] := howners
  rw [hmerged] at hbottom hinstantiations
  exact ⟨haccepted, hdecl, hreference, hleft, hright, hbottom,
    hinstantiations 7 [1] hreference⟩

end GraphSchema.Graph
