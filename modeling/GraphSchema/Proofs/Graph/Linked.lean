import Mathlib
import GraphSchema.Graph.OfDocument
import GraphSchema.Proofs.Outcomes

/-!
# What acceptance of a document guarantees

`Graph.ofDocument` checks every mention, every target and all base types.  `Graph.Linked` says
what a graph that has passed these checks can be relied on for, and `linked_of_ofDocument` that
every accepted document has such a graph.  Everything that is proved of accepted documents rests
on `Graph.Linked` alone.
-/

namespace GraphSchema

/-- The types that a definition mentions. -/
def Definition.mentions {ι : Type} : Definition ι → List ι
  | object decl => decl.bases ++ decl.parameters ++ decl.properties.map Prod.snd
  | tuple elements => elements
  | reference target arguments => target :: arguments
  | intrinsic _ | opaqueType _ => []

/-- What holds of the graph of an accepted document. -/
structure Graph.Linked (graph : Graph) : Prop where
  size_eq : graph.ids.length = graph.definitions.size
  mentions_lt : ∀ {handle : Handle} {definition : Definition Handle},
    graph.definitions[handle]? = some definition →
    ∀ mention ∈ definition.mentions, mention < graph.definitions.size
  target_object : ∀ {handle target : Handle} {arguments : List Handle},
    graph.definitions[handle]? = some (.reference target arguments) →
    ∃ decl, graph.definitions[target]? = some (.object decl)
  instances_eq : graph.instances = declaredInstances graph.definitions.toList
  unknown_eq : graph.unknown = none
  clear : ∀ handle < graph.definitions.size,
    BaseWalk.visit graph.definitions (graph.definitions.size + 1) [] handle = .clear

/-- The base types that an object lists are types of the graph. -/
theorem Graph.Linked.lt_of_mem_bases {graph : Graph} (h : graph.Linked) {handle parent : Handle}
    {decl : ObjectDecl Handle} (hdecl : graph.definitions[handle]? = some (.object decl))
    (hmem : parent ∈ decl.bases) : parent < graph.definitions.size :=
  h.mentions_lt hdecl parent (List.mem_append_left _ (List.mem_append_left _ hmem))

/-! ## Walks along base types -/

/-- A list of handles without repetition is no longer than there are handles. -/
theorem length_le_of_nodup {path : List Handle} {bound : Nat} (hnodup : path.Nodup)
    (hlt : ∀ handle ∈ path, handle < bound) : path.length ≤ bound := by
  have hsubset : path.toFinset ⊆ Finset.range bound := fun handle hmem =>
    Finset.mem_range.mpr (hlt handle (List.mem_toFinset.mp hmem))
  have hcard := Finset.card_le_card hsubset
  rwa [List.toFinset_card_of_nodup hnodup, Finset.card_range] at hcard

namespace BaseWalk

theorem declaration?_eq {definitions : Array (Definition Handle)} {handle : Handle}
    {definition : Definition Handle} (h : definitions[handle]? = some definition) :
    declaration? definitions handle = definition.declaration? handle := by
  rw [declaration?, h, Option.bind_some]

theorem basesOf_eq {definitions : Array (Definition Handle)} {handle : Handle}
    {decl : ObjectDecl Handle} (h : definitions[handle]? = some (.object decl)) :
    basesOf definitions handle = decl.bases := by
  rw [basesOf, h]

/-- The first result of several walks is clear where all of them are. -/
theorem first_eq_clear_iff {α : Type} {walk : α → BaseWalk} {items : List α} :
    first walk items = clear ↔ ∀ item ∈ items, walk item = clear := by
  induction items with
  | nil => simp [first]
  | cons item rest ih =>
    rw [first, List.forall_mem_cons, ← ih]
    cases walk item <;> simp

/-- A clear walk goes on to clear walks from the base types of the object that it comes to. -/
theorem visit_eq_clear_of_mem {definitions : Array (Definition Handle)} {steps : Nat}
    {path : List Handle} {handle declaration parent : Handle}
    (h : visit definitions (steps + 1) path handle = clear)
    (hdeclaration : declaration? definitions handle = some declaration)
    (hparent : parent ∈ basesOf definitions declaration) :
    visit definitions steps (declaration :: path) parent = clear := by
  rw [visit, hdeclaration] at h
  dsimp only at h
  split at h
  · cases h
  · exact first_eq_clear_iff.mp h parent hparent

end BaseWalk

namespace Document

variable {document : Document} {source : String}

theorem lookup_eq_ok {id : String} {handle : Handle}
    (h : document.lookup source id = .ok handle) : document.ids.idxOf? id = some handle := by
  unfold lookup at h
  split at h
  · rename_i found hfound
    cases h
    exact hfound
  · cases h

theorem lt_of_lookup {id : String} {handle : Handle}
    (h : document.lookup source id = .ok handle) : handle < document.ids.length := by
  have hindex := lookup_eq_ok h
  rw [List.idxOf?, List.findIdx?_eq_some_iff_getElem] at hindex
  exact hindex.1

/-- Every handle that a linked definition mentions is that of an id. -/
theorem mentions_lt_of_lookup {ids : List String} {handles : List Handle}
    (h : ids.mapM (document.lookup source) = .ok handles) :
    ∀ handle ∈ handles, handle < document.ids.length := by
  intro handle hmem
  obtain ⟨place, hplace⟩ := List.mem_iff_getElem?.mp hmem
  obtain ⟨id, -, hlookup⟩ := exists_getElem?_of_forall₂ (forall₂_of_mapM h) hplace
  exact lt_of_lookup hlookup

/-- A linked definition mentions types of the document only. -/
theorem mentions_lt_of_link {definition : Definition String} {linked : Definition Handle}
    (h : document.link source definition = .ok linked) :
    ∀ mention ∈ linked.mentions, mention < document.ids.length := by
  cases definition with
  | intrinsic kind =>
    cases h
    simp [Definition.mentions]
  | opaqueType symbol =>
    cases h
    simp [Definition.mentions]
  | tuple elements =>
    obtain ⟨handles, helements, h⟩ := exists_of_bind_eq_ok h
    cases h
    exact mentions_lt_of_lookup helements
  | reference target arguments =>
    obtain ⟨handle, htarget, h⟩ := exists_of_bind_eq_ok h
    split at h
    · obtain ⟨handles, harguments, h⟩ := exists_of_bind_eq_ok h
      cases h
      exact List.forall_mem_cons.mpr ⟨lt_of_lookup htarget, mentions_lt_of_lookup harguments⟩
    · cases h
  | object decl =>
    obtain ⟨bases, hbases, h⟩ := exists_of_bind_eq_ok h
    obtain ⟨parameters, hparameters, h⟩ := exists_of_bind_eq_ok h
    obtain ⟨properties, hproperties, h⟩ := exists_of_bind_eq_ok h
    cases h
    intro mention hmem
    rw [Definition.mentions, List.mem_append, List.mem_append, List.mem_map] at hmem
    rcases hmem with (hmem | hmem) | ⟨property, hmem, rfl⟩
    · exact mentions_lt_of_lookup hbases mention hmem
    · exact mentions_lt_of_lookup hparameters mention hmem
    · obtain ⟨place, hplace⟩ := List.mem_iff_getElem?.mp hmem
      obtain ⟨entry, -, hentry⟩ := exists_getElem?_of_forall₂ (forall₂_of_mapM hproperties) hplace
      obtain ⟨handle, hlookup, hentry⟩ := exists_of_bind_eq_ok hentry
      cases hentry
      exact lt_of_lookup hlookup

/-- The place of an id is that of its first definition. -/
theorem getElem?_of_idxOf? {α : Type} {fields : Fields α} {id : String} {place : Nat} {value : α}
    (hplace : (Fields.keys fields).idxOf? id = some place)
    (hvalue : Fields.get? fields id = some value) : fields[place]? = some (id, value) := by
  induction fields generalizing place with
  | nil => cases hvalue
  | cons entry rest ih =>
    obtain ⟨name, first⟩ := entry
    rw [Fields.keys_cons, List.idxOf?_cons] at hplace
    rw [Fields.get?] at hvalue
    by_cases hname : name = id
    · rw [if_pos hname] at hvalue
      rw [if_pos (beq_iff_eq.mpr hname)] at hplace
      cases hplace
      cases hvalue
      rw [List.getElem?_cons_zero, hname]
    · rw [if_neg hname] at hvalue
      rw [if_neg (by simpa using hname), Option.map_eq_some_iff] at hplace
      obtain ⟨before, hbefore, rfl⟩ := hplace
      exact ih hbefore hvalue

/-- A reference is linked to an id of an object. -/
theorem target_of_link {definition : Definition String} {target : Handle}
    {arguments : List Handle} (h : document.link source definition = .ok (.reference target
      arguments)) :
    ∃ id decl, document.types[target]? = some (id, .object decl) := by
  cases definition with
  | intrinsic kind => cases h
  | opaqueType symbol => cases h
  | tuple elements =>
    obtain ⟨handles, -, h⟩ := exists_of_bind_eq_ok h
    cases h
  | object decl =>
    obtain ⟨bases, -, h⟩ := exists_of_bind_eq_ok h
    obtain ⟨parameters, -, h⟩ := exists_of_bind_eq_ok h
    obtain ⟨properties, -, h⟩ := exists_of_bind_eq_ok h
    cases h
  | reference id arguments =>
    obtain ⟨handle, htarget, h⟩ := exists_of_bind_eq_ok h
    split at h
    · rename_i hobject
      obtain ⟨handles, -, h⟩ := exists_of_bind_eq_ok h
      cases h
      unfold declaresObject at hobject
      split at hobject
      · rename_i definition hdefinition
        have hplace := getElem?_of_idxOf? (lookup_eq_ok htarget) hdefinition
        cases definition with
        | object decl => exact ⟨id, decl, hplace⟩
        | _ => cases hobject
      · cases hobject
    · cases h

/-- An object stays one when it is linked. -/
theorem object_of_link {decl : ObjectDecl String} {linked : Definition Handle}
    (h : document.link source (.object decl) = .ok linked) : ∃ decl', linked = .object decl' := by
  obtain ⟨bases, -, h⟩ := exists_of_bind_eq_ok h
  obtain ⟨parameters, -, h⟩ := exists_of_bind_eq_ok h
  obtain ⟨properties, -, h⟩ := exists_of_bind_eq_ok h
  cases h
  exact ⟨_, rfl⟩

end Document

/-- The graph of an accepted document is linked. -/
theorem Graph.linked_of_ofDocument {document : Document} {graph : Graph}
    (h : Graph.ofDocument document = .ok graph) : graph.Linked := by
  obtain ⟨definitions, hlink, h⟩ := exists_of_bind_eq_ok h
  split at h
  · rename_i hclear
    cases h
    have hall := forall₂_of_mapM hlink
    have hsize : document.ids.length = definitions.toArray.size := by
      rw [List.size_toArray, ← hall.length_eq, Document.ids, Fields.keys, List.length_map]
    refine ⟨hsize, ?_, ?_, rfl, rfl, ?_⟩
    · intro handle definition hdefinition mention hmem
      rw [List.getElem?_toArray] at hdefinition
      obtain ⟨entry, -, hentry⟩ := exists_getElem?_of_forall₂ hall hdefinition
      exact hsize ▸ Document.mentions_lt_of_link hentry mention hmem
    · intro handle target arguments hdefinition
      rw [List.getElem?_toArray] at hdefinition
      obtain ⟨entry, -, hentry⟩ := exists_getElem?_of_forall₂ hall hdefinition
      obtain ⟨id, decl, htarget⟩ := Document.target_of_link hentry
      obtain ⟨definition, hplace, hobject⟩ := exists_getElem?_of_forall₂ hall.flip htarget
      obtain ⟨decl', rfl⟩ := Document.object_of_link hobject
      exact ⟨decl', by rw [List.getElem?_toArray, hplace]⟩
    · intro handle hlt
      exact BaseWalk.first_eq_clear_iff.mp hclear handle (List.mem_range.mpr hlt)
  · cases h
  · cases h

end GraphSchema
