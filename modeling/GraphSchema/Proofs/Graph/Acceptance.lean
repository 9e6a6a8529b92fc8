import Mathlib
import GraphSchema.Proofs.Fields
import GraphSchema.Proofs.Graph.Linked

/-!
# Which documents are accepted

`Graph.ofDocument` accepts a document where every mention is declared, every reference targets an
object and no declaration is its own base type, directly or through others.  These three conditions
are stated here on the ids of the document alone, and `ofDocument_verdict` says that they decide.

A rejected document is rejected for the first fault of its mentions, in document order
(`Document.faults`), and only where there is none for a cycle; the id that is named then lies on
one.  `Reports` is the rule by which the order of faults follows the order of the checks.  For the
cycles, a walk along base types that finds nothing has no room for one
(`BaseWalk.not_transGen_of_clear`), and a walk that meets an object again has come from it
(`BaseWalk.transGen_of_cycle`).
-/

namespace GraphSchema

/-! ## Conditions on a document -/

namespace Document

variable (document : Document)

/-- Every type that is mentioned is declared. -/
def MentionsDeclared : Prop :=
  ∀ entry ∈ document.types, ∀ id ∈ entry.2.mentions, id ∈ document.ids

/-- Every reference targets an object. -/
def TargetsObjects : Prop :=
  ∀ source target arguments, (source, .reference target arguments) ∈ document.types →
    ∃ decl, Fields.get? document.types target = some (.object decl)

/-- The declaration behind an id: itself where it is an object, and the target of a reference. -/
def declaration? (id : String) : Option String :=
  match Fields.get? document.types id with
  | some (.object _) => some id
  | some (.reference target _) => some target
  | _ => none

/-- A declaration has a base type, and behind that is the other declaration. -/
def Extends (id other : String) : Prop :=
  ∃ decl, Fields.get? document.types id = some (.object decl) ∧
    ∃ parent ∈ decl.bases, document.declaration? parent = some other

/-- A declaration is among those that it extends, directly or through others. -/
def OnCycle (id : String) : Prop := Relation.TransGen document.Extends id id

/-- The fault of a mention, if it is not declared. -/
def mentionFaults (source id : String) : List GraphFault :=
  if id ∈ document.ids then [] else [.unknownType id source]

/-- The fault of a target, if it is not declared or no object. -/
def targetFaults (source target : String) : List GraphFault :=
  if target ∈ document.ids then
    if document.declaresObject target then [] else [.invalidTarget source target]
  else [.unknownType target source]

/-- The faults of the mentions of one definition, from left to right. -/
def faultsIn (source : String) : Definition String → List GraphFault
  | .reference target arguments =>
    document.targetFaults source target ++ arguments.flatMap (document.mentionFaults source)
  | definition => definition.mentions.flatMap (document.mentionFaults source)

/-- The faults of all mentions, in document order. -/
def faults : List GraphFault :=
  document.types.flatMap fun entry => document.faultsIn entry.1 entry.2

variable {document}

theorem mentionFaults_eq_nil_iff {source id : String} :
    document.mentionFaults source id = [] ↔ id ∈ document.ids := by
  simp [mentionFaults]

theorem declaresObject_iff {id : String} :
    document.declaresObject id ↔ ∃ decl, Fields.get? document.types id = some (.object decl) := by
  rw [declaresObject]
  cases Fields.get? document.types id with
  | none => simp
  | some definition => cases definition <;> simp [Definition.isObject]

theorem targetFaults_eq_nil_iff {source target : String} :
    document.targetFaults source target = [] ↔
      target ∈ document.ids ∧ ∃ decl, Fields.get? document.types target = some (.object decl) := by
  rw [← declaresObject_iff, targetFaults]
  split <;> simp [*]

/-- A document is without faults where both conditions on its mentions hold. -/
theorem faults_eq_nil_iff :
    document.faults = [] ↔ document.MentionsDeclared ∧ document.TargetsObjects := by
  have hentry : ∀ entry : String × Definition String, document.faultsIn entry.1 entry.2 = [] ↔
      (∀ id ∈ entry.2.mentions, id ∈ document.ids) ∧
        ∀ target arguments, entry.2 = .reference target arguments →
          ∃ decl, Fields.get? document.types target = some (.object decl) := by
    rintro ⟨source, definition⟩
    cases definition with
    | reference target arguments =>
      simp only [faultsIn, List.append_eq_nil_iff, targetFaults_eq_nil_iff, List.flatMap_eq_nil_iff,
        mentionFaults_eq_nil_iff, Definition.mentions, List.forall_mem_cons,
        Definition.reference.injEq]
      constructor
      · rintro ⟨⟨htarget, hobject⟩, harguments⟩
        exact ⟨⟨htarget, harguments⟩, by rintro _ _ ⟨rfl, rfl⟩; exact hobject⟩
      · rintro ⟨⟨htarget, harguments⟩, hobject⟩
        exact ⟨⟨htarget, hobject _ _ ⟨rfl, rfl⟩⟩, harguments⟩
    | _ => simp [faultsIn, mentionFaults_eq_nil_iff]
  simp only [faults, List.flatMap_eq_nil_iff, hentry, MentionsDeclared, TargetsObjects]
  constructor
  · intro h
    exact ⟨fun entry hmem => (h entry hmem).1,
      fun source target arguments hmem => (h _ hmem).2 target arguments rfl⟩
  · rintro ⟨hmentions, htargets⟩ entry hmem
    exact ⟨hmentions entry hmem,
      fun target arguments heq => htargets entry.1 target arguments (heq ▸ hmem)⟩

end Document

/-! ## The first fault -/

namespace Document

variable {document : Document} {source : String}

theorem reports_lookup (id : String) :
    Reports (document.lookup source id) (document.mentionFaults source id) := by
  rw [lookup, mentionFaults]
  cases hindex : document.ids.idxOf? id with
  | none =>
    rw [if_neg (List.idxOf?_eq_none_iff.mp hindex)]
    rfl
  | some handle =>
    rw [if_pos]
    · exact ⟨handle, rfl⟩
    · by_contra hmem
      rw [List.idxOf?_eq_none_iff.mpr hmem] at hindex
      cases hindex

theorem reports_lookups (ids : List String) :
    Reports (ids.mapM (document.lookup source)) (ids.flatMap (document.mentionFaults source)) :=
  Reports.mapM reports_lookup ids

/-- A definition is linked where its mentions are without faults. -/
theorem reports_link (definition : Definition String) :
    Reports (document.link source definition) (document.faultsIn source definition) := by
  cases definition with
  | intrinsic kind => exact ⟨_, rfl⟩
  | opaqueType symbol => exact ⟨_, rfl⟩
  | tuple elements => exact (reports_lookups elements).map Definition.tuple
  | object decl =>
    rw [faultsIn, Definition.mentions, List.flatMap_append, List.flatMap_append, List.flatMap_map,
      List.append_assoc]
    · refine (reports_lookups decl.bases).bind fun bases _ => ?_
      refine (reports_lookups decl.parameters).bind fun parameters _ => ?_
      refine Reports.map (Reports.mapM (fun property => ?_) decl.properties) _
      exact (reports_lookup property.2).map (property.1, ·)
    · simp
  | reference target arguments =>
    have htarget : Reports (document.lookup source target) (document.mentionFaults source target) :=
      reports_lookup target
    rw [faultsIn, targetFaults]
    rw [mentionFaults] at htarget
    by_cases hmem : target ∈ document.ids
    · rw [if_pos hmem] at htarget ⊢
      obtain ⟨handle, hhandle⟩ := htarget
      rw [link, hhandle]
      show Reports (if document.declaresObject target then _ else _) _
      by_cases hobject : document.declaresObject target
      · rw [if_pos hobject, if_pos hobject]
        exact (reports_lookups arguments).map (Definition.reference handle)
      · rw [if_neg hobject, if_neg hobject]
        rfl
    · rw [if_neg hmem] at htarget ⊢
      have herror : document.lookup source target = .error (.unknownType target source) := htarget
      rw [link, herror]
      rfl

/-- The definitions of a document are linked where the document is without faults. -/
theorem reports_links (document : Document) :
    Reports (document.types.mapM fun entry => document.link entry.1 entry.2) document.faults :=
  Reports.mapM (fun entry => reports_link entry.2) document.types

end Document

/-! ## Walks along base types -/

namespace BaseWalk

/-- An object has a base type, and behind that is the other object. -/
def Extends (definitions : Array (Definition Handle)) (declaration other : Handle) : Prop :=
  ∃ parent ∈ basesOf definitions declaration, declaration? definitions parent = some other

variable {definitions : Array (Definition Handle)} {steps : Nat} {path : List Handle}
  {handle declaration found : Handle}

theorem exists_of_first_eq {α : Type} {walk : α → BaseWalk} {items : List α} {found : BaseWalk}
    (h : first walk items = found) (hne : found ≠ .clear) : ∃ item ∈ items, walk item = found := by
  induction items with
  | nil => exact absurd h.symm hne
  | cons item rest ih =>
    rw [first] at h
    split at h
    · obtain ⟨other, hmem, hother⟩ := ih h
      exact ⟨other, List.mem_cons_of_mem _ hmem, hother⟩
    · exact ⟨item, List.mem_cons_self, h⟩

theorem declaration?_of_extends {other : Handle} (h : Extends definitions declaration other) :
    declaration < definitions.size ∧
      declaration? definitions declaration = some declaration := by
  obtain ⟨parent, hparent, -⟩ := h
  unfold basesOf at hparent
  split at hparent
  · rename_i decl hdecl
    exact ⟨(Array.getElem?_eq_some_iff.mp hdecl).1, declaration?_eq hdecl⟩
  · cases hparent

/-- An object that a walk meets again is on a cycle: the walk has come from it. -/
theorem transGen_of_cycle (h : visit definitions steps path handle = .cycle found)
    (hpath : ∀ declaration, declaration? definitions handle = some declaration →
      ∀ earlier ∈ path, Relation.TransGen (Extends definitions) earlier declaration) :
    Relation.TransGen (Extends definitions) found found := by
  induction steps generalizing path handle with
  | zero => cases h
  | succ steps ih =>
    rw [visit] at h
    cases hdeclaration : declaration? definitions handle with
    | none =>
      rw [hdeclaration] at h
      cases h
    | some declaration =>
      rw [hdeclaration] at h
      dsimp only at h
      split at h
      · rename_i hmem
        cases h
        exact hpath found hdeclaration found hmem
      · obtain ⟨parent, hparent, hvisit⟩ := exists_of_first_eq h (by simp)
        refine ih hvisit fun other hother earlier hearlier => ?_
        have hextends : Extends definitions declaration other := ⟨parent, hparent, hother⟩
        rcases List.mem_cons.mp hearlier with heq | hearlier
        · exact heq ▸ .single hextends
        · exact .tail (hpath declaration hdeclaration earlier hearlier) hextends

/-- A walk without a find has followed no cycle: every turn would take steps. -/
theorem not_transGen_of_clear (h : visit definitions steps path handle = .clear)
    (hdeclaration : declaration? definitions handle = some declaration) :
    ¬ Relation.TransGen (Extends definitions) declaration declaration := by
  induction steps generalizing path handle declaration with
  | zero => cases h
  | succ steps ih =>
    intro hcycle
    obtain ⟨next, hnext, hrest⟩ := Relation.TransGen.head'_iff.mp hcycle
    obtain ⟨parent, hparent, hother⟩ := id hnext
    exact ih (visit_eq_clear_of_mem h hdeclaration hparent) hother (.tail' hrest hnext)

/-- A path of a walk does not repeat, so the walk has steps enough. -/
theorem visit_ne_exhausted
    (hlt : ∀ handle declaration, declaration? definitions handle = some declaration →
      declaration < definitions.size)
    (hnodup : path.Nodup) (hpath : ∀ earlier ∈ path, earlier < definitions.size)
    (hsteps : definitions.size + 1 ≤ steps + path.length) :
    visit definitions steps path handle ≠ .exhausted := by
  induction steps generalizing path handle with
  | zero =>
    have hlength := length_le_of_nodup hnodup hpath
    omega
  | succ steps ih =>
    rw [visit]
    cases hdeclaration : declaration? definitions handle with
    | none => simp
    | some declaration =>
      dsimp only
      split
      · simp
      · rename_i hnew
        intro hexhausted
        obtain ⟨parent, -, hvisit⟩ := exists_of_first_eq hexhausted (by simp)
        refine ih (List.nodup_cons.mpr ⟨hnew, hnodup⟩)
          (List.forall_mem_cons.mpr ⟨hlt handle declaration hdeclaration, hpath⟩) ?_ hvisit
        rw [List.length_cons]
        omega

/-- The walks from all types find nothing where there is no cycle, and an object on a cycle where
there is one. -/
theorem visitAll_cases
    (hlt : ∀ handle declaration, declaration? definitions handle = some declaration →
      declaration < definitions.size) :
    (visitAll definitions = .clear ∧
        ∀ declaration, ¬ Relation.TransGen (Extends definitions) declaration declaration) ∨
      ∃ found, visitAll definitions = .cycle found ∧
        Relation.TransGen (Extends definitions) found found := by
  cases hwalk : visitAll definitions with
  | clear =>
    refine .inl ⟨rfl, fun declaration hcycle => ?_⟩
    obtain ⟨next, hnext, -⟩ := Relation.TransGen.head'_iff.mp hcycle
    obtain ⟨hsize, hdeclaration⟩ := declaration?_of_extends hnext
    have hvisit := first_eq_clear_iff.mp hwalk declaration (List.mem_range.mpr hsize)
    exact not_transGen_of_clear hvisit hdeclaration hcycle
  | cycle found =>
    obtain ⟨handle, -, hvisit⟩ := exists_of_first_eq hwalk nofun
    exact .inr ⟨found, rfl, transGen_of_cycle hvisit nofun⟩
  | exhausted =>
    obtain ⟨handle, -, hvisit⟩ := exists_of_first_eq hwalk nofun
    exact absurd hvisit (visit_ne_exhausted hlt List.nodup_nil nofun (by simp))

end BaseWalk

/-! ## Cycles of ids and of handles -/

namespace Document

variable {document : Document} {source id other : String} {handle : Handle}

/-- The handle of an id is the place of its first definition. -/
def HandleOf (document : Document) (id : String) (handle : Handle) : Prop :=
  document.ids.idxOf? id = some handle

theorem HandleOf.getElem? (h : document.HandleOf id handle) : document.ids[handle]? = some id := by
  obtain ⟨hlt, hid, -⟩ := List.findIdx?_eq_some_iff_getElem.mp h
  rw [List.getElem?_eq_getElem hlt, beq_iff_eq.mp hid]

theorem HandleOf.unique {place : Handle} (h : document.HandleOf id handle)
    (hplace : document.HandleOf id place) : handle = place :=
  Option.some.inj (h.symm.trans hplace)

theorem exists_handleOf_of_get? {definition : Definition String}
    (h : Fields.get? document.types id = some definition) :
    ∃ handle, document.HandleOf id handle := by
  refine Option.ne_none_iff_exists'.mp fun hnone => ?_
  have hnew : id ∉ Fields.keys document.types := List.idxOf?_eq_none_iff.mp hnone
  rw [Fields.get?_eq_none_iff.mpr hnew] at h
  cases h

theorem HandleOf.exists_get? (h : document.HandleOf id handle) :
    ∃ definition, Fields.get? document.types id = some definition ∧
      document.types[handle]? = some (id, definition) := by
  have hmem : id ∈ Fields.keys document.types := List.mem_of_getElem? h.getElem?
  obtain ⟨definition, hdefinition⟩ := Option.ne_none_iff_exists'.mp
    (mt Fields.get?_eq_none_iff.mp (not_not_intro hmem))
  exact ⟨definition, hdefinition, getElem?_of_idxOf? h hdefinition⟩

/-- A linked object has the base types that the handles of its base types name. -/
theorem bases_of_link {decl : ObjectDecl String} {linked : Definition Handle}
    (h : document.link source (.object decl) = .ok linked) :
    ∃ decl', linked = .object decl' ∧
      List.Forall₂ document.HandleOf decl.bases decl'.bases := by
  obtain ⟨bases, hbases, h⟩ := exists_of_bind_eq_ok h
  obtain ⟨parameters, -, h⟩ := exists_of_bind_eq_ok h
  obtain ⟨properties, -, h⟩ := exists_of_bind_eq_ok h
  cases h
  exact ⟨_, rfl, (forall₂_of_mapM hbases).imp fun _ _ => lookup_eq_ok⟩

theorem handleOf_of_link {target : String} {arguments : List String} {linked : Definition Handle}
    (h : document.link source (.reference target arguments) = .ok linked) :
    ∃ handle handles, linked = .reference handle handles ∧ document.HandleOf target handle := by
  obtain ⟨handle, htarget, h⟩ := exists_of_bind_eq_ok h
  split at h
  · obtain ⟨handles, -, h⟩ := exists_of_bind_eq_ok h
    cases h
    exact ⟨handle, handles, rfl, lookup_eq_ok htarget⟩
  · cases h

section Linked

variable {definitions : List (Definition Handle)} {declaration next : Handle}

/-- Behind a handle is the declaration that is behind its id. -/
theorem declaration?_rel
    (hlinked : List.Forall₂ (fun entry linked => document.link entry.1 entry.2 = .ok linked)
      document.types definitions) (h : document.HandleOf id handle) :
    Option.Rel document.HandleOf (document.declaration? id)
      (BaseWalk.declaration? definitions.toArray handle) := by
  obtain ⟨definition, hget, hplace⟩ := h.exists_get?
  obtain ⟨linked, hlinked', hlink⟩ := exists_getElem?_of_forall₂ hlinked.flip hplace
  have harray : definitions.toArray[handle]? = some linked := by
    rw [List.getElem?_toArray, hlinked']
  rw [declaration?, hget, BaseWalk.declaration?_eq harray]
  cases definition with
  | intrinsic kind =>
    cases hlink
    exact .none
  | opaqueType symbol =>
    cases hlink
    exact .none
  | tuple elements =>
    obtain ⟨handles, -, hlink⟩ := exists_of_bind_eq_ok hlink
    cases hlink
    exact .none
  | object decl =>
    obtain ⟨decl', rfl⟩ := object_of_link hlink
    exact .some h
  | reference target arguments =>
    obtain ⟨handle', handles, rfl, htarget⟩ := handleOf_of_link hlink
    exact .some htarget

/-- What an object extends has an id, which the id of the object extends. -/
theorem exists_of_extends
    (hlinked : List.Forall₂ (fun entry linked => document.link entry.1 entry.2 = .ok linked)
      document.types definitions)
    (h : BaseWalk.Extends definitions.toArray declaration next) :
    ∃ other, document.HandleOf other next ∧
      ∀ id, document.HandleOf id declaration → document.Extends id other := by
  obtain ⟨parent', hparent', hnext⟩ := h
  unfold BaseWalk.basesOf at hparent'
  split at hparent'
  · rename_i decl' hdecl'
    rw [List.getElem?_toArray] at hdecl'
    obtain ⟨⟨source, definition⟩, hplace, hlink⟩ := exists_getElem?_of_forall₂ hlinked hdecl'
    cases definition with
    | object decl =>
      obtain ⟨_, heq, hbases⟩ := bases_of_link hlink
      cases heq
      obtain ⟨place, hmem⟩ := List.mem_iff_getElem?.mp hparent'
      obtain ⟨parent, hparent, hhandle⟩ := exists_getElem?_of_forall₂ hbases hmem
      have hrel := declaration?_rel hlinked hhandle
      rw [hnext] at hrel
      generalize hother : document.declaration? parent = other at hrel
      cases hrel with
      | some hrel =>
        refine ⟨_, hrel, fun id hid => ⟨decl, ?_, parent, List.mem_of_getElem? hparent, hother⟩⟩
        obtain ⟨definition, hget, hplace'⟩ := hid.exists_get?
        cases hplace.symm.trans hplace'
        exact hget
    | reference target arguments =>
      obtain ⟨_, _, heq, -⟩ := handleOf_of_link hlink
      cases heq
    | tuple elements =>
      obtain ⟨_, -, hlink⟩ := exists_of_bind_eq_ok hlink
      cases hlink
    | _ => cases hlink
  · cases hparent'

/-- What an id extends has a handle, which the handle of the id extends. -/
theorem exists_handle_of_extends
    (hlinked : List.Forall₂ (fun entry linked => document.link entry.1 entry.2 = .ok linked)
      document.types definitions) (h : document.Extends id other)
    (hid : document.HandleOf id declaration) :
    ∃ next, document.HandleOf other next ∧
      BaseWalk.Extends definitions.toArray declaration next := by
  obtain ⟨decl, hdecl, parent, hparent, hother⟩ := h
  obtain ⟨linked, hplace, hlink⟩ :=
    exists_getElem?_of_forall₂ hlinked.flip (getElem?_of_idxOf? hid hdecl)
  obtain ⟨decl', rfl, hbases⟩ := bases_of_link hlink
  obtain ⟨place, hmem⟩ := List.mem_iff_getElem?.mp hparent
  obtain ⟨parent', hparent', hhandle⟩ := exists_getElem?_of_forall₂ hbases.flip hmem
  have hrel := declaration?_rel hlinked hhandle
  rw [hother] at hrel
  generalize hnext : BaseWalk.declaration? definitions.toArray parent' = next at hrel
  cases hrel with
  | some hrel =>
    refine ⟨_, hrel, parent', ?_, hnext⟩
    have harray : definitions.toArray[declaration]? = some (.object decl') := by
      rw [List.getElem?_toArray, hplace]
    rw [BaseWalk.basesOf_eq harray]
    exact List.mem_of_getElem? hparent'

/-- An object on a cycle has an id on a cycle. -/
theorem exists_onCycle
    (hlinked : List.Forall₂ (fun entry linked => document.link entry.1 entry.2 = .ok linked)
      document.types definitions)
    (h : Relation.TransGen (BaseWalk.Extends definitions.toArray) declaration declaration) :
    ∃ id, document.HandleOf id declaration ∧ document.OnCycle id := by
  have hway : ∀ {first last}, Relation.TransGen (BaseWalk.Extends definitions.toArray) first last →
      ∃ other, document.HandleOf other last ∧ ∀ id, document.HandleOf id first →
        Relation.TransGen document.Extends id other := by
    intro first last hway
    induction hway with
    | single hstep =>
      obtain ⟨other, hother, hextends⟩ := exists_of_extends hlinked hstep
      exact ⟨other, hother, fun id hid => .single (hextends id hid)⟩
    | tail _ hstep ih =>
      obtain ⟨middle, hmiddle, hbefore⟩ := ih
      obtain ⟨other, hother, hextends⟩ := exists_of_extends hlinked hstep
      exact ⟨other, hother, fun id hid => .tail (hbefore id hid) (hextends middle hmiddle)⟩
  obtain ⟨id, hid, hcycle⟩ := hway h
  exact ⟨id, hid, hcycle id hid⟩

/-- An id on a cycle has a handle on a cycle. -/
theorem exists_transGen_of_onCycle
    (hlinked : List.Forall₂ (fun entry linked => document.link entry.1 entry.2 = .ok linked)
      document.types definitions) (h : document.OnCycle id) :
    ∃ declaration,
      Relation.TransGen (BaseWalk.Extends definitions.toArray) declaration declaration := by
  have hway : ∀ {id other declaration}, Relation.TransGen document.Extends id other →
      document.HandleOf id declaration → ∃ next, document.HandleOf other next ∧
        Relation.TransGen (BaseWalk.Extends definitions.toArray) declaration next := by
    intro id other declaration hway hid
    induction hway with
    | single hstep =>
      obtain ⟨next, hnext, hextends⟩ := exists_handle_of_extends hlinked hstep hid
      exact ⟨next, hnext, .single hextends⟩
    | tail _ hstep ih =>
      obtain ⟨middle, hmiddle, hbefore⟩ := ih
      obtain ⟨next, hnext, hextends⟩ := exists_handle_of_extends hlinked hstep hmiddle
      exact ⟨next, hnext, .tail hbefore hextends⟩
  obtain ⟨_, ⟨decl, hdecl, -⟩, -⟩ := Relation.TransGen.head'_iff.mp h
  obtain ⟨declaration, hid⟩ := exists_handleOf_of_get? hdecl
  obtain ⟨next, hnext, hcycle⟩ := hway h hid
  exact ⟨declaration, by rwa [← hid.unique hnext] at hcycle⟩

theorem declaration?_lt
    (hlinked : List.Forall₂ (fun entry linked => document.link entry.1 entry.2 = .ok linked)
      document.types definitions)
    (h : BaseWalk.declaration? definitions.toArray handle = some declaration) :
    declaration < definitions.toArray.size := by
  have hsize : document.ids.length = definitions.toArray.size := by
    rw [List.size_toArray, ← hlinked.length_eq, ids, Fields.keys, List.length_map]
  obtain ⟨found, hfound, h⟩ := Option.bind_eq_some_iff.mp h
  cases found with
  | object decl =>
    cases h
    exact (Array.getElem?_eq_some_iff.mp hfound).1
  | reference target arguments =>
    cases h
    rw [List.getElem?_toArray] at hfound
    obtain ⟨entry, -, hlink⟩ := exists_getElem?_of_forall₂ hlinked hfound
    exact hsize ▸ mentions_lt_of_link hlink declaration List.mem_cons_self
  | _ => cases h

end Linked

end Document

/-! ## The verdict -/

namespace Graph

variable {document : Document}

theorem ofDocument_of_faults {fault : GraphFault} {rest : List GraphFault}
    (h : document.faults = fault :: rest) : ofDocument document = .error fault := by
  have herror : (document.types.mapM fun entry => document.link entry.1 entry.2) =
      .error fault := by
    have hreports := document.reports_links
    rwa [h] at hreports
  rw [ofDocument, herror]
  rfl

/-- Without a fault of a mention, the walks along base types decide. -/
theorem ofDocument_of_links {definitions : List (Definition Handle)}
    (h : (document.types.mapM fun entry => document.link entry.1 entry.2) = .ok definitions) :
    ofDocument document =
      match BaseWalk.visitAll definitions.toArray with
      | .clear =>
        .ok ⟨document.ids, definitions.toArray, declaredInstances definitions, none⟩
      | .cycle declaration => .error (.cyclicBases (document.ids[declaration]?.getD ""))
      | .exhausted => .error (.cyclicBases "") := by
  rw [ofDocument, h]
  rfl

/-- Without a fault of a mention, the cycles decide. -/
theorem ofDocument_of_faults_eq_nil (h : document.faults = []) :
    (∃ graph, ofDocument document = .ok graph) ∧ (∀ id, ¬ document.OnCycle id) ∨
      ∃ id, document.OnCycle id ∧ ofDocument document = .error (.cyclicBases id) := by
  have hreports := document.reports_links
  rw [h] at hreports
  obtain ⟨definitions, hlinks⟩ := hreports
  have hlinked := forall₂_of_mapM hlinks
  rw [ofDocument_of_links hlinks]
  rcases BaseWalk.visitAll_cases fun _ _ => Document.declaration?_lt hlinked with
    ⟨hwalk, hacyclic⟩ | ⟨found, hwalk, hcycle⟩
  · rw [hwalk]
    refine .inl ⟨⟨_, rfl⟩, fun id hid => ?_⟩
    obtain ⟨declaration, hcycle⟩ := Document.exists_transGen_of_onCycle hlinked hid
    exact hacyclic declaration hcycle
  · obtain ⟨id, hid, honcycle⟩ := Document.exists_onCycle hlinked hcycle
    refine .inr ⟨id, honcycle, ?_⟩
    rw [hwalk]
    dsimp only
    rw [hid.getElem?, Option.getD_some]

/-- A document is accepted exactly where its mentions are declared, its references target objects
and no declaration is on a cycle.  Otherwise the first fault of a mention is reported, and where
there is none an id that is on a cycle. -/
theorem ofDocument_verdict (document : Document) :
    ((∃ graph, ofDocument document = .ok graph) ↔
      document.MentionsDeclared ∧ document.TargetsObjects ∧ ∀ id, ¬ document.OnCycle id) ∧
    (¬ (document.MentionsDeclared ∧ document.TargetsObjects) →
      ∃ fault, document.faults.head? = some fault ∧ ofDocument document = .error fault) ∧
    (document.MentionsDeclared ∧ document.TargetsObjects → (∃ id, document.OnCycle id) →
      ∃ id, document.OnCycle id ∧ ofDocument document = .error (.cyclicBases id)) := by
  rw [← and_assoc (a := document.MentionsDeclared), ← Document.faults_eq_nil_iff]
  cases hfaults : document.faults with
  | cons fault rest =>
    have herror := ofDocument_of_faults hfaults
    refine ⟨⟨?_, fun h => absurd h.1 nofun⟩, fun _ => ⟨fault, rfl, herror⟩, fun h => absurd h nofun⟩
    rintro ⟨graph, hgraph⟩
    cases herror.symm.trans hgraph
  | nil =>
    refine ⟨?_, fun h => absurd rfl h, fun _ ⟨id, hid⟩ => ?_⟩
    · rcases ofDocument_of_faults_eq_nil hfaults with ⟨haccepted, hacyclic⟩ | ⟨id, hid, herror⟩
      · exact iff_of_true haccepted ⟨rfl, hacyclic⟩
      · refine iff_of_false ?_ fun h => h.2 id hid
        rintro ⟨graph, hgraph⟩
        cases herror.symm.trans hgraph
    · exact (ofDocument_of_faults_eq_nil hfaults).resolve_left fun h => h.2 id hid

/-- An object whose base type leads to a cycle, through an instantiation, without being on it. -/
def ring : Document where
  types := [
    ("T", .opaqueType none),
    ("Entry", .object {
      symbol := some "Entry"
      interface := true
      bases := ["Ring<T>"]
      parameters := ["T"]
      properties := []
      members := [] }),
    ("Ring", .object {
      symbol := some "Ring"
      interface := true
      bases := ["Link"]
      parameters := ["T"]
      properties := []
      members := [] }),
    ("Link", .object {
      symbol := some "Link"
      interface := true
      bases := ["T", "Ring<T>"]
      parameters := []
      properties := []
      members := [] }),
    ("Ring<T>", .reference "Ring" ["T"])]

/-- The walk from `Entry` comes to the cycle, and an id on the cycle is named. -/
theorem ofDocument_verdict_ring :
    ring.OnCycle "Ring" ∧ ¬ (∃ graph, ofDocument ring = .ok graph) ∧
      ∃ id, ring.OnCycle id ∧ ofDocument ring = .error (.cyclicBases id) := by
  have hring : ring.Extends "Ring" "Link" := ⟨_, rfl, "Link", List.mem_singleton_self _, rfl⟩
  have hlink : ring.Extends "Link" "Ring" :=
    ⟨_, rfl, "Ring<T>", List.mem_cons_of_mem _ (List.mem_singleton_self _), rfl⟩
  have hcycle : ring.OnCycle "Ring" := .tail (.single hring) hlink
  obtain ⟨haccepted, -, hnamed⟩ := ofDocument_verdict ring
  exact ⟨hcycle, fun h => (haccepted.mp h).2.2 "Ring" hcycle,
    hnamed (Document.faults_eq_nil_iff.mp rfl) ⟨"Ring", hcycle⟩⟩

end Graph

end GraphSchema
