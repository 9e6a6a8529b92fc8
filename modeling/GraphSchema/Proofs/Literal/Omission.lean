import Mathlib
import GraphSchema.Proofs.Literal.Refusals

/-!
# Entries without a value

An absent value may be wrapped any number of times, and it may stand in a sequence, in an entry of
a map or a record, or in a variant.  The encoder treats the three differently.  Entries of maps and
records that hold one leave no trace: `Data.prune` deletes all of them, at every level, and the
expression stays the same (`Data.keptByPrune`).  What is left has no such entry
(`Data.encode_ne_void_of_prune`).  In a sequence the absent value keeps its place, and a variant
keeps it as its payload.

To say this of every level, data and expression are followed down the same path (`Data.at?`,
`Literal.at?`).  A step of the path goes to the same part on both sides (`Data.forall₂_parts`), and
so does the path (`Data.exists_at?`).

**Main statement.**  `Data.encode_omits`.
-/

namespace GraphSchema

namespace Literal

/-- The parts of an expression, in order. -/
def parts : Literal → List Literal
  | array _ elements => elements
  | object _ properties => properties.map Prod.snd
  | _ => []

theorem parts_of_isLeaf {literal : Literal} (h : literal.isLeaf) : literal.parts = [] := by
  cases literal <;> first | rfl | cases h

/-- The part of an expression at the end of a path. -/
def at? (literal : Literal) : List Nat → Option Literal
  | [] => some literal
  | place :: path => literal.parts[place]?.bind (at? · path)

/-- What is kept has a value. -/
theorem ne_void_of_mem_kept {property : String × Literal} {properties : List (String × Literal)}
    (h : property ∈ kept properties) : property.2 ≠ .void := by
  have hvoid := (List.mem_filter.mp h).2
  rintro heq
  rw [heq] at hvoid
  cases hvoid

end Literal

namespace Data

/-! ## Deleting entries -/

/-- The value is written as the absent one. -/
def isOmitted (value : Data) : Bool :=
  match value.encode with
  | .ok literal => literal.isVoid
  | .error _ => false

theorem isOmitted_eq {value : Data} {literal : Literal} (h : value.encode = .ok literal) :
    value.isOmitted = literal.isVoid := by
  rw [isOmitted, h]

mutual

/-- Delete the entries whose value is omitted, at every level. -/
def prune : Data → Data
  | present value => present (prune value)
  | newtype value => newtype (prune value)
  | newtypeVariant variant value => newtypeVariant variant (prune value)
  | sequence elements => sequence (pruneAll elements)
  | tuple elements => tuple (pruneAll elements)
  | tupleStruct elements => tupleStruct (pruneAll elements)
  | tupleVariant variant elements => tupleVariant variant (pruneAll elements)
  | map calls => map (pruneCalls calls)
  | record fields => record (pruneFields fields)
  | recordVariant variant fields => recordVariant variant (pruneFields fields)
  | scalar => scalar

/-- `prune` on every element. -/
def pruneAll : List Data → List Data
  | [] => []
  | value :: rest => prune value :: pruneAll rest

/-- Delete the keys whose value is omitted, with the value, and `prune` what is left. -/
def pruneCalls : List (MapRole × Data) → List (MapRole × Data)
  | [] => []
  | (.key, key) :: (.value, value) :: rest =>
    if value.isOmitted then pruneCalls rest
    else (.key, prune key) :: (.value, prune value) :: pruneCalls rest
  | (role, data) :: rest => (role, prune data) :: pruneCalls rest

/-- Delete the fields whose value is omitted, and `prune` what is left. -/
def pruneFields : List (String × Data) → List (String × Data)
  | [] => []
  | (name, value) :: rest =>
    if value.isOmitted then pruneFields rest else (name, prune value) :: pruneFields rest

end

/-- Deletion keeps the expression of data. -/
def KeptByPrune (data : Data) : Prop :=
  ∀ literal, data.encode = .ok literal → data.prune.encode = .ok literal

theorem encodeAll_pruneAll {elements : List Data} {literals : List Literal}
    (hkept : ∀ element ∈ elements, element.KeptByPrune) (h : encodeAll elements = .ok literals) :
    encodeAll (pruneAll elements) = .ok literals := by
  have hliterals := encodeAll_eq_ok_iff.mp h
  clear h
  induction hliterals with
  | nil => rfl
  | cons hfirst _ ih =>
    obtain ⟨hkeep, hrest⟩ := List.forall_mem_cons.mp hkept
    rw [pruneAll, encodeAll, hkeep _ hfirst, ok_bind, ih hrest]
    rfl

/-- What is left of the calls uses no key from before them. -/
theorem CallsWrite.encodeCalls_pruneCalls {calls : List (MapRole × Data)}
    {properties : List (String × Literal)} (h : CallsWrite calls properties)
    (hkept : ∀ data ∈ calls.map Prod.snd, data.KeptByPrune) (pending : Option String) :
    encodeCalls pending (pruneCalls calls) = .ok properties := by
  induction h generalizing pending with
  | nil => rfl
  | @entry key value property rest others hentry _ ih =>
    obtain ⟨hkey, hvalue, hrest⟩ : key.KeptByPrune ∧ value.KeptByPrune ∧
        ∀ data ∈ rest.map Prod.snd, data.KeptByPrune := by simpa using hkept
    obtain ⟨hspells, hproperty⟩ := hentry
    rw [pruneCalls, isOmitted_eq hproperty]
    cases hvoid : property.2.isVoid with
    | true =>
      rw [if_pos rfl, Literal.consEntry, hvoid]
      exact ih hrest pending
    | false =>
      have hentry : WritesEntry (key.prune, value.prune) property :=
        ⟨hspells.imp (hkey _) (hkey _), hvalue _ hproperty⟩
      exact encodeCalls_entry_eq_ok_iff.mpr ⟨property, others, hentry, ih hrest none, rfl⟩
  | @unused key name rest properties hspells hnext _ ih =>
    obtain ⟨hkey, hrest⟩ := List.forall_mem_cons.mp hkept
    rw [pruneCalls]
    · exact encodeCalls_key_eq_ok_iff.mpr
        ⟨name, hspells.imp (hkey _) (hkey _), ih hrest (some name)⟩
    · exact fun value others heq _ => hnext value others heq

theorem encodeFields_pruneFields {fields : List (String × Data)}
    {properties : List (String × Literal)}
    (hkept : ∀ value ∈ fields.map Prod.snd, value.KeptByPrune)
    (h : encodeFields fields = .ok properties) :
    encodeFields (pruneFields fields) = .ok properties := by
  induction fields generalizing properties with
  | nil => exact h
  | cons field rest ih =>
    obtain ⟨name, value⟩ := field
    obtain ⟨hkeep, hrest⟩ := List.forall_mem_cons.mp hkept
    obtain ⟨first, others, hfirst, hothers, rfl⟩ := encodeFields_cons_eq_ok_iff.mp h
    rw [pruneFields, isOmitted_eq hfirst]
    cases hvoid : first.isVoid with
    | true =>
      rw [if_pos rfl, Literal.consEntry, hvoid]
      exact ih hrest hothers
    | false =>
      exact encodeFields_cons_eq_ok_iff.mpr
        ⟨first, others, hkeep _ hfirst, ih hrest hothers, rfl⟩

/-- Data is written as before when its omitted entries are deleted at every level. -/
theorem keptByPrune (data : Data) : data.KeptByPrune := by
  induction data using induction_on_children with
  | step data ih =>
    intro literal h
    cases data with
    | present value | newtype value =>
      rw [encode] at h
      rw [prune, encode]
      exact ih value (List.mem_singleton_self _) literal h
    | newtypeVariant variant value =>
      rw [encode] at h
      obtain ⟨payload, hpayload, h⟩ := exists_of_bind_eq_ok h
      rw [prune, encode, ih value (List.mem_singleton_self _) _ hpayload]
      exact h
    | sequence elements | tuple elements | tupleStruct elements | tupleVariant variant elements =>
      have hkept : ∀ element ∈ elements, element.KeptByPrune := ih
      rw [encode] at h
      obtain ⟨literals, hliterals, h⟩ := exists_of_bind_eq_ok h
      rw [prune, encode, encodeAll_pruneAll hkept hliterals]
      exact h
    | map calls =>
      have hkept : ∀ data ∈ calls.map Prod.snd, data.KeptByPrune := ih
      rw [encode] at h
      obtain ⟨properties, hproperties, h⟩ := exists_of_bind_eq_ok h
      have hwrite := callsWrite_of_encodeCalls hproperties
      rw [prune, encode, hwrite.encodeCalls_pruneCalls hkept none]
      exact h
    | record fields | recordVariant variant fields =>
      have hkept : ∀ value ∈ fields.map Prod.snd, value.KeptByPrune := ih
      rw [encode] at h
      obtain ⟨properties, hproperties, h⟩ := exists_of_bind_eq_ok h
      rw [prune, encode, encodeFields_pruneFields hkept hproperties]
      exact h
    | _ => exact h

/-! ## Nothing is left to delete -/

/-- A value is that of an entry of a map or a record. -/
inductive HasEntry : Data → Data → Prop
  | map {calls : List (MapRole × Data)} {value : Data} (h : (.value, value) ∈ calls) :
    HasEntry (.map calls) value
  | record {fields : List (String × Data)} {name : String} {value : Data}
    (h : (name, value) ∈ fields) : HasEntry (.record fields) value
  | recordVariant {variant : String} {fields : List (String × Data)} {name : String} {value : Data}
    (h : (name, value) ∈ fields) : HasEntry (.recordVariant variant fields) value

theorem exists_of_mem_pruneAll {elements : List Data} {value : Data}
    (h : value ∈ pruneAll elements) : ∃ original ∈ elements, value = original.prune := by
  induction elements with
  | nil =>
    rw [pruneAll] at h
    cases h
  | cons element rest ih =>
    rw [pruneAll] at h
    rcases List.mem_cons.mp h with rfl | h
    · exact ⟨element, List.mem_cons_self, rfl⟩
    · obtain ⟨original, hmem, heq⟩ := ih h
      exact ⟨original, List.mem_cons_of_mem _ hmem, heq⟩

theorem exists_of_mem_pruneFields {fields : List (String × Data)} {field : String × Data}
    (h : field ∈ pruneFields fields) :
    ∃ original, (field.1, original) ∈ fields ∧ field.2 = original.prune ∧
      original.isOmitted = false := by
  induction fields with
  | nil =>
    rw [pruneFields] at h
    cases h
  | cons first rest ih =>
    obtain ⟨name, value⟩ := first
    rw [pruneFields] at h
    split at h
    · obtain ⟨original, hmem, heq⟩ := ih h
      exact ⟨original, List.mem_cons_of_mem _ hmem, heq⟩
    · rename_i hkept
      rcases List.mem_cons.mp h with rfl | h
      · exact ⟨value, List.mem_cons_self, rfl, by simpa using hkept⟩
      · obtain ⟨original, hmem, heq⟩ := ih h
        exact ⟨original, List.mem_cons_of_mem _ hmem, heq⟩

theorem CallsWrite.exists_of_mem_pruneCalls {calls : List (MapRole × Data)}
    {properties : List (String × Literal)} (h : CallsWrite calls properties)
    {call : MapRole × Data} (hcall : call ∈ pruneCalls calls) :
    ∃ original, (call.1, original) ∈ calls ∧ call.2 = original.prune ∧
      (call.1 = .value → original.isOmitted = false) := by
  induction h with
  | nil =>
    rw [pruneCalls] at hcall
    cases hcall
  | @entry key value property rest others hentry _ ih =>
    have hcases : call ∈ pruneCalls rest ∨ value.isOmitted = false ∧
        (call = (.key, key.prune) ∨ call = (.value, value.prune)) := by
      rw [pruneCalls] at hcall
      split at hcall
      · exact .inl hcall
      · rename_i hkept
        rw [List.mem_cons, List.mem_cons, ← or_assoc, or_comm] at hcall
        exact hcall.imp_right fun hfirst => ⟨by simpa using hkept, hfirst⟩
    rcases hcases with hcall | ⟨hkept, rfl | rfl⟩
    · obtain ⟨original, hmem, heq⟩ := ih hcall
      exact ⟨original, List.mem_cons_of_mem _ (List.mem_cons_of_mem _ hmem), heq⟩
    · exact ⟨key, List.mem_cons_self, rfl, nofun⟩
    · exact ⟨value, List.mem_cons_of_mem _ List.mem_cons_self, rfl, fun _ => hkept⟩
  | @unused key name rest properties hspells hnext _ ih =>
    rw [pruneCalls] at hcall
    · rcases List.mem_cons.mp hcall with rfl | hcall
      · exact ⟨key, List.mem_cons_self, rfl, nofun⟩
      · obtain ⟨original, hmem, heq⟩ := ih hcall
        exact ⟨original, List.mem_cons_of_mem _ hmem, heq⟩
    · exact fun value others heq _ => hnext value others heq

/-- What pruned data is made of comes from what the data is made of. -/
theorem exists_of_mem_children_prune {data child : Data} {literal : Literal}
    (h : data.encode = .ok literal) (hchild : child ∈ data.prune.children) :
    ∃ original ∈ data.children, child = original.prune := by
  cases data with
  | present value | newtype value | newtypeVariant variant value =>
    rw [prune] at hchild
    exact ⟨value, List.mem_singleton_self _, List.mem_singleton.mp hchild⟩
  | sequence elements | tuple elements | tupleStruct elements | tupleVariant variant elements =>
    rw [prune] at hchild
    exact exists_of_mem_pruneAll hchild
  | map calls =>
    rw [encode] at h
    obtain ⟨properties, hproperties, -⟩ := exists_of_bind_eq_ok h
    rw [prune] at hchild
    obtain ⟨call, hcall, rfl⟩ := List.mem_map.mp hchild
    have hwrite := callsWrite_of_encodeCalls hproperties
    obtain ⟨original, hmem, heq, -⟩ := hwrite.exists_of_mem_pruneCalls hcall
    exact ⟨original, List.mem_map_of_mem hmem, heq⟩
  | record fields | recordVariant variant fields =>
    rw [prune] at hchild
    obtain ⟨field, hfield, rfl⟩ := List.mem_map.mp hchild
    obtain ⟨original, hmem, heq, -⟩ := exists_of_mem_pruneFields hfield
    exact ⟨original, List.mem_map_of_mem hmem, heq⟩
  | _ => cases hchild

/-- Every piece of pruned data is a pruned piece of data that can be encoded. -/
theorem exists_of_contains_prune {data part : Data} {literal : Literal}
    (h : data.encode = .ok literal) (hpart : data.prune.Contains part) :
    ∃ (original : Data) (node : Literal), original.encode = .ok node ∧
      part = original.prune := by
  induction hpart with
  | refl => exact ⟨data, literal, h, rfl⟩
  | tail _ hchild ih =>
    obtain ⟨parent, node, hparent, rfl⟩ := ih
    obtain ⟨original, horiginal, rfl⟩ := exists_of_mem_children_prune hparent hchild
    obtain ⟨node, hnode⟩ := exists_of_mem_children hparent horiginal
    exact ⟨original, node, hnode, rfl⟩

/-- A value of an entry of pruned data is a pruned value that is not omitted. -/
theorem HasEntry.exists_of_prune {data value : Data} {literal : Literal}
    (h : data.encode = .ok literal) (hvalue : data.prune.HasEntry value) :
    ∃ original ∈ data.children, value = original.prune ∧ original.isOmitted = false := by
  cases data with
  | map calls =>
    rw [prune] at hvalue
    rw [encode] at h
    obtain ⟨properties, hproperties, -⟩ := exists_of_bind_eq_ok h
    have hwrite := callsWrite_of_encodeCalls hproperties
    cases hvalue with
    | map hcall =>
      obtain ⟨original, hmem, heq, hkept⟩ := hwrite.exists_of_mem_pruneCalls hcall
      exact ⟨original, List.mem_map_of_mem hmem, heq, hkept rfl⟩
  | record fields =>
    rw [prune] at hvalue
    cases hvalue with
    | record hfield =>
      obtain ⟨original, hmem, heq⟩ := exists_of_mem_pruneFields hfield
      exact ⟨original, List.mem_map_of_mem hmem, heq⟩
  | recordVariant variant fields =>
    rw [prune] at hvalue
    cases hvalue with
    | recordVariant hfield =>
      obtain ⟨original, hmem, heq⟩ := exists_of_mem_pruneFields hfield
      exact ⟨original, List.mem_map_of_mem hmem, heq⟩
  | _ => cases hvalue

/-- Everywhere in pruned data, the entries of maps and records have a value. -/
theorem encode_ne_void_of_prune {data part value : Data} {literal : Literal}
    (h : data.encode = .ok literal) (hpart : data.prune.Contains part)
    (hvalue : part.HasEntry value) : value.encode ≠ .ok .void := by
  obtain ⟨parent, node, hparent, rfl⟩ := exists_of_contains_prune h hpart
  obtain ⟨original, hmem, rfl, hkept⟩ := hvalue.exists_of_prune hparent
  obtain ⟨result, hresult⟩ := exists_of_mem_children hparent hmem
  rw [isOmitted_eq hresult] at hkept
  rw [original.keptByPrune result hresult]
  rintro ⟨⟩
  cases hkept

/-! ## Parts of data and of its expression -/

/-- The parts of data that is not wrapped, in order; omitted entries are none. -/
def ownParts : Data → List Data
  | newtypeVariant _ value => [value]
  | sequence elements => elements
  | tuple elements => elements
  | tupleStruct elements => elements
  | tupleVariant _ elements => [tuple elements]
  | map calls => ((pairings none calls).filter fun entry => !entry.2.isOmitted).map Prod.snd
  | record fields => (fields.filter fun field => !field.2.isOmitted).map Prod.snd
  | recordVariant _ fields => [record fields]
  | _ => []

/-- The parts of data that have an expression of their own in its expression, in order. -/
def parts (data : Data) : List Data := data.core.ownParts

theorem ownParts_of_isLeaf {data : Data} (h : data.isLeaf) : data.ownParts = [] := by
  cases data <;> first | rfl | cases h

/-- The part of data at the end of a path. -/
def at? (data : Data) : List Nat → Option Data
  | [] => some data
  | place :: path => data.parts[place]?.bind (at? · path)

/-- Properties are kept for the entries that are not omitted. -/
theorem forall₂_kept {α : Type} {valueOf : α → Data} {entries : List α}
    {written : List (String × Literal)}
    (h : List.Forall₂ (fun entry property => (valueOf entry).encode = .ok property.2) entries
      written) :
    List.Forall₂ (fun part node => part.encode = .ok node)
      ((entries.filter fun entry => !(valueOf entry).isOmitted).map valueOf)
      ((Literal.kept written).map Prod.snd) := by
  induction h with
  | nil => exact .nil
  | @cons entry property _ _ hentry _ ih =>
    obtain ⟨name, value⟩ := property
    rw [Literal.kept_cons, Literal.consEntry, List.filter_cons, isOmitted_eq hentry]
    cases value.isVoid with
    | true => exact ih
    | false => exact .cons hentry ih

/-- The parts of an expression are the expressions of the parts of the data. -/
theorem forall₂_parts {data : Data} {literal : Literal} (h : data.encode = .ok literal) :
    List.Forall₂ (fun part node => part.encode = .ok node) data.parts literal.parts := by
  have hwritten := writtenAs_of_encode h
  rw [parts]
  generalize data.core = core at hwritten
  cases hwritten with
  | leaf hdata hliteral =>
    rw [ownParts_of_isLeaf hdata, Literal.parts_of_isLeaf hliteral]
    exact .nil
  | sequence hdata hitems => cases hdata <;> exact hitems
  | map hcalls =>
    obtain ⟨written, hwritten, rfl⟩ := (callsWrite_of_encodeCalls hcalls).exists_pairings none
    exact forall₂_kept (hwritten.imp fun _ _ hentry => hentry.2)
  | record hfields =>
    obtain ⟨written, hwritten, rfl⟩ := exists_of_encodeFields hfields
    exact forall₂_kept (hwritten.imp fun _ _ hfield => hfield.2)
  | variant hdata hpayload => cases hdata <;> exact .cons hpayload .nil

/-- What stands at the end of a path in an expression is the expression of what stands there in the
data. -/
theorem exists_at? {path : List Nat} {data : Data} {literal node : Literal}
    (h : data.encode = .ok literal) (hnode : literal.at? path = some node) :
    ∃ part, data.at? path = some part ∧ part.encode = .ok node := by
  induction path generalizing data literal with
  | nil =>
    rw [Literal.at?, Option.some.injEq] at hnode
    exact ⟨data, rfl, hnode ▸ h⟩
  | cons place path ih =>
    rw [Literal.at?] at hnode
    obtain ⟨step, hstep, hnode⟩ := Option.bind_eq_some_iff.mp hnode
    obtain ⟨part, hpart, hencode⟩ := exists_getElem?_of_forall₂ (forall₂_parts h) hstep
    obtain ⟨found, hfound, hresult⟩ := ih hencode hnode
    refine ⟨found, ?_, hresult⟩
    rw [at?, hpart]
    exact hfound

/-! ## Arrays and objects -/

/-- An array is the expression of a sequence, element by element. -/
theorem exists_isSequence {data : Data} {multiline : Bool} {elements : List Literal}
    (h : data.encode = .ok (.array multiline elements)) :
    ∃ items, data.core.IsSequence items ∧
      List.Forall₂ (fun item element => item.encode = .ok element) items elements := by
  have hwritten := writtenAs_of_encode h
  generalize data.core = core at hwritten ⊢
  cases hwritten with
  | leaf _ hliteral => cases hliteral
  | sequence hdata hitems => exact ⟨_, hdata, hitems⟩

/-- A property without a value is the payload of a variant. -/
theorem exists_newtypeVariant {data : Data} {multiline : Bool}
    {properties : List (String × Literal)} (h : data.encode = .ok (.object multiline properties))
    {property : String × Literal} (hproperty : property ∈ properties)
    (hvoid : property.2 = .void) : ∃ variant value, data.core = .newtypeVariant variant value := by
  have hwritten := writtenAs_of_encode h
  generalize data.core = core at hwritten ⊢
  cases hwritten with
  | leaf _ hliteral => cases hliteral
  | map hcalls =>
    obtain ⟨written, -, rfl⟩ := (callsWrite_of_encodeCalls hcalls).exists_pairings none
    exact (Literal.ne_void_of_mem_kept hproperty hvoid).elim
  | record hfields =>
    obtain ⟨written, -, rfl⟩ := exists_of_encodeFields hfields
    exact (Literal.ne_void_of_mem_kept hproperty hvoid).elim
  | variant hdata hpayload =>
    cases List.mem_singleton.mp hproperty
    cases hvoid
    cases hdata with
    | newtypeVariant => exact ⟨_, _, rfl⟩
    | tupleVariant =>
      rw [encode] at hpayload
      obtain ⟨_, -, h⟩ := exists_of_bind_eq_ok hpayload
      cases h
    | recordVariant =>
      rw [encode] at hpayload
      obtain ⟨_, -, h⟩ := exists_of_bind_eq_ok hpayload
      cases h

/-- Entries without a value leave no trace: without them, at every level, the expression is the
same, and pruning leaves none of them at any level.  Everywhere in the expression, an array has the
expressions of all elements of its sequence, and an object has a property without a value only as
the payload of a variant. -/
theorem encode_omits {data : Data} {literal : Literal} (h : data.encode = .ok literal) :
    data.prune.encode = .ok literal ∧
      (∀ part value, data.prune.Contains part → part.HasEntry value →
        value.encode ≠ .ok .void) ∧
      ∀ path node, literal.at? path = some node →
        ∃ part, data.at? path = some part ∧ part.encode = .ok node ∧
          (∀ multiline elements, node = .array multiline elements →
            ∃ items, part.core.IsSequence items ∧
              List.Forall₂ (fun item element => item.encode = .ok element) items elements) ∧
          (∀ multiline properties, node = .object multiline properties →
            ∀ property ∈ properties, property.2 = .void →
              ∃ variant value, part.core = .newtypeVariant variant value) := by
  refine ⟨data.keptByPrune literal h, fun part value => encode_ne_void_of_prune h,
    fun path node hnode => ?_⟩
  obtain ⟨part, hpart, hencode⟩ := exists_at? h hnode
  refine ⟨part, hpart, hencode, ?_, ?_⟩
  · rintro multiline elements rfl
    exact exists_isSequence hencode
  · rintro multiline properties rfl property hproperty hvoid
    exact exists_newtypeVariant hencode hproperty hvoid

/-- A record with absent values in a field, in a sequence, in a map within it, and in a variant. -/
def gaps : Data :=
  .record [("kept", .bool true), ("gone", .newtype (.present .absent)),
    ("list", .sequence [.absent,
      .map [(.key, .string "gone"), (.value, .absent), (.key, .string "kept"), (.value, .unit)]]),
    ("label", .newtypeVariant "Label" .absent)]

/-- The same record without the entries that hold one. -/
def closedGaps : Data :=
  .record [("kept", .bool true),
    ("list", .sequence [.absent, .map [(.key, .string "kept"), (.value, .unit)]]),
    ("label", .newtypeVariant "Label" .absent)]

/-- The expression of both. -/
def gapsLiteral : Literal :=
  .object true [("kept", .bool true),
    ("list", .array true [.void, .object true [("kept", .null)]]),
    ("label", .object true [("Label", .void)])]

theorem encode_omits_gaps :
    gaps.encode = .ok gapsLiteral ∧ gaps.prune = closedGaps ∧
      closedGaps.encode = .ok gapsLiteral ∧
      gapsLiteral.at? [2] = some (.object true [("Label", .void)]) ∧
      ∃ part, gaps.at? [2] = some part ∧
        ∃ variant value, part.core = .newtypeVariant variant value := by
  obtain ⟨hprune, -, hparts⟩ := encode_omits (show gaps.encode = .ok gapsLiteral from rfl)
  obtain ⟨part, hpart, -, -, hobject⟩ := hparts [2] _ rfl
  exact ⟨rfl, rfl, hprune, rfl, part, hpart,
    hobject true _ rfl ("Label", .void) (List.mem_singleton.mpr rfl) rfl⟩

end Data

end GraphSchema
