import Mathlib
import GraphSchema.Literal.Encoding
import GraphSchema.Proofs.Outcomes

/-!
# What the encoder returns, entry by entry

When plain data is encoded, every element of a sequence has its expression, and every entry of a
map or a record has the property that it gives, except that properties without a value are dropped
afterwards.  An entry of a map is a value with the latest key before it (`Data.pairings`), whatever
calls have been made on the map.

`Data.core` is data without what leaves no trace in the expression: that a value might have been
absent, and that it is wrapped.
-/

namespace GraphSchema

/-! ## Properties that are written -/

namespace Literal

/-- The properties that have a value. -/
def kept (properties : List (String × Literal)) : List (String × Literal) :=
  properties.filter fun property => !property.2.isVoid

@[simp] theorem kept_nil : kept [] = [] := rfl

theorem kept_cons (key : String) (value : Literal) (rest : List (String × Literal)) :
    kept ((key, value) :: rest) = consEntry key value (kept rest) := by
  rw [kept, List.filter_cons, consEntry]
  cases value.isVoid <;> rfl

/-- An expression without parts. -/
def isLeaf : Literal → Bool
  | array .. | object .. => false
  | _ => true

/-- A number with a literal form is written by a text. -/
theorem exists_of_ofBinary64 {value : Binary64} {literal : Literal}
    (h : ofBinary64 value = .ok literal) : ∃ text, literal = .number text := by
  rw [ofBinary64] at h
  split at h
  · cases h
    exact ⟨_, rfl⟩
  · cases h

/-- An expression spells a key if it is the string or the number of this text. -/
theorem mapKey_eq_ok_iff {literal : Literal} {name : String} :
    literal.mapKey = .ok name ↔ literal = .string name ∨ literal = .number name := by
  cases literal <;> simp [mapKey]

end Literal

namespace Data

/-! ## Data without wrapping -/

/-- What remains of data when it is unwrapped. -/
def core : Data → Data
  | present value => core value
  | newtype value => core value
  | data => data

/-! ## What data is made of -/

/-- The data that data is made of. -/
def children : Data → List Data
  | present value => [value]
  | newtype value => [value]
  | newtypeVariant _ value => [value]
  | sequence elements => elements
  | tuple elements => elements
  | tupleStruct elements => elements
  | tupleVariant _ elements => elements
  | map calls => calls.map Prod.snd
  | record fields => fields.map Prod.snd
  | recordVariant _ fields => fields.map Prod.snd
  | _ => []

theorem sizeOf_lt_of_mem_children {data child : Data} (h : child ∈ data.children) :
    sizeOf child < sizeOf data := by
  cases data with
  | present value | newtype value | newtypeVariant variant value =>
    cases List.mem_singleton.mp h
    simp
  | sequence elements | tuple elements | tupleStruct elements | tupleVariant variant elements =>
    have hlt : sizeOf child < sizeOf elements := List.sizeOf_lt_of_mem h
    simp
    omega
  | map calls =>
    obtain ⟨⟨role, data⟩, hmem, rfl⟩ := List.mem_map.mp h
    have hlt := List.sizeOf_lt_of_mem hmem
    simp at hlt ⊢
    omega
  | record fields | recordVariant variant fields =>
    obtain ⟨⟨name, data⟩, hmem, rfl⟩ := List.mem_map.mp h
    have hlt := List.sizeOf_lt_of_mem hmem
    simp at hlt ⊢
    omega
  | _ => cases h

/-- What holds of data if it holds of all that the data is made of, holds of all data. -/
@[elab_as_elim]
theorem induction_on_children {motive : Data → Prop} (data : Data)
    (step : ∀ data, (∀ child ∈ data.children, motive child) → motive data) : motive data :=
  step data fun child hchild =>
    have _ := sizeOf_lt_of_mem_children hchild
    induction_on_children child step
termination_by sizeOf data

/-! ## Elements and entries -/

/-- A key is written as a string or a number of this text. -/
def SpellsKey (key : Data) (name : String) : Prop :=
  key.encode = .ok (.string name) ∨ key.encode = .ok (.number name)

/-- The values that the calls on a map write, each with the latest key before it. -/
def pairings : Option Data → List (MapRole × Data) → List (Data × Data)
  | _, [] => []
  | _, (.key, key) :: rest => pairings (some key) rest
  | none, (.value, _) :: rest => pairings none rest
  | some key, (.value, value) :: rest => (key, value) :: pairings (some key) rest

/-- A value with its key is written as this property. -/
def WritesEntry (entry : Data × Data) (property : String × Literal) : Prop :=
  entry.1.SpellsKey property.1 ∧ entry.2.encode = .ok property.2

/-- A field of a record is written as this property. -/
def WritesField (field : String × Data) (property : String × Literal) : Prop :=
  field.1 = property.1 ∧ field.2.encode = .ok property.2

theorem encode_bind_mapKey_eq_ok_iff {key : Data} {name : String} :
    key.encode >>= Literal.mapKey = .ok name ↔ key.SpellsKey name := by
  rw [SpellsKey]
  cases key.encode with
  | error cause => simp
  | ok literal => simp [Literal.mapKey_eq_ok_iff]

theorem encodeAll_eq_ok_iff {elements : List Data} {literals : List Literal} :
    encodeAll elements = .ok literals ↔
      List.Forall₂ (fun element literal => element.encode = .ok literal) elements literals := by
  induction elements generalizing literals with
  | nil => simp [encodeAll, eq_comm]
  | cons element rest ih =>
    rw [encodeAll]
    constructor
    · intro h
      obtain ⟨first, hfirst, h⟩ := exists_of_bind_eq_ok h
      obtain ⟨others, hothers, h⟩ := exists_of_bind_eq_ok h
      cases h
      exact .cons hfirst (ih.mp hothers)
    · rintro (_ | ⟨hfirst, hrest⟩)
      rw [hfirst, ok_bind, ih.mpr hrest]
      rfl

theorem encodeFields_cons_eq_ok_iff {name : String} {value : Data} {rest : List (String × Data)}
    {properties : List (String × Literal)} :
    encodeFields ((name, value) :: rest) = .ok properties ↔
      ∃ first others, value.encode = .ok first ∧ encodeFields rest = .ok others ∧
        properties = Literal.consEntry name first others := by
  rw [encodeFields]
  constructor
  · intro h
    obtain ⟨first, hfirst, h⟩ := exists_of_bind_eq_ok h
    obtain ⟨others, hothers, h⟩ := exists_of_bind_eq_ok h
    cases h
    exact ⟨first, others, hfirst, hothers, rfl⟩
  · rintro ⟨first, others, hfirst, hothers, rfl⟩
    rw [hfirst, ok_bind, hothers]
    rfl

/-- A key waits for a value, instead of any key that has been waiting. -/
theorem encodeCalls_key_eq_ok_iff {pending : Option String} {key : Data}
    {rest : List (MapRole × Data)} {properties : List (String × Literal)} :
    encodeCalls pending ((.key, key) :: rest) = .ok properties ↔
      ∃ name, key.SpellsKey name ∧ encodeCalls (some name) rest = .ok properties := by
  rw [encodeCalls, ← bind_assoc]
  constructor
  · intro h
    obtain ⟨name, hname, h⟩ := exists_of_bind_eq_ok h
    exact ⟨name, encode_bind_mapKey_eq_ok_iff.mp hname, h⟩
  · rintro ⟨name, hspells, h⟩
    rw [encode_bind_mapKey_eq_ok_iff.mpr hspells, ok_bind, h]

/-- A value gives a property with the key that waits for it. -/
theorem encodeCalls_value_eq_ok_iff {pending : Option String} {value : Data}
    {rest : List (MapRole × Data)} {properties : List (String × Literal)} :
    encodeCalls pending ((.value, value) :: rest) = .ok properties ↔
      ∃ name ∈ pending, ∃ first others, value.encode = .ok first ∧
        encodeCalls none rest = .ok others ∧
        properties = Literal.consEntry name first others := by
  cases pending with
  | none =>
    rw [encodeCalls]
    simp
  | some name =>
    rw [encodeCalls]
    constructor
    · intro h
      obtain ⟨first, hfirst, h⟩ := exists_of_bind_eq_ok h
      obtain ⟨others, hothers, h⟩ := exists_of_bind_eq_ok h
      cases h
      exact ⟨name, rfl, first, others, hfirst, hothers, rfl⟩
    · rintro ⟨_, ⟨⟩, first, others, hfirst, hothers, rfl⟩
      rw [hfirst, ok_bind, hothers]
      rfl

/-- A key with its value gives their property, whichever key has been waiting. -/
theorem encodeCalls_entry_eq_ok_iff {pending : Option String} {key value : Data}
    {rest : List (MapRole × Data)} {properties : List (String × Literal)} :
    encodeCalls pending ((.key, key) :: (.value, value) :: rest) = .ok properties ↔
      ∃ property others, WritesEntry (key, value) property ∧ encodeCalls none rest = .ok others ∧
        properties = Literal.consEntry property.1 property.2 others := by
  rw [encodeCalls_key_eq_ok_iff]
  constructor
  · rintro ⟨name, hspells, h⟩
    obtain ⟨_, ⟨⟩, first, others, hfirst, hothers, rfl⟩ := encodeCalls_value_eq_ok_iff.mp h
    exact ⟨(name, first), others, ⟨hspells, hfirst⟩, hothers, rfl⟩
  · rintro ⟨⟨name, first⟩, others, ⟨hspells, hfirst⟩, hothers, rfl⟩
    exact ⟨name, hspells, encodeCalls_value_eq_ok_iff.mpr
      ⟨name, rfl, first, others, hfirst, hothers, rfl⟩⟩

/-- A record gives the property of every field, without those that have no value. -/
theorem exists_of_encodeFields {fields : List (String × Data)}
    {properties : List (String × Literal)} (h : encodeFields fields = .ok properties) :
    ∃ written, List.Forall₂ WritesField fields written ∧ properties = Literal.kept written := by
  induction fields generalizing properties with
  | nil =>
    rw [encodeFields] at h
    cases h
    exact ⟨[], .nil, rfl⟩
  | cons field rest ih =>
    obtain ⟨name, value⟩ := field
    obtain ⟨first, others, hfirst, hothers, rfl⟩ := encodeFields_cons_eq_ok_iff.mp h
    obtain ⟨written, hwritten, rfl⟩ := ih hothers
    exact ⟨(name, first) :: written, .cons ⟨rfl, hfirst⟩ hwritten, (Literal.kept_cons ..).symm⟩

/-- A key that no value follows is written for nothing. -/
theorem encodeCalls_of_unused_key {pending : Option String} {key : Data}
    {rest : List (MapRole × Data)} {properties : List (String × Literal)}
    (hrest : ∀ value others, rest ≠ (.value, value) :: others)
    (h : encodeCalls pending ((.key, key) :: rest) = .ok properties) :
    (∃ name, key.SpellsKey name) ∧ encodeCalls none rest = .ok properties := by
  obtain ⟨name, hspells, h⟩ := encodeCalls_key_eq_ok_iff.mp h
  refine ⟨⟨name, hspells⟩, ?_⟩
  rcases rest with _ | ⟨⟨_ | _, data⟩, others⟩
  · rwa [encodeCalls] at h ⊢
  · rwa [encodeCalls] at h ⊢
  · exact (hrest data others rfl).elim

/-- The calls on a map write these properties: each value comes right behind a key, and any other
key is not used. -/
inductive CallsWrite : List (MapRole × Data) → List (String × Literal) → Prop
  | nil : CallsWrite [] []
  | entry {key value : Data} {property : String × Literal} {rest : List (MapRole × Data)}
    {others : List (String × Literal)} (hentry : WritesEntry (key, value) property)
    (hrest : CallsWrite rest others) :
    CallsWrite ((.key, key) :: (.value, value) :: rest)
      (Literal.consEntry property.1 property.2 others)
  | unused {key : Data} {name : String} {rest : List (MapRole × Data)}
    {properties : List (String × Literal)} (hkey : key.SpellsKey name)
    (hnext : ∀ value others, rest ≠ (.value, value) :: others)
    (hrest : CallsWrite rest properties) : CallsWrite ((.key, key) :: rest) properties

theorem callsWrite_of_encodeCalls {calls : List (MapRole × Data)}
    {properties : List (String × Literal)} (h : encodeCalls none calls = .ok properties) :
    CallsWrite calls properties := by
  match calls, h with
  | [], h =>
    rw [encodeCalls] at h
    cases h
    exact .nil
  | (.value, value) :: rest, h =>
    -- no key has come before the value
    obtain ⟨_, hname, -⟩ := encodeCalls_value_eq_ok_iff.mp h
    cases hname
  | (.key, key) :: (.value, value) :: rest, h =>
    obtain ⟨property, others, hentry, hothers, rfl⟩ := encodeCalls_entry_eq_ok_iff.mp h
    exact .entry hentry (callsWrite_of_encodeCalls hothers)
  | [(.key, key)], h =>
    have hnext : ∀ value others, ([] : List (MapRole × Data)) ≠ (.value, value) :: others := nofun
    obtain ⟨⟨name, hkey⟩, hothers⟩ := encodeCalls_of_unused_key hnext h
    exact .unused hkey hnext (callsWrite_of_encodeCalls hothers)
  | (.key, key) :: (.key, next) :: rest, h =>
    have hnext : ∀ value others, (.key, next) :: rest ≠ (.value, value) :: others := nofun
    obtain ⟨⟨name, hkey⟩, hothers⟩ := encodeCalls_of_unused_key hnext h
    exact .unused hkey hnext (callsWrite_of_encodeCalls hothers)

/-- A map gives the property of every value and the latest key before it, without those that have
no value. -/
theorem CallsWrite.exists_pairings {calls : List (MapRole × Data)}
    {properties : List (String × Literal)} (h : CallsWrite calls properties)
    (latest : Option Data) :
    ∃ written, List.Forall₂ WritesEntry (pairings latest calls) written ∧
      properties = Literal.kept written := by
  induction h generalizing latest with
  | nil =>
    rw [pairings]
    exact ⟨[], .nil, rfl⟩
  | entry hentry _ ih =>
    obtain ⟨written, hwritten, rfl⟩ := ih _
    rw [pairings, pairings]
    exact ⟨_ :: written, .cons hentry hwritten, (Literal.kept_cons ..).symm⟩
  | unused _ _ _ ih =>
    rw [pairings]
    exact ih _

/-! ## The expression of data from those of its parts -/

/-- Data is a sequence of these elements. -/
inductive IsSequence : Data → List Data → Prop
  | sequence (elements : List Data) : IsSequence (.sequence elements) elements
  | tuple (elements : List Data) : IsSequence (.tuple elements) elements
  | tupleStruct (elements : List Data) : IsSequence (.tupleStruct elements) elements

/-- Data is a variant with this payload. -/
inductive IsVariant : Data → String → Data → Prop
  | newtypeVariant (variant : String) (value : Data) :
    IsVariant (.newtypeVariant variant value) variant value
  | tupleVariant (variant : String) (elements : List Data) :
    IsVariant (.tupleVariant variant elements) variant (.tuple elements)
  | recordVariant (variant : String) (fields : List (String × Data)) :
    IsVariant (.recordVariant variant fields) variant (.record fields)

/-- Data without parts. -/
def isLeaf : Data → Bool
  | present _ | newtype _ | newtypeVariant .. | sequence _ | tuple _ | tupleStruct _
  | tupleVariant .. | map _ | record _ | recordVariant .. => false
  | _ => true

/-- How the expression of data that is not wrapped comes from its parts. -/
inductive WrittenAs : Data → Literal → Prop
  | leaf {data : Data} {literal : Literal} (hdata : data.isLeaf) (hliteral : literal.isLeaf) :
    WrittenAs data literal
  | sequence {data : Data} {items : List Data} {elements : List Literal}
    (hdata : data.IsSequence items)
    (hitems : List.Forall₂ (fun item element => item.encode = .ok element) items elements) :
    WrittenAs data (.array true elements)
  | map {calls : List (MapRole × Data)} {properties : List (String × Literal)}
    (hcalls : encodeCalls none calls = .ok properties) :
    WrittenAs (.map calls) (.object true properties)
  | record {fields : List (String × Data)} {properties : List (String × Literal)}
    (hfields : encodeFields fields = .ok properties) :
    WrittenAs (.record fields) (.object true properties)
  | variant {data payload : Data} {variant : String} {node : Literal}
    (hdata : data.IsVariant variant payload) (hpayload : payload.encode = .ok node) :
    WrittenAs data (.ofVariant variant node)

theorem WrittenAs.of_sequence {data : Data} {items : List Data} {literal : Literal}
    (hdata : data.IsSequence items)
    (h : (encodeAll items >>= fun elements => .ok (.array true elements)) = .ok literal) :
    data.WrittenAs literal := by
  obtain ⟨elements, helements, h⟩ := exists_of_bind_eq_ok h
  cases h
  exact .sequence hdata (encodeAll_eq_ok_iff.mp helements)

/-- The encoder makes an expression in one of these ways. -/
theorem writtenAs_of_encode {data : Data} {literal : Literal} (h : data.encode = .ok literal) :
    data.core.WrittenAs literal := by
  fun_induction core data with
  | case1 value ih | case2 value ih =>
    rw [encode] at h
    exact ih h
  | case3 data hpresent hnewtype => ?_
  cases data with
  | present value => exact (hpresent value rfl).elim
  | newtype value => exact (hnewtype value rfl).elim
  | sequence elements =>
    rw [encode] at h
    exact .of_sequence (.sequence elements) h
  | tuple elements =>
    rw [encode] at h
    exact .of_sequence (.tuple elements) h
  | tupleStruct elements =>
    rw [encode] at h
    exact .of_sequence (.tupleStruct elements) h
  | map calls =>
    rw [encode] at h
    obtain ⟨properties, hproperties, h⟩ := exists_of_bind_eq_ok h
    cases h
    exact .map hproperties
  | record fields =>
    rw [encode] at h
    obtain ⟨properties, hproperties, h⟩ := exists_of_bind_eq_ok h
    cases h
    exact .record hproperties
  | newtypeVariant variant value =>
    rw [encode] at h
    obtain ⟨payload, hpayload, h⟩ := exists_of_bind_eq_ok h
    cases h
    exact .variant (.newtypeVariant variant value) hpayload
  | tupleVariant variant elements =>
    rw [encode] at h
    obtain ⟨literals, hliterals, h⟩ := exists_of_bind_eq_ok h
    cases h
    refine .variant (.tupleVariant variant elements) ?_
    rw [encode, hliterals]
    rfl
  | recordVariant variant fields =>
    rw [encode] at h
    obtain ⟨properties, hproperties, h⟩ := exists_of_bind_eq_ok h
    cases h
    refine .variant (.recordVariant variant fields) ?_
    rw [encode, hproperties]
    rfl
  | single bits | double value =>
    rw [encode] at h
    obtain ⟨text, rfl⟩ := Literal.exists_of_ofBinary64 h
    exact .leaf rfl rfl
  | bytes contents | failure reason =>
    rw [encode] at h
    cases h
  | _ =>
    rw [encode] at h
    cases h
    exact .leaf rfl rfl

end Data

end GraphSchema
