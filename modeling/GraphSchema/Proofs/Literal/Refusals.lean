import Mathlib
import GraphSchema.Proofs.Decimal.Finite
import GraphSchema.Proofs.Literal.Entries

/-!
# Which data is refused, and for what

Some data has no literal form: bytes, numbers that are not finite, data that cannot be produced,
keys that are written neither as a string nor as a number, and values of a map without a key.
`Data.RefusedFor` says so of one piece of data, and `Data.Contains` finds the pieces at any depth.

`Data.refusals` lists all of them in the order in which the encoder comes upon them: a key before
its value, what is wrong inside a key before what is wrong with the key, and a missing key before
what is wrong inside the value.  It lists those too that lie in entries without a trace in any
expression.  The encoder reports the first of the list, since its steps report theirs in this order
(`Data.reports_encode`).

**Main statement.**  `Data.encode_refuses`.
-/

namespace GraphSchema

namespace Literal

/-- What is wrong with an expression as a key. -/
def keyRefusals : Literal → List Unsupported
  | string _ => []
  | number _ => []
  | other => [.mapKey other]

/-- What is wrong with a number. -/
def numberRefusals (value : Binary64) : List Unsupported :=
  if value.IsFinite then [] else [.nonFinite value]

theorem reports_mapKey (literal : Literal) : Reports literal.mapKey literal.keyRefusals := by
  cases literal with
  | string value => exact ⟨value, rfl⟩
  | number text => exact ⟨text, rfl⟩
  | _ => rfl

theorem reports_ofBinary64 (value : Binary64) :
    Reports (ofBinary64 value) (numberRefusals value) := by
  rw [ofBinary64, numberRefusals, Binary64.value]
  by_cases hfinite : value.IsFinite
  · have hexponent : ¬ value.exponentField = 2047 := hfinite
    rw [if_neg hexponent, if_pos hfinite]
    by_cases hzero : value.exponentField = 0
    · rw [if_pos hzero]
      exact ⟨_, rfl⟩
    · rw [if_neg hzero]
      exact ⟨_, rfl⟩
  · have hexponent : value.exponentField = 2047 := not_not.mp hfinite
    rw [if_pos hexponent, if_neg hfinite]
    by_cases hfraction : value.fraction = 0
    · rw [if_pos hfraction]
      rfl
    · rw [if_neg hfraction]
      rfl

end Literal

namespace Data

/-! ## Pieces of data -/

/-- Data occurs in data, at any depth. -/
def Contains : Data → Data → Prop :=
  Relation.ReflTransGen fun data child => child ∈ data.children

/-- A value has come after every key. -/
def KeysUsed (calls : List (MapRole × Data)) : Prop :=
  ∀ earlier key later, calls = earlier ++ (.key, key) :: later →
    ∃ value, (MapRole.value, value) ∈ later

/-- Data has no literal form, for a cause that does not lie in what it is made of. -/
inductive RefusedFor : Data → Unsupported → Prop
  | bytes (contents : List UInt8) : RefusedFor (.bytes contents) (.bytes contents.length)
  | failure (reason : String) : RefusedFor (.failure reason) (.failure reason)
  /-- A single-precision number with the greatest exponent of its format. -/
  | single {bits : UInt32} (h : bits.toNat / 2 ^ 23 % 2 ^ 8 = 255) :
    RefusedFor (.single bits) (.nonFinite (Binary64.ofBinary32 bits))
  | double {value : Binary64} (h : ¬ value.IsFinite) :
    RefusedFor (.double value) (.nonFinite value)
  /-- A key that is written neither as a string nor as a number. -/
  | mapKey {calls : List (MapRole × Data)} {key : Data} {literal : Literal}
    (hmem : (.key, key) ∈ calls) (hkey : key.encode = .ok literal)
    (hstring : ∀ text, literal ≠ .string text) (hnumber : ∀ text, literal ≠ .number text) :
    RefusedFor (.map calls) (.mapKey literal)
  /-- A value with no key since the value before it. -/
  | valueWithoutKey {before after : List (MapRole × Data)} {value : Data}
    (hused : KeysUsed before) :
    RefusedFor (.map (before ++ (.value, value) :: after)) .valueWithoutKey

/-! ## The causes in order -/

/-- What is wrong with data as a key, beside what is wrong inside it. -/
def keyRefusals (key : Data) : List Unsupported :=
  match key.encode with
  | .ok literal => literal.keyRefusals
  | .error _ => []

mutual

/-- Every cause for which data has no literal form, in order. -/
def refusals : Data → List Unsupported
  | present value => refusals value
  | newtype value => refusals value
  | newtypeVariant _ value => refusals value
  | single bits => Literal.numberRefusals (Binary64.ofBinary32 bits)
  | double value => Literal.numberRefusals value
  | bytes contents => [.bytes contents.length]
  | failure reason => [.failure reason]
  | sequence elements => refusalsOfAll elements
  | tuple elements => refusalsOfAll elements
  | tupleStruct elements => refusalsOfAll elements
  | tupleVariant _ elements => refusalsOfAll elements
  | map calls => refusalsOfCalls false calls
  | record fields => refusalsOfFields fields
  | recordVariant _ fields => refusalsOfFields fields
  | _ => []

/-- The causes of a sequence. -/
def refusalsOfAll : List Data → List Unsupported
  | [] => []
  | value :: rest => refusals value ++ refusalsOfAll rest

/-- The causes of the calls on a map, where a key may be waiting for a value. -/
def refusalsOfCalls (waiting : Bool) : List (MapRole × Data) → List Unsupported
  | [] => []
  | (.key, key) :: rest => refusals key ++ (keyRefusals key ++ refusalsOfCalls true rest)
  | (.value, value) :: rest =>
    (if waiting then [] else [.valueWithoutKey]) ++ (refusals value ++ refusalsOfCalls false rest)

/-- The causes of the fields of a record. -/
def refusalsOfFields : List (String × Data) → List Unsupported
  | [] => []
  | (_, value) :: rest => refusals value ++ refusalsOfFields rest

end

mutual

/-- The encoder fails for the first cause, and succeeds where there is none. -/
theorem reports_encode (data : Data) : Reports data.encode data.refusals := by
  cases data with
  | present value | newtype value =>
    rw [encode, refusals]
    exact reports_encode value
  | newtypeVariant variant value =>
    rw [encode, refusals]
    exact (reports_encode value).map _
  | single bits | double value =>
    rw [encode, refusals]
    exact Literal.reports_ofBinary64 _
  | sequence elements | tuple elements | tupleStruct elements | tupleVariant variant elements =>
    rw [encode, refusals]
    exact (reports_encodeAll elements).map _
  | map calls =>
    rw [encode, refusals]
    exact (reports_encodeCalls none calls).map _
  | record fields | recordVariant variant fields =>
    rw [encode, refusals]
    exact (reports_encodeFields fields).map _
  | bytes contents | failure reason => rfl
  | _ => exact ⟨_, rfl⟩

theorem reports_encodeAll (elements : List Data) :
    Reports (encodeAll elements) (refusalsOfAll elements) := by
  cases elements with
  | nil => exact ⟨[], rfl⟩
  | cons element rest =>
    rw [encodeAll, refusalsOfAll]
    exact (reports_encode element).bind fun _ _ => (reports_encodeAll rest).map _

theorem reports_encodeCalls (pending : Option String) (calls : List (MapRole × Data)) :
    Reports (encodeCalls pending calls) (refusalsOfCalls pending.isSome calls) := by
  cases calls with
  | nil => exact ⟨[], rfl⟩
  | cons call rest =>
    obtain ⟨_ | _, data⟩ := call
    · rw [encodeCalls, refusalsOfCalls]
      refine (reports_encode data).bind fun literal hliteral => ?_
      rw [keyRefusals, hliteral]
      exact (Literal.reports_mapKey literal).bind fun name _ =>
        reports_encodeCalls (some name) rest
    · cases pending with
      | none => rfl
      | some name =>
        rw [encodeCalls, refusalsOfCalls]
        exact (reports_encode data).bind fun _ _ => (reports_encodeCalls none rest).map _

theorem reports_encodeFields (fields : List (String × Data)) :
    Reports (encodeFields fields) (refusalsOfFields fields) := by
  cases fields with
  | nil => exact ⟨[], rfl⟩
  | cons field rest =>
    obtain ⟨name, value⟩ := field
    rw [encodeFields, refusalsOfFields]
    exact (reports_encode value).bind fun _ _ => (reports_encodeFields rest).map _

end

/-! ## The causes and the pieces -/

theorem keysUsed_nil : KeysUsed [] := by
  intro earlier key later h
  simp at h

theorem keysUsed_concat_value (calls : List (MapRole × Data)) (value : Data) :
    KeysUsed (calls ++ [(.value, value)]) := by
  intro earlier key later h
  have hlast := congrArg List.getLast? h
  rw [List.getLast?_concat, List.getLast?_append_cons] at hlast
  cases later with
  | nil => cases hlast
  | cons call rest =>
    rw [List.getLast?_cons_cons] at hlast
    exact ⟨value, List.mem_of_getLast? hlast.symm⟩

theorem not_keysUsed_concat_key (calls : List (MapRole × Data)) (key : Data) :
    ¬ KeysUsed (calls ++ [(.key, key)]) := by
  intro h
  obtain ⟨value, hvalue⟩ := h calls key [] rfl
  cases hvalue

theorem mem_refusalsOfAll_iff {elements : List Data} {cause : Unsupported} :
    cause ∈ refusalsOfAll elements ↔ ∃ element ∈ elements, cause ∈ element.refusals := by
  induction elements with
  | nil => simp [refusalsOfAll]
  | cons element rest ih => rw [refusalsOfAll, List.mem_append, ih, List.exists_mem_cons_iff]

theorem mem_refusalsOfFields_iff {fields : List (String × Data)} {cause : Unsupported} :
    cause ∈ refusalsOfFields fields ↔
      ∃ value ∈ fields.map Prod.snd, cause ∈ value.refusals := by
  induction fields with
  | nil => simp [refusalsOfFields]
  | cons field rest ih =>
    rw [refusalsOfFields, List.mem_append, ih, List.map_cons, List.exists_mem_cons_iff]

/-- An item of a list is the first one or one of the rest. -/
theorem exists_append_cons_iff {α : Type} {holds : List α → α → Prop} {first : α}
    {rest : List α} :
    (∃ before item after, first :: rest = before ++ item :: after ∧ holds before item) ↔
      holds [] first ∨
        ∃ before item after, rest = before ++ item :: after ∧ holds (first :: before) item := by
  constructor
  · rintro ⟨_ | ⟨_, before⟩, item, after, heq, h⟩
    · cases heq
      exact .inl h
    · cases heq
      exact .inr ⟨before, item, after, rfl, h⟩
  · rintro (h | ⟨before, item, after, rfl, h⟩)
    · exact ⟨[], first, rest, rfl, h⟩
    · exact ⟨first :: before, item, after, rfl, h⟩

/-- What is wrong with a call on a map after these others, beside what is wrong inside it. -/
def CallRefusedFor (earlier : List (MapRole × Data)) (call : MapRole × Data)
    (cause : Unsupported) : Prop :=
  (call.1 = .key ∧ cause ∈ keyRefusals call.2) ∨
    (call.1 = .value ∧ cause = .valueWithoutKey ∧ KeysUsed earlier)

/-- The causes of the calls on a map come from inside a call or from the call where it stands.  A
key is waiting if those before have not used it. -/
theorem mem_refusalsOfCalls_iff {earlier calls : List (MapRole × Data)} {waiting : Bool}
    (hwaiting : waiting = false ↔ KeysUsed earlier) {cause : Unsupported} :
    cause ∈ refusalsOfCalls waiting calls ↔
      (∃ data ∈ calls.map Prod.snd, cause ∈ data.refusals) ∨
        ∃ before call after, calls = before ++ call :: after ∧
          CallRefusedFor (earlier ++ before) call cause := by
  induction calls generalizing earlier waiting with
  | nil => simp [refusalsOfCalls]
  | cons call rest ih =>
    rw [exists_append_cons_iff, List.append_nil, List.map_cons, List.exists_mem_cons_iff]
    obtain ⟨role, data⟩ := call
    cases role with
    | key =>
      have hkey : true = false ↔ KeysUsed (earlier ++ [(.key, data)]) := by
        simpa using not_keysUsed_concat_key earlier data
      have hrest := ih hkey
      simp only [List.append_assoc, List.singleton_append] at hrest
      have hcall : CallRefusedFor earlier (.key, data) cause ↔ cause ∈ keyRefusals data := by
        simp [CallRefusedFor]
      rw [refusalsOfCalls, List.mem_append, List.mem_append, hrest, hcall]
      rw [← or_assoc]
      exact or_or_or_comm
    | value =>
      have hvalue : false = false ↔ KeysUsed (earlier ++ [(.value, data)]) := by
        simpa using keysUsed_concat_value earlier data
      have hrest := ih hvalue
      simp only [List.append_assoc, List.singleton_append] at hrest
      have hcall : cause ∈ (if waiting then [] else [Unsupported.valueWithoutKey]) ↔
          CallRefusedFor earlier (.value, data) cause := by
        cases waiting <;> simp [CallRefusedFor, ← hwaiting]
      rw [refusalsOfCalls, List.mem_append, List.mem_append, hrest, hcall,
        or_left_comm, ← or_assoc]
      exact or_or_or_comm

theorem mem_keyRefusals_iff {key : Data} {cause : Unsupported} :
    cause ∈ keyRefusals key ↔
      ∃ literal, key.encode = .ok literal ∧ (∀ text, literal ≠ .string text) ∧
        (∀ text, literal ≠ .number text) ∧ cause = .mapKey literal := by
  rw [keyRefusals]
  cases key.encode with
  | error fault => simp
  | ok literal => cases literal <;> simp [Literal.keyRefusals]

/-- A map is refused for its calls, each after those before it. -/
theorem refusedFor_map_iff {calls : List (MapRole × Data)} {cause : Unsupported} :
    RefusedFor (.map calls) cause ↔
      ∃ before call after, calls = before ++ call :: after ∧
        CallRefusedFor before call cause := by
  constructor
  · rintro (_ | _ | _ | _ | ⟨hmem, hkey, hstring, hnumber⟩ | hused)
    · obtain ⟨before, after, rfl⟩ := List.append_of_mem hmem
      have hcause := mem_keyRefusals_iff.mpr ⟨_, hkey, hstring, hnumber, rfl⟩
      exact ⟨before, _, after, rfl, .inl ⟨rfl, hcause⟩⟩
    · exact ⟨_, _, _, rfl, .inr ⟨rfl, rfl, hused⟩⟩
  · rintro ⟨before, ⟨role, data⟩, after, rfl, ⟨hrole, hcause⟩ | ⟨hrole, hcause, hused⟩⟩
    · cases hrole
      obtain ⟨literal, hkey, hstring, hnumber, rfl⟩ := mem_keyRefusals_iff.mp hcause
      exact .mapKey List.mem_append_cons_self hkey hstring hnumber
    · cases hrole
      cases hcause
      exact .valueWithoutKey hused

theorem mem_numberRefusals_iff {value : Binary64} {cause : Unsupported} :
    cause ∈ Literal.numberRefusals value ↔ ¬ value.IsFinite ∧ cause = .nonFinite value := by
  rw [Literal.numberRefusals]
  split <;> simp [*]

/-- The causes of data are its own and those of what it is made of. -/
theorem mem_refusals_iff {data : Data} {cause : Unsupported} :
    cause ∈ data.refusals ↔
      data.RefusedFor cause ∨ ∃ child ∈ data.children, cause ∈ child.refusals := by
  cases data with
  | present value | newtype value | newtypeVariant variant value =>
    have hchild : (∃ child ∈ [value], cause ∈ child.refusals) ↔ cause ∈ value.refusals := by simp
    rw [refusals, children, hchild]
    exact (or_iff_right (by rintro ⟨⟩)).symm
  | sequence elements | tuple elements | tupleStruct elements | tupleVariant variant elements =>
    rw [refusals, mem_refusalsOfAll_iff, children]
    exact (or_iff_right (by rintro ⟨⟩)).symm
  | map calls =>
    have hnone : false = false ↔ KeysUsed [] := by simpa using keysUsed_nil
    rw [refusals, mem_refusalsOfCalls_iff hnone, refusedFor_map_iff, children, or_comm]
    rfl
  | record fields | recordVariant variant fields =>
    rw [refusals, mem_refusalsOfFields_iff, children]
    exact (or_iff_right (by rintro ⟨⟩)).symm
  | single bits =>
    rw [refusals, mem_numberRefusals_iff, or_iff_left (by rintro ⟨_, ⟨⟩, _⟩),
      Binary64.isFinite_ofBinary32_iff, not_not]
    constructor
    · rintro ⟨hvalue, rfl⟩
      exact .single hvalue
    · intro h
      cases h with
      | single hvalue => exact ⟨hvalue, rfl⟩
  | double value =>
    rw [refusals, mem_numberRefusals_iff, or_iff_left (by rintro ⟨_, ⟨⟩, _⟩)]
    constructor
    · rintro ⟨hvalue, rfl⟩
      exact .double hvalue
    · intro h
      cases h with
      | double hvalue => exact ⟨hvalue, rfl⟩
  | bytes contents =>
    rw [refusals, List.mem_singleton, or_iff_left (by rintro ⟨_, ⟨⟩, _⟩)]
    constructor
    · rintro rfl
      exact .bytes contents
    · rintro ⟨⟩
      rfl
  | failure reason =>
    rw [refusals, List.mem_singleton, or_iff_left (by rintro ⟨_, ⟨⟩, _⟩)]
    constructor
    · rintro rfl
      exact .failure reason
    · rintro ⟨⟩
      rfl
  | _ =>
    -- there is nothing wrong, and nothing else inside
    rw [or_iff_left (by rintro ⟨_, ⟨⟩, _⟩)]
    constructor <;> rintro ⟨⟩

/-- What encoded data is made of is encoded as well. -/
theorem exists_of_mem_children {data child : Data} {literal : Literal}
    (h : data.encode = .ok literal) (hchild : child ∈ data.children) :
    ∃ node, child.encode = .ok node := by
  have hnone := (reports_encode data).eq_nil h
  have hchildren : child.refusals = [] := List.eq_nil_iff_forall_not_mem.mpr fun cause hcause =>
    List.not_mem_nil (hnone ▸ mem_refusals_iff.mpr (.inr ⟨child, hchild, hcause⟩))
  have hreports := reports_encode child
  rwa [hchildren] at hreports

/-- The causes of data are those of all its pieces. -/
theorem mem_refusals_iff_contains {data : Data} {cause : Unsupported} :
    cause ∈ data.refusals ↔ ∃ part, data.Contains part ∧ part.RefusedFor cause := by
  constructor
  · intro h
    induction data using induction_on_children with
    | step data ih =>
      rcases mem_refusals_iff.mp h with hown | ⟨child, hchild, hcause⟩
      · exact ⟨data, .refl, hown⟩
      · obtain ⟨part, hpart, hrefused⟩ := ih child hchild hcause
        exact ⟨part, .head hchild hpart, hrefused⟩
  · rintro ⟨part, hcontains, hrefused⟩
    induction hcontains using Relation.ReflTransGen.head_induction_on with
    | refl => exact mem_refusals_iff.mpr (.inl hrefused)
    | head hchild _ ih => exact mem_refusals_iff.mpr (.inr ⟨_, hchild, ih⟩)

/-- What the encoder does with data.  It fails exactly where some piece, at any depth, has no
literal form, and then for the first such piece in the order of `refusals`, where all of them are
listed.  Otherwise an entry that a map writes is a value with the latest key before it. -/
theorem encode_refuses (data : Data) :
    ((∃ cause, data.encode = .error cause) ↔
      ∃ part cause, data.Contains part ∧ part.RefusedFor cause) ∧
      (∀ cause, data.encode = .error cause ↔ data.refusals.head? = some cause) ∧
      (∀ cause, cause ∈ data.refusals ↔ ∃ part, data.Contains part ∧ part.RefusedFor cause) ∧
      ∀ calls literal, (map calls).encode = .ok literal →
        ∃ written, List.Forall₂ WritesEntry (pairings none calls) written ∧
          literal = .object true (Literal.kept written) := by
  have hreports := reports_encode data
  refine ⟨?_, fun cause => hreports.eq_error_iff, fun cause => mem_refusals_iff_contains, ?_⟩
  · constructor
    · rintro ⟨cause, herror⟩
      have hfirst := List.mem_of_head? (hreports.eq_error_iff.mp herror)
      obtain ⟨part, hcontains, hrefused⟩ := mem_refusals_iff_contains.mp hfirst
      exact ⟨part, cause, hcontains, hrefused⟩
    · rintro ⟨part, cause, hcontains, hrefused⟩
      have hmem := mem_refusals_iff_contains.mpr ⟨part, hcontains, hrefused⟩
      have hfirst := List.head?_eq_some_head (List.ne_nil_of_mem hmem)
      exact ⟨_, hreports.eq_error_iff.mpr hfirst⟩
  · intro calls literal h
    rw [encode] at h
    obtain ⟨properties, hproperties, h⟩ := exists_of_bind_eq_ok h
    cases h
    obtain ⟨written, hwritten, rfl⟩ := (callsWrite_of_encodeCalls hproperties).exists_pairings none
    exact ⟨written, hwritten, rfl⟩

/-- A map with bytes in a key that another key replaces, and with a value too many. -/
def spoiled : Data :=
  .map [(.key, .string "first"), (.key, .newtypeVariant "second" (.bytes [1, 2])),
    (.key, .string "third"), (.value, .absent), (.value, .failure "late")]

/-- A map with a key that another key replaces, and with an absent value. -/
def replaced : List (MapRole × Data) :=
  [(.key, .string "first"), (.key, .string "second"), (.value, .unit),
    (.key, .string "third"), (.value, .absent)]

theorem encode_refuses_spoiled :
    spoiled.refusals = [.bytes 2, .valueWithoutKey, .failure "late"] ∧
      spoiled.encode = .error (.bytes 2) ∧
      (map replaced).encode = .ok (.object true [("second", .null)]) ∧
      ∃ written,
        List.Forall₂ WritesEntry
          [(.string "second", .unit), (.string "third", .absent)] written ∧
        Literal.object true [("second", .null)] = .object true (Literal.kept written) := by
  obtain ⟨-, herror, -, hpairs⟩ := encode_refuses spoiled
  exact ⟨rfl, (herror _).mpr rfl, rfl, hpairs replaced _ rfl⟩

end Data

end GraphSchema
