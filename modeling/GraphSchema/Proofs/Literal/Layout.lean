import Mathlib
import GraphSchema.CommandLine.Run
import GraphSchema.Proofs.Literal.Schemas

/-!
# One layout for schemas and expressions

The two texts of a schema, its JSON text and the text of its literal expression, are written by
two printers.  They differ in nothing but the quotes of keys: `unquoteKeys` copies a text up to the
string literals that stand before a colon, and drops the quotes of those that are names.

Two texts that agree in this way agree within any larger text (`Agrees`).  The condition is that no
colon follows, since a string that is not a key would be taken for one; so a key is always taken
together with its colon.  The proof goes over the parts of the wire form, which are the parts of the
expression (`Json.SameParts`).

**Main statement.**  `CommandLine.Output.texts_agree`.
-/

namespace GraphSchema

namespace Json

open Text.Quoted

/-! ## Dropping the quotes of keys -/

/-- A letter, an underscore or a dollar sign. -/
def BeginsName (c : Char) : Prop :=
  ('A' ≤ c ∧ c ≤ 'Z') ∨ ('a' ≤ c ∧ c ≤ 'z') ∨ c = '_' ∨ c = '$'

instance (c : Char) : Decidable (BeginsName c) :=
  inferInstanceAs (Decidable (('A' ≤ c ∧ c ≤ 'Z') ∨ ('a' ≤ c ∧ c ≤ 'z') ∨ c = '_' ∨ c = '$'))

/-- A name: one such character, and then such characters and digits. -/
def IsName : List Char → Prop
  | [] => False
  | c :: rest => BeginsName c ∧ ∀ d ∈ rest, BeginsName d ∨ ('0' ≤ d ∧ d ≤ '9')

instance : ∀ text : List Char, Decidable (IsName text)
  | [] => .isFalse id
  | c :: rest =>
    -- one character after the other, and not all characters there are
    have : Decidable (∀ d ∈ rest, BeginsName d ∨ ('0' ≤ d ∧ d ≤ '9')) := List.decidableBAll _ rest
    inferInstanceAs (Decidable (BeginsName c ∧ ∀ d ∈ rest, BeginsName d ∨ ('0' ≤ d ∧ d ≤ '9')))

/-- A string literal with `body` between the quotes, in front of `rest`: a name loses the quotes in
front of a colon. -/
def closeLiteral (body rest : List Char) : List Char :=
  if IsName body ∧ rest.head? = some ':' then body else '"' :: body ++ ['"']

/-- Copy a text, but for the quotes of keys that are names.  Within a string literal, `some` has
what has been read of it. -/
def unquote : Option (List Char) → List Char → List Char
  | none, [] => []
  | none, '"' :: rest => unquote (some []) rest
  | none, c :: rest => c :: unquote none rest
  | some body, [] => '"' :: body
  | some body, '"' :: rest => closeLiteral body rest ++ unquote none rest
  | some body, '\\' :: c :: rest => unquote (some (body ++ ['\\', c])) rest
  | some body, c :: rest => unquote (some (body ++ [c])) rest

/-- A JSON text without the quotes of the keys that are names. -/
def unquoteKeys (text : String) : String := String.ofList (unquote none text.toList)

/-! ## Names -/

theorem isIdentifierStart_iff {c : Char} : Literal.isIdentifierStart c ↔ BeginsName c := by
  have hupper : c.isUpper ↔ 'A' ≤ c ∧ c ≤ 'Z' := by
    simp [Char.isUpper, Char.le_def]
  have hlower : c.isLower ↔ 'a' ≤ c ∧ c ≤ 'z' := by
    simp [Char.isLower, Char.le_def]
  simp only [Literal.isIdentifierStart, BeginsName, Char.isAlpha, Bool.or_eq_true, beq_iff_eq,
    hupper, hlower, or_assoc]

theorem isIdentifierPart_iff {c : Char} :
    Literal.isIdentifierPart c ↔ BeginsName c ∨ ('0' ≤ c ∧ c ≤ '9') := by
  have hdigit : c.isDigit ↔ '0' ≤ c ∧ c ≤ '9' := by
    simp [Char.isDigit, Char.le_def]
  rw [Literal.isIdentifierPart, Bool.or_eq_true, isIdentifierStart_iff, hdigit]

theorem isIdentifier_iff {text : String} : Literal.isIdentifier text ↔ IsName text.toList := by
  rw [Literal.isIdentifier]
  cases text.toList with
  | nil => simp [IsName]
  | cons c rest =>
    simp only [IsName, Bool.and_eq_true, List.all_eq_true, isIdentifierStart_iff,
      isIdentifierPart_iff]

/-- Whatever occurs in a name is visible, and neither a quote nor a backslash. -/
theorem visible_of_mem_isName {name : List Char} (h : IsName name) {c : Char} (hc : c ∈ name) :
    32 ≤ c.toNat ∧ c ≠ '"' ∧ c ≠ '\\' := by
  have hpart : BeginsName c ∨ ('0' ≤ c ∧ c ≤ '9') := by
    cases name with
    | nil => cases hc
    | cons d rest =>
      rcases List.mem_cons.mp hc with rfl | hrest
      · exact .inl h.1
      · exact h.2 c hrest
  refine ⟨?_, ?_, ?_⟩
  · have hle : ∀ d : Char, d ≤ c → d.toNat ≤ c.toNat := fun d h => UInt32.le_iff_toNat_le.mp h
    rcases hpart with (h | h | rfl | rfl) | h
    · exact le_trans (by decide) (hle 'A' h.1)
    · exact le_trans (by decide) (hle 'a' h.1)
    · decide
    · decide
    · exact le_trans (by decide) (hle '0' h.1)
  · rintro rfl
    revert hpart
    decide
  · rintro rfl
    revert hpart
    decide

/-! ## String literals -/

theorem ne_of_mem_hexFixed {width value : Nat} {c : Char} (h : c ∈ Text.hexFixed width value) :
    c ≠ '"' ∧ c ≠ '\\' := by
  have hdigit : ∀ n : Fin 16, Text.hexDigit n ≠ '"' ∧ Text.hexDigit n ≠ '\\' := by decide
  induction width generalizing value with
  | zero => cases h
  | succ width ih =>
    rcases List.mem_append.mp h with hfront | hlast
    · exact ih hfront
    · cases List.mem_singleton.mp hlast
      have hvalue := hdigit ⟨value % 16, Nat.mod_lt _ (by decide)⟩
      simpa [Text.hexDigit] using hvalue

/-- A character stands for itself or is written as an escape: a backslash, one character, and then
none that has a meaning of its own. -/
theorem escape_cases (c : Char) :
    (escape c = [c] ∧ c ≠ '"' ∧ c ≠ '\\') ∨
      ∃ d tail, escape c = '\\' :: d :: tail ∧ ∀ e ∈ tail, e ≠ '"' ∧ e ≠ '\\' := by
  rw [escape]
  split_ifs with hquote hslash
  iterate 7 exact .inr ⟨_, _, rfl, by simp⟩
  · exact .inr ⟨_, _, rfl, fun e he => ne_of_mem_hexFixed he⟩
  · exact .inl ⟨rfl, hquote, hslash⟩

theorem escape_eq_self {c : Char} (hvisible : 32 ≤ c.toNat) (hquote : c ≠ '"')
    (hslash : c ≠ '\\') : escape c = [c] := by
  have hne : ∀ d : Char, d.toNat < 32 → c ≠ d := by
    rintro d hd rfl
    omega
  rw [escape, if_neg hquote, if_neg hslash, if_neg (by omega), if_neg (by omega),
    if_neg (hne '\n' (by decide)), if_neg (hne '\r' (by decide)), if_neg (hne '\t' (by decide)),
    if_neg (by omega)]

/-- The escapes of a name are the name itself. -/
theorem flatMap_escape_eq_self {name : List Char} (h : IsName name) :
    name.flatMap escape = name := by
  have hescapes : ∀ c ∈ name, escape c = [c] := by
    intro c hc
    obtain ⟨hvisible, hquote, hslash⟩ := visible_of_mem_isName h hc
    exact escape_eq_self hvisible hquote hslash
  rw [List.flatMap_congr hescapes, List.flatMap_singleton']

/-- What is written as a name is that name. -/
theorem isName_of_isName_flatMap {text : List Char} (h : IsName (text.flatMap escape)) :
    IsName text := by
  have hescapes : ∀ c ∈ text, escape c = [c] := by
    intro c hc
    rcases escape_cases c with ⟨heq, -⟩ | ⟨d, tail, heq, -⟩
    · exact heq
    · have hmem : '\\' ∈ text.flatMap escape :=
        List.mem_flatMap.mpr ⟨c, hc, heq ▸ List.mem_cons_self⟩
      exact ((visible_of_mem_isName h hmem).2.2 rfl).elim
  rwa [List.flatMap_congr hescapes, List.flatMap_singleton'] at h

theorem unquote_append {mark : List Char} (h : '"' ∉ mark) (rest : List Char) :
    unquote none (mark ++ rest) = mark ++ unquote none rest := by
  induction mark with
  | nil => rfl
  | cons c mark ih =>
    rw [List.mem_cons, not_or] at h
    rw [List.cons_append, unquote, ih h.2]
    · rfl
    · exact fun heq => h.1 heq.symm

theorem unquote_body {front : List Char} (h : ∀ c ∈ front, c ≠ '"' ∧ c ≠ '\\')
    (body rest : List Char) :
    unquote (some body) (front ++ rest) = unquote (some (body ++ front)) rest := by
  induction front generalizing body with
  | nil => rw [List.nil_append, List.append_nil]
  | cons c front ih =>
    obtain ⟨hc, hfront⟩ := List.forall_mem_cons.mp h
    rw [List.cons_append, unquote, ih hfront, List.append_assoc, List.singleton_append]
    · exact hc.1
    · exact fun _ _ heq _ => hc.2 heq

theorem unquote_escape (c : Char) (body rest : List Char) :
    unquote (some body) (escape c ++ rest) = unquote (some (body ++ escape c)) rest := by
  rcases escape_cases c with ⟨heq, hc⟩ | ⟨d, tail, heq, htail⟩
  · rw [heq]
    exact unquote_body (by simpa using hc) body rest
  · rw [heq, List.cons_append, List.cons_append, unquote, unquote_body htail]
    simp

/-- A string literal is read up to its closing quote. -/
theorem unquote_encode (text rest : List Char) :
    unquote none (encode text ++ rest) =
      closeLiteral (text.flatMap escape) rest ++ unquote none rest := by
  have hbody : ∀ body, unquote (some body) (text.flatMap escape ++ '"' :: rest) =
      closeLiteral (body ++ text.flatMap escape) rest ++ unquote none rest := by
    induction text with
    | nil => intro body; simp [unquote]
    | cons c text ih =>
      intro body
      rw [List.flatMap_cons, List.append_assoc, unquote_escape, ih, List.append_assoc]
  have hencode : encode text ++ rest = '"' :: (text.flatMap escape ++ '"' :: rest) := by
    simp [encode]
  rw [hencode, unquote, hbody, List.nil_append]

/-! ## Texts that agree -/

theorem head?_append_ne {front rest : List Char} {c : Char} (hfront : front.head? ≠ some c)
    (hrest : rest.head? ≠ some c) : (front ++ rest).head? ≠ some c := by
  cases front with
  | nil => exact hrest
  | cons d front => exact hfront

/-- A text becomes the other one without the quotes of its keys, wherever it stands in front of
something else than a colon.  It does not begin with a colon itself. -/
structure Agrees (written spelled : String) : Prop where
  head : written.toList.head? ≠ some ':'
  unquote_eq : ∀ rest : List Char, rest.head? ≠ some ':' →
    unquote none (written.toList ++ rest) = spelled.toList ++ unquote none rest

namespace Agrees

variable {first second first' second' : String}

theorem append (h : Agrees first first') (h' : Agrees second second') :
    Agrees (first ++ second) (first' ++ second') where
  head := by
    rw [String.toList_append]
    exact head?_append_ne h.head h'.head
  unquote_eq rest hrest := by
    rw [String.toList_append, String.toList_append, List.append_assoc,
      h.unquote_eq _ (head?_append_ne h'.head hrest), h'.unquote_eq rest hrest, List.append_assoc]

/-- What has no quote stays the same. -/
theorem mark {text : String} (hhead : text.toList.head? ≠ some ':') (h : '"' ∉ text.toList) :
    Agrees text text :=
  ⟨hhead, fun rest _ => unquote_append h rest⟩

theorem lineBreak (level : Nat) : Agrees (lineBreak level) (lineBreak level) := by
  refine mark ?_ ?_
  · simp [GraphSchema.lineBreak]
  · simp [GraphSchema.lineBreak]

/-- A string that no colon follows stays the same. -/
theorem quote (text : String) : Agrees (quote text) (quote text) where
  head := by simp [encode]
  unquote_eq rest hrest := by
    rw [toList_quote, unquote_encode, closeLiteral, if_neg fun h => hrest h.2]
    rfl

/-- A key loses its quotes if it is a name. -/
theorem key (name : String) :
    Agrees (Text.Quoted.quote name ++ ": ") (Literal.keyText name ++ ": ") where
  head := by simp [encode]
  unquote_eq rest _ := by
    have hmark : unquote none (": ".toList ++ rest) = ": ".toList ++ unquote none rest :=
      unquote_append (by decide) rest
    have hkey : closeLiteral (name.toList.flatMap escape) (": ".toList ++ rest) =
        (Literal.keyText name).toList := by
      have hcolon : (": ".toList ++ rest).head? = some ':' := rfl
      by_cases hname : Literal.isIdentifier name
      · have h := isIdentifier_iff.mp hname
        rw [closeLiteral, flatMap_escape_eq_self h, if_pos ⟨h, hcolon⟩, Literal.keyText,
          if_pos hname]
      · have h : ¬ IsName (name.toList.flatMap escape) := fun h =>
          hname (isIdentifier_iff.mpr (isName_of_isName_flatMap h))
        rw [closeLiteral, if_neg fun hkey => h hkey.1, Literal.keyText, if_neg hname, toList_quote]
        rfl
    rw [String.toList_append, String.toList_append, toList_quote, List.append_assoc, unquote_encode,
      hkey, hmark, List.append_assoc]

theorem unquoteKeys_eq (h : Agrees first first') : unquoteKeys first = first' := by
  have heq := h.unquote_eq [] nofun
  rw [List.append_nil, unquote, List.append_nil] at heq
  rw [unquoteKeys, heq, String.ofList_toList]

end Agrees

/-! ## Values and expressions with the same parts -/

mutual

/-- An expression has the parts of a JSON value, in their order, over lines. -/
inductive SameParts : Json → Literal → Prop
  | string (value : String) : SameParts (.string value) (.string value)
  | array {elements : List Json} {literals : List Literal}
    (h : SameElements elements literals) : SameParts (.array elements) (.array true literals)
  | object {entries : List (String × Json)} {properties : List (String × Literal)}
    (h : SameEntries entries properties) : SameParts (.object entries) (.object true properties)

/-- The same of elements, one by one. -/
inductive SameElements : List Json → List Literal → Prop
  | nil : SameElements [] []
  | cons {value : Json} {literal : Literal} {rest : List Json} {others : List Literal}
    (h : SameParts value literal) (hrest : SameElements rest others) :
    SameElements (value :: rest) (literal :: others)

/-- The same of the values of entries, with equal keys. -/
inductive SameEntries : List (String × Json) → List (String × Literal) → Prop
  | nil : SameEntries [] []
  | cons (key : String) {value : Json} {literal : Literal} {rest : List (String × Json)}
    {others : List (String × Literal)} (h : SameParts value literal)
    (hrest : SameEntries rest others) :
    SameEntries ((key, value) :: rest) ((key, literal) :: others)

end

mutual

/-- The texts of a value and of an expression with the same parts agree. -/
theorem SameParts.agrees {value : Json} {literal : Literal} (h : SameParts value literal)
    (level : Nat) : Agrees (prettyAt level value) (literal.textAt level) := by
  cases h with
  | string text =>
    rw [prettyAt, Literal.textAt]
    exact .quote text
  | array h =>
    cases h with
    | nil =>
      rw [prettyAt, Literal.textAt]
      exact .mark (by decide) (by decide)
    | cons h hrest =>
      rw [prettyAt, Literal.textAt]
      have hopen : Agrees "[" "[" := .mark (by decide) (by decide)
      have hclose : Agrees "]" "]" := .mark (by decide) (by decide)
      exact ((((hopen.append (.lineBreak _)).append (h.agrees _)).append (hrest.agrees _)).append
        (.lineBreak _)).append hclose
  | object h =>
    cases h with
    | nil =>
      rw [prettyAt, Literal.textAt]
      exact .mark (by decide) (by decide)
    | cons key h hrest =>
      rw [prettyAt, Literal.textAt]
      have hopen : Agrees "\x7b" "\x7b" := .mark (by decide) (by decide)
      have hclose : Agrees "\x7d" "\x7d" := .mark (by decide) (by decide)
      have hkey := (hopen.append (.lineBreak (level + 1))).append (.key key)
      rw [← String.append_assoc, ← String.append_assoc] at hkey
      exact (((hkey.append (h.agrees _)).append (hrest.agrees _)).append (.lineBreak _)).append
        hclose

theorem SameElements.agrees {elements : List Json} {literals : List Literal}
    (h : SameElements elements literals) (level : Nat) :
    Agrees (prettyElements level elements) (Literal.elementsText true level literals) := by
  cases h with
  | nil =>
    rw [prettyElements, Literal.elementsText]
    exact .mark (by decide) (by decide)
  | cons h hrest =>
    rw [prettyElements, Literal.elementsText]
    have hcomma : Agrees "," "," := .mark (by decide) (by decide)
    exact ((hcomma.append (.lineBreak _)).append (h.agrees _)).append (hrest.agrees _)

theorem SameEntries.agrees {entries : List (String × Json)} {properties : List (String × Literal)}
    (h : SameEntries entries properties) (level : Nat) :
    Agrees (prettyEntries level entries) (Literal.propertiesText true level properties) := by
  cases h with
  | nil =>
    rw [prettyEntries, Literal.propertiesText]
    exact .mark (by decide) (by decide)
  | cons key h hrest =>
    rw [prettyEntries, Literal.propertiesText]
    have hcomma : Agrees "," "," := .mark (by decide) (by decide)
    have hkey := (hcomma.append (.lineBreak level)).append (.key key)
    rw [← String.append_assoc, ← String.append_assoc] at hkey
    exact (hkey.append (h.agrees _)).append (hrest.agrees _)

end

theorem SameElements.strings (texts : List String) :
    SameElements (texts.map .string) (texts.map .string) := by
  induction texts with
  | nil => exact .nil
  | cons text rest ih => exact .cons (.string text) ih

theorem SameEntries.append {entries others : List (String × Json)}
    {properties more : List (String × Literal)} (h : SameEntries entries properties)
    (hothers : SameEntries others more) :
    SameEntries (entries ++ others) (properties ++ more) := by
  cases h with
  | nil => exact hothers
  | cons key h hrest => exact .cons key h (hrest.append hothers)

end Json

namespace Schema

open Json

theorem sameEntries_title (title : Option String) :
    SameEntries (titleEntry title) (titleProperty title) := by
  cases title with
  | none => exact .nil
  | some title => exact .cons "title" (.string title) .nil

mutual

/-- The wire form of a schema and its expression have the same parts. -/
theorem sameParts_literal (schema : Schema) : SameParts schema.toJson schema.literal := by
  cases schema with
  | any title =>
    rw [toJson, literal]
    exact .object (.cons "type" (.string "any") (sameEntries_title title))
  | intrinsic kind =>
    rw [toJson, literal]
    exact .object (.cons "type" (.string kind.name) .nil)
  | object title properties required =>
    rw [toJson, literal]
    have hproperties := SameParts.object (sameEntries_literals properties)
    have hrequired := SameParts.array (.strings required)
    exact .object (.cons "type" (.string "object") ((sameEntries_title title).append
      (.cons "properties" hproperties (.cons "required" hrequired .nil))))
  | array items =>
    rw [toJson, literal]
    exact .object (.cons "type" (.string "array") (.cons "items" (sameParts_literal items) .nil))
  | reference name =>
    rw [toJson, literal]
    exact .object (.cons "$ref" (.string name) .nil)

/-- So have the properties, in order. -/
theorem sameEntries_literals (properties : List (String × Schema)) :
    SameEntries (propertiesToJson properties) (propertyLiterals properties) := by
  cases properties with
  | nil => exact .nil
  | cons property rest =>
    obtain ⟨name, schema⟩ := property
    rw [propertiesToJson, propertyLiterals]
    exact .cons name (sameParts_literal schema) (sameEntries_literals rest)

end

end Schema

namespace CommandLine

/-- Both texts of a schema are written, and the text of its expression is its JSON text without the
quotes of the keys that are names. -/
theorem Output.texts_agree (schema : Schema) :
    ∃ literal, schema.toData.encode = .ok literal ∧
      Output.schema.text schema = .ok schema.toJson.pretty ∧
      (Output.expr none).text schema = .ok literal.text ∧
      literal.text = Json.unquoteKeys schema.toJson.pretty := by
  refine ⟨schema.literal, schema.encode_toData, rfl, ?_, ?_⟩
  · rw [Output.text, schema.encode_toData]
    rfl
  · exact ((schema.sameParts_literal.agrees 0).unquoteKeys_eq).symm

/-- A key that is no name keeps its quotes, and so does a name as a value. -/
example : Json.unquoteKeys "\x7b\"a\": \"b\", \"c-d\": []\x7d" =
    "\x7ba: \"b\", \"c-d\": []\x7d" := by
  decide +kernel

end CommandLine

end GraphSchema
