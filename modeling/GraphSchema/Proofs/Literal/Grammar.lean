import GraphSchema.Proofs.Literal.Tokens

/-!
# The grammar of literal expressions

`Literal.Spelled` says which texts spell an expression: the words of the language, decimal
numbers, string literals of JSON, arrays, and objects whose keys are identifiers or string
literals, with any white space between two tokens.  A text does not tell how the containers are
laid out, so the relation ignores it.  The text that is written for an expression spells it, as
long as its numbers are decimal literals (`Literal.spelled_text`).
-/

namespace GraphSchema.Literal

/-! ## Expressions -/

mutual

/-- The text begins with an expression; what follows it is the last argument. -/
inductive Spelled : List Char → Literal → List Char → Prop
  | void {text behind start rest : List Char} (hword : Word text ['v', 'o', 'i', 'd'] behind)
      (hblank : Blank behind start) (hzero : Numeral start ['0'] rest) : Spelled text .void rest
  | null {text rest : List Char} (hword : Word text ['n', 'u', 'l', 'l'] rest) :
      Spelled text .null rest
  | bool {text rest : List Char} {value : Bool}
      (hword : Word text (Json.boolText value).toList rest) : Spelled text (.bool value) rest
  | number {text digits rest : List Char} (h : Numeral text digits rest) :
      Spelled text (.number (String.ofList digits)) rest
  | string {text rest : List Char} {value : String} (h : Json.Quotation text value.toList rest) :
      Spelled ('"' :: text) (.string value) rest
  | emptyArray {multiline : Bool} {text rest : List Char} (hblank : Blank text (']' :: rest)) :
      Spelled ('[' :: text) (.array multiline []) rest
  | array {multiline : Bool} {text start behind rest : List Char} {first : Literal}
      {more : List Literal} (hblank : Blank text start) (hfirst : Spelled start first behind)
      (hmore : MoreElements behind more rest) :
      Spelled ('[' :: text) (.array multiline (first :: more)) rest
  | emptyObject {multiline : Bool} {text rest : List Char} (hblank : Blank text ('\x7d' :: rest)) :
      Spelled ('\x7b' :: text) (.object multiline []) rest
  | object {multiline : Bool} {text start behind rest : List Char} {key : String}
      {first : Literal} {more : List (String × Literal)} (hblank : Blank text start)
      (hfirst : Property start key first behind) (hmore : MoreProperties behind more rest) :
      Spelled ('\x7b' :: text) (.object multiline ((key, first) :: more)) rest

/-- The text begins with a key, a colon and an expression. -/
inductive Property : List Char → String → Literal → List Char → Prop
  | mk {text colon behind start rest : List Char} {key : String} {value : Literal}
      (hkey : Key text key colon) (hcolon : Blank colon (':' :: behind))
      (hblank : Blank behind start) (hvalue : Spelled start value rest) :
      Property text key value rest

/-- The text goes on with the elements of an array after the first, and with its end. -/
inductive MoreElements : List Char → List Literal → List Char → Prop
  | close {text rest : List Char} (hblank : Blank text (']' :: rest)) : MoreElements text [] rest
  | cons {text next start behind rest : List Char} {value : Literal} {more : List Literal}
      (hcomma : Blank text (',' :: next)) (hblank : Blank next start)
      (hvalue : Spelled start value behind) (hmore : MoreElements behind more rest) :
      MoreElements text (value :: more) rest

/-- The text goes on with the properties of an object after the first, and with its end. -/
inductive MoreProperties : List Char → List (String × Literal) → List Char → Prop
  | close {text rest : List Char} (hblank : Blank text ('\x7d' :: rest)) :
      MoreProperties text [] rest
  | cons {text next start behind rest : List Char} {key : String} {value : Literal}
      {more : List (String × Literal)} (hcomma : Blank text (',' :: next))
      (hblank : Blank next start) (hfirst : Property start key value behind)
      (hmore : MoreProperties behind more rest) : MoreProperties text ((key, value) :: more) rest

end

/-! ## The layout of a text -/

/-- No token goes on here. -/
def Delimited (rest : List Char) : Prop :=
  ∀ c ∈ rest.head?, isIdentifierPart c = false ∧ isNumberPart c = false

theorem delimited_nil : Delimited [] := by
  intro c hc
  cases hc

theorem delimited_cons {c : Char} {rest : List Char}
    (h : isIdentifierPart c = false ∧ isNumberPart c = false) : Delimited (c :: rest) := by
  intro d hd
  cases hd
  exact h

theorem blank_refl (text : List Char) : Blank text text :=
  ⟨[], by simp, rfl⟩

theorem blank_space (text : List Char) : Blank (' ' :: text) text :=
  ⟨[' '], by simp [Json.Cursor.isSeparator], rfl⟩

/-- What stands before the first part and behind the last part of a container is white space. -/
theorem blank_opening {pad : String} (hpad : pad.toList.all Json.Cursor.isSeparator)
    (multiline : Bool) (level : Nat) (rest : List Char) :
    Blank ((opening multiline level pad).toList ++ rest) rest := by
  refine ⟨_, fun c hc => ?_, rfl⟩
  cases multiline with
  | false => exact List.all_eq_true.mp hpad c hc
  | true =>
    simp only [opening, lineBreak, if_true, String.toList_ofList, List.mem_cons,
      List.mem_replicate] at hc
    rcases hc with rfl | ⟨-, rfl⟩ <;> decide

theorem blank_closing {pad : String} (hpad : pad.toList.all Json.Cursor.isSeparator)
    (multiline : Bool) (level : Nat) (rest : List Char) :
    Blank ((closing multiline level pad).toList ++ rest) rest :=
  blank_opening hpad multiline level rest

/-- Between two parts stands a comma and white space. -/
theorem between_eq (multiline : Bool) (level : Nat) :
    between multiline level = "," ++ opening multiline level " " := by
  cases multiline <;> rfl

/-- A token that stands last in a container ends there. -/
theorem delimited_closing {pad : String} (hpad : pad = "" ∨ pad = " ") {mark : Char}
    (hmark : isIdentifierPart mark = false ∧ isNumberPart mark = false) (multiline : Bool)
    (level : Nat) (rest : List Char) :
    Delimited ((closing multiline level pad).toList ++ mark :: rest) := by
  cases multiline with
  | true =>
    have hbreak : (closing true level pad).toList = '\n' :: List.replicate (2 * level) ' ' := by
      simp [closing, lineBreak]
    rw [hbreak]
    exact delimited_cons (by decide)
  | false =>
    have hflat : closing false level pad = pad := by simp [closing]
    rw [hflat]
    rcases hpad with rfl | rfl
    · exact delimited_cons hmark
    · exact delimited_cons (by decide)

theorem delimited_elementsText (multiline : Bool) (level : Nat) (elements : List Literal)
    (rest : List Char) :
    Delimited ((elementsText multiline (level + 1) elements).toList ++
      ((closing multiline level "").toList ++ ']' :: rest)) := by
  cases elements with
  | nil => simpa [elementsText] using delimited_closing (.inl rfl) (by decide) multiline level rest
  | cons value more =>
    simp only [elementsText, between_eq, String.toList_append, List.append_assoc]
    exact delimited_cons (by decide)

theorem delimited_propertiesText (multiline : Bool) (level : Nat)
    (properties : List (String × Literal)) (rest : List Char) :
    Delimited ((propertiesText multiline (level + 1) properties).toList ++
      ((closing multiline level " ").toList ++ '\x7d' :: rest)) := by
  cases properties with
  | nil =>
    simpa [propertiesText] using delimited_closing (.inr rfl) (by decide) multiline level rest
  | cons property more =>
    simp only [propertiesText, between_eq, String.toList_append, List.append_assoc]
    exact delimited_cons (by decide)

/-! ## The text of an expression spells it -/

mutual

/-- Every number of the expression is a decimal literal. -/
def hasDecimals : Literal → Bool
  | number text => isDecimal text.toList
  | array _ elements => elementsHaveDecimals elements
  | object _ properties => propertiesHaveDecimals properties
  | _ => true

/-- Every number of the elements is a decimal literal. -/
def elementsHaveDecimals : List Literal → Bool
  | [] => true
  | value :: rest => hasDecimals value && elementsHaveDecimals rest

/-- Every number of the properties is a decimal literal. -/
def propertiesHaveDecimals : List (String × Literal) → Bool
  | [] => true
  | (_, value) :: rest => hasDecimals value && propertiesHaveDecimals rest

end

theorem word_of_delimited (name : List Char) {rest : List Char}
    (hname : isIdentifier (String.ofList name)) (hrest : Delimited rest) :
    Word (name ++ rest) name rest :=
  ⟨rfl, hname, fun c hc => (hrest c hc).1⟩

theorem numeral_of_delimited (digits : List Char) {rest : List Char} (hdigits : isDecimal digits)
    (hrest : Delimited rest) : Numeral (digits ++ rest) digits rest :=
  ⟨rfl, hdigits, fun c hc => (hrest c hc).2⟩

/-- What stands behind the opening quote of a quoted text. -/
theorem toList_quote_append (text : String) (rest : List Char) :
    (Text.Quoted.quote text).toList ++ rest =
      '"' :: (text.toList.flatMap Text.Quoted.escape ++ '"' :: rest) := by
  simp [Text.Quoted.encode]

/-- A key is written as an identifier or as a string literal. -/
theorem key_keyText (key : String) {rest : List Char} (hrest : Delimited rest) :
    Key ((keyText key).toList ++ rest) key rest := by
  unfold keyText
  split
  · rename_i hidentifier
    have hname : isIdentifier (String.ofList key.toList) := by simpa using hidentifier
    simpa using Key.name (word_of_delimited key.toList hname hrest)
  · rw [toList_quote_append]
    exact .quoted (Json.quotation_flatMap key.toList rest)

/-- A property is written as its key, a colon, a space and its value. -/
theorem property_keyText (key : String) {value : Literal} {text rest : List Char}
    (hvalue : Spelled text value rest) :
    Property ((keyText key).toList ++ (": ".toList ++ text)) key value rest :=
  .mk (key_keyText key (delimited_cons (by decide))) (blank_refl _) (blank_space _) hvalue

mutual

/-- The text of an expression, followed by what no token goes on with, begins with it. -/
theorem spelled_textAt : ∀ (value : Literal) (level : Nat) {rest : List Char},
    value.hasDecimals → Delimited rest → Spelled ((textAt level value).toList ++ rest) value rest
  | void, level, rest, _, hrest => by
    have hspace : Delimited (' ' :: '0' :: rest) := delimited_cons (by decide)
    have hword := word_of_delimited ['v', 'o', 'i', 'd'] (by decide) hspace
    have hzero := numeral_of_delimited ['0'] (by decide) hrest
    simp only [textAt]
    exact .void hword (blank_space _) hzero
  | null, level, rest, _, hrest => by
    simp only [textAt]
    exact .null (word_of_delimited ['n', 'u', 'l', 'l'] (by decide) hrest)
  | bool value, level, rest, _, hrest => by
    simp only [textAt]
    refine .bool (word_of_delimited (Json.boolText value).toList ?_ hrest)
    cases value <;> decide
  | number text, level, rest, h, hrest => by
    have hnumber := Spelled.number (numeral_of_delimited text.toList h hrest)
    rw [String.ofList_toList] at hnumber
    simpa only [textAt] using hnumber
  | string value, level, rest, _, hrest => by
    simp only [textAt, toList_quote_append]
    exact .string (Json.quotation_flatMap value.toList rest)
  | array multiline [], level, rest, _, hrest => by
    simp only [textAt]
    exact .emptyArray (blank_refl _)
  | array multiline (first :: more), level, rest, h, hrest => by
    simp only [hasDecimals, elementsHaveDecimals, Bool.and_eq_true] at h
    have hfirst := spelled_textAt first (level + 1) h.1
      (delimited_elementsText multiline level more rest)
    have hmore := moreElements_elementsText more multiline level h.2 rest
    simp only [textAt, String.toList_append, List.append_assoc]
    exact .array (blank_opening (by decide) multiline (level + 1) _) hfirst hmore
  | object multiline [], level, rest, _, hrest => by
    simp only [textAt]
    exact .emptyObject (blank_refl _)
  | object multiline ((key, first) :: more), level, rest, h, hrest => by
    simp only [hasDecimals, propertiesHaveDecimals, Bool.and_eq_true] at h
    have hfirst := spelled_textAt first (level + 1) h.1
      (delimited_propertiesText multiline level more rest)
    have hmore := moreProperties_propertiesText more multiline level h.2 rest
    simp only [textAt, String.toList_append, List.append_assoc]
    exact .object (blank_opening (by decide) multiline (level + 1) _) (property_keyText key hfirst)
      hmore

/-- So do the elements after the first, with the end of the array. -/
theorem moreElements_elementsText : ∀ (elements : List Literal) (multiline : Bool) (level : Nat),
    elementsHaveDecimals elements → ∀ rest : List Char,
      MoreElements ((elementsText multiline (level + 1) elements).toList ++
        ((closing multiline level "").toList ++ ']' :: rest)) elements rest
  | [], multiline, level, _, rest => by
    simp only [elementsText]
    exact .close (blank_closing (by decide) multiline level _)
  | value :: more, multiline, level, h, rest => by
    simp only [elementsHaveDecimals, Bool.and_eq_true] at h
    have hvalue := spelled_textAt value (level + 1) h.1
      (delimited_elementsText multiline level more rest)
    have hmore := moreElements_elementsText more multiline level h.2 rest
    simp only [elementsText, between_eq, String.toList_append, List.append_assoc]
    exact .cons (blank_refl _) (blank_opening (by decide) multiline (level + 1) _) hvalue hmore

/-- So do the properties after the first, with the end of the object. -/
theorem moreProperties_propertiesText : ∀ (properties : List (String × Literal))
    (multiline : Bool) (level : Nat), propertiesHaveDecimals properties → ∀ rest : List Char,
      MoreProperties ((propertiesText multiline (level + 1) properties).toList ++
        ((closing multiline level " ").toList ++ '\x7d' :: rest)) properties rest
  | [], multiline, level, _, rest => by
    simp only [propertiesText]
    exact .close (blank_closing (by decide) multiline level _)
  | (key, value) :: more, multiline, level, h, rest => by
    simp only [propertiesHaveDecimals, Bool.and_eq_true] at h
    have hvalue := spelled_textAt value (level + 1) h.1
      (delimited_propertiesText multiline level more rest)
    have hmore := moreProperties_propertiesText more multiline level h.2 rest
    simp only [propertiesText, between_eq, String.toList_append, List.append_assoc]
    exact .cons (blank_refl _) (blank_opening (by decide) multiline (level + 1) _)
      (property_keyText key hvalue) hmore

end

end GraphSchema.Literal
