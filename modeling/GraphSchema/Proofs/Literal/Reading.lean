import GraphSchema.Proofs.Literal.Grammar

/-!
# Reading literal expressions back

`Literal.read?` is a reader of literal expressions, by descent on the text.  It reads exactly the
texts of the grammar (`read?_eq_some_iff`): the texts that are read are the spellings of the
expression, which comes out with every container on one line.  Since the text that is written for
an expression spells it, writing loses the layout of the containers and nothing else.
-/

namespace GraphSchema.Literal

/-! ## The reader -/

/-- The expression that a word begins. -/
def keyword? (name rest : List Char) : Option (Literal × List Char) :=
  if name = ['v', 'o', 'i', 'd'] then
    match numeral? (skip rest) with
    | some (['0'], rest) => some (void, rest)
    | _ => none
  else if name = ['n', 'u', 'l', 'l'] then some (null, rest)
  else if name = (Json.boolText true).toList then some (bool true, rest)
  else if name = (Json.boolText false).toList then some (bool false, rest)
  else none

/-- The word or number that the text begins with. -/
def leaf? (text : List Char) : Option (Literal × List Char) :=
  match word? text with
  | some (name, rest) => keyword? name rest
  | none => (numeral? text).map fun (digits, rest) => (number (String.ofList digits), rest)

mutual

/-- The expression that the text begins with.  Every step reads a character at least. -/
def readValue : Nat → List Char → Option (Literal × List Char)
  | 0, _ => none
  | steps + 1, text =>
    match text with
    | '"' :: text => (string? text).map fun (value, rest) => (string value, rest)
    | '[' :: text =>
      match skip text with
      | ']' :: rest => some (array false [], rest)
      | start => do
        let (first, behind) ← readValue steps start
        let (more, rest) ← readElements steps behind
        return (array false (first :: more), rest)
    | '\x7b' :: text =>
      match skip text with
      | '\x7d' :: rest => some (object false [], rest)
      | start => do
        let (first, behind) ← readProperty steps start
        let (more, rest) ← readProperties steps behind
        return (object false (first :: more), rest)
    | text => leaf? text

/-- The elements after the first, with the end of the array. -/
def readElements : Nat → List Char → Option (List Literal × List Char)
  | 0, _ => none
  | steps + 1, text =>
    match skip text with
    | ']' :: rest => some ([], rest)
    | ',' :: next => do
      let (value, behind) ← readValue steps (skip next)
      let (more, rest) ← readElements steps behind
      return (value :: more, rest)
    | _ => none

/-- A key, a colon and an expression. -/
def readProperty : Nat → List Char → Option ((String × Literal) × List Char)
  | 0, _ => none
  | steps + 1, text => do
    let (key, behind) ← key? text
    let start ← colon? behind
    let (value, rest) ← readValue steps start
    return ((key, value), rest)

/-- The properties after the first, with the end of the object. -/
def readProperties : Nat → List Char → Option (List (String × Literal) × List Char)
  | 0, _ => none
  | steps + 1, text =>
    match skip text with
    | '\x7d' :: rest => some ([], rest)
    | ',' :: next => do
      let (property, behind) ← readProperty steps (skip next)
      let (more, rest) ← readProperties steps behind
      return (property :: more, rest)
    | _ => none

end

/-- The expression that a whole text spells. -/
def read? (text : String) : Option Literal := do
  let (value, rest) ← readValue (text.toList.length + 1) (skip text.toList)
  if (skip rest).isEmpty then some value else none

/-! ## What is read is spelled by the text -/

theorem spelled_of_keyword? {text name behind rest : List Char} {value : Literal}
    (hword : Word text name behind) (h : keyword? name behind = some (value, rest)) :
    Spelled text value rest := by
  unfold keyword? at h
  split at h
  · rename_i hname
    split at h
    · rename_i hzero
      cases h
      exact .void (hname ▸ hword) (blank_skip behind) (numeral?_eq_some_iff.mp hzero)
    · cases h
  split at h
  · rename_i hname
    cases h
    exact .null (hname ▸ hword)
  split at h
  · rename_i hname
    cases h
    exact .bool (hname ▸ hword)
  split at h
  · rename_i hname
    cases h
    exact .bool (hname ▸ hword)
  · cases h

theorem spelled_of_leaf? {text rest : List Char} {value : Literal}
    (h : leaf? text = some (value, rest)) : Spelled text value rest := by
  unfold leaf? at h
  split at h
  · rename_i hword
    exact spelled_of_keyword? (word?_eq_some_iff.mp hword) h
  · obtain ⟨⟨digits, behind⟩, hnumeral, heq⟩ := Option.map_eq_some_iff.mp h
    cases heq
    exact .number (numeral?_eq_some_iff.mp hnumeral)

mutual

theorem spelled_of_readValue : ∀ (steps : Nat) {text rest : List Char} {value : Literal},
    readValue steps text = some (value, rest) → Spelled text value rest
  | 0, _, _, _, h => by simp [readValue] at h
  | steps + 1, text, rest, value, h => by
    simp only [readValue] at h
    split at h
    · obtain ⟨⟨found, behind⟩, hstring, heq⟩ := Option.map_eq_some_iff.mp h
      cases heq
      exact .string (string?_eq_some_iff.mp hstring)
    · rename_i inner
      split at h
      · rename_i hclosed
        cases h
        exact .emptyArray (hclosed ▸ blank_skip inner)
      · obtain ⟨⟨first, behind⟩, hfirst, h⟩ := Option.bind_eq_some_iff.mp h
        obtain ⟨⟨more, last⟩, hmore, h⟩ := Option.bind_eq_some_iff.mp h
        cases h
        exact .array (blank_skip inner) (spelled_of_readValue steps hfirst)
          (moreElements_of_readElements steps hmore)
    · rename_i inner
      split at h
      · rename_i hclosed
        cases h
        exact .emptyObject (hclosed ▸ blank_skip inner)
      · obtain ⟨⟨⟨key, first⟩, behind⟩, hfirst, h⟩ := Option.bind_eq_some_iff.mp h
        obtain ⟨⟨more, last⟩, hmore, h⟩ := Option.bind_eq_some_iff.mp h
        cases h
        exact .object (blank_skip inner) (property_of_readProperty steps hfirst)
          (moreProperties_of_readProperties steps hmore)
    · exact spelled_of_leaf? h

theorem moreElements_of_readElements : ∀ (steps : Nat) {text rest : List Char}
    {elements : List Literal}, readElements steps text = some (elements, rest) →
      MoreElements text elements rest
  | 0, _, _, _, h => by simp [readElements] at h
  | steps + 1, text, rest, elements, h => by
    simp only [readElements] at h
    split at h
    · rename_i hclosed
      cases h
      exact .close (hclosed ▸ blank_skip text)
    · rename_i next hcomma
      obtain ⟨⟨value, behind⟩, hvalue, h⟩ := Option.bind_eq_some_iff.mp h
      obtain ⟨⟨more, last⟩, hmore, h⟩ := Option.bind_eq_some_iff.mp h
      cases h
      exact .cons (hcomma ▸ blank_skip text) (blank_skip next) (spelled_of_readValue steps hvalue)
        (moreElements_of_readElements steps hmore)
    · cases h

theorem property_of_readProperty : ∀ (steps : Nat) {text rest : List Char} {key : String}
    {value : Literal}, readProperty steps text = some ((key, value), rest) →
      Property text key value rest
  | 0, _, _, _, _, h => by simp [readProperty] at h
  | steps + 1, text, rest, key, value, h => by
    simp only [readProperty] at h
    obtain ⟨⟨name, behind⟩, hkey, h⟩ := Option.bind_eq_some_iff.mp h
    obtain ⟨start, hcolon, h⟩ := Option.bind_eq_some_iff.mp h
    obtain ⟨⟨found, last⟩, hvalue, h⟩ := Option.bind_eq_some_iff.mp h
    cases h
    obtain ⟨next, hnext, hblank⟩ := blank_of_colon? hcolon
    exact .mk (key?_eq_some_iff.mp hkey) hnext hblank (spelled_of_readValue steps hvalue)

theorem moreProperties_of_readProperties : ∀ (steps : Nat) {text rest : List Char}
    {properties : List (String × Literal)}, readProperties steps text = some (properties, rest) →
      MoreProperties text properties rest
  | 0, _, _, _, h => by simp [readProperties] at h
  | steps + 1, text, rest, properties, h => by
    simp only [readProperties] at h
    split at h
    · rename_i hclosed
      cases h
      exact .close (hclosed ▸ blank_skip text)
    · rename_i next hcomma
      obtain ⟨⟨⟨key, value⟩, behind⟩, hfirst, h⟩ := Option.bind_eq_some_iff.mp h
      obtain ⟨⟨more, last⟩, hmore, h⟩ := Option.bind_eq_some_iff.mp h
      cases h
      exact .cons (hcomma ▸ blank_skip text) (blank_skip next)
        (property_of_readProperty steps hfirst) (moreProperties_of_readProperties steps hmore)
    · cases h

end

/-! ## What a text spells is read -/

mutual

/-- The expression with every container on one line. -/
def flat : Literal → Literal
  | array _ elements => array false (flatElements elements)
  | object _ properties => object false (flatProperties properties)
  | leaf => leaf

/-- The elements with every container on one line. -/
def flatElements : List Literal → List Literal
  | [] => []
  | value :: rest => flat value :: flatElements rest

/-- The properties with every container on one line. -/
def flatProperties : List (String × Literal) → List (String × Literal)
  | [] => []
  | (key, value) :: rest => (key, flat value) :: flatProperties rest

end

mutual

theorem Spelled.length_lt : ∀ {text rest : List Char} {value : Literal},
    Spelled text value rest → rest.length < text.length
  | _, _, _, .void hword hblank hzero => by
    have hafterWord := hword.length_lt
    have hafterBlank := hblank.length_le
    have hafterZero := hzero.length_lt
    omega
  | _, _, _, .null hword => hword.length_lt
  | _, _, _, .bool hword => hword.length_lt
  | _, _, _, .number h => h.length_lt
  | _, _, _, .string h => by
    have htext := h.length_lt
    simp only [List.length_cons]
    omega
  | _, _, _, .emptyArray hblank | _, _, _, .emptyObject hblank => by
    have hafterBlank := hblank.length_le
    simp only [List.length_cons] at hafterBlank ⊢
    omega
  | _, _, _, .array hblank hfirst hmore => by
    have hafterBlank := hblank.length_le
    have hafterFirst := hfirst.length_lt
    have hafterMore := hmore.length_lt
    simp only [List.length_cons]
    omega
  | _, _, _, .object hblank hfirst hmore => by
    have hafterBlank := hblank.length_le
    have hafterFirst := hfirst.length_lt
    have hafterMore := hmore.length_lt
    simp only [List.length_cons]
    omega

theorem Property.length_lt : ∀ {text rest : List Char} {key : String} {value : Literal},
    Property text key value rest → rest.length < text.length
  | _, _, _, _, .mk hkey hcolon hblank hvalue => by
    have hafterKey := hkey.length_lt
    have hafterColon := hcolon.length_le
    have hafterBlank := hblank.length_le
    have hafterValue := hvalue.length_lt
    simp only [List.length_cons] at *
    omega

theorem MoreElements.length_lt : ∀ {text rest : List Char} {elements : List Literal},
    MoreElements text elements rest → rest.length < text.length
  | _, _, _, .close hblank => by
    have hafterBlank := hblank.length_le
    simp only [List.length_cons] at hafterBlank
    omega
  | _, _, _, .cons hcomma hblank hvalue hmore => by
    have hafterComma := hcomma.length_le
    have hafterBlank := hblank.length_le
    have hafterValue := hvalue.length_lt
    have hafterMore := hmore.length_lt
    simp only [List.length_cons] at *
    omega

theorem MoreProperties.length_lt : ∀ {text rest : List Char} {properties : List (String × Literal)},
    MoreProperties text properties rest → rest.length < text.length
  | _, _, _, .close hblank => by
    have hafterBlank := hblank.length_le
    simp only [List.length_cons] at hafterBlank
    omega
  | _, _, _, .cons hcomma hblank hfirst hmore => by
    have hafterComma := hcomma.length_le
    have hafterBlank := hblank.length_le
    have hafterFirst := hfirst.length_lt
    have hafterMore := hmore.length_lt
    simp only [List.length_cons] at *
    omega

end

/-- The text begins with a token that neither closes a container nor is white space. -/
def Opens (text : List Char) : Prop :=
  ∃ c tail, text = c :: tail ∧ c ∉ [']', '\x7d', ' ', '\n', '\t', '\r']

theorem opens_cons {c : Char} (tail : List Char)
    (h : c ∉ [']', '\x7d', ' ', '\n', '\t', '\r']) : Opens (c :: tail) :=
  ⟨c, tail, rfl, h⟩

theorem opens_of_not_mem_marks {c : Char} (tail : List Char) (h : c ∉ marks) :
    Opens (c :: tail) := by
  refine opens_cons tail fun hmem => h ?_
  have hsubset : [']', '\x7d', ' ', '\n', '\t', '\r'] ⊆ marks := by decide
  exact hsubset hmem

theorem Opens.skip_eq {text start : List Char} (h : Opens start) (hblank : Blank text start) :
    skip text = start := by
  refine Literal.skip_eq hblank fun c hc => ?_
  obtain ⟨first, tail, rfl, hfirst⟩ := h
  cases hc
  refine isSeparator_eq_false fun hmem => hfirst ?_
  exact List.mem_cons_of_mem _ (List.mem_cons_of_mem _ hmem)

theorem Opens.ne_bracket {start : List Char} (h : Opens start) (rest : List Char) :
    start ≠ ']' :: rest := by
  obtain ⟨first, tail, rfl, hfirst⟩ := h
  rintro heq
  cases heq
  exact absurd hfirst (by decide)

theorem Opens.ne_brace {start : List Char} (h : Opens start) (rest : List Char) :
    start ≠ '\x7d' :: rest := by
  obtain ⟨first, tail, rfl, hfirst⟩ := h
  rintro heq
  cases heq
  exact absurd hfirst (by decide)

theorem Word.opens {text name rest : List Char} (h : Word text name rest) : Opens text := by
  obtain ⟨c, tail, rfl, hstart⟩ := h.head
  exact opens_of_not_mem_marks tail (not_mem_marks_of_isIdentifierStart hstart)

theorem Numeral.opens {text digits rest : List Char} (h : Numeral text digits rest) :
    Opens text := by
  obtain ⟨c, tail, rfl, hmarks, -⟩ := h.head
  exact opens_of_not_mem_marks tail hmarks

theorem Spelled.opens {text rest : List Char} {value : Literal} (h : Spelled text value rest) :
    Opens text := by
  cases h with
  | void hword => exact hword.opens
  | null hword => exact hword.opens
  | bool hword => exact hword.opens
  | number h => exact h.opens
  | string | emptyArray | array | emptyObject | object => exact opens_cons _ (by decide)

theorem Property.opens {text rest : List Char} {key : String} {value : Literal}
    (h : Property text key value rest) : Opens text := by
  obtain ⟨hkey, -, -, -⟩ := h
  cases hkey with
  | name hword => exact hword.opens
  | quoted => exact opens_cons _ (by decide)

/-- A text that begins with neither a quote nor a bracket begins with a word or a number. -/
theorem readValue_eq_leaf? {c : Char} (h : c ∉ marks) (steps : Nat) (tail : List Char) :
    readValue (steps + 1) (c :: tail) = leaf? (c :: tail) := by
  have hne : ∀ {mark : Char}, mark ∈ marks → ∀ text, c :: tail ≠ mark :: text := by
    rintro mark hmem text heq
    exact h ((List.cons.inj heq).1 ▸ hmem)
  rw [readValue]
  · exact hne (by decide)
  · exact hne (by decide)
  · exact hne (by decide)

theorem Word.readValue_eq {text name behind : List Char} (h : Word text name behind)
    (steps : Nat) : readValue (steps + 1) text = keyword? name behind := by
  have hword := word?_eq_some_iff.mpr h
  obtain ⟨c, tail, rfl, hstart⟩ := h.head
  rw [readValue_eq_leaf? (not_mem_marks_of_isIdentifierStart hstart)]
  simp [leaf?, hword]

theorem Numeral.readValue_eq {text digits rest : List Char} (h : Numeral text digits rest)
    (steps : Nat) :
    readValue (steps + 1) text = some (number (String.ofList digits), rest) := by
  have hnumeral := numeral?_eq_some_iff.mpr h
  obtain ⟨c, tail, rfl, hmarks, hstart⟩ := h.head
  rw [readValue_eq_leaf? hmarks]
  simp [leaf?, word?_eq_none hstart, hnumeral]

theorem readValue_array {text start behind rest : List Char} {steps : Nat} {first : Literal}
    {more : List Literal} (hblank : Blank text start) (hopens : Opens start)
    (hfirst : readValue steps start = some (first, behind))
    (hmore : readElements steps behind = some (more, rest)) :
    readValue (steps + 1) ('[' :: text) = some (array false (first :: more), rest) := by
  rw [readValue, hopens.skip_eq hblank]
  dsimp only
  split
  · exact absurd rfl (hopens.ne_bracket _)
  · simp [hfirst, hmore]

theorem readValue_object {text start behind rest : List Char} {steps : Nat} {key : String}
    {first : Literal} {more : List (String × Literal)} (hblank : Blank text start)
    (hopens : Opens start) (hfirst : readProperty steps start = some ((key, first), behind))
    (hmore : readProperties steps behind = some (more, rest)) :
    readValue (steps + 1) ('\x7b' :: text) = some (object false ((key, first) :: more), rest) := by
  rw [readValue, hopens.skip_eq hblank]
  dsimp only
  split
  · exact absurd rfl (hopens.ne_brace _)
  · simp [hfirst, hmore]

theorem skip_mark {text rest : List Char} {mark : Char} (h : Blank text (mark :: rest))
    (hmark : Json.Cursor.isSeparator mark = false) : skip text = mark :: rest :=
  skip_eq h (by simpa using hmark)

theorem colon?_eq_some {text behind start : List Char} (hcolon : Blank text (':' :: behind))
    (hblank : Blank behind start) (hstart : Opens start) : colon? text = some start := by
  simp [colon?, skip_mark hcolon (by decide), hstart.skip_eq hblank]

mutual

theorem Spelled.readValue_eq : ∀ {text rest : List Char} {value : Literal},
    Spelled text value rest → ∀ steps, text.length < steps →
      readValue steps text = some (value.flat, rest)
  | _, _, _, _, 0, hsteps => absurd hsteps (Nat.not_lt_zero _)
  | _, _, _, .void hword hblank hzero, steps + 1, _ => by
    rw [hword.readValue_eq]
    simp [keyword?, hzero.opens.skip_eq hblank, numeral?_eq_some_iff.mpr hzero, flat]
  | _, _, _, .null hword, steps + 1, _ => by
    rw [hword.readValue_eq]
    simp [keyword?, flat]
  | _, _, .bool true, .bool hword, steps + 1, _ => by
    rw [hword.readValue_eq]
    rfl
  | _, _, .bool false, .bool hword, steps + 1, _ => by
    rw [hword.readValue_eq]
    rfl
  | _, _, _, .number h, steps + 1, _ => by
    simp [h.readValue_eq, flat]
  | _, _, _, .string h, steps + 1, _ => by
    simp [readValue, string?_eq_some_iff.mpr h, flat]
  | _, _, _, .emptyArray hblank, steps + 1, _ => by
    simp [readValue, skip_mark hblank (by decide), flat, flatElements]
  | _, _, _, .array hblank hfirst hmore, steps + 1, hsteps => by
    have hstart := hblank.length_le
    have hbehind := hfirst.length_lt
    simp only [List.length_cons] at hsteps
    rw [readValue_array hblank hfirst.opens (hfirst.readValue_eq steps (by omega))
      (hmore.readElements_eq steps (by omega)), flat, flatElements]
  | _, _, _, .emptyObject hblank, steps + 1, _ => by
    simp [readValue, skip_mark hblank (by decide), flat, flatProperties]
  | _, _, _, .object hblank hfirst hmore, steps + 1, hsteps => by
    have hstart := hblank.length_le
    have hbehind := hfirst.length_lt
    simp only [List.length_cons] at hsteps
    rw [readValue_object hblank hfirst.opens (hfirst.readProperty_eq steps (by omega))
      (hmore.readProperties_eq steps (by omega)), flat, flatProperties]

theorem Property.readProperty_eq : ∀ {text rest : List Char} {key : String} {value : Literal},
    Property text key value rest → ∀ steps, text.length < steps →
      readProperty steps text = some ((key, value.flat), rest)
  | _, _, _, _, _, 0, hsteps => absurd hsteps (Nat.not_lt_zero _)
  | _, _, _, _, .mk hkey hcolon hblank hvalue, steps + 1, hsteps => by
    have hbehind := hkey.length_lt
    have hnext := hcolon.length_le
    have hstart := hblank.length_le
    simp only [List.length_cons] at hnext
    simp [readProperty, key?_eq_some_iff.mpr hkey, colon?_eq_some hcolon hblank hvalue.opens,
      hvalue.readValue_eq steps (by omega)]

theorem MoreElements.readElements_eq : ∀ {text rest : List Char} {elements : List Literal},
    MoreElements text elements rest → ∀ steps, text.length < steps →
      readElements steps text = some (flatElements elements, rest)
  | _, _, _, _, 0, hsteps => absurd hsteps (Nat.not_lt_zero _)
  | _, _, _, .close hblank, steps + 1, _ => by
    simp [readElements, skip_mark hblank (by decide), flatElements]
  | _, _, _, .cons hcomma hblank hvalue hmore, steps + 1, hsteps => by
    have hnext := hcomma.length_le
    have hstart := hblank.length_le
    have hbehind := hvalue.length_lt
    simp only [List.length_cons] at hnext
    simp [readElements, skip_mark hcomma (by decide), hvalue.opens.skip_eq hblank,
      hvalue.readValue_eq steps (by omega), hmore.readElements_eq steps (by omega), flatElements]

theorem MoreProperties.readProperties_eq : ∀ {text rest : List Char}
    {properties : List (String × Literal)}, MoreProperties text properties rest →
      ∀ steps, text.length < steps →
        readProperties steps text = some (flatProperties properties, rest)
  | _, _, _, _, 0, hsteps => absurd hsteps (Nat.not_lt_zero _)
  | _, _, _, .close hblank, steps + 1, _ => by
    simp [readProperties, skip_mark hblank (by decide), flatProperties]
  | _, _, _, .cons hcomma hblank hfirst hmore, steps + 1, hsteps => by
    have hnext := hcomma.length_le
    have hstart := hblank.length_le
    have hbehind := hfirst.length_lt
    simp only [List.length_cons] at hnext
    simp [readProperties, skip_mark hcomma (by decide), hfirst.opens.skip_eq hblank,
      hfirst.readProperty_eq steps (by omega), hmore.readProperties_eq steps (by omega),
      flatProperties]

end

/-! ## Reading and writing -/

/-- The whole text spells the expression, white space around it aside. -/
def Spells (value : Literal) (text : String) : Prop :=
  ∃ start rest, Blank text.toList start ∧ Spelled start value rest ∧ Blank rest []

theorem skip_eq_nil_iff {text : List Char} : skip text = [] ↔ Blank text [] :=
  ⟨fun h => h ▸ blank_skip text, fun h => skip_eq h (by simp)⟩

/-- What a text spells is read, and comes out with every container on one line. -/
theorem Spells.read? {value : Literal} {text : String} (h : value.Spells text) :
    read? text = some value.flat := by
  obtain ⟨start, rest, hblank, hvalue, hrest⟩ := h
  have hlength := hblank.length_le
  have hread := hvalue.readValue_eq (text.toList.length + 1) (by omega)
  simp [Literal.read?, hvalue.opens.skip_eq hblank, hread, skip_eq_nil_iff.mpr hrest]

theorem spells_of_read? {value : Literal} {text : String} (h : read? text = some value) :
    value.Spells text := by
  obtain ⟨⟨found, rest⟩, hread, h⟩ := Option.bind_eq_some_iff.mp h
  dsimp only at h
  split at h
  · rename_i hempty
    cases h
    exact ⟨skip text.toList, rest, blank_skip _, spelled_of_readValue _ hread,
      skip_eq_nil_iff.mp (List.isEmpty_iff.mp hempty)⟩
  · cases h

/-- The reader reads exactly the texts of the grammar. -/
theorem read?_eq_some_iff {value : Literal} {text : String} :
    read? text = some value ↔ value.flat = value ∧ value.Spells text := by
  constructor
  · intro h
    have hspells := spells_of_read? h
    exact ⟨Option.some.inj (hspells.read?.symm.trans h), hspells⟩
  · rintro ⟨hflat, hspells⟩
    rw [hspells.read?, hflat]

/-- The text that is written for an expression spells it. -/
theorem spells_text {value : Literal} (h : value.hasDecimals) : value.Spells value.text := by
  have hvalue := spelled_textAt value 0 h delimited_nil
  rw [List.append_nil] at hvalue
  exact ⟨_, [], blank_refl _, hvalue, blank_refl []⟩

/-- Written expressions can be read back: the reader reads exactly the texts of the grammar, the
text of an expression is one of them, and it comes out as the expression up to the layout of the
containers.  So two expressions with the same text differ in layout only. -/
theorem read?_text :
    (∀ value text, read? text = some value ↔ value.flat = value ∧ value.Spells text) ∧
    ∀ value : Literal, value.hasDecimals →
      value.Spells value.text ∧ read? value.text = some value.flat ∧
      ∀ other : Literal, other.hasDecimals → other.text = value.text → other.flat = value.flat := by
  refine ⟨fun _ _ => read?_eq_some_iff, fun value h => ⟨spells_text h, (spells_text h).read?, ?_⟩⟩
  intro other hother heq
  have hread := (spells_text hother).read?
  rw [heq, (spells_text h).read?] at hread
  exact (Option.some.inj hread).symm

/-- A measurement with its remarks, of which there are none; nothing is written between the brackets
of an empty array, so its text does not show their layout. -/
def measurement (multiline : Bool) : Literal :=
  .object true [("remarks", .array multiline []),
    ("7 %", .array false [.void, .number "-1.5e3", .string "\"a\\b\"\n"])]

theorem read?_text_measurement :
    (measurement true).hasDecimals ∧ (measurement false).hasDecimals ∧
    (measurement false).text = (measurement true).text ∧
    (measurement true).Spells (measurement true).text ∧
    read? (measurement true).text = some (measurement true).flat ∧
    (measurement false).flat = (measurement true).flat := by
  have hdecimals : ∀ multiline, (measurement multiline).hasDecimals := by decide
  have htext : (measurement false).text = (measurement true).text := by
    simp [measurement, text, textAt, propertiesText, elementsText]
  obtain ⟨hspells, hread, hothers⟩ := read?_text.2 (measurement true) (hdecimals true)
  exact ⟨hdecimals true, hdecimals false, htext, hspells, hread,
    hothers (measurement false) (hdecimals false) htext⟩

end GraphSchema.Literal
