import GraphSchema.Json.Reader
import GraphSchema.Proofs.Fields

/-!
# Repeated keys

A value in which no object repeats a key is left as it is by `Json.mergeRepeats`
(`mergeRepeats_of_distinct`).
-/

namespace GraphSchema.Json

mutual

/-- No object of the value repeats a key. -/
def Distinct : Json → Prop
  | .array elements => ElementsDistinct elements
  | .object entries => (Fields.keys entries).Nodup ∧ EntriesDistinct entries
  | _ => True

/-- No object of the elements repeats a key. -/
def ElementsDistinct : List Json → Prop
  | [] => True
  | value :: rest => Distinct value ∧ ElementsDistinct rest

/-- No object in the values of the entries repeats a key. -/
def EntriesDistinct : List (String × Json) → Prop
  | [] => True
  | (_, value) :: rest => Distinct value ∧ EntriesDistinct rest

end

@[simp] theorem mergeRepeats_string (text : String) : (string text).mergeRepeats = string text := by
  simp [mergeRepeats]

theorem mergeRepeatsEntries_eq (entries : List (String × Json)) :
    mergeRepeatsEntries entries = Fields.mapValues mergeRepeats entries := by
  induction entries with
  | nil => simp [mergeRepeatsEntries, Fields.mapValues]
  | cons entry rest ih =>
    obtain ⟨key, value⟩ := entry
    simpa [mergeRepeatsEntries, Fields.mapValues] using ih

theorem mergeRepeatsList_eq (elements : List Json) :
    mergeRepeatsList elements = elements.map mergeRepeats := by
  induction elements with
  | nil => simp [mergeRepeatsList]
  | cons value rest ih => simp [mergeRepeatsList, ih]

theorem mergeRepeats_array (elements : List Json) :
    (array elements).mergeRepeats = array (elements.map mergeRepeats) := by
  rw [mergeRepeats, mergeRepeatsList_eq]

theorem mergeRepeats_object (entries : List (String × Json)) :
    (object entries).mergeRepeats =
      object (Fields.ofEntries (Fields.mapValues mergeRepeats entries)) := by
  rw [mergeRepeats, mergeRepeatsEntries_eq]

mutual

/-- Where no key is repeated, there is nothing to merge. -/
theorem mergeRepeats_of_distinct : ∀ {value : Json}, value.Distinct → value.mergeRepeats = value
  | .null, _ | .bool _, _ | .number _, _ | .string _, _ => by simp [mergeRepeats]
  | .array elements, h => by
    rw [mergeRepeats, mergeRepeatsList_of_distinct (by simpa [Distinct] using h)]
  | .object entries, h => by
    rw [Distinct] at h
    rw [mergeRepeats, mergeRepeatsEntries_of_distinct h.2, Fields.ofEntries_of_nodup h.1]

theorem mergeRepeatsList_of_distinct : ∀ {elements : List Json},
    ElementsDistinct elements → mergeRepeatsList elements = elements
  | [], _ => by simp [mergeRepeatsList]
  | value :: rest, h => by
    rw [ElementsDistinct] at h
    rw [mergeRepeatsList, mergeRepeats_of_distinct h.1, mergeRepeatsList_of_distinct h.2]

theorem mergeRepeatsEntries_of_distinct : ∀ {entries : List (String × Json)},
    EntriesDistinct entries → mergeRepeatsEntries entries = entries
  | [], _ => by simp [mergeRepeatsEntries]
  | (key, value) :: rest, h => by
    rw [EntriesDistinct] at h
    rw [mergeRepeatsEntries, mergeRepeats_of_distinct h.1, mergeRepeatsEntries_of_distinct h.2]

end

theorem distinct_of_mem_elements {elements : List Json} (h : ElementsDistinct elements)
    {value : Json} (hmem : value ∈ elements) : value.Distinct := by
  induction elements with
  | nil => cases hmem
  | cons first rest ih =>
    rw [ElementsDistinct] at h
    rcases List.mem_cons.mp hmem with rfl | hmem
    · exact h.1
    · exact ih h.2 hmem

theorem distinct_of_mem {entries : List (String × Json)} (h : EntriesDistinct entries)
    {entry : String × Json} (hmem : entry ∈ entries) : entry.2.Distinct := by
  induction entries with
  | nil => cases hmem
  | cons first rest ih =>
    obtain ⟨key, value⟩ := first
    rw [EntriesDistinct] at h
    rcases List.mem_cons.mp hmem with rfl | hmem
    · exact h.1
    · exact ih h.2 hmem

/-! ## Reading without merging -/

/-- Read a whole text as one value that keeps its repeated keys. -/
def readUnmerged (text : String) : Except ReadFault Json := do
  let (value, last) ← readValue .stepwise depthLimit (.start text)
  let last := last.skipBlank
  if last.rest.isEmpty then return value
  else fail .trailingCharacters last.beyond

theorem read_eq_map_readUnmerged (text : String) :
    read .stepwise depthLimit text = mergeRepeats <$> readUnmerged text := by
  rw [read, readUnmerged]
  cases readValue .stepwise depthLimit (.start text) with
  | error fault => rfl
  | ok found =>
    simp only [ok_bind]
    split <;> rfl

/-- The value of a whole text is the one that the text begins with. -/
theorem readValue_of_readUnmerged {text : String} {value : Json}
    (h : readUnmerged text = .ok value) :
    ∃ last, readValue .stepwise depthLimit (.start text) = .ok (value, last) := by
  obtain ⟨⟨found, last⟩, hread, hwhole⟩ := exists_of_bind_eq_ok h
  dsimp only at hwhole
  split at hwhole
  · cases hwhole
    exact ⟨last, hread⟩
  · cases hwhole

/-- A text is not read as a whole where it begins with no value, or where something follows. -/
theorem error_of_readUnmerged {text : String} {fault : ReadFault}
    (h : readUnmerged text = .error fault) :
    readValue .stepwise depthLimit (.start text) = .error fault ∨
      fault.fault = .trailingCharacters := by
  rw [readUnmerged] at h
  cases hread : readValue .stepwise depthLimit (.start text) with
  | error cause =>
    rw [hread] at h
    cases h
    exact .inl rfl
  | ok found =>
    rw [hread] at h
    simp only [ok_bind] at h
    split at h
    · cases h
    · cases h
      exact .inr rfl

end GraphSchema.Json
