import Mathlib
import GraphSchema.Fields
import GraphSchema.Proofs.Outcomes

/-!
# What fields hold after they are written

A merge holds the entries of the later fields, and of the earlier ones those under names that are
not written again.  A change of the values alone can be made before or after writing
(`mapValues_merge`).
-/

namespace GraphSchema.Fields

variable {α : Type} {fields later : Fields α} {name key : String} {value : α}
  {entry : String × α}

theorem get?_eq_none_iff : get? fields name = none ↔ name ∉ keys fields := by
  induction fields with
  | nil => simp [get?]
  | cons first rest ih =>
    obtain ⟨key, value⟩ := first
    rw [get?, keys_cons, List.mem_cons]
    by_cases hname : key = name
    · simp [hname]
    · rw [if_neg hname, ih]
      simp [Ne.symm hname]

theorem mem_of_get? (h : get? fields name = some value) : (name, value) ∈ fields := by
  induction fields with
  | nil => cases h
  | cons first rest ih =>
    obtain ⟨key, old⟩ := first
    rw [get?] at h
    split at h
    · rename_i hname
      cases h
      exact hname ▸ List.mem_cons_self
    · exact List.mem_cons_of_mem _ (ih h)

theorem get?_of_mem (hnodup : (keys fields).Nodup) (h : (name, value) ∈ fields) :
    get? fields name = some value := by
  induction fields with
  | nil => cases h
  | cons first rest ih =>
    obtain ⟨key, old⟩ := first
    obtain ⟨hnew, hrest⟩ := List.nodup_cons.mp hnodup
    rw [get?]
    rcases List.mem_cons.mp h with heq | hmem
    · cases heq
      exact if_pos rfl
    · have hne : key ≠ name := by
        rintro rfl
        exact hnew (List.mem_map.mpr ⟨_, hmem, rfl⟩)
      rw [if_neg hne, ih hrest hmem]

theorem put_of_not_mem (h : key ∉ keys fields) :
    put fields key value = fields ++ [(key, value)] := by
  induction fields with
  | nil => rfl
  | cons first rest ih =>
    obtain ⟨name, old⟩ := first
    rw [keys_cons, List.mem_cons, not_or] at h
    rw [put, if_neg (Ne.symm h.1), ih h.2, List.cons_append]

/-- Fields with new names are put behind the ones that are there. -/
theorem merge_of_nodup (h : (keys (fields ++ later)).Nodup) :
    merge fields later = fields ++ later := by
  induction later generalizing fields with
  | nil => rw [merge_nil, List.append_nil]
  | cons entry rest ih =>
    obtain ⟨key, value⟩ := entry
    rw [List.append_cons] at h
    have hnew : key ∉ keys fields := by
      rw [keys, List.map_append, List.map_append, List.append_assoc] at h
      exact fun hmem => (List.nodup_append.mp h).2.2 key hmem key (by simp) rfl
    rw [merge_cons, put_of_not_mem hnew, ih h, List.append_assoc, List.singleton_append]

theorem mem_keys_put :
    name ∈ keys (put fields key value) ↔ name ∈ keys fields ∨ name = key := by
  rw [keys_put]
  split
  · rename_i hkey
    constructor
    · exact .inl
    · rintro (h | rfl)
      · exact h
      · exact hkey
  · rw [List.mem_append, List.mem_singleton]

/-- A sequence of steps of which each adds names adds them all. -/
theorem mem_keys_foldl {β : Type} {step : Fields α → β → Fields α} {adds : β → Prop}
    {items : List β}
    (h : ∀ item ∈ items, ∀ fields,
      name ∈ keys (step fields item) ↔ name ∈ keys fields ∨ adds item) :
    name ∈ keys (items.foldl step fields) ↔ name ∈ keys fields ∨ ∃ item ∈ items, adds item := by
  induction items generalizing fields with
  | nil => simp
  | cons item rest ih =>
    obtain ⟨hitem, hrest⟩ := List.forall_mem_cons.mp h
    rw [List.foldl_cons, ih hrest, hitem, or_assoc]
    refine or_congr_right ?_
    simp only [List.mem_cons, exists_eq_or_imp]

/-- A sequence of writes adds the names that are written under. -/
theorem mem_keys_foldl_put {β : Type} {keyOf : β → String} {valueOf : β → α} {items : List β} :
    name ∈ keys (items.foldl (fun fields item => put fields (keyOf item) (valueOf item)) fields) ↔
      name ∈ keys fields ∨ name ∈ items.map keyOf := by
  have hput : ∀ item ∈ items, ∀ fields : Fields α,
      name ∈ keys (put fields (keyOf item) (valueOf item)) ↔
        name ∈ keys fields ∨ keyOf item = name :=
    fun _ _ _ => mem_keys_put.trans (or_congr_right eq_comm)
  rw [mem_keys_foldl hput]
  exact or_congr_right List.mem_map.symm

theorem mem_keys_merge :
    name ∈ keys (merge fields later) ↔ name ∈ keys fields ∨ name ∈ keys later :=
  mem_keys_foldl_put

theorem forall_mem_put {holds : String × α → Prop} (h : ∀ entry ∈ fields, holds entry)
    (hnew : holds (key, value)) : ∀ entry ∈ put fields key value, holds entry := by
  induction fields with
  | nil => exact List.forall_mem_singleton.mpr hnew
  | cons first rest ih =>
    obtain ⟨name, old⟩ := first
    obtain ⟨hfirst, hrest⟩ := List.forall_mem_cons.mp h
    rw [put]
    split
    · rename_i hname
      exact List.forall_mem_cons.mpr ⟨hname ▸ hnew, hrest⟩
    · exact List.forall_mem_cons.mpr ⟨hfirst, ih hrest⟩

theorem forall_mem_merge {holds : String × α → Prop} (h : ∀ entry ∈ fields, holds entry)
    (hlater : ∀ entry ∈ later, holds entry) : ∀ entry ∈ merge fields later, holds entry := by
  induction later generalizing fields with
  | nil => exact h
  | cons first rest ih =>
    obtain ⟨hfirst, hrest⟩ := List.forall_mem_cons.mp hlater
    exact ih (forall_mem_put h hfirst) hrest

/-- Writing agreeing entries keeps fields in agreement. -/
theorem forall₂_put {β : Type} {related : String × α → String × β → Prop} {others : Fields β}
    (hkeys : ∀ {entry other}, related entry other → entry.1 = other.1)
    (h : List.Forall₂ related fields others) {other : β}
    (hnew : related (key, value) (key, other)) :
    List.Forall₂ related (put fields key value) (put others key other) := by
  induction h with
  | nil => exact .cons hnew .nil
  | @cons entry entry' _ _ hhead hrest ih =>
    obtain ⟨name, old⟩ := entry
    obtain ⟨name', old'⟩ := entry'
    obtain rfl : name = name' := hkeys hhead
    rw [put, put]
    split
    · rename_i heq
      exact .cons (heq ▸ hnew) hrest
    · exact .cons hhead ih

theorem mem_put (hnodup : (keys fields).Nodup) (h : entry ∈ put fields key value) :
    entry = (key, value) ∨ entry ∈ fields ∧ entry.1 ≠ key := by
  induction fields with
  | nil => exact .inl (List.mem_singleton.mp h)
  | cons first rest ih =>
    obtain ⟨name, old⟩ := first
    obtain ⟨hnew, hrest⟩ := List.nodup_cons.mp hnodup
    rw [put] at h
    split at h
    · rename_i hname
      rcases List.mem_cons.mp h with rfl | hmem
      · exact .inl (by rw [hname])
      · refine .inr ⟨List.mem_cons_of_mem _ hmem, ?_⟩
        intro heq
        refine hnew ?_
        rw [hname, ← heq]
        exact List.mem_map.mpr ⟨entry, hmem, rfl⟩
    · rename_i hname
      rcases List.mem_cons.mp h with rfl | hmem
      · exact .inr ⟨List.mem_cons_self, hname⟩
      · exact (ih hrest hmem).imp_right (And.imp_left (List.mem_cons_of_mem _))

/-- An entry of a merge is a later one, or an earlier one that is not written again. -/
theorem mem_merge (hnodup : (keys fields).Nodup) (h : entry ∈ merge fields later) :
    entry ∈ later ∨ entry ∈ fields ∧ entry.1 ∉ keys later := by
  induction later generalizing fields with
  | nil => exact .inr ⟨h, List.not_mem_nil⟩
  | cons first rest ih =>
    obtain ⟨key, value⟩ := first
    rcases ih (nodup_put hnodup key value) h with hmem | ⟨hmem, hrest⟩
    · exact .inl (List.mem_cons_of_mem _ hmem)
    · rcases mem_put hnodup hmem with rfl | ⟨hmem, hne⟩
      · exact .inl List.mem_cons_self
      · refine .inr ⟨hmem, ?_⟩
        rw [keys_cons, List.mem_cons]
        rintro (heq | hmem')
        · exact hne heq
        · exact hrest hmem'

/-- Where all names are written again, a merge looks like the later fields. -/
theorem get?_merge_of_subset (hnodup : (keys fields).Nodup) (hlater : (keys later).Nodup)
    (hsubset : keys fields ⊆ keys later) (h : get? (merge fields later) name = some value) :
    get? later name = some value := by
  rcases mem_merge hnodup (mem_of_get? h) with hmem | ⟨hmem, hrest⟩
  · exact get?_of_mem hlater hmem
  · exact absurd (hsubset (List.mem_map.mpr ⟨_, hmem, rfl⟩)) hrest

/-! ## Changes of the values alone -/

variable {β : Type} (f : α → β)

@[simp] theorem keys_mapValues (fields : Fields α) : keys (mapValues f fields) = keys fields := by
  simp [keys, mapValues]

theorem get?_mapValues (fields : Fields α) (name : String) :
    get? (mapValues f fields) name = (get? fields name).map f := by
  induction fields with
  | nil => rfl
  | cons entry rest ih =>
    obtain ⟨key, value⟩ := entry
    rw [mapValues, List.map_cons, get?, get?]
    split
    · rfl
    · exact ih

theorem mapValues_put (fields : Fields α) (key : String) (value : α) :
    mapValues f (put fields key value) = put (mapValues f fields) key (f value) := by
  induction fields with
  | nil => rfl
  | cons entry rest ih =>
    obtain ⟨name, old⟩ := entry
    rw [put]
    split
    · rename_i hname
      simp [mapValues, put, hname]
    · rename_i hname
      simpa [mapValues, put, hname] using ih

theorem mapValues_merge (fields later : Fields α) :
    mapValues f (merge fields later) = merge (mapValues f fields) (mapValues f later) := by
  induction later generalizing fields with
  | nil => rfl
  | cons entry rest ih =>
    rw [merge_cons, ih, mapValues_put]
    rfl

/-! ## Entries without repetition -/

theorem ofEntries_of_nodup {entries : List (String × α)} (h : (keys entries).Nodup) :
    ofEntries entries = entries := by
  have hmerge : merge [] entries = [] ++ entries := merge_of_nodup h
  exact hmerge

theorem nodup_ofEntries (entries : List (String × α)) : (keys (ofEntries entries)).Nodup :=
  nodup_merge (by simp) entries

@[simp] theorem ofEntries_ofEntries (entries : List (String × α)) :
    ofEntries (ofEntries entries) = ofEntries entries :=
  ofEntries_of_nodup (nodup_ofEntries entries)

/-! ## Readings entry by entry -/

/-- Read the value of an entry, which may depend on the key. -/
def readEntry {ε : Type} (read : String → α → Except ε β) (entry : String × α) :
    Except ε (String × β) := do
  return (entry.1, ← read entry.1 entry.2)

section Readings

variable {ε : Type} {read : String → α → Except ε β} {made more : List (String × β)}
  {entries : List (String × α)}

theorem readEntry_eq_ok_iff {result : String × β} :
    readEntry read entry = .ok result ↔
      read entry.1 entry.2 = .ok result.2 ∧ result.1 = entry.1 := by
  obtain ⟨name, found⟩ := result
  rw [readEntry]
  cases read entry.1 entry.2 <;> simp [and_comm, eq_comm]

/-- A reading of the values goes through under a change of them that the reading does not see. -/
theorem mapM_mapValues {change : α → α}
    (hchange : ∀ entry ∈ entries, ∀ found, read entry.1 entry.2 = .ok found →
      read entry.1 (change entry.2) = .ok found)
    (h : entries.mapM (readEntry read) = .ok made) :
    (mapValues change entries).mapM (readEntry read) = .ok made := by
  induction entries generalizing made with
  | nil => exact h
  | cons entry rest ih =>
    rw [List.mapM_cons] at h
    obtain ⟨first, hfirst, h⟩ := exists_of_bind_eq_ok h
    obtain ⟨others, hothers, h⟩ := exists_of_bind_eq_ok h
    obtain ⟨hentry, hrest⟩ := List.forall_mem_cons.mp hchange
    have hread := readEntry_eq_ok_iff.mp hfirst
    have hfirst' : readEntry read (entry.1, change entry.2) = .ok first :=
      readEntry_eq_ok_iff.mpr ⟨hentry _ hread.1, hread.2⟩
    have hothers' := ih hrest hothers
    rw [mapValues] at hothers' ⊢
    rw [List.map_cons, List.mapM_cons, hfirst', hothers']
    exact h

theorem mapM_put {found : β} (h : fields.mapM (readEntry read) = .ok made)
    (hfound : read key value = .ok found) :
    (put fields key value).mapM (readEntry read) = .ok (put made key found) := by
  have hnew : readEntry read (key, value) = .ok (key, found) :=
    readEntry_eq_ok_iff.mpr ⟨hfound, rfl⟩
  induction fields generalizing made with
  | nil =>
    cases h
    rw [put, List.mapM_cons, hnew]
    rfl
  | cons entry rest ih =>
    obtain ⟨name, old⟩ := entry
    rw [List.mapM_cons] at h
    obtain ⟨⟨name', first⟩, hfirst, h⟩ := exists_of_bind_eq_ok h
    obtain ⟨others, hothers, h⟩ := exists_of_bind_eq_ok h
    cases h
    obtain rfl : name' = name := (readEntry_eq_ok_iff.mp hfirst).2
    by_cases hsame : name' = key
    · subst hsame
      simp [put, hnew, hothers]
    · simp [put, hsame, hfirst, ih hothers]

theorem mapM_merge (h : fields.mapM (readEntry read) = .ok made)
    (hlater : later.mapM (readEntry read) = .ok more) :
    (merge fields later).mapM (readEntry read) = .ok (merge made more) := by
  induction later generalizing fields made more with
  | nil =>
    cases hlater
    exact h
  | cons entry rest ih =>
    obtain ⟨name, value⟩ := entry
    rw [List.mapM_cons] at hlater
    obtain ⟨⟨name', found⟩, hfound, hlater⟩ := exists_of_bind_eq_ok hlater
    obtain ⟨others, hothers, hlater⟩ := exists_of_bind_eq_ok hlater
    cases hlater
    obtain ⟨hread, rfl⟩ := readEntry_eq_ok_iff.mp hfound
    rw [merge_cons, merge_cons]
    exact ih (mapM_put h hread) hothers

/-- Entries can be merged before or after they are read. -/
theorem mapM_ofEntries (h : entries.mapM (readEntry read) = .ok made) :
    (ofEntries entries).mapM (readEntry read) = .ok (ofEntries made) := by
  have hempty : ([] : Fields α).mapM (readEntry read) = .ok [] := rfl
  exact mapM_merge hempty h

end Readings

/-! ## A choice by name -/

section Filter

variable {p : String → Bool}

theorem filter_put (fields : Fields α) (key : String) (value : α) :
    (put fields key value).filter (fun entry => p entry.1) =
      if p key then put (fields.filter fun entry => p entry.1) key value
      else fields.filter fun entry => p entry.1 := by
  induction fields with
  | nil => by_cases hp : p key <;> simp [put, hp]
  | cons entry rest ih =>
    obtain ⟨name, old⟩ := entry
    by_cases hname : name = key
    · subst hname
      by_cases hp : p name <;> simp [put, hp]
    · by_cases hp : p name <;> by_cases hkey : p key <;> simp_all [put]

theorem filter_merge (fields later : Fields α) :
    (merge fields later).filter (fun entry => p entry.1) =
      merge (fields.filter fun entry => p entry.1) (later.filter fun entry => p entry.1) := by
  induction later generalizing fields with
  | nil => rfl
  | cons entry rest ih =>
    rw [merge_cons, ih, filter_put, List.filter_cons]
    split <;> simp

theorem filter_ofEntries (entries : List (String × α)) :
    (ofEntries entries).filter (fun entry => p entry.1) =
      ofEntries (entries.filter fun entry => p entry.1) :=
  filter_merge [] entries

theorem filter_mapValues (fields : Fields α) :
    (mapValues f fields).filter (fun entry => p entry.1) =
      mapValues f (fields.filter fun entry => p entry.1) := by
  simp [mapValues, List.filter_map, Function.comp_def]

theorem get?_filter (fields : Fields α) (key : String) :
    get? (fields.filter fun entry => entry.1 == key) key = get? fields key := by
  induction fields with
  | nil => rfl
  | cons entry rest ih =>
    obtain ⟨name, value⟩ := entry
    by_cases hname : name = key <;> simp [get?, hname, ih]

end Filter

/-- A name that stands once is looked up alike before and after repetitions are merged. -/
theorem get?_ofEntries_of_count {entries : List (String × α)}
    (h : (keys entries).count key ≤ 1) : get? (ofEntries entries) key = get? entries key := by
  have hnodup : (keys (entries.filter fun entry => entry.1 == key)).Nodup := by
    have hkeys : keys (entries.filter fun entry => entry.1 == key) =
        List.replicate ((keys entries).count key) key := by
      rw [keys, keys, List.count, List.countP_map, List.eq_replicate_iff]
      constructor
      · rw [List.length_map, List.countP_eq_length_filter]
        rfl
      · intro name hname
        obtain ⟨entry, hentry, rfl⟩ := List.mem_map.mp hname
        simpa using (List.mem_filter.mp hentry).2
    rw [hkeys]
    exact List.nodup_replicate.mpr h
  rw [← get?_filter (ofEntries entries), filter_ofEntries (p := (· == key)),
    ofEntries_of_nodup hnodup, get?_filter]

/-! ## An entry that may stand once -/

/-- Take the value under a key out of the entries and make something of it.  The key may stand
once, counting what has been taken already. -/
def takeOnce? (key : String) (make : α → Option β) (taken : Option β) :
    List (String × α) → Option (Option β × List (String × α))
  | [] => some (taken, [])
  | (name, value) :: rest =>
    if name = key then
      if taken.isSome then none
      else (make value).bind fun made => takeOnce? key make (some made) rest
    else (takeOnce? key make taken rest).map fun found => (found.1, (name, value) :: found.2)

section TakeOnce

variable {make : α → Option β} {entries : List (String × α)}

theorem filter_of_not_mem_keys (h : key ∉ keys entries) :
    (entries.filter fun entry => entry.1 != key) = entries := by
  rw [List.filter_eq_self]
  intro entry hmem
  simp only [bne_iff_ne, ne_eq]
  rintro rfl
  exact h (List.mem_map_of_mem hmem)

/-- Where the key does not stand, nothing is taken. -/
theorem takeOnce?_of_not_mem (h : key ∉ keys entries) (taken : Option β) :
    takeOnce? key make taken entries = some (taken, entries) := by
  induction entries with
  | nil => rfl
  | cons entry rest ih =>
    obtain ⟨name, value⟩ := entry
    rw [keys_cons, List.mem_cons, not_or] at h
    simp [takeOnce?, Ne.symm h.1, ih h.2]

/-- Where the key has been taken, it may not stand again. -/
theorem takeOnce?_of_mem (h : key ∈ keys entries) (made : β) :
    takeOnce? key make (some made) entries = none := by
  induction entries with
  | nil => simp at h
  | cons entry rest ih =>
    obtain ⟨name, value⟩ := entry
    by_cases hname : name = key
    · simp [takeOnce?, hname]
    · rw [keys_cons, List.mem_cons, or_iff_right (Ne.symm hname)] at h
      simp [takeOnce?, hname, ih h]

/-- Where the key stands, it has to stand once, and the other entries are kept. -/
theorem takeOnce?_of_get? (h : get? entries key = some value) :
    takeOnce? key make none entries =
      if (keys entries).count key ≤ 1 then
        (make value).map fun made => (some made, entries.filter fun entry => entry.1 != key)
      else none := by
  induction entries with
  | nil => cases h
  | cons entry rest ih =>
    obtain ⟨name, first⟩ := entry
    by_cases hname : name = key
    · subst hname
      rw [get?, if_pos rfl, Option.some.injEq] at h
      subst h
      by_cases hrest : name ∈ keys rest
      · have hcount : (keys rest).count name ≠ 0 := (List.count_pos_iff.mpr hrest).ne'
        simp [takeOnce?, takeOnce?_of_mem hrest, hcount]
      · have hcount : (keys rest).count name = 0 := List.count_eq_zero.mpr hrest
        simp [takeOnce?, takeOnce?_of_not_mem hrest, hcount, Option.map_eq_bind,
          filter_of_not_mem_keys hrest]
    · rw [get?, if_neg hname] at h
      simp only [takeOnce?, hname, if_false, ih h, keys_cons, List.count_cons_of_ne hname]
      split
      · simp [hname, Function.comp_def]
      · rfl

end TakeOnce

end GraphSchema.Fields

namespace GraphSchema.Names

theorem mem_insert {names : List String} {name other : String} :
    other ∈ insert names name ↔ other ∈ names ∨ other = name := by
  rw [insert]
  split
  · rename_i hname
    exact (or_iff_left_of_imp fun h => h ▸ hname).symm
  · rw [List.mem_append, List.mem_singleton]

theorem mem_union {names later : List String} {name : String} :
    name ∈ union names later ↔ name ∈ names ∨ name ∈ later := by
  induction later generalizing names with
  | nil => simp
  | cons first rest ih => rw [union_cons, ih, mem_insert, List.mem_cons, or_assoc]

/-- Each name at its first appearance. -/
theorem union_nil_left (names : List String) : union [] names = names.eraseDups := by
  induction names using List.reverseRecOn with
  | nil => rfl
  | append_singleton names name ih =>
    rw [union, List.foldl_concat, ← union, ih, insert, List.eraseDups_append]
    by_cases hname : name ∈ names
    · have hnone : [name].removeAll names = [] := by simp [List.removeAll, hname]
      rw [if_pos (List.mem_eraseDups.mpr hname), hnone, List.eraseDups_nil, List.append_nil]
    · have hone : [name].removeAll names = [name] := by simp [List.removeAll, hname]
      rw [if_neg fun h => hname (List.mem_eraseDups.mp h), hone]
      rfl

/-- Names may be added one list after the other or all at once. -/
theorem union_union (names first later : List String) :
    union names (union first later) = union (union names first) later := by
  induction later using List.reverseRecOn with
  | nil => rfl
  | append_singleton later name ih =>
    have hlast : ∀ names, union names (later ++ [name]) = insert (union names later) name :=
      fun names => List.foldl_concat insert names name later
    rw [hlast, hlast, ← ih]
    by_cases hname : name ∈ union first later
    · have hthere : name ∈ union names (union first later) := mem_union.mpr (.inr hname)
      rw [insert, if_pos hname, insert, if_pos hthere]
    · rw [insert, if_neg hname]
      exact List.foldl_concat insert names name (union first later)

/-- Repetitions may be dropped before names are added. -/
theorem union_union_nil (names later : List String) :
    union names (union [] later) = union names later :=
  union_union names [] later

end GraphSchema.Names

/-! ## Position from the first write, value from the last -/

namespace GraphSchema.Fields

variable {α : Type}

/-- After a merge the last write under a name counts. -/
theorem get?_merge (fields later : Fields α) (name : String) :
    get? (merge fields later) name = (later.reverse.lookup name).or (get? fields name) := by
  induction later using List.reverseRecOn with
  | nil => rfl
  | append_singleton later entry ih =>
    obtain ⟨key, value⟩ := entry
    rw [merge, List.foldl_concat, ← merge, get?_put, List.reverse_concat, List.lookup_cons, ih]
    by_cases hname : key = name
    · simp [hname]
    · have hbeq : (name == key) = false := beq_eq_false_iff_ne.mpr (Ne.symm hname)
      rw [if_neg hname, hbeq]

theorem lookup_reverse {fields : Fields α} (h : (keys fields).Nodup) (name : String) :
    fields.reverse.lookup name = get? fields name := by
  have hmerge := get?_merge [] fields name
  rwa [merge_of_nodup (by simpa using h), List.nil_append, get?, Option.or_none, eq_comm] at hmerge

/-- Fields are known by their names in order and what is found under them. -/
theorem ext_of_get? {fields other : Fields α} (h : (keys fields).Nodup)
    (hkeys : keys fields = keys other) (hget : ∀ name, get? fields name = get? other name) :
    fields = other := by
  induction fields generalizing other with
  | nil =>
    cases other with
    | nil => rfl
    | cons entry rest => cases hkeys
  | cons entry rest ih =>
    cases other with
    | nil => cases hkeys
    | cons entry' rest' =>
      obtain ⟨name, value⟩ := entry
      obtain ⟨name', value'⟩ := entry'
      obtain ⟨rfl, hrestKeys⟩ : name = name' ∧ keys rest = keys rest' := List.cons.inj hkeys
      obtain ⟨hnew, hnodup⟩ := List.nodup_cons.mp h
      have hvalue : some value = some value' := by simpa [get?] using hget name
      obtain rfl : value = value' := Option.some.inj hvalue
      have hrest : ∀ other, get? rest other = get? rest' other := by
        intro other
        by_cases hother : name = other
        · subst hother
          have hnew' : name ∉ keys rest' := hrestKeys ▸ hnew
          rw [get?_eq_none_iff.mpr hnew, get?_eq_none_iff.mpr hnew']
        · simpa [get?, hother] using hget other
      rw [ih hnodup hrestKeys hrest]

/-- Up to their order, fields are known by what is found under each name. -/
theorem perm_of_get? {fields other : Fields α} (h : (keys fields).Nodup)
    (hother : (keys other).Nodup) (hget : ∀ name, get? fields name = get? other name) :
    fields.Perm other := by
  refine (List.perm_ext_iff_of_nodup h.of_map hother.of_map).mpr fun ⟨name, value⟩ => ?_
  constructor
  · exact fun hmem => mem_of_get? ((hget name).symm.trans (get?_of_mem h hmem))
  · exact fun hmem => mem_of_get? ((hget name).trans (get?_of_mem hother hmem))

/-- Where one value is written under several names, it is found under each of them. -/
theorem get?_merge_mapValues_const {β : Type} (fields : Fields α) (later : Fields β) (value : α)
    (name : String) :
    get? (merge fields (mapValues (fun _ => value) later)) name =
      if name ∈ keys later then some value else get? fields name := by
  induction later generalizing fields with
  | nil => rfl
  | cons entry rest ih =>
    show get? (merge (put fields entry.1 value) (mapValues (fun _ => value) rest)) name = _
    rw [ih, get?_put, keys_cons]
    by_cases hrest : name ∈ keys rest
    · rw [if_pos hrest, if_pos (List.mem_cons_of_mem _ hrest)]
    · by_cases hname : entry.1 = name
      · rw [if_neg hrest, if_pos hname, if_pos (hname ▸ List.mem_cons_self)]
      · rw [if_neg hrest, if_neg hname, if_neg]
        simp [hrest, Ne.symm hname]

/-! ## Merges of merges -/

/-- Fields may be merged one after the other or all at once. -/
theorem merge_merge {fields first : Fields α} (hfields : (keys fields).Nodup)
    (hfirst : (keys first).Nodup) (later : Fields α) :
    merge fields (merge first later) = merge (merge fields first) later := by
  refine ext_of_get? (nodup_merge hfields _) ?_ fun name => ?_
  · rw [keys_merge, keys_merge, keys_merge, keys_merge, Names.union_union]
  · rw [get?_merge, lookup_reverse (nodup_merge hfirst later), get?_merge, get?_merge, get?_merge,
      lookup_reverse hfirst, Option.or_assoc]

theorem nodup_foldl_merge {fields : Fields α} (h : (keys fields).Nodup)
    (laters : List (Fields α)) : (keys (laters.foldl merge fields)).Nodup :=
  List.foldlRecOn (motive := fun fields : Fields α => (keys fields).Nodup) _ _ h
    fun _ h later _ => nodup_merge h later

/-- What is merged one after the other may be merged among itself before. -/
theorem foldl_merge {fields : Fields α} (hfields : (keys fields).Nodup)
    {laters : List (Fields α)} (hlaters : ∀ later ∈ laters, (keys later).Nodup) :
    laters.foldl merge fields = merge fields (laters.foldl merge []) := by
  induction laters using List.reverseRecOn with
  | nil => rfl
  | append_singleton laters last ih =>
    have hbefore : (keys (laters.foldl merge ([] : Fields α))).Nodup :=
      nodup_foldl_merge (by simp) laters
    rw [List.foldl_concat, List.foldl_concat, merge_merge hfields hbefore,
      ih fun later hmem => hlaters later (List.mem_append_left _ hmem)]

/-- Of several fields that are merged, the last with an entry under a name counts. -/
theorem get?_foldl_merge {laters : List (Fields α)}
    (hlaters : ∀ later ∈ laters, (keys later).Nodup) (name : String) :
    get? (laters.foldl merge []) name =
      laters.reverse.findSome? fun later => get? later name := by
  induction laters using List.reverseRecOn with
  | nil => rfl
  | append_singleton laters last ih =>
    have hlast := hlaters last (List.mem_append_right _ (List.mem_singleton_self _))
    rw [List.foldl_concat, get?_merge, lookup_reverse hlast, List.reverse_concat,
      List.findSome?_cons, ih fun later hmem => hlaters later (List.mem_append_left _ hmem)]
    cases get? last name <;> rfl

end GraphSchema.Fields
