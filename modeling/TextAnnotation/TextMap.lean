/-!
Maps from text keys, held as their entries in ascending key order, so that every listing of a map has
that order. Two laws say what a write does to the look-ups: `find?_insert_self` and
`find?_insert_of_ne`.
-/

namespace TextAnnotation

namespace TextMap

variable {α : Type}

/-- The entries with `key` set to `value`: an equal key is replaced, a new one takes its place in the
order. -/
def insertEntry (key : String) (value : α) : List (String × α) → List (String × α)
  | [] => [(key, value)]
  | (k, v) :: rest =>
    if key = k then (key, value) :: rest
    else if key < k then (key, value) :: (k, v) :: rest
    else (k, v) :: insertEntry key value rest

/-- Whether the keys of entries ascend. -/
def Ascending (entries : List (String × α)) : Prop := entries.Pairwise fun a b => a.1 < b.1

theorem mem_insertEntry {key : String} {value : α} {entries : List (String × α)} {entry : String × α}
    (h : entry ∈ insertEntry key value entries) : entry = (key, value) ∨ entry ∈ entries := by
  induction entries with
  | nil => exact .inl (List.mem_singleton.1 h)
  | cons head rest ih =>
    obtain ⟨k, v⟩ := head
    simp only [insertEntry] at h
    split at h
    · exact (List.mem_cons.1 h).imp_right (List.mem_cons_of_mem _)
    · split at h
      · exact List.mem_cons.1 h
      · rcases List.mem_cons.1 h with rfl | h
        · exact .inr List.mem_cons_self
        · exact (ih h).imp_right (List.mem_cons_of_mem _)

theorem Ascending.insertEntry {entries : List (String × α)} (h : Ascending entries) (key : String)
    (value : α) : Ascending (insertEntry key value entries) := by
  induction entries with
  | nil => exact List.pairwise_singleton _ _
  | cons head rest ih =>
    obtain ⟨k, v⟩ := head
    obtain ⟨hhead, hrest⟩ := List.pairwise_cons.1 h
    simp only [TextMap.insertEntry]
    split
    · rename_i heq
      subst heq
      exact List.pairwise_cons.2 ⟨hhead, hrest⟩
    · rename_i hne
      split
      · rename_i hlt
        refine List.pairwise_cons.2 ⟨fun entry hentry => ?_, h⟩
        rcases List.mem_cons.1 hentry with rfl | hentry
        · exact hlt
        · exact String.lt_trans hlt (hhead entry hentry)
      · rename_i hnlt
        have hlt : k < key := Decidable.byContradiction fun hn =>
          hne (String.le_antisymm (String.not_lt.1 hn) (String.not_lt.1 hnlt))
        refine List.pairwise_cons.2 ⟨fun entry hentry => ?_, ih hrest⟩
        rcases mem_insertEntry hentry with rfl | hentry
        · exact hlt
        · exact hhead entry hentry

end TextMap

/-- A map from text keys, as its entries in ascending key order. -/
structure TextMap (α : Type) where
  entries : List (String × α) := []
  ascending : TextMap.Ascending entries := by exact .nil
deriving DecidableEq, Repr

namespace TextMap

variable {α : Type}

def empty : TextMap α := {}

def insert (m : TextMap α) (key : String) (value : α) : TextMap α :=
  ⟨insertEntry key value m.entries, m.ascending.insertEntry key value⟩

/-- The map with every value changed. -/
def mapValues (m : TextMap α) (change : α → β) : TextMap β where
  entries := m.entries.map fun (key, value) => (key, change value)
  ascending := by simpa only [Ascending, List.pairwise_map] using m.ascending

/-- The map with every value changed by an action, in key order. -/
def mapValuesM [Monad μ] (m : TextMap α) (change : α → μ β) : μ (TextMap β) :=
  m.entries.foldlM (fun changed (key, value) => return changed.insert key (← change value)) empty

def find? (m : TextMap α) (key : String) : Option α := m.entries.lookup key

def contains (m : TextMap α) (key : String) : Bool := (m.find? key).isSome

def size (m : TextMap α) : Nat := m.entries.length

def isEmpty (m : TextMap α) : Bool := m.entries.isEmpty

def keys (m : TextMap α) : List String := m.entries.map (·.1)

def values (m : TextMap α) : List α := m.entries.map (·.2)

/-- The map with every entry of `other` written over it. -/
def overlay (m other : TextMap α) : TextMap α :=
  other.entries.foldl (fun m (key, value) => m.insert key value) m

/-- The map of a list of entries; of equal keys the last one counts. -/
def ofList (entries : List (String × α)) : TextMap α :=
  entries.foldl (fun m (key, value) => m.insert key value) empty

theorem lookup_insertEntry_self (key : String) (value : α) (entries : List (String × α)) :
    (insertEntry key value entries).lookup key = some value := by
  induction entries with
  | nil => simp [insertEntry]
  | cons entry rest ih =>
    obtain ⟨k, v⟩ := entry
    simp only [insertEntry]
    split
    · simp
    · rename_i hne
      split
      · simp
      · have hne' : (key == k) = false := by simpa using hne
        simp [List.lookup_cons, hne', ih]

theorem lookup_insertEntry_of_ne {key other : String} (hne : other ≠ key) (value : α)
    (entries : List (String × α)) :
    (insertEntry key value entries).lookup other = entries.lookup other := by
  have hfalse : (other == key) = false := by simpa using hne
  induction entries with
  | nil => simp [insertEntry, List.lookup_cons, hfalse]
  | cons entry rest ih =>
    obtain ⟨k, v⟩ := entry
    simp only [insertEntry]
    split
    · rename_i heq
      subst heq
      simp [List.lookup_cons, hfalse]
    · split
      · simp [List.lookup_cons, hfalse]
      · simp [List.lookup_cons, ih]

@[simp] theorem find?_insert_self (m : TextMap α) (key : String) (value : α) :
    (m.insert key value).find? key = some value :=
  lookup_insertEntry_self key value m.entries

theorem find?_insert_of_ne (m : TextMap α) {key other : String} (hne : other ≠ key) (value : α) :
    (m.insert key value).find? other = m.find? other :=
  lookup_insertEntry_of_ne hne value m.entries

end TextMap

end TextAnnotation
