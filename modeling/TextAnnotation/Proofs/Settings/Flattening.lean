import Mathlib.Data.List.Nodup
import TextAnnotation.Pipeline.Settings
import TextAnnotation.Proofs.Toml.Tables

/-!
What the settings of a document hold. Every scalar value outside arrays is written under the keys on the way to it,
joined by dots. If keys have no dots of their own, joined keys tell apart what they join, and no value is written over
another. The only exception are values in a table under the empty key, which are written as if they stood outside it.
-/

namespace TextAnnotation

namespace TextMap

variable {α : Type} {entries : List (String × α)}

theorem perm_insertEntry {key : String} (h : ∀ entry ∈ entries, entry.1 ≠ key) (value : α) :
    (insertEntry key value entries).Perm ((key, value) :: entries) := by
  induction entries with
  | nil => exact .refl _
  | cons entry rest ih =>
    obtain ⟨found, other⟩ := entry
    obtain ⟨hne, hrest⟩ := List.forall_mem_cons.1 h
    simp only [insertEntry]
    rw [if_neg (Ne.symm hne)]
    split
    · exact .refl _
    · exact ((ih hrest).cons _).trans (.swap _ _ _)

theorem mem_entries_foldl {m : TextMap α} {entry : String × α}
    (h : entry ∈ (entries.foldl (fun m (key, value) => m.insert key value) m).entries) :
    entry ∈ m.entries ∨ entry ∈ entries := by
  induction entries generalizing m with
  | nil => exact .inl h
  | cons first rest ih =>
    rcases ih h with hmem | hmem
    · rcases mem_insertEntry hmem with heq | hmem
      · exact .inr (heq ▸ List.mem_cons_self)
      · exact .inl hmem
    · exact .inr (List.mem_cons_of_mem _ hmem)

theorem mem_of_mem_ofList {entry : String × α} (h : entry ∈ (ofList entries).entries) : entry ∈ entries := by
  rcases mem_entries_foldl h with hmem | hmem
  · exact absurd hmem List.not_mem_nil
  · exact hmem

/-- Entries with different keys are all kept. -/
theorem perm_foldl {m : TextMap α} (hm : ∀ entry ∈ entries, ∀ other ∈ m.entries, other.1 ≠ entry.1)
    (h : (entries.map Prod.fst).Nodup) :
    (entries.foldl (fun m (key, value) => m.insert key value) m).entries.Perm (m.entries ++ entries) := by
  induction entries generalizing m with
  | nil => rw [List.append_nil]; exact .refl _
  | cons first rest ih =>
    obtain ⟨key, value⟩ := first
    obtain ⟨hfirst, hrest⟩ := List.nodup_cons.1 h
    obtain ⟨hkey, hothers⟩ := List.forall_mem_cons.1 hm
    have hinserted := perm_insertEntry hkey value
    have hfresh : ∀ entry ∈ rest, ∀ other ∈ (m.insert key value).entries, other.1 ≠ entry.1 := by
      intro entry hentry other hother
      rcases mem_insertEntry hother with rfl | hother
      · intro heq
        exact hfirst (List.mem_map.2 ⟨entry, hentry, heq.symm⟩)
      · exact hothers entry hentry other hother
    apply (ih hfresh hrest).trans
    exact (hinserted.append_right rest).trans List.perm_middle.symm

theorem perm_ofList (h : (entries.map Prod.fst).Nodup) : (ofList entries).entries.Perm entries :=
  perm_foldl (m := empty) (fun _ _ _ hmem => absurd hmem List.not_mem_nil) h

end TextMap

namespace Toml

/-- A scalar value of a document: the keys on the way to it, and its text. -/
structure Leaf where
  path : List String
  text : String
deriving DecidableEq, Repr

namespace Leaf

def below (key : String) (leaf : Leaf) : Leaf := { leaf with path := key :: leaf.path }

/-- The setting of a value: its text under the keys on the way, joined by dots. -/
def setting (leaf : Leaf) : String × String := (".".intercalate leaf.path, leaf.text)

/-- No key on the way has a dot. -/
def DotFree (leaf : Leaf) : Prop := ∀ key ∈ leaf.path, '.' ∉ key.toList

instance (leaf : Leaf) : Decidable leaf.DotFree := inferInstanceAs (Decidable (∀ key ∈ leaf.path, '.' ∉ key.toList))

/-- The first key on the way is empty, and is not the only one. -/
def InNameless (leaf : Leaf) : Prop := ∃ key rest, leaf.path = "" :: key :: rest

end Leaf

mutual

/-- The scalar values in a value. Those in arrays are left out. -/
def Value.leaves : Value → List Leaf
  | .table _ entries => leaves entries
  | .text value => [⟨[], value⟩]
  | .integer value => [⟨[], toString value⟩]
  | .float value => [⟨[], value.render⟩]
  | .truth value => [⟨[], Text.Description.truth value⟩]
  | .moment value => [⟨[], value.render⟩]
  | .array _ => []
  | .tables _ _ => []

/-- The scalar values in a table. Those in arrays are left out. -/
def leaves : List (String × Value) → List Leaf
  | [] => []
  | (key, value) :: rest => value.leaves.map (.below key) ++ leaves rest

end

theorem mem_leaves_iff {entries : Entries} {leaf : Leaf} :
    leaf ∈ leaves entries ↔ ∃ key value, (key, value) ∈ entries ∧ ∃ inner ∈ value.leaves, inner.below key = leaf := by
  induction entries with
  | nil => simp [leaves]
  | cons entry rest ih =>
    obtain ⟨first, other⟩ := entry
    rw [leaves, List.mem_append, List.mem_map, ih]
    constructor
    · intro h
      rcases h with ⟨inner, hinner, heq⟩ | ⟨key, value, hmem, hleaf⟩
      · exact ⟨first, other, List.mem_cons_self, inner, hinner, heq⟩
      · exact ⟨key, value, List.mem_cons_of_mem _ hmem, hleaf⟩
    · intro h
      obtain ⟨key, value, hmem, inner, hinner, heq⟩ := h
      rcases List.mem_cons.1 hmem with hentry | hmem
      · cases hentry
        exact .inl ⟨inner, hinner, heq⟩
      · exact .inr ⟨key, value, hmem, inner, hinner, heq⟩

theorem path_ne_nil {entries : Entries} {leaf : Leaf} (h : leaf ∈ leaves entries) : leaf.path ≠ [] := by
  obtain ⟨key, value, _, inner, _, rfl⟩ := mem_leaves_iff.1 h
  exact List.cons_ne_nil key inner.path

theorem nodup_paths_of_values {entries : Entries} (hascending : TextMap.Ascending entries)
    (hvalues : ∀ entry ∈ entries, (entry.2.leaves.map Leaf.path).Nodup) :
    ((leaves entries).map Leaf.path).Nodup := by
  induction entries with
  | nil => exact .nil
  | cons entry rest ih =>
    obtain ⟨first, value⟩ := entry
    obtain ⟨hfirst, hrest⟩ := List.pairwise_cons.1 hascending
    obtain ⟨hvalue, hvalues⟩ := List.forall_mem_cons.1 hvalues
    have hbelow : ((value.leaves.map (Leaf.below first)).map Leaf.path) =
        (value.leaves.map Leaf.path).map (first :: ·) := by
      rw [List.map_map, List.map_map]
      rfl
    rw [leaves, List.map_append, List.nodup_append, hbelow]
    apply And.intro (List.Nodup.map (List.cons_injective) hvalue)
    apply And.intro (ih hrest hvalues)
    -- A path begins with the key of its entry, and these differ.
    intro path hpath other hother heq
    obtain ⟨inner, _, rfl⟩ := List.mem_map.1 hpath
    obtain ⟨leaf, hleaf, rfl⟩ := List.mem_map.1 hother
    obtain ⟨key, found, hmem, deeper, _, rfl⟩ := mem_leaves_iff.1 hleaf
    have hkey : first = key := (List.cons.inj heq).1
    have hlt : first < key := hfirst _ hmem
    exact absurd (hkey ▸ hlt) (String.lt_irrefl first)

/-- Different scalar values of a document have different keys on the way. -/
theorem Ordered.nodup_paths {entries : Entries} (h : Ordered entries) : ((leaves entries).map Leaf.path).Nodup := by
  induction h with
  | @intro entries hascending _ ih =>
    apply nodup_paths_of_values hascending
    intro entry hmem
    obtain ⟨key, value⟩ := entry
    cases value with
    | table origin table => exact ih key origin table hmem
    | array items => exact .nil
    | tables earlier last => exact .nil
    | _ => exact List.nodup_singleton _

/-- Keys without dots can be told from what they are joined to. -/
theorem eq_of_intercalate_eq {xs ys : List String} (hxs : xs ≠ []) (hys : ys ≠ []) (hx : ∀ key ∈ xs, '.' ∉ key.toList)
    (hy : ∀ key ∈ ys, '.' ∉ key.toList) (h : ".".intercalate xs = ".".intercalate ys) : xs = ys := by
  have hsplit : ∀ keys : List String, keys ≠ [] → (∀ key ∈ keys, '.' ∉ key.toList) →
      (".".intercalate keys).toList.splitOn '.' = keys.map String.toList := by
    intro keys hkeys hdots
    rw [String.toList_intercalate]
    apply List.splitOn_intercalate
    · intro cs hcs
      obtain ⟨key, hkey, rfl⟩ := List.mem_map.1 hcs
      exact hdots key hkey
    · exact fun hnil => hkeys (List.map_eq_nil_iff.1 hnil)
  have hmap : xs.map String.toList = ys.map String.toList := by
    rw [← hsplit xs hxs hx, ← hsplit ys hys hy, h]
  exact List.map_injective_iff.2 (fun _ _ heq => String.toList_inj.1 heq) hmap

end Toml

namespace Settings

open Toml

mutual

theorem write_eq (settings : Settings) (key : String) : ∀ value : Value,
    write settings key value =
      value.leaves.foldl (fun settings leaf => settings.insert (leaf.path.foldl keyBelow key) leaf.text) settings
  | .table _ entries => writeEntries_eq settings key entries
  | .text _ => rfl
  | .integer _ => rfl
  | .float _ => rfl
  | .truth _ => rfl
  | .moment _ => rfl
  | .array _ => rfl
  | .tables _ _ => rfl

theorem writeEntries_eq (settings : Settings) (path : String) : ∀ entries : List (String × Value),
    writeEntries settings path entries =
      (leaves entries).foldl (fun settings leaf => settings.insert (leaf.path.foldl keyBelow path) leaf.text) settings
  | [] => rfl
  | (key, value) :: rest => by
    rw [writeEntries, leaves, List.foldl_append, List.foldl_map, writeEntries_eq _ path rest, write_eq _ _ value]
    rfl

end

theorem keyBelow_of_ne {path : String} (h : path ≠ "") (key : String) : keyBelow path key = path ++ "." ++ key := by
  rw [keyBelow, if_neg (by simpa using h)]

theorem foldl_keyBelow {path : String} (h : path ≠ "") (keys : List String) :
    keys.foldl keyBelow path = ".".intercalate (path :: keys) := by
  induction keys generalizing path with
  | nil => exact String.intercalate_singleton.symm
  | cons key keys ih =>
    rw [List.foldl_cons, keyBelow_of_ne h, ih (by simp), String.intercalate_cons_append,
      String.intercalate_cons_cons]

/-- Empty keys at the beginning are lost. -/
theorem foldl_keyBelow_empty (keys : List String) :
    keys.foldl keyBelow "" = ".".intercalate (keys.dropWhile (· == "")) := by
  induction keys with
  | nil => rfl
  | cons key keys ih =>
    rw [List.foldl_cons, List.dropWhile_cons]
    by_cases h : key = ""
    · rw [if_pos (by simpa using h), h]
      exact ih
    · rw [if_neg (by simpa using h)]
      exact foldl_keyBelow h keys

/-- The setting that is written for a value. -/
def written (leaf : Leaf) : String × String := (leaf.path.foldl keyBelow "", leaf.text)

theorem writeEntries_empty (entries : Entries) :
    writeEntries TextMap.empty "" entries = TextMap.ofList ((leaves entries).map written) := by
  rw [writeEntries_eq, TextMap.ofList, List.foldl_map]
  rfl

theorem written_of_not_inNameless {leaf : Leaf} (h : ¬ leaf.InNameless) : written leaf = leaf.setting := by
  obtain ⟨path, text⟩ := leaf
  apply Prod.ext
  · cases path with
    | nil => rfl
    | cons first rest =>
      by_cases hfirst : first = ""
      · cases rest with
        | nil => exact (String.intercalate_singleton (s := ".")).symm
        | cons key rest => exact absurd ⟨key, rest, by rw [hfirst]⟩ h
      · exact foldl_keyBelow hfirst rest
  · rfl

/-- No value is written under the keys of one in a table under the empty key. -/
theorem written_ne_setting {leaf other : Leaf} (h : leaf.InNameless) (hdots : leaf.DotFree) (hother : other.DotFree) :
    written other ≠ leaf.setting := by
  intro heq
  obtain ⟨key, rest, hpath⟩ := h
  have hkeys : ".".intercalate (other.path.dropWhile (· == "")) = ".".intercalate leaf.path := by
    rw [← foldl_keyBelow_empty]
    exact congrArg Prod.fst heq
  cases hrest : other.path.dropWhile (· == "") with
  | nil =>
    rw [hrest, hpath, String.intercalate_cons_cons, String.intercalate_nil] at hkeys
    exact absurd hkeys (by simp)
  | cons first keys =>
    have hfirst : first ≠ "" := by
      have hhead := List.head?_dropWhile_not (· == "") other.path
      rw [hrest] at hhead
      simpa using hhead
    have hsub : ∀ found ∈ first :: keys, '.' ∉ found.toList := by
      intro found hmem
      exact hother found ((List.dropWhile_sublist _).mem (hrest ▸ hmem))
    rw [hrest] at hkeys
    have hsame := eq_of_intercalate_eq (List.cons_ne_nil first keys) (by rw [hpath]; exact List.cons_ne_nil _ _) hsub
      hdots hkeys
    rw [hpath] at hsame
    exact hfirst (List.cons.inj hsame).1

theorem not_inNameless_of_perm {entries : Entries} (hdots : ∀ leaf ∈ leaves entries, leaf.DotFree)
    (hperm : (writeEntries TextMap.empty "" entries).entries.Perm ((leaves entries).map Leaf.setting)) :
    ∀ leaf ∈ leaves entries, ¬ leaf.InNameless := by
  intro leaf hleaf hnameless
  rw [writeEntries_empty] at hperm
  have hmem := TextMap.mem_of_mem_ofList (hperm.mem_iff.2 (List.mem_map_of_mem hleaf))
  obtain ⟨other, hother, heq⟩ := List.mem_map.1 hmem
  exact written_ne_setting hnameless (hdots leaf hleaf) (hdots other hother) heq

theorem perm_of_not_inNameless {entries : Entries} (h : Ordered entries)
    (hdots : ∀ leaf ∈ leaves entries, leaf.DotFree) (hnone : ∀ leaf ∈ leaves entries, ¬ leaf.InNameless) :
    (writeEntries TextMap.empty "" entries).entries.Perm ((leaves entries).map Leaf.setting) := by
  have hwritten : (leaves entries).map written = (leaves entries).map Leaf.setting :=
    List.map_congr_left fun leaf hleaf => written_of_not_inNameless (hnone leaf hleaf)
  have hkeys : (((leaves entries).map Leaf.setting).map Prod.fst).Nodup := by
    rw [List.map_map, show Prod.fst ∘ Leaf.setting = ".".intercalate ∘ Leaf.path from rfl, ← List.map_map]
    apply List.Nodup.map_on _ h.nodup_paths
    intro path hpath other hother heq
    obtain ⟨leaf, hleaf, rfl⟩ := List.mem_map.1 hpath
    obtain ⟨found, hfound, rfl⟩ := List.mem_map.1 hother
    exact eq_of_intercalate_eq (path_ne_nil hleaf) (path_ne_nil hfound) (hdots leaf hleaf) (hdots found hfound) heq
  rw [writeEntries_empty, hwritten]
  exact TextMap.perm_ofList hkeys

/-- If no key on the way to a scalar value has a dot, then the settings of a table are its scalar values outside
arrays, each once and under the keys on the way joined by dots, exactly if none of them is in a table under the empty
key. -/
theorem perm_settings_iff {entries : Entries} (h : Ordered entries) (hdots : ∀ leaf ∈ leaves entries, leaf.DotFree) :
    (writeEntries TextMap.empty "" entries).entries.Perm ((leaves entries).map Leaf.setting) ↔
      ∀ leaf ∈ leaves entries, ¬ leaf.InNameless :=
  ⟨not_inNameless_of_perm hdots, perm_of_not_inNameless h hdots⟩

theorem perm_settings_iff_nested : ∃ entries,
    Toml.parse? "\"\" = 1\n[files.\"\"]\nextension = \"md\"\n" = some entries ∧ Ordered entries ∧
      (∀ leaf ∈ leaves entries, leaf.DotFree) ∧
      (writeEntries TextMap.empty "" entries).entries.Perm [("", "1"), ("files..extension", "md")] := by
  have hleaves : (Toml.parse? "\"\" = 1\n[files.\"\"]\nextension = \"md\"\n").map leaves =
      some [⟨[""], "1"⟩, ⟨["files", "", "extension"], "md"⟩] := by decide +kernel
  obtain ⟨entries, hparse, heq⟩ := Option.map_eq_some_iff.1 hleaves
  have hdots : ∀ leaf ∈ leaves entries, leaf.DotFree := by
    rw [heq]
    decide
  have hnone : ∀ leaf ∈ leaves entries, ¬ leaf.InNameless := by
    rw [heq]
    simp [Leaf.InNameless]
  have hordered := ordered_of_parse? hparse
  have hheld := (perm_settings_iff hordered hdots).2 hnone
  rw [heq] at hheld
  exact ⟨entries, hparse, hordered, hdots, hheld⟩

/-- The settings of a document hold the values of its table on the same condition. -/
theorem holds_leaves_iff {source : String} {entries : Entries} (hparse : Toml.parse? source = some entries)
    (hdots : ∀ leaf ∈ leaves entries, leaf.DotFree) :
    ∃ settings, parse? source = some settings ∧
      (settings.entries.Perm ((leaves entries).map Leaf.setting) ↔ ∀ leaf ∈ leaves entries, ¬ leaf.InNameless) := by
  have hsettings : parse? source = some (writeEntries TextMap.empty "" entries) := by
    rw [parse?, hparse]
    rfl
  exact ⟨_, hsettings, not_inNameless_of_perm hdots, perm_of_not_inNameless (ordered_of_parse? hparse) hdots⟩

/-- Without dots in its keys, a document can still have values that its settings do not hold. -/
theorem not_always_holds_leaves : ¬ ∀ source entries settings, Toml.parse? source = some entries →
    parse? source = some settings → (∀ leaf ∈ leaves entries, leaf.DotFree) →
    settings.entries.Perm ((leaves entries).map Leaf.setting) := by
  intro h
  have hleaves : (Toml.parse? "extension = \"txt\"\n[\"\"]\nextension = \"md\"\n").map leaves =
      some [⟨["", "extension"], "md"⟩, ⟨["extension"], "txt"⟩] := by decide +kernel
  have hheld : (parse? "extension = \"txt\"\n[\"\"]\nextension = \"md\"\n").map (·.entries) =
      some [("extension", "txt")] := by decide +kernel
  obtain ⟨entries, hparse, heq⟩ := Option.map_eq_some_iff.1 hleaves
  obtain ⟨settings, hsettings, hone⟩ := Option.map_eq_some_iff.1 hheld
  have hdots : ∀ leaf ∈ leaves entries, leaf.DotFree := by
    rw [heq]
    decide
  have hlength := (h _ entries settings hparse hsettings hdots).length_eq
  rw [hone, heq] at hlength
  exact absurd hlength (by decide)

end Settings

end TextAnnotation
