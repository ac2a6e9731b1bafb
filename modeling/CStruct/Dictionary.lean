/-!
# Dictionaries that keep the order of first insertion

A `Dictionary` holds one value for each of its names. Inserting a new name adds an entry at the end;
inserting a name again changes its value and leaves its place. Names never repeat, and the type says
so.
-/

namespace CStruct

/-! ## Entry lists -/

/-- The entries with `value` put under `name`: in the place of the entry that has this name, or at
the end when none has. -/
def insertEntry {α : Type} (name : String) (value : α) :
    List (String × α) → List (String × α)
  | [] => [(name, value)]
  | entry :: entries =>
    if entry.1 = name then (name, value) :: entries
    else entry :: insertEntry name value entries

theorem mem_keys_insertEntry {α : Type} {name other : String} {value : α}
    {entries : List (String × α)} :
    other ∈ (insertEntry name value entries).map Prod.fst ↔
      other = name ∨ other ∈ entries.map Prod.fst := by
  induction entries with
  | nil => simp [insertEntry]
  | cons entry entries ih =>
    unfold insertEntry
    split
    · rename_i h
      subst h
      simp
    · rw [List.map_cons, List.mem_cons, ih, List.map_cons, List.mem_cons]
      exact or_left_comm

theorem nodup_keys_insertEntry {α : Type} {name : String} {value : α}
    {entries : List (String × α)} (h : (entries.map Prod.fst).Nodup) :
    ((insertEntry name value entries).map Prod.fst).Nodup := by
  induction entries with
  | nil => simp [insertEntry]
  | cons entry entries ih =>
    rw [List.map_cons, List.nodup_cons] at h
    unfold insertEntry
    split
    · rename_i hname
      subst hname
      simpa using h
    · rename_i hname
      rw [List.map_cons, List.nodup_cons, mem_keys_insertEntry]
      exact ⟨fun hmem => hmem.elim hname h.1, ih h.2⟩

/-! ## Dictionaries -/

/-- Entries in the order in which their names were first inserted. -/
structure Dictionary (α : Type) where
  entries : List (String × α) := []
  nodup_keys : (entries.map Prod.fst).Nodup := by exact List.nodup_nil
  deriving DecidableEq

namespace Dictionary

variable {α : Type}

instance : Inhabited (Dictionary α) := ⟨{}⟩

/-- The names, in order. -/
def keys (d : Dictionary α) : List String := d.entries.map Prod.fst

/-- The values, in the order of their names. -/
def values (d : Dictionary α) : List α := d.entries.map Prod.snd

/-- The value under `name`. -/
def get? (d : Dictionary α) (name : String) : Option α := d.entries.lookup name

/-- The dictionary with `value` under `name`. -/
def insert (d : Dictionary α) (name : String) (value : α) : Dictionary α where
  entries := insertEntry name value d.entries
  nodup_keys := nodup_keys_insertEntry d.nodup_keys

@[ext] theorem ext {d e : Dictionary α} (h : d.entries = e.entries) : d = e := by
  cases d
  cases e
  cases h
  rfl

theorem lookup_insertEntry {name other : String} {value : α} {entries : List (String × α)} :
    (insertEntry name value entries).lookup other =
      if other = name then some value else entries.lookup other := by
  induction entries with
  | nil =>
    rw [insertEntry, List.lookup_cons]
    by_cases h : other = name
    · rw [if_pos h, beq_iff_eq.2 h]
    · rw [if_neg h, beq_eq_false_iff_ne.2 h]
  | cons entry entries ih =>
    obtain ⟨key, old⟩ := entry
    rw [insertEntry, List.lookup_cons]
    by_cases hk : key = name
    · subst hk
      rw [if_pos rfl, List.lookup_cons]
      by_cases h : other = key
      · rw [if_pos h, beq_iff_eq.2 h]
      · rw [if_neg h, beq_eq_false_iff_ne.2 h]
    · rw [if_neg hk, List.lookup_cons, ih]
      by_cases h : other = key
      · subst h
        rw [beq_self_eq_true]
        exact (if_neg hk).symm
      · rw [beq_eq_false_iff_ne.2 h]

/-- A name has the value that was inserted last under it. -/
@[simp] theorem get?_insert {d : Dictionary α} {name other : String} {value : α} :
    (d.insert name value).get? other = if other = name then some value else d.get? other :=
  lookup_insertEntry

@[simp] theorem get?_empty {name : String} : ({} : Dictionary α).get? name = none := rfl

theorem mem_keys_insert {d : Dictionary α} {name other : String} {value : α} :
    other ∈ (d.insert name value).keys ↔ other = name ∨ other ∈ d.keys :=
  mem_keys_insertEntry

end Dictionary

end CStruct
