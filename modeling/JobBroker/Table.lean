/-!
# Tables

Finitely many values, each under a key of its own, in the order in which the keys came in. A table
is read through `get?`: the lemmas say what every change does to that reading, and
`get?_eq_some_iff` ties it to the entries.
-/

namespace JobBroker

/-- Values by key; no key occurs twice. -/
structure Table (κ α : Type) where
  entries : List (κ × α)
  distinct : (entries.map Prod.fst).Nodup

namespace Table

variable {κ α β : Type} [DecidableEq κ]

def empty : Table κ α := ⟨[], List.nodup_nil⟩

instance : EmptyCollection (Table κ α) := ⟨empty⟩

def keys (table : Table κ α) : List κ := table.entries.map Prod.fst

def values (table : Table κ α) : List α := table.entries.map Prod.snd

def size (table : Table κ α) : Nat := table.entries.length

def find (key : κ) : List (κ × α) → Option α
  | [] => none
  | entry :: rest => if entry.1 = key then some entry.2 else find key rest

def get? (table : Table κ α) (key : κ) : Option α := find key table.entries

def contains (table : Table κ α) (key : κ) : Bool := (table.get? key).isSome

def erase (table : Table κ α) (key : κ) : Table κ α where
  entries := table.entries.filter fun entry => entry.1 ≠ key
  distinct := table.distinct.sublist (List.filter_sublist.map Prod.fst)

def mapValues (change : κ → α → β) (table : Table κ α) : Table κ β where
  entries := table.entries.map fun entry => (entry.1, change entry.1 entry.2)
  distinct := by
    have h : (table.entries.map fun entry => (entry.1, change entry.1 entry.2)).map Prod.fst =
        table.entries.map Prod.fst := by simp [Function.comp_def]
    rw [h]
    exact table.distinct

def append (table : Table κ α) (key : κ) (value : α) (new : key ∉ table.keys) : Table κ α where
  entries := table.entries ++ [(key, value)]
  distinct := by
    rw [List.map_append]
    refine List.nodup_append.2 ⟨table.distinct, by simp, ?_⟩
    intro a ha b hb heq
    simp only [List.map_cons, List.map_nil, List.mem_singleton] at hb
    exact new (by rw [heq, hb] at ha; exact ha)

/-- Puts a value under a key: in place of the one that is there, or behind the others. -/
def insert (table : Table κ α) (key : κ) (value : α) : Table κ α :=
  if old : key ∈ table.keys then
    table.mapValues fun k v => if k = key then value else v
  else
    table.append key value old

def keysWhere (table : Table κ α) (test : α → Bool) : List κ :=
  (table.entries.filter fun entry => test entry.2).map Prod.fst

/-! ### Reading -/

theorem find_eq_none_iff (key : κ) (entries : List (κ × α)) :
    find key entries = none ↔ key ∉ entries.map Prod.fst := by
  induction entries with
  | nil => simp [find]
  | cons entry rest ih =>
    by_cases h : entry.1 = key
    · simp [find, h]
    · simp [find, h, ih, Ne.symm h]

theorem find_eq_some_iff {key : κ} {value : α} {entries : List (κ × α)}
    (distinct : (entries.map Prod.fst).Nodup) :
    find key entries = some value ↔ (key, value) ∈ entries := by
  induction entries with
  | nil => simp [find]
  | cons entry rest ih =>
    obtain ⟨k, v⟩ := entry
    simp only [List.map_cons, List.nodup_cons] at distinct
    by_cases h : k = key
    · subst h
      constructor
      · intro hv
        simp only [find, if_true, Option.some.injEq] at hv
        simp [hv]
      · intro hv
        rcases List.mem_cons.1 hv with hv | hv
        · simp only [Prod.mk.injEq] at hv
          simp [find, hv.2]
        · exact absurd (List.mem_map.2 ⟨_, hv, rfl⟩) distinct.1
    · simp only [find, h, if_false, ih distinct.2, List.mem_cons, Prod.mk.injEq, Ne.symm h,
        false_and, false_or]

/-- The value under a key is the one of the entry with that key. -/
theorem get?_eq_some_iff {table : Table κ α} {key : κ} {value : α} :
    table.get? key = some value ↔ (key, value) ∈ table.entries :=
  find_eq_some_iff table.distinct

theorem get?_eq_none_iff {table : Table κ α} {key : κ} :
    table.get? key = none ↔ key ∉ table.keys :=
  find_eq_none_iff key table.entries

theorem contains_iff {table : Table κ α} {key : κ} :
    table.contains key = true ↔ key ∈ table.keys := by
  rw [contains, Option.isSome_iff_ne_none, ne_eq, get?_eq_none_iff, Decidable.not_not]

theorem find_filter (key other : κ) (entries : List (κ × α)) :
    find other (entries.filter fun entry => entry.1 ≠ key) =
      if other = key then none else find other entries := by
  induction entries with
  | nil => simp [find]
  | cons entry rest ih =>
    by_cases h : entry.1 = key
    · simp only [ne_eq, h, not_true_eq_false, decide_false, Bool.false_eq_true,
        not_false_eq_true, List.filter_cons_of_neg, find]
      rw [show (fun e : κ × α => decide ¬e.1 = key) = fun e => decide (e.1 ≠ key) from rfl, ih]
      by_cases ho : other = key
      · simp [ho]
      · simp [ho, Ne.symm ho]
    · have hf : (entry :: rest).filter (fun e => decide (e.1 ≠ key)) =
          entry :: rest.filter (fun e => decide (e.1 ≠ key)) := by
        rw [List.filter_cons_of_pos (by simp [h])]
      rw [hf]
      simp only [find, ih]
      by_cases ho : other = key
      · simp [ho, h]
      · simp [ho]

theorem get?_erase (table : Table κ α) (key other : κ) :
    (table.erase key).get? other = if other = key then none else table.get? other :=
  find_filter key other table.entries

@[simp] theorem get?_erase_self (table : Table κ α) (key : κ) :
    (table.erase key).get? key = none := by simp [get?_erase]

theorem find_mapValues (change : κ → α → β) (key : κ) (entries : List (κ × α)) :
    find key (entries.map fun entry => (entry.1, change entry.1 entry.2)) =
      (find key entries).map (change key) := by
  induction entries with
  | nil => rfl
  | cons entry rest ih =>
    by_cases h : entry.1 = key
    · simp [find, h]
    · simp [find, h, ih]

theorem get?_mapValues (change : κ → α → β) (table : Table κ α) (key : κ) :
    (table.mapValues change).get? key = (table.get? key).map (change key) :=
  find_mapValues change key table.entries

theorem find_append (key : κ) (front back : List (κ × α)) :
    find key (front ++ back) = (find key front).or (find key back) := by
  induction front with
  | nil => simp [find]
  | cons entry rest ih =>
    by_cases h : entry.1 = key
    · simp [find, h]
    · simp [find, h, ih]

/-- A table is read at the key that was written, and elsewhere as before. -/
theorem get?_insert (table : Table κ α) (key other : κ) (value : α) :
    (table.insert key value).get? other =
      if other = key then some value else table.get? other := by
  unfold insert
  split
  next old =>
    rw [get?_mapValues]
    by_cases h : other = key
    · subst h
      obtain ⟨v, hv⟩ : ∃ v, table.get? other = some v := by
        cases hget : table.get? other with
        | none => exact absurd old (get?_eq_none_iff.1 hget)
        | some v => exact ⟨v, rfl⟩
      simp [hv]
    · simp [h]
  next new =>
    simp only [get?, append, find_append]
    by_cases h : other = key
    · subst h
      have hnone : find other table.entries = none := (find_eq_none_iff _ _).2 new
      simp [hnone, find]
    · simp [find, h, Ne.symm h]

@[simp] theorem get?_insert_self (table : Table κ α) (key : κ) (value : α) :
    (table.insert key value).get? key = some value := by simp [get?_insert]

theorem mem_keysWhere {table : Table κ α} {test : α → Bool} {key : κ} :
    key ∈ table.keysWhere test ↔ ∃ value, table.get? key = some value ∧ test value = true := by
  simp only [keysWhere, List.mem_map, List.mem_filter]
  constructor
  · rintro ⟨⟨k, v⟩, ⟨hmem, htest⟩, rfl⟩
    exact ⟨v, get?_eq_some_iff.2 hmem, htest⟩
  · rintro ⟨v, hv, htest⟩
    exact ⟨(key, v), ⟨get?_eq_some_iff.1 hv, htest⟩, rfl⟩

end Table

end JobBroker
