import JobBroker.Table
import Mathlib.Data.Multiset.Bind
import Mathlib.Data.Multiset.Filter
import Mathlib.Tactic.Abel

/-!
# What is in a table

A table spread out: every entry stands for some things, and together they make a bag in which the
order of the keys no longer counts. Each change of a table is an equation between the bags before
and after it.
-/

namespace JobBroker.Table

variable {κ α β γ : Type}

/-- The things that the entries of a table stand for. -/
def contents (table : Table κ α) (hold : κ → α → Multiset γ) : Multiset γ :=
  (table.entries.map fun entry => hold entry.1 entry.2).sum

theorem contents_empty (hold : κ → α → Multiset γ) : contents {} hold = 0 := rfl

theorem contents_mapValues (change : κ → α → β) (table : Table κ α) (hold : κ → β → Multiset γ) :
    (table.mapValues change).contents hold =
      table.contents fun key value => hold key (change key value) := by
  simp only [contents, mapValues, List.map_map]
  rfl

theorem countP_contents (table : Table κ α) (f : κ → α → γ) (p : γ → Prop) [DecidablePred p] :
    (table.contents fun key value => {f key value}).countP p =
      table.entries.countP fun entry => p (f entry.1 entry.2) := by
  unfold contents
  induction table.entries with
  | nil => rfl
  | cons entry rest ih =>
    rw [List.map_cons, List.sum_cons, Multiset.countP_add, ih, List.countP_cons, Nat.add_comm]
    simp only [← Multiset.cons_zero, Multiset.countP_cons, Multiset.countP_zero, Nat.zero_add,
      decide_eq_true_eq]

theorem length_keysWhere (table : Table κ α) (test : α → Bool) :
    (table.keysWhere test).length = table.entries.countP fun entry => test entry.2 := by
  rw [keysWhere, List.length_map, List.countP_eq_length_filter]

variable [DecidableEq κ] {table : Table κ α} {key : κ} {value : α}

theorem entries_split (h : table.get? key = some value) :
    ∃ front back, table.entries = front ++ (key, value) :: back ∧
      (∀ entry ∈ front, entry.1 ≠ key) ∧ ∀ entry ∈ back, entry.1 ≠ key := by
  obtain ⟨front, back, hsplit⟩ := List.append_of_mem (get?_eq_some_iff.1 h)
  have hnodup := table.distinct
  rw [hsplit, List.map_append, List.map_cons, List.nodup_append, List.nodup_cons] at hnodup
  obtain ⟨-, ⟨hback, -⟩, hfront⟩ := hnodup
  refine ⟨front, back, hsplit, ?_, ?_⟩
  · intro entry hmem heq
    exact hfront _ (List.mem_map.2 ⟨entry, hmem, rfl⟩) key (List.mem_cons_self ..) heq
  · intro entry hmem heq
    exact hback (List.mem_map.2 ⟨entry, hmem, heq⟩)

theorem entries_insert_new (h : table.get? key = none) (value : α) :
    (table.insert key value).entries = table.entries ++ [(key, value)] := by
  have hnew : key ∉ table.keys := get?_eq_none_iff.1 h
  simp only [insert, hnew, dif_neg, not_false_eq_true, append]

theorem entries_insert_old (h : table.get? key = some value) (new : α) :
    (table.insert key new).entries =
      table.entries.map fun entry => (entry.1, if entry.1 = key then new else entry.2) := by
  have hold : key ∈ table.keys := by
    by_contra hnot
    rw [get?_eq_none_iff.2 hnot] at h
    cases h
  simp only [insert, hold, dif_pos, mapValues]

theorem erase_of_get?_eq_none (h : table.get? key = none) : table.erase key = table := by
  have hnew : key ∉ table.keys := get?_eq_none_iff.1 h
  have hsame : table.entries.filter (fun entry => entry.1 ≠ key) = table.entries := by
    rw [List.filter_eq_self]
    intro entry hmem
    simp only [ne_eq, decide_not, Bool.not_eq_true', decide_eq_false_iff_not]
    intro heq
    exact hnew (List.mem_map.2 ⟨entry, hmem, heq⟩)
  cases table with
  | mk entries distinct =>
    simp only [erase, mk.injEq]
    exact hsame

/-! ### Bags before and after -/

variable (hold : κ → α → Multiset γ)

theorem contents_insert_new (h : table.get? key = none) (value : α) :
    (table.insert key value).contents hold = table.contents hold + hold key value := by
  simp [contents, entries_insert_new h]

theorem contents_erase (h : table.get? key = some value) :
    (table.erase key).contents hold + hold key value = table.contents hold := by
  obtain ⟨front, back, hsplit, hfront, hback⟩ := entries_split h
  have hf : front.filter (fun entry => entry.1 ≠ key) = front := by
    rw [List.filter_eq_self]
    intro entry hmem
    simpa using hfront entry hmem
  have hb : back.filter (fun entry => entry.1 ≠ key) = back := by
    rw [List.filter_eq_self]
    intro entry hmem
    simpa using hback entry hmem
  have herase : (table.erase key).entries = front ++ back := by
    simp only [erase, hsplit, List.filter_append, hf]
    rw [List.filter_cons_of_neg (by simp), hb]
  simp only [contents, herase, hsplit, List.map_append, List.map_cons, List.sum_append,
    List.sum_cons]
  abel

theorem contents_insert_old (h : table.get? key = some value) (new : α) :
    (table.insert key new).contents hold + hold key value =
      table.contents hold + hold key new := by
  obtain ⟨front, back, hsplit, hfront, hback⟩ := entries_split h
  have hkeep : ∀ entries : List (κ × α), (∀ entry ∈ entries, entry.1 ≠ key) →
      entries.map (fun entry => (entry.1, if entry.1 = key then new else entry.2)) = entries := by
    intro entries hother
    rw [List.map_congr_left (g := id), List.map_id]
    intro entry hmem
    simp [hother entry hmem]
  have hinsert : (table.insert key new).entries = front ++ (key, new) :: back := by
    rw [entries_insert_old h, hsplit, List.map_append, List.map_cons, hkeep front hfront,
      hkeep back hback]
    simp
  simp only [contents, hinsert, hsplit, List.map_append, List.map_cons, List.sum_append,
    List.sum_cons]
  abel

theorem mem_contents {hold : κ → α → Multiset γ} {thing : γ} :
    thing ∈ table.contents hold ↔
      ∃ key value, table.get? key = some value ∧ thing ∈ hold key value := by
  have hsum : ∀ entries : List (κ × α),
      thing ∈ (entries.map fun entry => hold entry.1 entry.2).sum ↔
        ∃ entry ∈ entries, thing ∈ hold entry.1 entry.2 := by
    intro entries
    induction entries with
    | nil => simp
    | cons entry rest ih => simp [ih]
  rw [contents, hsum]
  constructor
  · rintro ⟨⟨key, value⟩, hmem, hthing⟩
    exact ⟨key, value, get?_eq_some_iff.2 hmem, hthing⟩
  · rintro ⟨key, value, hget, hthing⟩
    exact ⟨(key, value), get?_eq_some_iff.1 hget, hthing⟩

end JobBroker.Table
