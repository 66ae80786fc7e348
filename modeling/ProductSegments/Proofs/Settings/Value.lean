import ProductSegments.Settings.Value

/-!
# Facts about setting values

Entries of tables are found by their keys, and values can be compared.

## Main results

* `Settings.Value.lookup_put` — an entry that is put in is found, and the other ones are as they were.
* `Settings.Value.eq_of_same` — values that are the same part by part are equal.
-/

namespace ProductSegments.Settings.Value

/-! ### Entries of tables -/

theorem lookup_cons (name key : String) (value : Value) (others : List (String × Value)) :
    lookup name ((key, value) :: others) = if key = name then some value else lookup name others := by
  by_cases h : key = name <;> simp [lookup, h]

/-- An entry that is put in is found, and the other ones are as they were. -/
theorem lookup_put (name key : String) (value : Value) (entries : List (String × Value)) :
    lookup name (put key value entries) = if key = name then some value else lookup name entries := by
  induction entries with
  | nil => simp [put, lookup_cons]
  | cons entry others ih =>
    obtain ⟨k, v⟩ := entry
    by_cases hk : k = key
    · subst hk
      simp only [put, if_true, lookup_cons]
      split <;> rfl
    · simp only [put, if_neg hk, lookup_cons, ih]
      by_cases hn : k = name
      · have ne : key ≠ name := fun h => hk (hn.trans h.symm)
        rw [if_pos hn, if_neg ne, if_pos hn]
      · rw [if_neg hn, if_neg hn]

theorem get?_cons (tree : Value) (key : String) (keys : List String) :
    tree.get? (key :: keys) = (lookup key tree.entries).bind (·.get? keys) := by
  rw [get?]
  cases lookup key tree.entries <;> rfl

theorem get?_singleton (tree : Value) (key : String) : tree.get? [key] = lookup key tree.entries := by
  rw [get?_cons]
  exact Option.bind_fun_some _

theorem get?_pair (tree : Value) (name key : String) :
    tree.get? [name, key] = (lookup name tree.entries).bind fun value => lookup key value.entries := by
  simp only [get?_cons tree, get?_singleton]

/-- The value is a table. -/
def isTable : Value → Bool
  | table _ => true
  | _ => false

/-- The value has parts. -/
def isComposite : Value → Bool
  | table _ | list _ => true
  | _ => false

/-- Whatever is no table replaces what is below it. -/
theorem overlay_of_not_isTable {above : Value} (h : above.isTable = false) (below : Value) :
    below.overlay above = above := by
  cases above <;> first | rfl | cases h

/-! ### Comparison -/

mutual

/-- The values are the same. -/
def same : Value → Value → Bool
  | nothing, nothing => true
  | text s, text s' => s = s'
  | integer n, integer n' => n = n'
  | number x, number x' => x = x'
  | flag b, flag b' => b = b'
  | list items, list items' => sameItems items items'
  | table entries, table entries' => sameEntries entries entries'
  | _, _ => false

/-- The items are the same one by one. -/
def sameItems : List Value → List Value → Bool
  | [], [] => true
  | v :: items, v' :: items' => same v v' && sameItems items items'
  | _, _ => false

/-- The entries are the same one by one. -/
def sameEntries : List (String × Value) → List (String × Value) → Bool
  | [], [] => true
  | (k, v) :: entries, (k', v') :: entries' => k = k' && same v v' && sameEntries entries entries'
  | _, _ => false

end

mutual

theorem eq_of_same : (v v' : Value) → same v v' = true → v = v'
  | nothing, v', h => by cases v' <;> simp_all [same]
  | text s, v', h => by cases v' <;> simp_all [same]
  | integer n, v', h => by cases v' <;> simp_all [same]
  | number x, v', h => by cases v' <;> simp_all [same]
  | flag b, v', h => by cases v' <;> simp_all [same]
  | list items, v', h => by
    cases v' with
    | list items' => rw [eq_of_sameItems items items' h]
    | _ => simp [same] at h
  | table entries, v', h => by
    cases v' with
    | table entries' => rw [eq_of_sameEntries entries entries' h]
    | _ => simp [same] at h

theorem eq_of_sameItems : (items items' : List Value) → sameItems items items' = true → items = items'
  | [], items', h => by cases items' <;> simp_all [sameItems]
  | v :: items, items', h => by
    cases items' with
    | nil => simp [sameItems] at h
    | cons v' items' =>
      simp only [sameItems, Bool.and_eq_true] at h
      rw [eq_of_same v v' h.1, eq_of_sameItems items items' h.2]

theorem eq_of_sameEntries : (entries entries' : List (String × Value)) →
    sameEntries entries entries' = true → entries = entries'
  | [], entries', h => by cases entries' <;> simp_all [sameEntries]
  | (k, v) :: entries, entries', h => by
    cases entries' with
    | nil => simp [sameEntries] at h
    | cons entry entries' =>
      obtain ⟨k', v'⟩ := entry
      simp only [sameEntries, Bool.and_eq_true, decide_eq_true_eq] at h
      rw [h.1.1, eq_of_same v v' h.1.2, eq_of_sameEntries entries entries' h.2]

end

mutual

theorem same_self : (v : Value) → same v v = true
  | nothing => rfl
  | text s => by simp [same]
  | integer n => by simp [same]
  | number x => by simp [same]
  | flag b => by simp [same]
  | list items => sameItems_self items
  | table entries => sameEntries_self entries

theorem sameItems_self : (items : List Value) → sameItems items items = true
  | [] => rfl
  | v :: items => by rw [sameItems, same_self v, sameItems_self items]; rfl

theorem sameEntries_self : (entries : List (String × Value)) → sameEntries entries entries = true
  | [] => rfl
  | (k, v) :: entries => by rw [sameEntries, same_self v, sameEntries_self entries]; simp

end

instance : DecidableEq Value := fun v v' =>
  decidable_of_iff (same v v' = true) ⟨eq_of_same v v', fun eq => eq ▸ same_self v⟩

end ProductSegments.Settings.Value
