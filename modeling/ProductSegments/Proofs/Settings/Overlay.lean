import ProductSegments.Proofs.Settings.Value
import ProductSegments.Settings.Load

/-!
# What a source says of a part of a tree

A source is laid over a tree entry by entry, and an entry may concern a whole section or a single part
of it.  What a source says of one part is a source again, for the value that stands there.  So long as
a source leaves a table where it finds one, what comes to stand at a part depends on nothing but what
stood there and on what the source says of it.

## Main definitions

* `Settings.Source.about` — what a source says of the part behind some keys.
* `Settings.Source.onto` — what a source makes of the value that it is laid over, if there is one.
* `Settings.Source.IsTabular` — the source leaves a table where it is laid.
* `Settings.Source.Settles` — the source gives a value as a whole.

## Main results

* `Settings.Source.get?_overlaySource` — **what stands at a part afterwards comes from what stood
  there and from what the source says of it.**
* `Settings.Source.onto_eq_of_settles` — a source that gives a value as a whole leaves nothing of what
  is below it.
-/

namespace ProductSegments.Settings

namespace Source

open ProductSegments.Settings.Value (lookup put nothing table overlayAt)

/-! ### Laying a source over a value -/

/-- What a source makes of the value that it is laid over, if there is one. -/
def onto (source : Source) (old : Option Value) : Option Value :=
  source.foldl (fun old (path, value) => some (overlayAt value path (old.getD nothing))) old

@[simp]
theorem onto_nil (old : Option Value) : onto [] old = old := rfl

theorem onto_cons (entry : Path × Value) (source : Source) (old : Option Value) :
    onto (entry :: source) old = onto source (some (overlayAt entry.2 entry.1 (old.getD nothing))) :=
  rfl

theorem onto_append (first second : Source) (old : Option Value) :
    onto (first ++ second) old = onto second (onto first old) :=
  List.foldl_append

theorem onto_some (source : Source) (tree : Value) :
    onto source (some tree) = some (tree.overlaySource source) := by
  induction source generalizing tree with
  | nil => rfl
  | cons entry source ih => exact ih _

/-- A source finds nothing where there is no value. -/
theorem onto_eq_overlaySource {source : Source} (h : source ≠ []) (old : Option Value) :
    onto source old = some ((old.getD nothing).overlaySource source) := by
  cases source with
  | nil => exact absurd rfl h
  | cons entry source => exact onto_some source _

/-! ### What is said of a part -/

/-- What an entry of a source says of the part with a name. -/
def entryWithin (name : String) : Path × Value → Source
  | (.key k :: path, value) => if k = name then [(path, value)] else []
  | ([], .table entries) => (entries.filter (·.1 = name)).map fun (_, value) => ([], value)
  | _ => []

/-- What a source says of the part with a name. -/
def within (name : String) (source : Source) : Source := source.flatMap (entryWithin name)

/-- What a source says of the part behind some keys. -/
def about : List String → Source → Source
  | [], source => source
  | name :: names, source => about names (source.within name)

@[simp]
theorem about_nil_right (names : List String) : about names [] = [] := by
  induction names with
  | nil => rfl
  | cons name names ih => exact ih

theorem about_append (names : List String) (first second : Source) :
    about names (first ++ second) = about names first ++ about names second := by
  induction names generalizing first second with
  | nil => rfl
  | cons name names ih =>
    simp only [about, within, List.flatMap_append]
    exact ih _ _

theorem about_flatten (names : List String) (sources : List Source) :
    about names sources.flatten = (sources.map (about names)).flatten := by
  induction sources with
  | nil => exact about_nil_right names
  | cons source sources ih => rw [List.flatten_cons, about_append, ih, List.map_cons,
      List.flatten_cons]

/-- An entry for the part behind some keys, or for a part of that. -/
theorem about_append_keys (names : List String) (path : Path) (value : Value) :
    about names [(names.map Stride.key ++ path, value)] = [(path, value)] := by
  induction names with
  | nil => rfl
  | cons name names ih => simpa [about, within, entryWithin] using ih

/-- An entry for anything else. -/
theorem about_eq_nil {names : List String} {path : Path} {value : Value}
    (noTable : value.isTable = false) (h : ¬names.map Stride.key <+: path) :
    about names [(path, value)] = [] := by
  induction names generalizing path with
  | nil => exact absurd List.nil_prefix h
  | cons name names ih =>
    have single : about (name :: names) [(path, value)] =
        about names (entryWithin name (path, value)) := by
      rw [about, within, List.flatMap_singleton]
    rw [single]
    rcases path with _ | ⟨stride, path⟩
    · cases value <;> first | exact about_nil_right names | cases noTable
    · cases stride with
      | place i => exact about_nil_right names
      | key k =>
        rw [entryWithin]
        split
        · next hk =>
          subst hk
          refine ih fun isPrefix => h ?_
          rw [List.map_cons, List.cons_prefix_cons]
          exact ⟨rfl, isPrefix⟩
        · exact about_nil_right names

/-! ### Tables stay tables -/

/-- The entry leaves a table where it is laid. -/
def isTabular : Path × Value → Bool
  | (.key _ :: _, _) => true
  | ([], value) => value.isTable
  | (.place _ :: _, _) => false

/-- The source leaves a table where it is laid. -/
def IsTabular (source : Source) : Prop := ∀ entry ∈ source, isTabular entry = true

instance (source : Source) : Decidable source.IsTabular :=
  List.decidableBAll (fun entry => isTabular entry = true) source

theorem isTable_overlayAt {entry : Path × Value} (h : isTabular entry = true) (tree : Value) :
    (overlayAt entry.2 entry.1 tree).isTable = true := by
  obtain ⟨path, value⟩ := entry
  rcases path with _ | ⟨stride, path⟩
  · cases value <;> first | rfl | cases h
  · cases stride with
    | key k => rfl
    | place i => cases h

/-- Where there was no value but a table, there is none afterwards. -/
theorem IsTabular.isTable_onto {source : Source} (h : source.IsTabular) (old : Option Value)
    (hold : ∀ tree ∈ old, tree.isTable = true) : ∀ tree ∈ onto source old, tree.isTable = true := by
  induction source generalizing old with
  | nil => exact hold
  | cons entry source ih =>
    rw [onto_cons]
    refine ih (fun e he => h e (List.mem_cons_of_mem entry he)) _ fun tree htree => ?_
    rw [← Option.mem_some.mp htree]
    exact isTable_overlayAt (h entry List.mem_cons_self) _

/-! A source that is read lays nothing but tables at the root. -/

theorem exists_key_of_ofChars? {cs : List Char} {path : Path} (h : Path.ofChars? cs = some path) :
    ∃ name rest, path = .key name :: rest := by
  simp only [Path.ofChars?, Option.bind_eq_bind, Option.bind_eq_some_iff, Option.pure_def,
    Option.some.injEq] at h
  obtain ⟨⟨first, behind⟩, hfirst, rest, -, rfl⟩ := h
  unfold Path.key? at hfirst
  dsimp only at hfirst
  split at hfirst
  · cases hfirst
  · cases hfirst
    exact ⟨_, rest, rfl⟩

/-- Every key names a place in a table. -/
theorem isTabular_ofKey (key : String) (value : Value) : isTabular (Path.ofKey key, value) = true := by
  unfold Path.ofKey
  cases h : Path.ofChars? key.toList with
  | none => rfl
  | some path =>
    obtain ⟨name, rest, rfl⟩ := exists_key_of_ofChars? h
    rfl

theorem isTabular_ofEntries (entries : List (String × Value)) : (ofEntries entries).IsTabular := by
  intro entry h
  obtain ⟨⟨key, value⟩, -, rfl⟩ := List.mem_map.mp h
  exact isTabular_ofKey key value

theorem isTabular_of_fileSource? {files : Files} {base : String} {source : Source}
    (h : fileSource? files base = some source) : source.IsTabular := by
  unfold fileSource? at h
  split at h
  · cases h
    exact List.forall_mem_nil _
  · obtain ⟨entries, -, rfl⟩ := Option.map_eq_some_iff.mp h
    exact isTabular_ofEntries entries

theorem isTabular_builtInSource (service name : String) :
    (builtInSource service name).IsTabular := by
  intro entry h
  simp only [builtInSource, List.mem_cons, List.not_mem_nil, or_false] at h
  rcases h with rfl | rfl <;> rfl

/-! ### Parts afterwards -/

/-- Entries of a table that are laid over entries one after the other. -/
theorem lookup_overlayAll (name : String) (below above : List (String × Value)) :
    lookup name (Value.overlayAll below above) =
      onto ((above.filter (·.1 = name)).map fun (_, value) => ([], value)) (lookup name below) := by
  induction above generalizing below with
  | nil => simp [Value.overlayAll]
  | cons entry above ih =>
    obtain ⟨key, value⟩ := entry
    rw [Value.overlayAll, ih, Value.lookup_put]
    by_cases hkey : key = name
    · subst hkey
      simp [onto_cons, overlayAt]
    · simp [hkey]

/-- What an entry leaves at a part. -/
theorem lookup_overlayAt {entry : Path × Value} (h : isTabular entry = true) (name : String)
    (tree : Value) :
    lookup name (overlayAt entry.2 entry.1 tree).entries =
      onto (entryWithin name entry) (lookup name tree.entries) := by
  obtain ⟨path, value⟩ := entry
  rcases path with _ | ⟨stride, path⟩
  · cases value with
    | table entries => exact lookup_overlayAll name tree.entries entries
    | _ => cases h
  · cases stride with
    | place i => cases h
    | key k =>
      simp only [overlayAt, Value.entries, Value.lookup_put, entryWithin]
      by_cases hk : k = name
      · subst hk
        rw [if_pos rfl, if_pos rfl, onto_cons, onto_nil]
      · rw [if_neg hk, if_neg hk, onto_nil]

/-- What a source leaves at a part. -/
theorem IsTabular.lookup_overlaySource {source : Source} (h : source.IsTabular) (name : String)
    (tree : Value) :
    lookup name (tree.overlaySource source).entries =
      onto (source.within name) (lookup name tree.entries) := by
  induction source generalizing tree with
  | nil => rfl
  | cons entry source ih =>
    have head := lookup_overlayAt (h entry List.mem_cons_self) name tree
    have tail := ih (fun e he => h e (List.mem_cons_of_mem entry he)) (overlayAt entry.2 entry.1 tree)
    rw [within, List.flatMap_cons, onto_append, ← head]
    exact tail

/-- The source leaves tables on the way along some keys. -/
def Opens : List String → Source → Prop
  | [], _ => True
  | name :: names, source => source.IsTabular ∧ (source.within name).Opens names

/-- **What stands at a part afterwards comes from what stood there and from what the source says of
it**, so long as the source leaves tables on the way. -/
theorem get?_overlaySource {names : List String} {source : Source} (h : source.Opens names)
    (tree : Value) :
    (tree.overlaySource source).get? names = onto (source.about names) (tree.get? names) := by
  induction names generalizing source tree with
  | nil => exact (onto_some source tree).symm
  | cons name names ih =>
    rw [Value.get?_cons, Value.get?_cons, h.1.lookup_overlaySource, about]
    generalize lookup name tree.entries = old
    by_cases silent : source.within name = []
    · simp [silent]
    · rw [onto_eq_overlaySource silent, Option.bind_some, ih h.2]
      cases old with
      | some value => rfl
      | none =>
        -- where nothing stands there is no part, and a source for nothing starts from nothing
        cases names with
        | nil => rw [about, onto_eq_overlaySource silent, onto_eq_overlaySource silent]; rfl
        | cons name names => rfl

/-- Sources one after the other are one source. -/
theorem foldl_overlaySource (sources : List Source) (tree : Value) :
    sources.foldl Value.overlaySource tree = tree.overlaySource sources.flatten := by
  induction sources generalizing tree with
  | nil => rfl
  | cons source sources ih =>
    rw [List.foldl_cons, ih, List.flatten_cons]
    exact List.foldl_append.symm

/-! ### Values given as a whole -/

/-- The source gives a value as a whole, and no table. -/
def Settles (source : Source) : Prop := ∃ entry ∈ source, entry.1 = [] ∧ entry.2.isTable = false

instance (source : Source) : Decidable source.Settles :=
  List.decidableBEx (fun entry : Path × Value => entry.1 = [] ∧ entry.2.isTable = false) source

theorem Settles.ne_nil {source : Source} (h : source.Settles) : source ≠ [] := by
  obtain ⟨entry, mem, -⟩ := h
  exact List.ne_nil_of_mem mem

theorem settles_append {first second : Source} :
    Settles (first ++ second) ↔ first.Settles ∨ second.Settles := by
  simp only [Settles, List.mem_append, or_and_right, exists_or]

/-- A source that gives a value as a whole leaves nothing of what is below it. -/
theorem onto_eq_of_settles {source : Source} (h : source.Settles) (old old' : Option Value) :
    onto source old = onto source old' := by
  obtain ⟨⟨path, value⟩, mem, rfl, noTable⟩ := h
  obtain ⟨before, behind, rfl⟩ := List.append_of_mem mem
  have replaced : ∀ old, onto (before ++ ([], value) :: behind) old = onto behind (some value) := by
    intro old
    rw [onto_append, onto_cons, overlayAt, Value.overlay_of_not_isTable noTable]
  rw [replaced, replaced]

theorem isComposite_overlayAt {entry : Path × Value}
    (h : ¬(entry.1 = [] ∧ entry.2.isTable = false)) (tree : Value) :
    (overlayAt entry.2 entry.1 tree).isComposite = true := by
  obtain ⟨path, value⟩ := entry
  rcases path with _ | ⟨stride, path⟩
  · cases value with
    | table entries => rfl
    | _ => exact absurd ⟨rfl, rfl⟩ h
  · cases stride <;> rfl

/-- A source that only gives parts of a value, or a table, leaves a value with parts. -/
theorem exists_isComposite_onto {source : Source} (ne_nil : source ≠ []) (h : ¬source.Settles)
    (old : Option Value) : ∃ value, onto source old = some value ∧ value.isComposite = true := by
  induction source generalizing old with
  | nil => exact absurd rfl ne_nil
  | cons entry source ih =>
    have composite := isComposite_overlayAt (fun whole => h ⟨entry, List.mem_cons_self, whole⟩)
      (old.getD nothing)
    rw [onto_cons]
    cases source with
    | nil => exact ⟨_, rfl, composite⟩
    | cons next source =>
      refine ih (List.cons_ne_nil next source) (fun settles => h ?_) _
      obtain ⟨other, mem, whole⟩ := settles
      exact ⟨other, List.mem_cons_of_mem entry mem, whole⟩

end Source

end ProductSegments.Settings
