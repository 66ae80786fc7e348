import ProductSegments.Proofs.Settings.Variables

/-!
# The order of sources

The sources of settings have an order: the variables of the process come first, then those of the
environment file, the file for the service, the one for the environment, the one for all services, and
last what is built in.  What they come to for a setting is what the highest of them says that says
anything of it, if that decides about the setting.

## Main definitions

* `Settings.layers?` — the sources, the highest first.
* `Settings.Source.laid` — the value that sources come to.
* `Settings.Leaf.highest?` — the value that the highest source gives that says anything of a setting.
* `Settings.Leaf.IsDecided`, `Settings.Leaf.AgreeDown` — a source decides about a setting, and two
  orders of sources say the same down to it.

## Main results

* `Settings.Leaf.IsDecided.read?_laid_eq` — **a setting is what the highest source says.**
* `Settings.Leaf.AgreeDown.read?_laid_eq` — below what decides about a setting nothing counts.
-/

namespace ProductSegments.Settings

/-- The sources of the settings of a service, the highest first: the variables of the process and those
of the environment file, the files for the service, for the environment and for all services, and what
is built in. -/
def layers? (files : Files) (env : Environment) (service : String) : Option (List Source) := do
  let name := environmentName (fullEnvironment files env)
  return [
    variableSource env,
    variableSource (fileVariables files env),
    ← fileSource? files service,
    ← fileSource? files name,
    ← fileSource? files "default",
    builtInSource service name]

/-- What sources say of a setting, in their order. -/
def Leaf.said (leaf : Leaf) (layers : List Source) : List Source := layers.map (·.about leaf.path)

namespace Source

/-- The value that sources come to, the highest first. -/
def laid (said : List Source) : Option Value := onto said.reverse.flatten none

theorem laid_cons (first : Source) (lower : List Source) :
    laid (first :: lower) = onto first (laid lower) := by
  rw [laid, List.reverse_cons, List.flatten_append, onto_append, List.flatten_singleton]
  rfl

/-- What the highest source says that says anything. -/
def highest : List Source → Source
  | [] => []
  | first :: lower => if first = [] then highest lower else first

theorem laid_of_forall_eq_nil {said : List Source} (h : ∀ source ∈ said, source = []) :
    laid said = none := by
  induction said with
  | nil => rfl
  | cons first lower ih =>
    rw [laid_cons, h first List.mem_cons_self, onto_nil]
    exact ih fun source hs => h source (List.mem_cons_of_mem first hs)

end Source

namespace Leaf

open Source (laid highest)

variable {leaf : Leaf}

/-- The highest source that says anything of a setting decides about it, or is the only one. -/
def IsDecided (leaf : Leaf) : List Source → Prop
  | [] => True
  | first :: lower =>
    if first = [] then leaf.IsDecided lower else leaf.Decides first ∨ ∀ source ∈ lower, source = []

instance : (said : List Source) → Decidable (leaf.IsDecided said)
  | [] => inferInstanceAs (Decidable True)
  | first :: lower =>
    have := instDecidableIsDecided lower
    inferInstanceAs (Decidable (if first = [] then leaf.IsDecided lower
      else leaf.Decides first ∨ ∀ source ∈ lower, source = []))

/-- A setting that cannot be read from parts is decided by whatever is said of it. -/
theorem isDecided_of_not_hasParts (plain : leaf.hasParts = false) (said : List Source) :
    leaf.IsDecided said := by
  induction said with
  | nil => trivial
  | cons first lower ih =>
    rw [IsDecided]
    split
    · exact ih
    · next speaks => exact .inl (.inr ⟨plain, speaks⟩)

/-- **A setting is what the highest source says.** -/
theorem IsDecided.read?_laid_eq {said : List Source} (h : leaf.IsDecided said) :
    leaf.read? (laid said) = leaf.read? (Source.onto (highest said) none) := by
  induction said with
  | nil => rfl
  | cons first lower ih =>
    rw [Source.laid_cons, highest]
    rw [IsDecided] at h
    split at h
    · next silent => rw [if_pos silent, silent, Source.onto_nil, ih h]
    · next speaks =>
      rw [if_neg speaks]
      rcases h with decides | alone
      · exact decides.read?_onto_eq _ _
      · rw [Source.laid_of_forall_eq_nil alone]

/-- Sources say the same down to one that decides about a setting. -/
inductive AgreeDown (leaf : Leaf) : List Source → List Source → Prop
  | here {first : Source} {lower lower' : List Source} (decides : leaf.Decides first) :
    AgreeDown leaf (first :: lower) (first :: lower')
  | there {first : Source} {lower lower' : List Source} (agree : AgreeDown leaf lower lower') :
    AgreeDown leaf (first :: lower) (first :: lower')

/-- Parts that are put into a value given as a whole find the same value. -/
theorem AgreeDown.laid_eq {said said' : List Source} (h : leaf.AgreeDown said said')
    (parts : leaf.hasParts = true) : laid said = laid said' := by
  induction h with
  | here decides =>
    have settles := decides.resolve_right fun plain => by simp [parts] at plain
    rw [Source.laid_cons, Source.laid_cons]
    exact Source.onto_eq_of_settles settles _ _
  | there _ ih => rw [Source.laid_cons, Source.laid_cons, ih]

/-- Below what decides about a setting nothing counts. -/
theorem AgreeDown.read?_laid_eq {said said' : List Source} (h : leaf.AgreeDown said said') :
    leaf.read? (laid said) = leaf.read? (laid said') := by
  cases plain : leaf.hasParts with
  | true => rw [h.laid_eq plain]
  | false =>
    induction h with
    | here decides =>
      rw [Source.laid_cons, Source.laid_cons]
      exact decides.read?_onto_eq _ _
    | @there first lower lower' _ ih =>
      rw [Source.laid_cons, Source.laid_cons]
      by_cases silent : first = []
      · rw [silent, Source.onto_nil, Source.onto_nil, ih]
      · -- whatever is said of such a setting decides about it
        exact Decides.read?_onto_eq (.inr ⟨plain, silent⟩) _ _

/-- The value that the highest source gives that says anything of a setting. -/
def highest? (leaf : Leaf) (layers : List Source) : Option Value :=
  Source.onto (highest (leaf.said layers)) none

end Leaf

/-! ### The two kinds of variables -/

namespace Source

/-- The sources where the second one counts only if the first one says nothing. -/
def asLaid : List Source → List Source
  | process :: file :: lower => if process = [] then file :: lower else process :: lower
  | said => said

theorem asLaid_of_eq_nil (file : Source) (lower : List Source) :
    asLaid ([] :: file :: lower) = file :: lower := rfl

theorem asLaid_of_ne_nil {process : Source} (h : process ≠ []) (file : Source)
    (lower : List Source) : asLaid (process :: file :: lower) = process :: lower := if_neg h

theorem highest_asLaid (said : List Source) : highest (asLaid said) = highest said := by
  match said with
  | [] | [_] => rfl
  | process :: file :: lower => by_cases h : process = [] <;> simp [asLaid, highest, h]

end Source

namespace Leaf

open Source (asLaid asLaid_of_eq_nil asLaid_of_ne_nil)

variable {leaf : Leaf}

theorem IsDecided.asLaid {said : List Source} (h : leaf.IsDecided said) :
    leaf.IsDecided (asLaid said) := by
  match said with
  | [] | [_] => exact h
  | process :: file :: lower =>
    by_cases silent : process = []
    · rw [IsDecided, if_pos silent] at h
      rw [silent, asLaid_of_eq_nil]
      exact h
    · rw [IsDecided, if_neg silent] at h
      rw [asLaid_of_ne_nil silent, IsDecided, if_neg silent]
      exact h.imp_right fun alone source hs => alone source (List.mem_cons_of_mem file hs)

/-- Sources agree down to what decides as they are laid too, if it cannot be something of the second
source that the first one hides. -/
theorem AgreeDown.asLaid {process file : Source} {lower said' : List Source}
    (h : leaf.AgreeDown (process :: file :: lower) said')
    (hides : process ≠ [] → leaf.Decides file → leaf.Decides process) :
    leaf.AgreeDown (asLaid (process :: file :: lower)) (Source.asLaid said') := by
  cases h with
  | @here _ _ lower' decides =>
    rw [asLaid_of_ne_nil decides.ne_nil]
    cases lower' with
    | nil => exact .here decides
    | cons file' lower' =>
      rw [asLaid_of_ne_nil decides.ne_nil]
      exact .here decides
  | there agree =>
    by_cases silent : process = []
    · subst silent
      cases agree with
      | here decides => exact .here decides
      | there agree => exact .there agree
    · cases agree with
      | here decides =>
        rw [asLaid_of_ne_nil silent, asLaid_of_ne_nil silent]
        exact .here (hides silent decides)
      | there agree =>
        rw [asLaid_of_ne_nil silent, asLaid_of_ne_nil silent]
        exact .there agree

end Leaf

end ProductSegments.Settings
