import ProductSegments.Proofs.Settings.Leaf

/-!
# Variables of the process and of a file

The variables of an environment file are added to those of the process, and only those that are not
set yet.  Where no two variables with different names are about one setting, it makes no difference
for the setting whether the variables of the file come behind those of the process or below them.

## Main definitions

* `Settings.DotEnv.assignments` — all variables that an environment file gives.
* `Settings.Leaf.IsNamedBy` — a variable of some name is about a setting or a part of it.
* `Settings.Unambiguous` — a setting that both kinds of variables are about goes by one name.

## Main results

* `Settings.fullEnvironment_eq` — the variables of the process, and those of the file that are new.
* `Settings.Unambiguous.saidBy_fullEnvironment` — **a setting goes by the variables of the process, and
  by those of the file if there is none for it.**
-/

namespace ProductSegments.Settings

/-! ### Adding variables -/

namespace Environment

/-- The variable is not set. -/
def lacks (env : Environment) (x : String × String) : Bool := (env.get? x.1).isNone

/-- The environment with a variable, unless it is set already. -/
def adopt (env : Environment) (x : String × String) : Environment :=
  if env.lacks x then env ++ [x] else env

theorem get?_append (env env' : Environment) (name : String) :
    Environment.get? (env ++ env') name = (env.get? name).or (env'.get? name) := by
  rw [get?, get?, get?, List.find?_append]
  cases List.find? (fun x : String × String => decide (x.1 = name)) env <;> rfl

theorem lacks_append (env env' : Environment) (x : String × String) :
    Environment.lacks (env ++ env') x = (env.lacks x && env'.lacks x) := by
  rw [lacks, lacks, lacks, get?_append, Option.isNone_or]

theorem lacks_iff {env : Environment} {x : String × String} :
    env.lacks x = true ↔ ∀ y ∈ env, y.1 ≠ x.1 := by
  simp [lacks, get?]

theorem lacks_congr {env : Environment} {x y : String × String} (h : x.1 = y.1) :
    env.lacks x = env.lacks y := by
  rw [lacks, lacks, h]

/-- Of the variables with a name that is not set, all are new. -/
theorem lacks_filter {env : Environment} {x : String × String} (h : env.lacks x = true)
    (env' : Environment) : Environment.lacks (env'.filter env.lacks) x = env'.lacks x := by
  rw [Bool.eq_iff_iff, lacks_iff, lacks_iff]
  constructor
  · intro absent y hy same
    have new : env.lacks y = true := (lacks_congr same).trans h
    exact absent y (List.mem_filter.mpr ⟨hy, new⟩) same
  · intro absent y hy
    exact absent y (List.mem_filter.mp hy).1

/-- Adding variables to an environment adds those that are new to it. -/
theorem foldl_adopt (env ys xs : Environment) :
    xs.foldl adopt (env ++ ys.filter env.lacks) = env ++ (xs.foldl adopt ys).filter env.lacks := by
  induction xs generalizing ys with
  | nil => rfl
  | cons x xs ih =>
    rw [List.foldl_cons, List.foldl_cons, ← ih]
    congr 1
    rw [adopt, adopt, lacks_append]
    cases hx : env.lacks x with
    | true =>
      rw [lacks_filter hx]
      cases ys.lacks x <;> simp [hx]
    | false => cases ys.lacks x <;> simp [hx]

end Environment

namespace DotEnv

open Environment (adopt lacks)

/-- The variables that logical lines give, be they set already or not; `read` are the ones read so
far, the latest first. -/
def given (env read : Environment) : List (Option (List Char)) → Environment
  | [] | none :: _ => []
  | some line :: rest =>
    let get (name : String) := (env.get? name <|> Environment.get? read name).getD ""
    match entry? get line with
    | none => []
    | some none => given env read rest
    | some (some x) => x :: given (env.adopt x) (x :: read) rest

theorem loadLines_eq (env read : Environment) (ls : List (Option (List Char))) :
    loadLines env read ls = (given env read ls).foldl adopt env := by
  induction ls generalizing env read with
  | nil => rfl
  | cons line rest ih =>
    cases line with
    | none => rfl
    | some line =>
      simp only [loadLines, given]
      generalize entry? _ line = said
      rcases said with _ | _ | ⟨name, value⟩
      · rfl
      · exact ih env read
      · have same : (if (env.get? name).isSome then env else env ++ [(name, value)]) =
            env.adopt (name, value) := by
          rw [adopt, lacks]
          cases env.get? name <;> rfl
        simp only [same]
        exact ih _ _

/-- All variables that an environment file gives, be they set already or not.  Of some with one name
the first one counts. -/
def assignments (env : Environment) (file : String) : Environment :=
  (given env [] (lines (chars file))).foldl adopt []

theorem load_eq (env : Environment) (file : String) :
    load env file = env ++ (assignments env file).filter env.lacks := by
  have added := Environment.foldl_adopt env [] (given env [] (lines (chars file)))
  rw [List.filter_nil, List.append_nil] at added
  rw [load, loadLines_eq, added, assignments]

end DotEnv

/-- The variables that the environment file gives, if there is one. -/
def fileVariables (files : Files) (env : Environment) : Environment :=
  match files.get? ".env".toList with
  | some file => DotEnv.assignments env file
  | none => []

/-- The variables are those of the process, and those of the file that are new. -/
theorem fullEnvironment_eq (files : Files) (env : Environment) :
    fullEnvironment files env = env ++ (fileVariables files env).filter env.lacks := by
  unfold fullEnvironment fileVariables
  cases files.get? ".env".toList with
  | none => exact (List.append_nil env).symm
  | some file => exact DotEnv.load_eq env file

/-! ### What variables say -/

theorem isTable_ofText (wantsList : Bool) (text : String) :
    (Value.ofText wantsList text).isTable = false := by
  unfold Value.ofText
  repeat' split
  all_goals rfl

theorem variableSource_append (env env' : Environment) :
    variableSource (env ++ env') = variableSource env ++ variableSource env' := by
  simp only [variableSource, variableEntries, Source.ofEntries, List.filterMap_append,
    List.map_append]

namespace Leaf

/-- A variable with a name is about the setting or a part of it. -/
def IsNamedBy (leaf : Leaf) (name : String) : Prop :=
  ∃ key ∈ variableKey? name, leaf.path.map Stride.key <+: Path.ofKey key

/-- What variables say of a setting. -/
def saidBy (leaf : Leaf) (env : Environment) : Source := (variableSource env).about leaf.path

theorem saidBy_append (leaf : Leaf) (env env' : Environment) :
    leaf.saidBy (env ++ env') = leaf.saidBy env ++ leaf.saidBy env' := by
  rw [saidBy, variableSource_append, Source.about_append]
  rfl

theorem saidBy_of_not_isNamedBy {leaf : Leaf} {name : String} (h : ¬leaf.IsNamedBy name)
    (text : String) : leaf.saidBy [(name, text)] = [] := by
  cases hkey : variableKey? name with
  | none => simp [saidBy, variableSource, variableEntries, hkey, Source.ofEntries]
  | some key =>
    have unnamed : ¬leaf.path.map Stride.key <+: Path.ofKey key :=
      fun isPrefix => h ⟨key, hkey, isPrefix⟩
    simp only [saidBy, variableSource, variableEntries, List.filterMap_cons, hkey, Option.map_some,
      List.filterMap_nil, Source.ofEntries, List.map_cons, List.map_nil]
    exact Source.about_eq_nil (isTable_ofText _ _) unnamed

/-- A variable that is about a setting gives no table, for the setting or for the part of it that its
name tells. -/
theorem IsNamedBy.exists_saidBy {leaf : Leaf} {name : String} (h : leaf.IsNamedBy name) :
    ∃ path, ∀ text, ∃ value, leaf.saidBy [(name, text)] = [(path, value)] ∧ value.isTable = false := by
  obtain ⟨key, hkey, path, hpath⟩ := h
  refine ⟨path, fun text => ⟨.ofText (key = "cors.allowed_origins") text, ?_, isTable_ofText _ _⟩⟩
  simp only [saidBy, variableSource, variableEntries, List.filterMap_cons, Option.mem_def.mp hkey,
    Option.map_some, List.filterMap_nil, Source.ofEntries, List.map_cons, List.map_nil, ← hpath]
  exact Source.about_append_keys leaf.path path _

/-- A variable says something of a setting just if it is named so. -/
theorem saidBy_singleton_eq_nil_iff (leaf : Leaf) (x : String × String) :
    leaf.saidBy [x] = [] ↔ ¬leaf.IsNamedBy x.1 := by
  constructor
  · intro silent named
    obtain ⟨path, said⟩ := named.exists_saidBy
    obtain ⟨value, hvalue, -⟩ := said x.2
    rw [silent] at hvalue
    cases hvalue
  · exact fun unnamed => saidBy_of_not_isNamedBy unnamed x.2

theorem saidBy_cons (leaf : Leaf) (x : String × String) (env : Environment) :
    leaf.saidBy (x :: env) = leaf.saidBy [x] ++ leaf.saidBy env :=
  leaf.saidBy_append [x] env

/-- Variables say nothing of a setting just if none of them is named so. -/
theorem saidBy_eq_nil_iff {leaf : Leaf} {env : Environment} :
    leaf.saidBy env = [] ↔ ∀ x ∈ env, ¬leaf.IsNamedBy x.1 := by
  induction env with
  | nil => simp [saidBy, variableSource, variableEntries, Source.ofEntries]
  | cons x env ih =>
    rw [saidBy_cons, List.append_eq_nil_iff, saidBy_singleton_eq_nil_iff, ih, List.forall_mem_cons]

/-- Variables that are not about a setting may be left out. -/
theorem saidBy_filter {leaf : Leaf} {env : Environment} {keep : String × String → Bool}
    (h : ∀ x ∈ env, leaf.IsNamedBy x.1 → keep x = true) :
    leaf.saidBy (env.filter keep) = leaf.saidBy env := by
  induction env with
  | nil => rfl
  | cons x env ih =>
    have rest := ih fun y hy => h y (List.mem_cons_of_mem x hy)
    rw [saidBy_cons, List.filter_cons]
    split
    · rw [saidBy_cons, rest]
    · next dropped =>
      have silent : leaf.saidBy [x] = [] :=
        (saidBy_singleton_eq_nil_iff leaf x).mpr fun named => dropped (h x List.mem_cons_self named)
      rw [silent, rest, List.nil_append]

theorem settles_saidBy_iff {leaf : Leaf} {env : Environment} :
    (leaf.saidBy env).Settles ↔ ∃ x ∈ env, (leaf.saidBy [x]).Settles := by
  induction env with
  | nil =>
    constructor
    · intro settles
      exact absurd (saidBy_eq_nil_iff.mpr (List.forall_mem_nil _)) settles.ne_nil
    · rintro ⟨x, mem, -⟩
      cases mem
  | cons x env ih =>
    simp only [saidBy_cons leaf x env, Source.settles_append, ih, List.mem_cons, exists_eq_or_imp]

theorem isNamedBy_of_settles {leaf : Leaf} {x : String × String} (h : (leaf.saidBy [x]).Settles) :
    leaf.IsNamedBy x.1 := by
  refine Classical.byContradiction fun unnamed => ?_
  exact h.ne_nil ((saidBy_singleton_eq_nil_iff leaf x).mpr unnamed)

/-- Whether a variable gives a setting as a whole is a matter of its name. -/
theorem settles_saidBy_singleton {leaf : Leaf} {x y : String × String} (same : x.1 = y.1)
    (h : (leaf.saidBy [x]).Settles) : (leaf.saidBy [y]).Settles := by
  have named := isNamedBy_of_settles h
  obtain ⟨path, said⟩ := named.exists_saidBy
  obtain ⟨value, hx, -⟩ := said x.2
  obtain ⟨value', hy, noTable⟩ := said y.2
  obtain ⟨entry, mem, whole, -⟩ := h
  rw [hx, List.mem_singleton] at mem
  rw [same] at hy
  refine ⟨(path, value'), ?_, ?_, noTable⟩
  · rw [hy]
    exact List.mem_singleton_self _
  · rw [mem] at whole
    exact whole

end Leaf

/-- Where a variable of the process and one of the environment file are about one setting, they have
one name. -/
def Unambiguous (files : Files) (env : Environment) : Prop :=
  ∀ leaf : Leaf, ∀ x ∈ env, ∀ y ∈ fileVariables files env,
    leaf.IsNamedBy x.1 → leaf.IsNamedBy y.1 → x.1 = y.1

namespace Unambiguous

variable {files : Files} {env : Environment} (h : Unambiguous files env) (leaf : Leaf)
include h

/-- **A setting goes by the variables of the process, and by those of the file if there is none for
it.** -/
theorem saidBy_fullEnvironment :
    leaf.saidBy (fullEnvironment files env) =
      if leaf.saidBy env = [] then leaf.saidBy (fileVariables files env) else leaf.saidBy env := by
  rw [fullEnvironment_eq, Leaf.saidBy_append]
  split
  · next silent =>
    -- no variable of the process is about the setting, so those of the file for it are new
    have unnamed := Leaf.saidBy_eq_nil_iff.mp silent
    rw [silent, List.nil_append]
    refine Leaf.saidBy_filter fun y _ named => Environment.lacks_iff.mpr ?_
    intro x hx same
    exact unnamed x hx (same ▸ named)
  · next speaks =>
    rw [Leaf.saidBy_eq_nil_iff] at speaks
    obtain ⟨x, hx, named⟩ : ∃ x ∈ env, leaf.IsNamedBy x.1 := by simpa using speaks
    have old : leaf.saidBy ((fileVariables files env).filter env.lacks) = [] := by
      refine Leaf.saidBy_eq_nil_iff.mpr fun y hy named' => ?_
      obtain ⟨mem, new⟩ := List.mem_filter.mp hy
      exact Environment.lacks_iff.mp new x hx (h leaf x hx y mem named named')
    rw [old, List.append_nil]

variable {leaf} in
/-- Where variables of both kinds are about a setting and the file gives it as a whole, so does the
process, under the same name. -/
theorem settles_saidBy (speaks : leaf.saidBy env ≠ [])
    (settles : (leaf.saidBy (fileVariables files env)).Settles) : (leaf.saidBy env).Settles := by
  rw [Ne, Leaf.saidBy_eq_nil_iff] at speaks
  obtain ⟨x, hx, named⟩ : ∃ x ∈ env, leaf.IsNamedBy x.1 := by simpa using speaks
  obtain ⟨y, hy, whole⟩ := Leaf.settles_saidBy_iff.mp settles
  have named' := Leaf.isNamedBy_of_settles whole
  have same := h leaf x hx y hy named named'
  exact Leaf.settles_saidBy_iff.mpr ⟨x, hx, Leaf.settles_saidBy_singleton same.symm whole⟩

variable {leaf} in
/-- The variables of the process hide nothing of the file that decides about a setting, unless they
decide about it too. -/
theorem decides_saidBy (speaks : leaf.saidBy env ≠ [])
    (decides : leaf.Decides (leaf.saidBy (fileVariables files env))) :
    leaf.Decides (leaf.saidBy env) :=
  decides.imp (h.settles_saidBy speaks) fun plain => ⟨plain.1, speaks⟩

end Unambiguous

end ProductSegments.Settings
