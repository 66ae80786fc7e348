import ProductSegments.Json.Record

/-!
# What readers yield

A property of everything that a reader can give, whatever it is given to read, follows from the
properties of what its parts give.

## Main definitions

* `Json.Yields` — whatever a reader gives has a property.
* `Json.Keeps` — whatever the reader of a member gives keeps a property of drafts.

## Main results

* `Json.yields_number` — a number of a document is finite.
* `Json.yields_array` — the items of a list have what every item has.
* `Json.yields_record` — what every member of a record keeps holds of the whole record.
-/

namespace ProductSegments.Json

variable {α β σ : Type}

/-- What comes of two steps comes of the second one, after the first. -/
theorem exists_of_bind {x : Except Fault α} {f : α → Except Fault β} {b : β}
    (h : x >>= f = .ok b) : ∃ a, x = .ok a ∧ f a = .ok b := by
  cases x with
  | error fault => cases h
  | ok a => exact ⟨a, rfl, h⟩

/-- Whatever the reader gives has the property. -/
def Yields (reader : Reader α) (P : α → Prop) : Prop := ∀ s step, reader s = .ok step → P step.value

section Yields

variable {reader : Reader α} {P : α → Prop} {Q : β → Prop}

/-- What a whole document holds is what its reader gives. -/
theorem Yields.document (h : Yields reader P) {s : List UInt8} {value : α}
    (read : Json.document reader s = .ok value) : P value := by
  obtain ⟨given, step, read⟩ := exists_of_bind read
  dsimp only at read
  split at read
  · obtain rfl := Except.ok.inj read
    exact h s given step
  · cases read

theorem yields_refine {f : α → Option β} (h : Yields reader P)
    (hf : ∀ a b, P a → f a = some b → Q b) : Yields (refine f reader) Q := by
  intro s step read
  obtain ⟨given, found, read⟩ := exists_of_bind read
  dsimp only at read
  split at read
  · next result some =>
    obtain rfl := Except.ok.inj read
    exact hf _ _ (h s given found) some
  · cases read

theorem yields_expect {select : Scalar → Except Fault α} {S : Scalar → Prop} (h : Yields scalar S)
    (hselect : ∀ found a, S found → select found = .ok a → P a) : Yields (expect select) P := by
  intro s step read
  obtain ⟨given, found, read⟩ := exists_of_bind read
  obtain ⟨a, selected, read⟩ := exists_of_bind read
  obtain rfl := Except.ok.inj read
  exact hselect _ _ (h s given found) selected

end Yields

/-! ### Numbers -/

/-- If the scalar is a number, it is finite. -/
def Scalar.IsFinite : Scalar → Prop
  | number n => n.value.isFinite = true
  | _ => True

theorem isFinite_of_number? {s rest : List UInt8} {n : Numeral} (h : number? s = some (n, rest)) :
    n.value.isFinite = true := by
  unfold number? at h
  split at h
  · split at h
    · next finite =>
      obtain ⟨rfl, -⟩ := Prod.mk.inj (Option.some.inj h)
      exact finite
    · cases h
  · cases h

theorem value_word {expected : List UInt8} {value : α} {s origin : List UInt8}
    {lt : s.length < origin.length} {step : Step α origin}
    (h : word expected value s origin lt = .ok step) : step.value = value := by
  unfold word at h
  split at h
  · obtain rfl := Except.ok.inj h
    rfl
  · cases h

/-- The numbers among the scalars are finite. -/
theorem yields_scalar : Yields scalar Scalar.IsFinite := by
  intro s step read
  unfold scalar at read
  split at read
  · cases read
  -- by the kind of value that the first byte announces
  · split at read
    · rw [value_word read]
      trivial
    · split at read
      · rw [value_word read]
        trivial
      · rw [value_word read]
        trivial
    · split at read
      · next found =>
        obtain rfl := Except.ok.inj read
        exact isFinite_of_number? found
      · cases read
    · split at read
      · obtain rfl := Except.ok.inj read
        trivial
      · cases read
    · cases read
    · cases read
    · cases read

/-- **A number of a document is finite.** -/
theorem yields_number : Yields number (fun x => x.isFinite = true) := by
  refine yields_expect yields_scalar fun found x finite selected => ?_
  cases found with
  | number n =>
    obtain rfl := Except.ok.inj selected
    exact finite
  | null => cases selected
  | flag => cases selected
  | string => cases selected

/-! ### Lists -/

section Array

variable {item : Reader α} {P : α → Prop}

/-- What has been read and what is read behind it has the property of the items. -/
theorem forall_mem_itemsTail (h : Yields item P) {close : UInt8} {origin : List UInt8}
    {read : List α} {s : List UInt8} {lt : s.length < origin.length} (all : ∀ a ∈ read, P a) :
    ∀ step, itemsTail item close origin read s lt = .ok step → ∀ a ∈ step.value, P a := by
  fun_induction itemsTail item close origin read s lt with
  | case2 =>
    intro step done a mem
    obtain rfl := Except.ok.inj done
    exact all a (List.mem_reverse.mp mem)
  | case4 read s lt _ _ _ _ _ _ value rest shorter found ih =>
    have first : P value := h s ⟨value, rest, shorter⟩ found
    exact ih fun a mem => List.mem_singleton.mp mem ▸ first
  | case6 read s lt behind _ _ value rest shorter found _ _ _ ih =>
    have next : P value := h behind ⟨value, rest, shorter⟩ found
    exact ih (List.forall_mem_cons.mpr ⟨next, all⟩)
  | case1 => exact nofun
  | case3 => exact nofun
  | case5 => exact nofun
  | case7 => exact nofun

/-- **The items of a list have what every item has.** -/
theorem yields_array (h : Yields item P) : Yields (array item) (fun items => ∀ a ∈ items, P a) := by
  intro s step read
  unfold array at read
  split at read
  · cases read
  · split at read
    · exact forall_mem_itemsTail h (by simp) step read
    · split at read
      · cases read
      · cases read

end Array

/-! ### Records -/

section Record

variable {members : List (Member σ)} {I : σ → Prop}

/-- Whatever the reader of the member gives keeps the property of drafts. -/
def Keeps (I : σ → Prop) (member : Member σ) : Prop :=
  Yields member.reader fun put => ∀ draft, I draft → I (put draft)

/-- A member keeps what its value keeps when it is put into a draft. -/
theorem keeps_of {reader : Reader α} {P : α → Prop} (h : Yields reader P) (name : String)
    (get : σ → Option α) {put : α → σ → σ} (isTrailing : Bool)
    (hput : ∀ a draft, P a → I draft → I (put a draft)) :
    Keeps I (Member.of name reader get put isTrailing) := by
  intro s step read
  obtain ⟨given, found, read⟩ := exists_of_bind read
  obtain rfl := Except.ok.inj read
  exact fun draft => hput _ draft (h s given found)

/-- A member keeps what no value of it changes. -/
theorem keeps_of_frame (reader : Reader α) (name : String) (get : σ → Option α) {put : α → σ → σ}
    (isTrailing : Bool) (hput : ∀ a draft, I draft → I (put a draft)) :
    Keeps I (Member.of name reader get put isTrailing) :=
  keeps_of (P := fun _ => True) (fun _ _ _ => trivial) name get isTrailing
    fun a draft _ => hput a draft

theorem yields_afterColon {reader : Reader α} {P : α → Prop} (h : Yields reader P) :
    Yields (afterColon reader) P := by
  intro s step read
  obtain ⟨colon, -, read⟩ := exists_of_bind read
  dsimp only at read
  split at read
  · obtain ⟨given, found, read⟩ := exists_of_bind read
    obtain rfl := Except.ok.inj read
    exact h _ given found
  · cases read

theorem yields_memberValue (keeps : ∀ member ∈ members, Keeps I member) {draft : σ} (h : I draft)
    (name : List Char) : Yields (memberValue members draft name) I := by
  intro s step read
  unfold memberValue at read
  split at read
  · obtain ⟨skipped, -, read⟩ := exists_of_bind read
    obtain rfl := Except.ok.inj read
    exact h
  · next member found =>
    split at read
    · cases read
    · obtain ⟨given, value, read⟩ := exists_of_bind read
      obtain rfl := Except.ok.inj read
      exact yields_afterColon (keeps member (List.mem_of_find?_eq_some found)) _ given value draft h

/-- An object keeps what each of its members keeps. -/
theorem keeps_objectTail (keeps : ∀ member ∈ members, Keeps I member) {origin : List UInt8}
    {first : Bool} {draft : σ} {s : List UInt8} {lt : s.length < origin.length} (h : I draft) :
    ∀ step, objectTail members origin first draft s lt = .ok step → I step.value := by
  fun_induction objectTail members origin first draft s lt with
  | case2 =>
    intro step done
    obtain rfl := Except.ok.inj done
    exact h
  | case6 _ draft _ _ _ _ _ _ _ _ _ name afterName _ _ draft' rest shorter value _ _ _ ih =>
    exact ih (yields_memberValue keeps h name afterName ⟨draft', rest, shorter⟩ value)
  | case1 => exact nofun
  | case3 => exact nofun
  | case4 => exact nofun
  | case5 => exact nofun
  | case7 => exact nofun

theorem yields_memberInPlace {reader : Reader α} {P : α → Prop} (h : Yields reader P) {first : Bool}
    {s behind : List UInt8} {b : UInt8} {lt : behind.length < s.length} {step : Step α s}
    (read : memberInPlace reader first s b behind lt = .ok step) : P step.value := by
  unfold memberInPlace at read
  split at read
  · exact h s step read
  · split at read
    · split at read
      · next found =>
        obtain rfl := Except.ok.inj read
        exact h behind _ found
      · cases read
    · cases read

/-- So does a list of members. -/
theorem keeps_listTail {origin : List UInt8} {first : Bool} {draft : σ} {s : List UInt8}
    {lt : s.length < origin.length} (keeps : ∀ member ∈ members, Keeps I member) (h : I draft) :
    ∀ step, listTail origin first draft members s lt = .ok step → I step.value := by
  induction members generalizing first draft s with
  | nil =>
    intro step read
    unfold listTail at read
    split at read
    · cases read
    · split at read
      · obtain rfl := Except.ok.inj read
        exact h
      · cases read
  | cons member members ih =>
    obtain ⟨keep, keeps⟩ := List.forall_mem_cons.mp keeps
    intro step read
    unfold listTail at read
    split at read
    · cases read
    · split at read
      · split at read
        · obtain rfl := Except.ok.inj read
          exact h
        · cases read
      · split at read
        · cases read
        · next put rest shorter found =>
          exact ih keeps (yields_memberInPlace keep found draft h) step read

/-- **What every member of a record keeps holds of the whole record**, in either form. -/
theorem yields_record {empty : σ} {finish : σ → Option α} {P : α → Prop}
    (keeps : ∀ member ∈ members, Keeps I member) (hempty : I empty)
    (hfinish : ∀ draft a, I draft → finish draft = some a → P a) :
    Yields (record members empty finish) P := by
  refine yields_refine (P := I) (fun s step read => ?_) hfinish
  split at read
  · cases read
  · split at read
    · exact keeps_objectTail keeps hempty step read
    · split at read
      · exact keeps_listTail keeps hempty step read
      · split at read
        · cases read
        · cases read

end Record

end ProductSegments.Json
