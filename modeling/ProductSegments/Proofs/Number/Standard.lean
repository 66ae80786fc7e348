import ProductSegments.Proofs.Number.Fewest
import ProductSegments.Proofs.Number.Layout

/-!
# The standard text of a number

Numbers in rules are written as web pages write them.  The standard chooses between digits in place
and an exponent by the decimal exponent of the shortest digits.  One may as well compare the number
itself with 10²¹ and 10⁻⁶: these two are written by a single digit, and rounding keeps the order, so
no number on one side of them has shortest digits on the other.

## Main definitions

* `Digits.IsShortest` — the shortest digits that are read back as a number.
* `Digits.standard` — digits as the standard writes them.
* `Binary64.IsStandard` — the text that the standard has for a number.
* `Binary64.charsByMagnitude` — a number written by comparing it with 10²¹ and 10⁻⁶.

## Main results

* `Digits.isShortest_ofQuanta` — the digits that are chosen are the shortest.
* `Layout.isExtreme_iff` — the comparisons choose as the exponent of the digits does.
* `Layout.isStandard_chars_rule` — numbers in rules have their standard text, by either choice.
-/

namespace ProductSegments

attribute [local irreducible] Binary64.limit Binary64.unit

open Binary64 (magnitude Representable)

/-! ### The standard -/

/-- The first of the digits is no zero, unless it is the only one, and there are as many as is
said. -/
def Digits.IsProper (d : Digits) : Prop := (Nat.toDigits 10 d.value).length = d.count

/-- Digits that are read back as a positive number, none fewer and none of so many nearer to it. -/
structure Digits.IsShortest (d : Digits) {quanta : Nat} (exact : Representable quanta) : Prop where
  proper : d.IsProper
  reads : (d.decimal false).toBinary64 = .finite false quanta exact
  least : ∀ e : Digits, e.IsProper → (e.decimal false).toBinary64 = .finite false quanta exact →
    d.count ≤ e.count
  nearest : ∀ e : Digits, e.IsProper → (e.decimal false).toBinary64 = .finite false quanta exact →
    e.count = d.count → |d.toRat - magnitude quanta| ≤ |e.toRat - magnitude quanta|

/-- The first digit, and behind a point the others if there are any. -/
def Digits.pointed (d : Digits) : List Char :=
  match Nat.toDigits 10 d.value with
  | first :: second :: others => first :: '.' :: second :: others
  | ds => ds

/-- Digits `s`, `k` of them, for the number `0.s · 10 ^ e` as the standard writes them. -/
def Digits.standard (d : Digits) : List Char :=
  let s := Nat.toDigits 10 d.value
  let k : Int := d.count
  let e := d.exponent
  if k ≤ e ∧ e ≤ 21 then s ++ List.replicate (e - k).toNat '0'
  else if 0 < e ∧ e ≤ 21 then s.take e.toNat ++ '.' :: s.drop e.toNat
  else if -6 < e ∧ e ≤ 0 then '0' :: '.' :: (List.replicate (-e).toNat '0' ++ s)
  else d.pointed ++ 'e' :: (if 0 ≤ e - 1 then '+' else '-') :: Nat.toDigits 10 (e - 1).natAbs

/-- The text that the standard has for a number. -/
inductive Binary64.IsStandard : Binary64 → List Char → Prop where
  | nan : IsStandard .nan "NaN".toList
  | infinity : IsStandard (.infinity false) "Infinity".toList
  | negativeInfinity : IsStandard (.infinity true) "-Infinity".toList
  | zero (negative : Bool) (exact : Representable 0) : IsStandard (.finite negative 0 exact) ['0']
  | finite (negative : Bool) {quanta : Nat} (exact : Representable quanta) {d : Digits}
      (nonzero : quanta ≠ 0) (shortest : d.IsShortest exact) :
      IsStandard (.finite negative quanta exact) ((if negative then ['-'] else []) ++ d.standard)

/-! ### Writing by comparison -/

namespace Binary64

/-- The number without its sign. -/
def abs : Binary64 → Binary64
  | nan => nan
  | infinity _ => infinity false
  | finite _ quanta exact => finite false quanta exact

/-- The number nearest to a power of ten. -/
def ofPower (k : Int) : Binary64 := (Decimal.mk false 1 k).toBinary64

/-- The number is at least 10²¹ or below 10⁻⁶, its sign aside. -/
def isExtreme (x : Binary64) : Bool :=
  (x.abs.compare? (ofPower 21)).any (·.isGE) || (x.abs.compare? (ofPower (-6))).any (·.isLT)

end Binary64

/-- Digits with an exponent that has a sign only if it is negative. -/
def Digits.exponential (d : Digits) : List Char :=
  let e := d.exponent - 1
  d.pointed ++ 'e' :: ((if e < 0 then ['-'] else []) ++ Nat.toDigits 10 e.natAbs)

/-- The exponent that stands behind the first `e` of a text gets a plus unless it has a minus. -/
def plusExponent (cs : List Char) : List Char :=
  match cs.dropWhile (· ≠ 'e') with
  | 'e' :: '-' :: _ | [] => cs
  | _ :: exponent => cs.takeWhile (· ≠ 'e') ++ 'e' :: '+' :: exponent

/-- A number written by comparing it with 10²¹ and 10⁻⁶. -/
def Binary64.charsByMagnitude (x : Binary64) : List Char :=
  match x with
  | .nan => "NaN".toList
  | .infinity negative => if negative then "-Infinity".toList else "Infinity".toList
  | .finite negative quanta _ =>
    let d := Shortest.ofQuanta .up quanta
    let sign := if negative then ['-'] else []
    if quanta = 0 then ['0']
    else if x.isExtreme then plusExponent (sign ++ d.exponential)
    else sign ++ Layout.setting.placed d

/-! ### The shortest digits -/

section Shortest

variable {quanta : Nat} (exact : Representable quanta)

/-- Digits read back to a magnitude if they are read as the number of that magnitude. -/
theorem Digits.spells_iff (d : Digits) : Shortest.Spells quanta d ↔
    d.IsProper ∧ (d.decimal false).toBinary64 = .finite false quanta exact := by
  constructor
  · intro h
    exact ⟨h.length, h.toBinary64_eq false exact⟩
  · rintro ⟨proper, reads⟩
    refine ⟨proper, ?_⟩
    rw [Decimal.toBinary64_eq, Binary64.ofRatio, Binary64.round] at reads
    split at reads
    · exact (Binary64.finite.inj reads).2
    · cases reads

/-- **The digits that are chosen are the shortest.** -/
theorem Digits.isShortest_ofQuanta (tie : Tie) (h : quanta ≠ 0) :
    (Shortest.ofQuanta tie quanta).IsShortest exact := by
  have fewest := Shortest.fewest_ofQuanta tie exact.onGrid h
  obtain ⟨proper, reads⟩ := (spells_iff exact _).mp fewest.spells
  exact ⟨proper, reads, fun e he hr => fewest.least e ((spells_iff exact e).mpr ⟨he, hr⟩),
    fun e he hr => fewest.nearest e ((spells_iff exact e).mpr ⟨he, hr⟩)⟩

theorem Digits.IsShortest.count_pos {d : Digits} (h : d.IsShortest exact) : 0 < d.count :=
  h.proper ▸ List.length_pos_of_ne_nil Nat.toDigits_ne_nil

end Shortest

namespace Layout

/-! ### The two choices -/

theorem exists_ofPower {k : Int} (fits : Shortest.power k < Binary64.limit) :
    ∃ exact, Binary64.ofPower k = .finite false (Shortest.power k) exact := by
  refine ⟨Binary64.representable_nearest fits, ?_⟩
  rw [Binary64.ofPower, Decimal.toBinary64_eq]
  refine Binary64.round_of_nearest_eq ?_ _
  simp only [Decimal.numerator, Decimal.denominator, Nat.one_mul]
  rfl

theorem isExtreme_eq {low high : Nat} {exact₁ exact₂}
    (large : Binary64.ofPower 21 = .finite false high exact₁)
    (small : Binary64.ofPower (-6) = .finite false low exact₂) (negative : Bool) {quanta : Nat}
    (exact : Representable quanta) :
    (Binary64.finite negative quanta exact).isExtreme = true ↔ high ≤ quanta ∨ quanta < low := by
  have comparison : ∀ n exact', (Binary64.finite negative quanta exact).abs.compare?
      (.finite false n exact') = some (compare (quanta : Int) n) := fun _ _ => rfl
  rw [Binary64.isExtreme, large, small, comparison, comparison, Option.any_some, Option.any_some,
    Bool.or_eq_true, Std.isGE_compare, Ordering.isLT_iff_eq_lt, compare_lt_iff_lt, Int.ofNat_le,
    Int.ofNat_lt]

/-- **The comparisons choose as the exponent of the digits does.** -/
theorem isExtreme_iff (negative : Bool) {quanta : Nat} (exact : Representable quanta)
    (h : quanta ≠ 0) : (Binary64.finite negative quanta exact).isExtreme = true ↔
      rule.inPlace (Shortest.ofQuanta rule.tie quanta).exponent = false := by
  obtain ⟨exact₁, large⟩ := exists_ofPower (k := 21) (by decide +kernel)
  obtain ⟨exact₂, small⟩ := exists_ofPower (k := -6) (by decide +kernel)
  rw [isExtreme_eq large small, ← Bool.not_eq_true, inPlace_rule_iff exact.onGrid h, not_and_or,
    Nat.not_le, Nat.not_lt, or_comm]

/-- Digits with an exponent, as the standard has them. -/
theorem scaled_eq (d : Digits) : scaled d = d.pointed ++
    'e' :: (if 0 ≤ d.exponent - 1 then '+' else '-') :: Nat.toDigits 10 (d.exponent - 1).natAbs := by
  have sign : (if d.exponent - 1 < 0 then '-' else '+') =
      if 0 ≤ d.exponent - 1 then '+' else '-' := by
    split <;> split <;> first | rfl | omega
  rw [← sign]
  rfl

/-- There is no `e` among the digits. -/
theorem ne_of_mem_pointed {d : Digits} : ∀ c ∈ d.pointed, c ≠ 'e' := by
  have digit : ∀ c ∈ Nat.toDigits 10 d.value, c ≠ 'e' := by
    rintro c hc rfl
    exact absurd (Decimal.isDigit_of_mem_toDigits _ hc) (by decide)
  unfold Digits.pointed
  split
  · next first second others ds =>
    rw [ds] at digit
    intro c hc
    rcases List.mem_cons.mp hc with rfl | hc
    · exact digit _ List.mem_cons_self
    · rcases List.mem_cons.mp hc with rfl | hc
      · decide
      · exact digit c (List.mem_cons_of_mem _ hc)
  · exact digit

/-- Behind the first `e`, an exponent gets a plus if it has no minus. -/
theorem plusExponent_append {front : List Char} (hfront : ∀ c ∈ front, c ≠ 'e')
    (exponent : List Char) : plusExponent (front ++ 'e' :: exponent) =
      front ++ 'e' :: (if exponent.head? = some '-' then exponent else '+' :: exponent) := by
  have other : ∀ c ∈ front, decide (c ≠ 'e') = true := fun c hc => decide_eq_true (hfront c hc)
  unfold plusExponent
  rw [List.dropWhile_append_of_pos other, List.takeWhile_append_of_pos other,
    List.dropWhile_cons_of_neg (by decide), List.takeWhile_cons_of_neg (by decide), List.append_nil]
  match exponent with
  | [] => rfl
  | c :: cs =>
    by_cases minus : c = '-'
    · subst minus
      rfl
    · rw [List.head?_cons, if_neg (fun h => minus (Option.some.inj h))]
      split
      · next h => exact absurd (List.cons.inj (List.cons.inj h).2).1 minus
      · next h => cases h
      · next h => rw [(List.cons.inj h).2]

/-- A plus is put in front of an exponent that has no sign. -/
theorem plusExponent_exponential (negative : Bool) (d : Digits) :
    plusExponent ((if negative then ['-'] else []) ++ d.exponential) =
      (if negative then ['-'] else []) ++ scaled d := by
  have noSign : ∀ n, (Nat.toDigits 10 n).head? ≠ some '-' := fun n h =>
    absurd (Decimal.isDigit_of_mem_toDigits _ (List.mem_of_head? h)) (by decide)
  have digits : ∀ c ∈ (if negative then ['-'] else []) ++ d.pointed, c ≠ 'e' := by
    intro c hc
    rcases List.mem_append.mp hc with hc | hc
    · cases negative
      · cases hc
      · rw [List.mem_singleton.mp hc]
        decide
    · exact ne_of_mem_pointed c hc
  rw [scaled_eq, Digits.exponential, ← List.append_assoc, ← List.append_assoc,
    plusExponent_append digits]
  congr 2
  by_cases below : d.exponent - 1 < 0
  · have above : ¬0 ≤ d.exponent - 1 := Int.not_le.mpr below
    rw [if_pos below, if_neg above]
    rfl
  · have above : 0 ≤ d.exponent - 1 := Int.not_lt.mp below
    rw [if_neg below, if_pos above, List.nil_append, if_neg (noSign _)]

/-- Digits are written in place or with an exponent as the standard has it. -/
theorem standard_eq (d : Digits) (hcount : 0 < d.count) :
    (if rule.inPlace d.exponent then rule.placed d else scaled d) = d.standard := by
  have inPlace : rule.inPlace d.exponent = true ↔ -5 ≤ d.exponent ∧ d.exponent ≤ 21 := by
    simp [Layout.inPlace, rule]
  unfold Digits.standard
  by_cases large : (d.count : Int) ≤ d.exponent ∧ d.exponent ≤ 21
  · rw [if_pos large, if_pos (inPlace.mpr (by omega)), placed, if_neg (by omega), if_pos large.1]
    exact List.append_nil _
  · rw [if_neg large]
    by_cases middle : 0 < d.exponent ∧ d.exponent ≤ 21
    · rw [if_pos middle, if_pos (inPlace.mpr (by omega)), placed, if_neg (by omega),
        if_neg (by omega)]
    · rw [if_neg middle]
      by_cases small : -6 < d.exponent ∧ d.exponent ≤ 0
      · rw [if_pos small, if_pos (inPlace.mpr (by omega)), placed, if_pos small.2]
      · rw [if_neg small, if_neg (fun h => by have := inPlace.mp h; omega), scaled_eq]

/-- **Numbers in rules have their standard text**, and comparing them with 10²¹ and 10⁻⁶ gives the
same text. -/
theorem isStandard_chars_rule (x : Binary64) :
    x.IsStandard (rule.chars x) ∧ x.charsByMagnitude = rule.chars x := by
  match x with
  | .nan => exact ⟨.nan, rfl⟩
  | .infinity true => exact ⟨.negativeInfinity, rfl⟩
  | .infinity false => exact ⟨.infinity, rfl⟩
  | .finite negative 0 exact =>
    have sign : chars.sign (negative && rule.keepsZeroSign) = [] := by cases negative <;> rfl
    have text : rule.chars (.finite negative 0 exact) = ['0'] := by
      rw [chars, sign]
      rfl
    exact ⟨text ▸ .zero negative exact, text.symm⟩
  | .finite negative (quanta + 1) exact =>
    have nonzero : quanta + 1 ≠ 0 := Nat.succ_ne_zero quanta
    have shortest := Digits.isShortest_ofQuanta exact rule.tie nonzero
    have extreme := isExtreme_iff negative exact nonzero
    have text : rule.chars (.finite negative (quanta + 1) exact) =
        (if negative then ['-'] else []) ++
          (Shortest.ofQuanta rule.tie (quanta + 1)).standard := by
      rw [← standard_eq _ shortest.count_pos]
      rfl
    refine ⟨text ▸ .finite negative exact nonzero shortest, ?_⟩
    rw [text, ← standard_eq _ shortest.count_pos, Binary64.charsByMagnitude, if_neg nonzero]
    by_cases far : (Binary64.finite negative (quanta + 1) exact).isExtreme = true
    · have exponent := extreme.mp far
      rw [if_pos far, plusExponent_exponential, exponent, if_neg Bool.false_ne_true]
      rfl
    · have exponent := Bool.eq_true_of_not_eq_false (mt extreme.mpr far)
      rw [if_neg far, exponent, if_pos rfl]
      rfl

end Layout

end ProductSegments
