import ProductSegments.Calendar.Timestamp
import ProductSegments.Proofs.Number.Numeral

/-!
# Written instants are read back

Every instant is read back from the text that it is written as: in the years before zero and after
9999, which have a sign, inside leap seconds, and with any fraction of a second.

## Main results

* `Instant.ofDigits_padded`, `Instant.length_padded` — zeros in front change the length of a number
  and nothing else.
* `Instant.mem_alphabet_chars` — an instant is written with few characters.
* `Timestamp.year_yearChars`, `Timestamp.fraction_fractionChars` — years and fractions are read back.
* `Timestamp.instant?_self` — an instant is put together from its parts.
* `Timestamp.lenient?_chars` — **every instant is read back**.
-/

namespace ProductSegments

open Decimal (Stops stops_cons takeWhile_digits dropWhile_digits)
open Text (isBlank trimStart)

/-! ### Parts of a date -/

theorem Calendar.le_of_one_le_daysIn {year : Int} {month : Nat} (h : 1 ≤ daysIn year month) :
    month ≤ 12 := by
  unfold daysIn at h
  split at h <;> omega

theorem Calendar.daysIn_le (year : Int) (month : Nat) : daysIn year month ≤ 31 := by
  unfold daysIn
  split
  · split <;> decide
  all_goals decide

namespace Instant

variable {width n : Nat}

theorem isDigit_padded : ∀ c ∈ padded width n, c.isDigit = true :=
  List.forall_mem_append.mpr ⟨Decimal.isDigit_of_mem_zeros, Decimal.isDigit_of_mem_toDigits⟩

theorem padded_ne_nil (width n : Nat) : padded width n ≠ [] := by
  simp [padded, Nat.toDigits_ne_nil]

/-- Zeros in front do not change a number. -/
theorem ofDigits_padded (width n : Nat) : Decimal.ofDigits (padded width n) = n := by
  rw [padded, Decimal.ofDigits_zeros_append, Decimal.ofDigits_toDigits]

/-- They bring it to its width. -/
theorem length_padded (pos : 0 < width) (h : n < tenPow width) : (padded width n).length = width := by
  have le : (Nat.toDigits 10 n).length ≤ width := (Nat.length_toDigits_le_iff (by decide) pos).mpr h
  rw [padded, List.length_append, List.length_replicate]
  omega

/-! ### Characters -/

/-- The characters that instants are written with. -/
def alphabet : List Char := "0123456789-+:.TZ".toList

theorem mem_alphabet_of_isDigit {c : Char} (h : c.isDigit = true) : c ∈ alphabet :=
  Text.of_ascii (P := fun c => c.isDigit = true → c ∈ alphabet) (by decide)
    (Text.toNat_lt_of_isDigit h) h

theorem mem_alphabet_padded (width n : Nat) : ∀ c ∈ padded width n, c ∈ alphabet := fun c hc =>
  mem_alphabet_of_isDigit (isDigit_padded c hc)

theorem mem_alphabet_yearChars (year : Int) : ∀ c ∈ yearChars year, c ∈ alphabet := by
  unfold yearChars
  split
  · exact mem_alphabet_padded _ _
  · split <;> exact List.forall_mem_cons.mpr ⟨by decide, mem_alphabet_padded _ _⟩

theorem mem_alphabet_fractionChars (nano : Nat) : ∀ c ∈ fractionChars nano, c ∈ alphabet := by
  have pointed : ∀ width n, ∀ c ∈ '.' :: padded width n, c ∈ alphabet := fun width n =>
    List.forall_mem_cons.mpr ⟨by decide, mem_alphabet_padded _ _⟩
  unfold fractionChars
  split
  · exact List.forall_mem_nil _
  · split
    · exact pointed _ _
    · split <;> exact pointed _ _

/-- **An instant is written with few characters.** -/
theorem mem_alphabet_chars (t : Instant) : ∀ c ∈ t.chars, c ∈ alphabet := by
  have after : ∀ {sign : Char} {cs ds : List Char}, sign ∈ alphabet → (∀ c ∈ cs, c ∈ alphabet) →
      (∀ c ∈ ds, c ∈ alphabet) → ∀ c ∈ cs ++ sign :: ds, c ∈ alphabet := fun hsign hcs hds =>
    List.forall_mem_append.mpr ⟨hcs, List.forall_mem_cons.mpr ⟨hsign, hds⟩⟩
  refine after (by decide) (mem_alphabet_yearChars _) ?_
  refine after (by decide) (mem_alphabet_padded _ _) ?_
  refine after (by decide) (mem_alphabet_padded _ _) ?_
  refine after (by decide) (mem_alphabet_padded _ _) ?_
  refine after (by decide) (mem_alphabet_padded _ _) ?_
  refine List.forall_mem_append.mpr ⟨mem_alphabet_padded _ _, ?_⟩
  exact after (by decide) (mem_alphabet_fractionChars _) (List.forall_mem_nil _)

end Instant

namespace Timestamp

open Instant (padded isDigit_padded padded_ne_nil ofDigits_padded length_padded yearChars
  fractionChars)

variable {rest : List Char}

/-! ### Scans -/

theorem trimStart_cons {c : Char} (h : isBlank c = false) (cs : List Char) :
    trimStart (c :: cs) = c :: cs :=
  List.dropWhile_cons_of_neg (by simp [h])

theorem isBlank_of_isDigit {c : Char} (h : c.isDigit = true) : isBlank c = false :=
  Text.of_ascii (P := fun c => c.isDigit = true → isBlank c = false) (by decide)
    (Text.toNat_lt_of_isDigit h) h

theorem trimStart_padded (width n : Nat) (rest : List Char) :
    trimStart (padded width n ++ rest) = padded width n ++ rest := by
  obtain ⟨d, ds, h⟩ := List.exists_cons_of_ne_nil (padded_ne_nil width n)
  rw [h, List.cons_append]
  exact trimStart_cons (isBlank_of_isDigit (isDigit_padded d (h ▸ List.mem_cons_self))) _

/-- A number of a width is read where it may have that width and no digit follows. -/
theorem number_padded {least most width n : Nat} (pos : 0 < width) (h : n < tenPow width)
    (ge : least ≤ width) (le : width ≤ most) (stops : Stops rest) :
    number least most (padded width n ++ rest) = some (n, rest) := by
  have length := length_padded pos h
  have stops' : Stops (rest.take (most - (padded width n).length)) := by
    intro c hc
    rw [List.head?_take] at hc
    split at hc
    · cases hc
    · exact stops c hc
  have run : ((padded width n ++ rest).take most).takeWhile Char.isDigit = padded width n := by
    rw [List.take_append, List.take_of_length_le (by omega)]
    exact takeWhile_digits isDigit_padded stops'
  unfold number
  rw [run]
  dsimp only
  rw [if_neg (by omega), ofDigits_padded, List.drop_left]

/-- Two digits, at least one of which must stand there. -/
theorem spacedPart_padded {n : Nat} (h : n < 100) (stops : Stops rest) :
    spacedPart (padded 2 n ++ rest) = some (n, rest) := by
  rw [spacedPart, trimStart_padded]
  exact number_padded (by decide) h (by decide) (by decide) stops

theorem spacedChar_self {c : Char} (h : isBlank c = false) (cs : List Char) :
    spacedChar c (c :: cs) = some ((), cs) := by
  rw [spacedChar, trimStart_cons h, char, if_pos rfl]

theorem anyNumber_padded (width n : Nat) (stops : Stops rest) :
    anyNumber (padded width n ++ rest) = some (n, rest) := by
  unfold anyNumber
  rw [takeWhile_digits isDigit_padded stops, dropWhile_digits isDigit_padded stops]
  dsimp only
  rw [if_neg (by simp [padded_ne_nil]), ofDigits_padded]

/-- **Every year is read back**, with a sign outside the years 0 to 9999. -/
theorem year_yearChars (y : Int) (stops : Stops rest) :
    year (trimStart (yearChars y ++ rest)) = some (y, rest) := by
  unfold yearChars
  by_cases plain : 0 ≤ y ∧ y ≤ 9999
  · rw [if_pos plain, trimStart_padded]
    have digits : number 1 4 (padded 4 y.toNat ++ rest) = some (y.toNat, rest) :=
      number_padded (by decide) (show y.toNat < 10000 by omega) (by decide) (by decide) stops
    obtain ⟨d, ds, h⟩ := List.exists_cons_of_ne_nil (padded_ne_nil 4 y.toNat)
    have hd := isDigit_padded d (h ▸ List.mem_cons_self)
    rw [h, List.cons_append] at digits ⊢
    -- the first digit is no sign
    unfold year
    split
    · next heq =>
      obtain rfl := (List.cons.inj heq).1
      cases hd
    · next heq =>
      obtain rfl := (List.cons.inj heq).1
      cases hd
    · rw [digits, Option.map_some]
      simp only [Int.toNat_of_nonneg plain.1]
  · rw [if_neg plain]
    by_cases negative : y < 0
    · rw [if_pos negative, List.cons_append, trimStart_cons (by decide), year,
        anyNumber_padded _ _ stops, Option.map_some]
      simp only [Option.some.injEq, Prod.mk.injEq, and_true]
      omega
    · rw [if_neg negative, List.cons_append, trimStart_cons (by decide), year,
        anyNumber_padded _ _ stops, Option.map_some]
      simp only [Option.some.injEq, Prod.mk.injEq, and_true]
      omega

/-- Digits behind a point are read as nanoseconds. -/
theorem fraction_padded {width n : Nat} (pos : 0 < width) (le : width ≤ 9) (h : n < tenPow width)
    (stops : Stops rest) :
    fraction ('.' :: (padded width n ++ rest)) = some (n * tenPow (9 - width), rest) := by
  have length := length_padded pos h
  simp only [fraction, takeWhile_digits isDigit_padded stops,
    dropWhile_digits isDigit_padded stops]
  rw [if_neg (by simp [padded_ne_nil]), List.take_of_length_le (by omega), ofDigits_padded, length]

/-- **Every fraction of a second is read back**, in whatever number of digits it is written. -/
theorem fraction_fractionChars {nano : Nat} (h : nano < 1000000000) :
    fraction (fractionChars nano ++ ['Z']) = some (nano, ['Z']) := by
  have stops : Stops ['Z'] := stops_cons [] rfl
  unfold fractionChars
  by_cases whole : nano = 0
  · rw [if_pos whole, whole]
    rfl
  rw [if_neg whole]
  by_cases milli : nano % 1000000 = 0
  · rw [if_pos milli, List.cons_append, fraction_padded (by decide) (by decide)
      (show nano / 1000000 < 1000 by omega) stops]
    have : nano / 1000000 * tenPow (9 - 3) = nano := by
      show nano / 1000000 * 1000000 = nano
      omega
    rw [this]
  rw [if_neg milli]
  by_cases micro : nano % 1000 = 0
  · rw [if_pos micro, List.cons_append, fraction_padded (by decide) (by decide)
      (show nano / 1000 < 1000000 by omega) stops]
    have : nano / 1000 * tenPow (9 - 6) = nano := by
      show nano / 1000 * 1000 = nano
      omega
    rw [this]
  · rw [if_neg micro, List.cons_append, fraction_padded (by decide) (by decide) h stops]
    have : nano * tenPow (9 - 9) = nano := Nat.mul_one nano
    rw [this]

/-! ### The instant -/

/-- **An instant is put together from its parts.** -/
theorem instant?_self (t : Instant) : instant? t.date.year t.date.month t.date.day (t.second / 3600)
    (t.second / 60 % 60) (t.second % 60 + t.nano / 1000000000) (t.nano % 1000000000) 0 = some t := by
  have lt := t.second_lt
  have nano := t.nano_lt
  have time : Instant.timeOfDay? (t.second / 3600) (t.second / 60 % 60)
      (t.second % 60 + t.nano / 1000000000) (t.nano % 1000000000) = some (t.second, t.nano) := by
    unfold Instant.timeOfDay?
    rw [if_neg (by omega)]
    -- a leap second is the one that is written as the sixtieth
    by_cases leap : t.nano < 1000000000
    · rw [if_neg (by omega)]
      simp only [Option.some.injEq, Prod.mk.injEq]
      omega
    · rw [if_pos (by omega)]
      simp only [Option.some.injEq, Prod.mk.injEq]
      omega
  have day : Instant.ofDay? t.date t.second t.nano = some t := by
    rw [Instant.ofDay?, dif_pos ⟨lt, nano⟩]
  have localTime : Instant.ofLocal? t.date t.second t.nano 0 = some t := by
    unfold Instant.ofLocal?
    rw [if_pos (by decide)]
    dsimp only
    rw [if_neg (by omega), if_neg (by omega), show ((t.second : Int) - 0 * 60).toNat = t.second by omega]
    exact day
  unfold instant?
  rw [time, Date.ofCivil?_self]
  exact localTime

/-- **Every instant is read back.** -/
theorem lenient?_chars (t : Instant) : lenient? t.chars = some t := by
  have lt := t.second_lt
  have nano := t.nano_lt
  have month : t.date.month < 100 :=
    Nat.lt_of_le_of_lt (Calendar.le_of_one_le_daysIn (Nat.le_trans t.date.day_mem.1 t.date.day_mem.2))
      (by decide)
  have day : t.date.day < 100 :=
    Nat.lt_of_le_of_lt (Nat.le_trans t.date.day_mem.2 (Calendar.daysIn_le _ _)) (by decide)
  have dash : ∀ cs, Stops ('-' :: cs) := fun cs => stops_cons cs rfl
  have colon : ∀ cs, Stops (':' :: cs) := fun cs => stops_cons cs rfl
  have mark : ∀ cs, Stops ('T' :: cs) := fun cs => stops_cons cs rfl
  have behind : Stops (fractionChars (t.nano % 1000000000) ++ ['Z']) := by
    unfold fractionChars
    split
    · exact stops_cons _ rfl
    · split
      · exact stops_cons _ rfl
      · split <;> exact stops_cons _ rfl
  have letter : lenientOffset (trimStart ['Z']) = some (0, []) := by decide
  unfold lenient? Instant.chars
  dsimp only
  simp only [year_yearChars _ (dash _), spacedChar_self (c := '-') (by decide),
    spacedChar_self (c := ':') (by decide), spacedPart_padded month (dash _),
    spacedPart_padded day (mark _),
    spacedPart_padded (show t.second / 3600 < 100 by omega) (colon _),
    spacedPart_padded (show t.second / 60 % 60 < 100 by omega) (colon _),
    spacedPart_padded (show t.second % 60 + t.nano / 1000000000 < 100 by omega) behind,
    fraction_fractionChars (show t.nano % 1000000000 < 1000000000 by omega), letter, separator,
    bind, Option.bind, decide_true, Bool.true_or, if_true]
  exact instant?_self t

end Timestamp

end ProductSegments
