import ProductSegments.Proofs.Text

/-!
# Characters as bytes

A character is read back from the bytes that it is written as, whatever stands behind them, and
from no others.

## Main results

* `Utf8.next?_encodeChar` — a written character is the one at the front.
* `Utf8.eq_of_next?` — the character at the front is written there.
* `Utf8.decode?_encode` — a written text is read back.
* `Utf8.encode_of_ascii` — ASCII characters are written as one byte each.
-/

namespace ProductSegments.Utf8

/-! ### Bytes of numbers -/

section Bytes

variable {n : Nat} {b : UInt8}

theorem toNat_ofNat (h : n < 0x100) : (UInt8.ofNat n).toNat = n := UInt8.toNat_ofNat_of_lt' h

theorem ofNat_lt (h : n < 0x100) (lt : n < b.toNat) : UInt8.ofNat n < b := by
  rw [UInt8.lt_iff_toNat_lt, toNat_ofNat h]
  exact lt

theorem not_ofNat_lt (h : n < 0x100) (le : b.toNat ≤ n) : ¬UInt8.ofNat n < b := by
  rw [UInt8.lt_iff_toNat_lt, toNat_ofNat h]
  exact Nat.not_lt_of_le le

end Bytes

/-- A continuation byte adds its six bits. -/
theorem continued?_succ (value count : Nat) {bits : Nat} (h : bits < 0x40) (s : List UInt8) :
    continued? value (count + 1) (UInt8.ofNat (bits + 0x80) :: s) =
      continued? (value * 0x40 + bits) count s := by
  have low : ¬UInt8.ofNat (bits + 0x80) < 0x80 :=
    not_ofNat_lt (by omega) (show 0x80 ≤ bits + 0x80 by omega)
  have high : UInt8.ofNat (bits + 0x80) < 0xC0 :=
    ofNat_lt (by omega) (show bits + 0x80 < 0xC0 by omega)
  rw [continued?, if_pos ⟨UInt8.not_lt.mp low, high⟩, toNat_ofNat (by omega), Nat.add_sub_cancel]

/-- The code point of a character is one of a character. -/
theorem character_toNat {least : Nat} (c : Char) (h : least ≤ c.toNat) (s : List UInt8) :
    next?.character least (some (c.toNat, s)) = some (c, s) := by
  rw [next?.character, if_pos ⟨h, c.valid⟩, Char.ofNat_toNat]

/-! ### The byte in front -/

section Lead

variable {bits : Nat} (s : List UInt8)

theorem next?_one (h : bits < 0x80) : next? (UInt8.ofNat bits :: s) = some (.ofNat bits, s) := by
  have lead : UInt8.ofNat bits < 0x80 := ofNat_lt (by omega) h
  rw [next?, if_pos lead, toNat_ofNat (by omega)]

theorem next?_two (h : bits < 0x20) : next? (UInt8.ofNat (bits + 0xC0) :: s) =
    next?.character 0x80 (continued? bits 1 s) := by
  rw [next?, if_neg (not_ofNat_lt (by omega) (show 0x80 ≤ bits + 0xC0 by omega)),
    if_neg (not_ofNat_lt (by omega) (show 0xC0 ≤ bits + 0xC0 by omega)),
    if_pos (ofNat_lt (by omega) (show bits + 0xC0 < 0xE0 by omega)), toNat_ofNat (by omega),
    Nat.add_sub_cancel]

theorem next?_three (h : bits < 0x10) : next? (UInt8.ofNat (bits + 0xE0) :: s) =
    next?.character 0x800 (continued? bits 2 s) := by
  rw [next?, if_neg (not_ofNat_lt (by omega) (show 0x80 ≤ bits + 0xE0 by omega)),
    if_neg (not_ofNat_lt (by omega) (show 0xC0 ≤ bits + 0xE0 by omega)),
    if_neg (not_ofNat_lt (by omega) (show 0xE0 ≤ bits + 0xE0 by omega)),
    if_pos (ofNat_lt (by omega) (show bits + 0xE0 < 0xF0 by omega)), toNat_ofNat (by omega),
    Nat.add_sub_cancel]

theorem next?_four (h : bits < 0x08) : next? (UInt8.ofNat (bits + 0xF0) :: s) =
    next?.character 0x10000 (continued? bits 3 s) := by
  rw [next?, if_neg (not_ofNat_lt (by omega) (show 0x80 ≤ bits + 0xF0 by omega)),
    if_neg (not_ofNat_lt (by omega) (show 0xC0 ≤ bits + 0xF0 by omega)),
    if_neg (not_ofNat_lt (by omega) (show 0xE0 ≤ bits + 0xF0 by omega)),
    if_neg (not_ofNat_lt (by omega) (show 0xF0 ≤ bits + 0xF0 by omega)),
    if_pos (ofNat_lt (by omega) (show bits + 0xF0 < 0xF8 by omega)), toNat_ofNat (by omega),
    Nat.add_sub_cancel]

end Lead

/-! ### Characters -/

theorem toNat_lt (c : Char) : c.toNat < 0x110000 := by
  rcases c.valid with h | ⟨-, h⟩
  · exact Nat.lt_trans h (by decide)
  · exact h

/-- **A written character is the one at the front**, with what stands behind it. -/
theorem next?_encodeChar (c : Char) (s : List UInt8) :
    next? (String.utf8EncodeChar c ++ s) = some (c, s) := by
  have bound := toNat_lt c
  unfold String.utf8EncodeChar
  rw [show c.val.toNat = c.toNat from rfl]
  generalize hv : c.toNat = v at bound
  -- by the number of bytes; in each case the bits add up to the code point
  by_cases one : v ≤ 0x7F
  · rw [if_pos one, List.singleton_append, next?_one s (by omega), ← hv, Char.ofNat_toNat]
  rw [if_neg one]
  by_cases two : v ≤ 0x7FF
  · have sum : v / 64 % 0x20 * 0x40 + v % 0x40 = v := by omega
    simp only [if_pos two, List.cons_append, List.nil_append]
    rw [next?_two _ (by omega), continued?_succ _ _ (by omega), continued?, sum, ← hv,
      character_toNat c (by omega)]
  rw [if_neg two]
  by_cases three : v ≤ 0xFFFF
  · have sum : (v / 4096 % 0x10 * 0x40 + v / 64 % 0x40) * 0x40 + v % 0x40 = v := by omega
    simp only [if_pos three, List.cons_append, List.nil_append]
    rw [next?_three _ (by omega), continued?_succ _ _ (by omega), continued?_succ _ _ (by omega),
      continued?, sum, ← hv, character_toNat c (by omega)]
  · have sum : ((v / 262144 % 0x08 * 0x40 + v / 4096 % 0x40) * 0x40 + v / 64 % 0x40) * 0x40
        + v % 0x40 = v := by omega
    simp only [if_neg three, List.cons_append, List.nil_append]
    rw [next?_four _ (by omega), continued?_succ _ _ (by omega), continued?_succ _ _ (by omega),
      continued?_succ _ _ (by omega), continued?, sum, ← hv, character_toNat c (by omega)]

/-- **A written text is read back.** -/
theorem decode?_encode (cs : List Char) : decode? (encode cs) = some cs := by
  have go (read : List Char) : decode?.go read (encode cs) = some (read.reverse ++ cs) := by
    induction cs generalizing read with
    | nil => rw [encode_nil, decode?.go, List.append_nil]
    | cons c cs ih =>
      have front := next?_encodeChar c (encode cs)
      rw [encode_cons]
      obtain ⟨b, s, hs⟩ : ∃ b s, String.utf8EncodeChar c ++ encode cs = b :: s := by
        rcases utf8EncodeChar_cases c with ⟨-, he⟩ | ⟨-, b, s, he, -⟩
        · exact ⟨_, _, by rw [he]; rfl⟩
        · exact ⟨_, _, by rw [he]; rfl⟩
      rw [hs] at front ⊢
      unfold decode?.go
      split
      · next none => rw [front] at none; cases none
      · next d rest found =>
        obtain ⟨rfl, rfl⟩ := Prod.mk.inj (Option.some.inj (front.symm.trans found))
        rw [ih, List.reverse_cons, List.append_assoc]
        rfl
  exact go []

/-! ### Every character has one written form -/

section Written

variable {c : Char} {s r : List UInt8}

theorem toNat_charOfNat {n : Nat} (h : n.isValidChar) : (Char.ofNat n).toNat = n := by
  rw [Char.ofNat, dif_pos h]
  rfl

/-- A byte is told by its bits above a base. -/
theorem exists_bits (b : UInt8) (base : Nat) (h : base ≤ b.toNat) :
    ∃ bits, b.toNat = bits + base ∧ b = UInt8.ofNat (bits + base) := by
  refine ⟨b.toNat - base, (Nat.sub_add_cancel h).symm, ?_⟩
  rw [Nat.sub_add_cancel h, UInt8.ofNat_toNat]

/-- What is continued goes on with the six bits of a continuation byte. -/
theorem exists_of_continued?_succ {value count point : Nat}
    (h : continued? value (count + 1) s = some (point, r)) : ∃ bits t, bits < 0x40 ∧
      s = UInt8.ofNat (bits + 0x80) :: t ∧
      continued? (value * 0x40 + bits) count t = some (point, r) := by
  cases s with
  | nil => cases h
  | cons b t =>
    rw [continued?] at h
    split at h
    · next between =>
      have low : 0x80 ≤ b.toNat := UInt8.le_iff_toNat_le.mp between.1
      have high : b.toNat < 0xC0 := UInt8.lt_iff_toNat_lt.mp between.2
      obtain ⟨bits, number, written⟩ := exists_bits _ _ low
      rw [number, Nat.add_sub_cancel] at h
      exact ⟨bits, t, by omega, by rw [written], h⟩
    · cases h

/-- A character that needs as many bytes as it was written with has the code point found. -/
theorem of_character {least count value : Nat}
    (h : next?.character least (continued? value count s) = some (c, r)) :
    least ≤ c.toNat ∧ continued? value count s = some (c.toNat, r) := by
  cases e : continued? value count s with
  | none =>
    rw [e] at h
    cases h
  | some found =>
    obtain ⟨point, t⟩ := found
    rw [e, next?.character] at h
    split at h
    · next valid =>
      obtain ⟨rfl, rfl⟩ := Prod.mk.inj (Option.some.inj h)
      rw [toNat_charOfNat valid.2]
      exact ⟨valid.1, rfl⟩
    · cases h

theorem encodeChar_two {b₀ b₁ : Nat} (h : b₀ * 64 + b₁ = c.toNat) (least : 0x80 ≤ c.toNat)
    (h₀ : b₀ < 0x20) (h₁ : b₁ < 0x40) :
    String.utf8EncodeChar c = [UInt8.ofNat (b₀ + 0xC0), UInt8.ofNat (b₁ + 0x80)] := by
  unfold String.utf8EncodeChar
  rw [show c.val.toNat = c.toNat from rfl, ← h]
  have bits : (b₀ * 64 + b₁) / 64 % 32 = b₀ ∧ (b₀ * 64 + b₁) % 64 = b₁ := by omega
  simp only [if_neg (show ¬b₀ * 64 + b₁ ≤ 127 by omega),
    if_pos (show b₀ * 64 + b₁ ≤ 2047 by omega), bits]

theorem encodeChar_three {b₀ b₁ b₂ : Nat} (h : (b₀ * 64 + b₁) * 64 + b₂ = c.toNat)
    (least : 0x800 ≤ c.toNat) (h₀ : b₀ < 0x10) (h₁ : b₁ < 0x40) (h₂ : b₂ < 0x40) :
    String.utf8EncodeChar c =
      [UInt8.ofNat (b₀ + 0xE0), UInt8.ofNat (b₁ + 0x80), UInt8.ofNat (b₂ + 0x80)] := by
  unfold String.utf8EncodeChar
  rw [show c.val.toNat = c.toNat from rfl, ← h]
  have bits : ((b₀ * 64 + b₁) * 64 + b₂) / 4096 % 16 = b₀ ∧
      ((b₀ * 64 + b₁) * 64 + b₂) / 64 % 64 = b₁ ∧ ((b₀ * 64 + b₁) * 64 + b₂) % 64 = b₂ := by
    omega
  simp only [if_neg (show ¬(b₀ * 64 + b₁) * 64 + b₂ ≤ 127 by omega),
    if_neg (show ¬(b₀ * 64 + b₁) * 64 + b₂ ≤ 2047 by omega),
    if_pos (show (b₀ * 64 + b₁) * 64 + b₂ ≤ 65535 by omega), bits]

theorem encodeChar_four {b₀ b₁ b₂ b₃ : Nat} (h : ((b₀ * 64 + b₁) * 64 + b₂) * 64 + b₃ = c.toNat)
    (least : 0x10000 ≤ c.toNat) (h₀ : b₀ < 0x08) (h₁ : b₁ < 0x40) (h₂ : b₂ < 0x40)
    (h₃ : b₃ < 0x40) : String.utf8EncodeChar c =
      [UInt8.ofNat (b₀ + 0xF0), UInt8.ofNat (b₁ + 0x80), UInt8.ofNat (b₂ + 0x80),
        UInt8.ofNat (b₃ + 0x80)] := by
  unfold String.utf8EncodeChar
  rw [show c.val.toNat = c.toNat from rfl, ← h]
  have bits : (((b₀ * 64 + b₁) * 64 + b₂) * 64 + b₃) / 262144 % 8 = b₀ ∧
      (((b₀ * 64 + b₁) * 64 + b₂) * 64 + b₃) / 4096 % 64 = b₁ ∧
      (((b₀ * 64 + b₁) * 64 + b₂) * 64 + b₃) / 64 % 64 = b₂ ∧
      (((b₀ * 64 + b₁) * 64 + b₂) * 64 + b₃) % 64 = b₃ := by
    omega
  simp only [if_neg (show ¬((b₀ * 64 + b₁) * 64 + b₂) * 64 + b₃ ≤ 127 by omega),
    if_neg (show ¬((b₀ * 64 + b₁) * 64 + b₂) * 64 + b₃ ≤ 2047 by omega),
    if_neg (show ¬((b₀ * 64 + b₁) * 64 + b₂) * 64 + b₃ ≤ 65535 by omega), bits]

/-- **The character at the front is written there**, so no other bytes spell it. -/
theorem eq_of_next? (h : next? s = some (c, r)) : s = String.utf8EncodeChar c ++ r := by
  cases s with
  | nil => cases h
  | cons a s =>
    rw [next?] at h
    simp only [UInt8.lt_iff_toNat_lt, show UInt8.toNat 0x80 = 0x80 from rfl,
      show UInt8.toNat 0xC0 = 0xC0 from rfl, show UInt8.toNat 0xE0 = 0xE0 from rfl,
      show UInt8.toNat 0xF0 = 0xF0 from rfl, show UInt8.toNat 0xF8 = 0xF8 from rfl] at h
    -- by the byte in front, which tells the number of bytes
    split at h
    · obtain ⟨rfl, rfl⟩ := Prod.mk.inj (Option.some.inj h)
      have point : (Char.ofNat a.toNat).toNat = a.toNat := toNat_charOfNat (.inl (by omega))
      rw [String.utf8EncodeChar, show (Char.ofNat a.toNat).val.toNat = _ from point]
      rw [if_pos (by omega), UInt8.ofNat_toNat, List.singleton_append]
    split at h
    · cases h
    split at h
    · obtain ⟨b₀, number, lead⟩ := exists_bits a 0xC0 (by omega)
      rw [number, Nat.add_sub_cancel] at h
      obtain ⟨least, found⟩ := of_character h
      obtain ⟨b₁, s, h₁, rfl, found₁⟩ := exists_of_continued?_succ found
      obtain ⟨point, rfl⟩ := Prod.mk.inj (Option.some.inj found₁)
      rw [encodeChar_two point least (by omega) h₁, lead]
      rfl
    split at h
    · obtain ⟨b₀, number, lead⟩ := exists_bits a 0xE0 (by omega)
      rw [number, Nat.add_sub_cancel] at h
      obtain ⟨least, found⟩ := of_character h
      obtain ⟨b₁, s₁, h₁, rfl, found₁⟩ := exists_of_continued?_succ found
      obtain ⟨b₂, s₂, h₂, rfl, found₂⟩ := exists_of_continued?_succ found₁
      obtain ⟨point, rfl⟩ := Prod.mk.inj (Option.some.inj found₂)
      rw [encodeChar_three point least (by omega) h₁ h₂, lead]
      rfl
    split at h
    · obtain ⟨b₀, number, lead⟩ := exists_bits a 0xF0 (by omega)
      rw [number, Nat.add_sub_cancel] at h
      obtain ⟨least, found⟩ := of_character h
      obtain ⟨b₁, s₁, h₁, rfl, found₁⟩ := exists_of_continued?_succ found
      obtain ⟨b₂, s₂, h₂, rfl, found₂⟩ := exists_of_continued?_succ found₁
      obtain ⟨b₃, s₃, h₃, rfl, found₃⟩ := exists_of_continued?_succ found₂
      obtain ⟨point, rfl⟩ := Prod.mk.inj (Option.some.inj found₃)
      rw [encodeChar_four point least (by omega) h₁ h₂ h₃, lead]
      rfl
    · cases h

end Written

/-! ### ASCII -/

theorem encodeChar_of_ascii {c : Char} (h : c.toNat < 0x80) :
    String.utf8EncodeChar c = [UInt8.ofNat c.toNat] := by
  rcases utf8EncodeChar_cases c with ⟨-, he⟩ | ⟨large, -⟩
  · exact he
  · omega

/-- **ASCII characters are written as one byte each.** -/
theorem encode_of_ascii {cs : List Char} (h : ∀ c ∈ cs, c.toNat < 0x80) :
    encode cs = cs.map fun c => UInt8.ofNat c.toNat := by
  induction cs with
  | nil => rfl
  | cons c cs ih =>
    rw [encode_cons, encodeChar_of_ascii (h c List.mem_cons_self),
      ih fun d hd => h d (List.mem_cons_of_mem c hd)]
    rfl

end ProductSegments.Utf8
