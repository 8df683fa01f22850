import SourceSurvey.Proofs.Text.Encoding

/-!
# Bytes that are the encoding of a text

A reader that refuses faults accepts the encodings of texts and nothing else (`decode?_eq_some_iff`): where no
fault is found, the bytes of each character that was read are the bytes it was read from.
-/

namespace SourceSurvey.Text.Utf8

variable {b low high : UInt8} {bits n v : Nat} {rest after bytes : List UInt8} {s : String}

/-! ## One character -/

theorem exists_of_follow (h : follow (n + 1) low high bits rest = (some v, after)) :
    ∃ b rest', rest = b :: rest' ∧ low.toNat ≤ b.toNat ∧ b.toNat ≤ high.toNat ∧
      follow n 0x80 0xBF (bits * 0x40 + b.toNat % 0x40) rest' = (some v, after) := by
  cases rest with
  | nil => cases h
  | cons b rest =>
      rw [follow] at h
      split at h
      · next within =>
        exact ⟨b, rest, rfl, UInt8.le_iff_toNat_le.mp within.1, UInt8.le_iff_toNat_le.mp within.2, h⟩
      · cases h

/-- A lead byte is in one of four ranges, by the number of bytes that follow. -/
theorem range_of_lead? {l : Lead} (found : lead? b = some l) :
    b.toNat < 0x80 ∨ 0xC2 ≤ b.toNat ∧ b.toNat < 0xE0 ∨ 0xE0 ≤ b.toNat ∧ b.toNat < 0xF0 ∨
      0xF0 ≤ b.toNat ∧ b.toNat < 0xF5 := by
  have none : ∀ n < 0x100, 0x80 ≤ n → (0xF5 ≤ n ∨ n < 0xC2) → (lead? (UInt8.ofNat n)).isNone = true := by
    decide +kernel
  by_contra outside
  have := none b.toNat b.toNat_lt (by omega) (by omega)
  rw [UInt8.ofNat_toNat, found] at this
  cases this

/-- The bytes of the character with a code point. -/
theorem utf8EncodeChar_ofNat (valid : v.isValidChar) : String.utf8EncodeChar (Char.ofNat v) =
    if v ≤ 0x7F then [UInt8.ofNat v]
    else if v ≤ 0x7FF then [UInt8.ofNat (v / 64 % 32 + 192), UInt8.ofNat (v % 64 + 128)]
    else if v ≤ 0xFFFF then
      [UInt8.ofNat (v / 4096 % 16 + 224), UInt8.ofNat (v / 64 % 64 + 128), UInt8.ofNat (v % 64 + 128)]
    else [UInt8.ofNat (v / 262144 % 8 + 240), UInt8.ofNat (v / 4096 % 64 + 128),
      UInt8.ofNat (v / 64 % 64 + 128), UInt8.ofNat (v % 64 + 128)] := by
  have code : (Char.ofNat v).val.toNat = v := by
    rw [Char.ofNat, dif_pos valid]
    rfl
  rw [String.utf8EncodeChar, code]

/-- **A character is read from its own bytes.** -/
theorem eq_utf8EncodeChar_of_follow {l : Lead} (found : lead? b = some l)
    (followed : follow l.following l.low l.high l.bits rest = (some v, after)) :
    b :: rest = String.utf8EncodeChar (Char.ofNat v) ++ after := by
  have lowest : (0x80 : UInt8).toNat = 0x80 := rfl
  have highest : (0xBF : UInt8).toNat = 0xBF := rfl
  have byte : ∀ {b : UInt8} {n : Nat}, b.toNat = n → UInt8.ofNat n = b := by
    rintro b n rfl
    exact UInt8.ofNat_toNat
  rcases range_of_lead? found with one | two | three | four
  · rw [lead?_one one] at found
    cases found
    dsimp only [follow] at followed
    cases followed
    rw [utf8EncodeChar_ofNat (by omega), if_pos (by omega), byte rfl]
    rfl
  · rw [lead?_two two.1 two.2] at found
    cases found
    dsimp only at followed
    obtain ⟨c, rest, rfl, hc, hc', followed⟩ := exists_of_follow followed
    cases followed
    rw [utf8EncodeChar_ofNat (by omega), if_neg (by omega), if_pos (by omega), byte (b := b) (by omega),
      byte (b := c) (by omega)]
    rfl
  · obtain ⟨low, high, lead, hlow, hhigh⟩ := lead?_three three.1 three.2
    rw [lead] at found
    cases found
    dsimp only at followed
    obtain ⟨c, rest, rfl, hc, hc', followed⟩ := exists_of_follow followed
    obtain ⟨d, rest, rfl, hd, hd', followed⟩ := exists_of_follow followed
    cases followed
    -- the bounds of the second byte rule out overlong forms and surrogates
    have bounds : (b.toNat = 0xE0 → 0xA0 ≤ c.toNat) ∧ (b.toNat = 0xED → c.toNat ≤ 0x9F) ∧
        0x80 ≤ c.toNat ∧ c.toNat ≤ 0xBF := by
      split at hlow <;> split at hhigh <;> omega
    rw [utf8EncodeChar_ofNat (by omega), if_neg (by omega), if_neg (by omega), if_pos (by omega),
      byte (b := b) (by omega), byte (b := c) (by omega), byte (b := d) (by omega)]
    rfl
  · obtain ⟨low, high, lead, hlow, hhigh⟩ := lead?_four four.1 four.2
    rw [lead] at found
    cases found
    dsimp only at followed
    obtain ⟨c, rest, rfl, hc, hc', followed⟩ := exists_of_follow followed
    obtain ⟨d, rest, rfl, hd, hd', followed⟩ := exists_of_follow followed
    obtain ⟨e, rest, rfl, he, he', followed⟩ := exists_of_follow followed
    cases followed
    -- here they rule out overlong forms and code points that are too large
    have bounds : (b.toNat = 0xF0 → 0x90 ≤ c.toNat) ∧ (b.toNat = 0xF4 → c.toNat ≤ 0x8F) ∧
        0x80 ≤ c.toNat ∧ c.toNat ≤ 0xBF := by
      split at hlow <;> split at hhigh <;> omega
    rw [utf8EncodeChar_ofNat (by omega), if_neg (by omega), if_neg (by omega), if_neg (by omega),
      byte (b := b) (by omega), byte (b := c) (by omega), byte (b := d) (by omega), byte (b := e) (by omega)]
    rfl

/-! ## Whole texts -/

theorem eq_flatMap_of_scan {cs : List Char} (h : scan bytes = cs.map some) :
    bytes = cs.flatMap String.utf8EncodeChar := by
  -- a character takes at least its lead byte away
  induction size : bytes.length using Nat.strong_induction_on generalizing bytes cs with
  | h n ih =>
      cases bytes with
      | nil =>
          rw [scan] at h
          obtain rfl : cs = [] := List.map_eq_nil_iff.mp h.symm
          rfl
      | cons b rest =>
          rw [scan] at h
          cases found : lead? b with
          | none =>
              rw [found] at h
              cases cs <;> cases h
          | some l =>
              rw [found] at h
              cases cs with
              | nil => cases h
              | cons c cs =>
                  obtain ⟨first, others⟩ := List.cons.inj h
                  obtain ⟨v, read, rfl⟩ := Option.map_eq_some_iff.mp first
                  have shorter : (follow l.following l.low l.high l.bits rest).2.length < n := by
                    rw [← size]
                    exact Nat.lt_succ_of_le (length_follow_le ..)
                  rw [List.flatMap_cons, ← ih _ shorter others rfl]
                  exact eq_utf8EncodeChar_of_follow found (Prod.ext read rfl)

theorem mapM_id_eq_some_iff {l : List (Option Char)} {cs : List Char} :
    l.mapM id = some cs ↔ l = cs.map some := by
  induction l generalizing cs with
  | nil => cases cs <;> simp
  | cons o l ih => cases cs <;> simp [List.mapM_cons, Option.bind_eq_some_iff, ih]

/-- **Bytes are read without a fault exactly if they are the encoding of a text**, and then that text is read. -/
theorem decode?_eq_some_iff : decode? bytes = some s ↔ encode s = bytes := by
  constructor
  · intro h
    obtain ⟨cs, read, rfl⟩ := Option.map_eq_some_iff.mp h
    rw [encode_ofList, ← eq_flatMap_of_scan (mapM_id_eq_some_iff.mp read)]
  · rintro rfl
    rw [decode?, scan_encode, mapM_id_eq_some_iff.mpr rfl, Option.map_some, String.ofList_toList]

end SourceSurvey.Text.Utf8
