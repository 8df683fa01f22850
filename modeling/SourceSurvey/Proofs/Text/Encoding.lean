import Mathlib.Tactic.IntervalCases
import SourceSurvey.Proofs.Text.Utf8

/-!
# Encoding and reading back

The bytes of a text are read back as the text, whichever way faults are dealt with, because there are none:
`scan_encode`. A piece of the bytes between two character boundaries is the encoding of a piece of the text
(`exists_slice`).
-/

namespace SourceSurvey.Text.Utf8

variable {b low high : UInt8} {c : Char} {bits n a k : Nat} {rest : List UInt8} {s t : String}

/-! ## Lead bytes -/

theorem lead?_one (h : b.toNat < 0x80) : lead? b = some ⟨0, 0x80, 0xBF, b.toNat⟩ := by
  rw [lead?, if_pos (UInt8.lt_iff_toNat_lt.mpr h)]

theorem lead?_two (h₁ : 0xC2 ≤ b.toNat) (h₂ : b.toNat < 0xE0) :
    lead? b = some ⟨1, 0x80, 0xBF, b.toNat % 0x20⟩ := by
  have not_one : ¬ b < 0x80 := by
    rw [UInt8.lt_iff_toNat_lt]
    exact Nat.not_lt.mpr (Nat.le_trans (by decide) h₁)
  have not_early : ¬ b < 0xC2 := by
    rw [UInt8.lt_iff_toNat_lt]
    exact Nat.not_lt.mpr h₁
  rw [lead?, if_neg not_one, if_neg not_early, if_pos (UInt8.lt_iff_toNat_lt.mpr h₂)]

/-- The first byte that follows is bounded more tightly where the lead byte alone would allow an overlong
form or a surrogate. -/
theorem lead?_three (h₁ : 0xE0 ≤ b.toNat) (h₂ : b.toNat < 0xF0) :
    ∃ low high, lead? b = some ⟨2, low, high, b.toNat % 0x10⟩ ∧
      low.toNat = (if b.toNat = 0xE0 then 0xA0 else 0x80) ∧
      high.toNat = if b.toNat = 0xED then 0x9F else 0xBF := by
  have table : ∀ n < 0x100, 0xE0 ≤ n → n < 0xF0 →
      ∃ l, lead? (UInt8.ofNat n) = some l ∧ l.following = 2 ∧ l.bits = n % 0x10 ∧
        l.low.toNat = (if n = 0xE0 then 0xA0 else 0x80) ∧
        l.high.toNat = if n = 0xED then 0x9F else 0xBF := by
    intro n _ h₁ h₂
    interval_cases n <;> exact ⟨_, rfl, rfl, rfl, rfl, rfl⟩
  obtain ⟨⟨following, low, high, bits⟩, found, rfl, rfl, hlow, hhigh⟩ :=
    table b.toNat b.toNat_lt h₁ h₂
  rw [UInt8.ofNat_toNat] at found
  exact ⟨low, high, found, hlow, hhigh⟩

/-- Likewise where it would allow an overlong form or a code point that is too large. -/
theorem lead?_four (h₁ : 0xF0 ≤ b.toNat) (h₂ : b.toNat < 0xF5) :
    ∃ low high, lead? b = some ⟨3, low, high, b.toNat % 0x08⟩ ∧
      low.toNat = (if b.toNat = 0xF0 then 0x90 else 0x80) ∧
      high.toNat = if b.toNat = 0xF4 then 0x8F else 0xBF := by
  have table : ∀ n < 0x100, 0xF0 ≤ n → n < 0xF5 →
      ∃ l, lead? (UInt8.ofNat n) = some l ∧ l.following = 3 ∧ l.bits = n % 0x08 ∧
        l.low.toNat = (if n = 0xF0 then 0x90 else 0x80) ∧
        l.high.toNat = if n = 0xF4 then 0x8F else 0xBF := by
    intro n _ h₁ h₂
    interval_cases n <;> exact ⟨_, rfl, rfl, rfl, rfl, rfl⟩
  obtain ⟨⟨following, low, high, bits⟩, found, rfl, rfl, hlow, hhigh⟩ :=
    table b.toNat b.toNat_lt h₁ h₂
  rw [UInt8.ofNat_toNat] at found
  exact ⟨low, high, found, hlow, hhigh⟩

/-! ## One character -/

theorem follow_succ (hlow : low.toNat ≤ b.toNat) (hhigh : b.toNat ≤ high.toNat) :
    follow (n + 1) low high bits (b :: rest) = follow n 0x80 0xBF (bits * 0x40 + b.toNat % 0x40) rest := by
  rw [follow, if_pos ⟨UInt8.le_iff_toNat_le.mpr hlow, UInt8.le_iff_toNat_le.mpr hhigh⟩]

theorem follow_ofNat {m : Nat} (hm : m < 0x40) (hlow : low.toNat ≤ m + 0x80) (hhigh : m + 0x80 ≤ high.toNat) :
    follow (n + 1) low high bits (UInt8.ofNat (m + 0x80) :: rest) =
      follow n 0x80 0xBF (bits * 0x40 + m) rest := by
  have byte : (UInt8.ofNat (m + 0x80)).toNat = m + 0x80 := by
    rw [UInt8.toNat_ofNat']
    omega
  have six : (m + 0x80) % 0x40 = m := by omega
  rw [follow_succ (by rwa [byte]) (by rwa [byte]), byte, six]

theorem scan_cons {l : Lead} (found : lead? b = some l) {value : Nat} {after : List UInt8}
    (followed : follow l.following l.low l.high l.bits rest = (some value, after)) :
    scan (b :: rest) = some (Char.ofNat value) :: scan after := by
  rw [scan, found]
  show (follow l.following l.low l.high l.bits rest).1.map Char.ofNat ::
    scan (follow l.following l.low l.high l.bits rest).2 = _
  rw [followed]
  rfl

/-- **The bytes of a character are read back as the character**, whatever comes after them. -/
theorem scan_utf8EncodeChar (c : Char) (rest : List UInt8) :
    scan (String.utf8EncodeChar c ++ rest) = some c :: scan rest := by
  have back : Char.ofNat c.val.toNat = c := Char.ofNat_toNat c
  have valid : c.val.toNat < 0xD800 ∨ 0xDFFF < c.val.toNat ∧ c.val.toNat < 0x110000 := c.valid
  have lowest : (0x80 : UInt8).toNat = 0x80 := rfl
  have highest : (0xBF : UInt8).toNat = 0xBF := rfl
  rw [String.utf8EncodeChar]
  generalize c.val.toNat = v at back valid
  show scan ((if v ≤ 0x7F then _ else _) ++ rest) = _
  split
  · next small =>
    have byte : (UInt8.ofNat v).toNat = v := by
      rw [UInt8.toNat_ofNat']
      omega
    rw [List.singleton_append, scan_cons (lead?_one (by omega)) rfl, byte, back]
  split
  · next large small =>
    have byte : (UInt8.ofNat (v / 64 % 32 + 192)).toNat = v / 64 + 192 := by
      rw [UInt8.toNat_ofNat']
      omega
    refine (scan_cons (lead?_two (by omega) (by omega)) ?_).trans (congrArg (· :: _) (congrArg some back))
    rw [byte]
    show follow 1 0x80 0xBF ((v / 64 + 192) % 0x20) (UInt8.ofNat (v % 64 + 0x80) :: rest) = _
    rw [follow_ofNat (by omega) (by omega) (by omega), follow]
    congr 2
    omega
  split
  · next large _ =>
    have byte : (UInt8.ofNat (v / 4096 % 16 + 224)).toNat = v / 4096 + 224 := by
      rw [UInt8.toNat_ofNat']
      omega
    obtain ⟨low, high, found, hlow, hhigh⟩ :=
      lead?_three (b := UInt8.ofNat (v / 4096 % 16 + 224)) (by omega) (by omega)
    refine (scan_cons found ?_).trans (congrArg (· :: _) (congrArg some back))
    rw [byte] at hlow hhigh ⊢
    show follow 2 low high ((v / 4096 + 224) % 0x10)
      (UInt8.ofNat (v / 64 % 64 + 0x80) :: UInt8.ofNat (v % 64 + 0x80) :: rest) = _
    rw [follow_ofNat (by omega) ?_ ?_, follow_ofNat (by omega) (by omega) (by omega), follow]
    · congr 2
      omega
    · rw [hlow]
      split <;> omega
    · rw [hhigh]
      split <;> omega
  · next large =>
    have byte : (UInt8.ofNat (v / 262144 % 8 + 240)).toNat = v / 262144 + 240 := by
      rw [UInt8.toNat_ofNat']
      omega
    obtain ⟨low, high, found, hlow, hhigh⟩ :=
      lead?_four (b := UInt8.ofNat (v / 262144 % 8 + 240)) (by omega) (by omega)
    refine (scan_cons found ?_).trans (congrArg (· :: _) (congrArg some back))
    rw [byte] at hlow hhigh ⊢
    show follow 3 low high ((v / 262144 + 240) % 0x08) (UInt8.ofNat (v / 4096 % 64 + 0x80) ::
      UInt8.ofNat (v / 64 % 64 + 0x80) :: UInt8.ofNat (v % 64 + 0x80) :: rest) = _
    rw [follow_ofNat (by omega) ?_ ?_, follow_ofNat (by omega) (by omega) (by omega),
      follow_ofNat (by omega) (by omega) (by omega), follow]
    · congr 2
      omega
    · rw [hlow]
      split <;> omega
    · rw [hhigh]
      split <;> omega

/-! ## Whole texts -/

theorem encode_append (s t : String) : encode (s ++ t) = encode s ++ encode t := by
  rw [encode, String.toList_append, List.flatMap_append]
  rfl

/-- **The bytes of a text are read back as its characters.** -/
theorem scan_encode (s : String) : scan (encode s) = s.toList.map some := by
  rw [encode]
  induction s.toList with
  | nil =>
      rw [List.flatMap_nil, scan]
      rfl
  | cons c rest ih => rw [List.flatMap_cons, scan_utf8EncodeChar, ih, List.map_cons]

theorem decodeReplacing_encode (s : String) : decodeReplacing (encode s) = s := by
  have chars : (fun o : Option Char => o.getD '\ufffd') ∘ some = id := rfl
  rw [decodeReplacing, scan_encode, List.map_map, chars, List.map_id, String.ofList_toList]

theorem encode_inj (h : encode s = encode t) : s = t := by
  rw [← decodeReplacing_encode s, h, decodeReplacing_encode]

theorem decodeDropping_of_decode? {bytes : List UInt8} (h : decode? bytes = some s) :
    decodeDropping bytes = s := by
  have clean : ∀ (l : List (Option Char)) (cs : List Char), l.mapM id = some cs → l.filterMap id = cs := by
    intro l
    induction l with
    | nil =>
        rintro cs ⟨⟩
        rfl
    | cons o l ih =>
        intro cs h
        rw [List.mapM_cons] at h
        obtain ⟨c, first, after⟩ := Option.bind_eq_some_iff.mp h
        obtain ⟨others, rest, ⟨⟩⟩ := Option.bind_eq_some_iff.mp after
        rw [List.filterMap_cons_some first, ih others rest]
  obtain ⟨cs, found, rfl⟩ := Option.map_eq_some_iff.mp h
  rw [decodeDropping, clean _ cs found]

/-! ## Boundaries -/

/-- So many bytes are the bytes of so many whole characters. -/
def IsBoundary (s : String) (k : Nat) : Prop :=
  ∃ n, k = (encode (String.ofList (s.toList.take n))).length

/-- The characters that end at or before a byte offset. -/
def upTo (s : String) (k : Nat) : String :=
  String.ofList (s.toList.take (charsBefore s.toList k))

theorem encode_ofList (l : List Char) : encode (String.ofList l) = l.flatMap String.utf8EncodeChar := by
  rw [encode, String.toList_ofList]

theorem encode_take_append_drop (s : String) (n : Nat) :
    encode s = encode (String.ofList (s.toList.take n)) ++ encode (String.ofList (s.toList.drop n)) := by
  rw [← encode_append, ← String.ofList_append, List.take_append_drop, String.ofList_toList]

theorem take_encode (s : String) (n : Nat) :
    (encode s).take (encode (String.ofList (s.toList.take n))).length =
      encode (String.ofList (s.toList.take n)) := by
  rw [encode_take_append_drop s n, List.take_left' rfl]

theorem charsBefore_length (l : List Char) (n : Nat) :
    charsBefore l ((l.take n).flatMap String.utf8EncodeChar).length = min n l.length := by
  induction l generalizing n with
  | nil => rw [List.take_nil, charsBefore, List.length_nil, Nat.min_zero]
  | cons c rest ih =>
      cases n with
      | zero =>
          have positive := Char.utf8Size_pos c
          rw [List.take_zero, List.flatMap_nil, List.length_nil, charsBefore, if_neg (by omega),
            Nat.zero_min]
      | succ n =>
          rw [List.take_succ_cons, List.flatMap_cons, List.length_append, String.length_utf8EncodeChar,
            charsBefore, if_pos (Nat.le_add_right _ _), Nat.add_sub_cancel_left, ih, List.length_cons,
            Nat.add_min_add_right]

/-- At a boundary, the characters before it are the bytes before it. -/
theorem encode_upTo (h : IsBoundary s k) : encode (upTo s k) = (encode s).take k := by
  obtain ⟨n, rfl⟩ := h
  have chars : upTo s (encode (String.ofList (s.toList.take n))).length =
      String.ofList (s.toList.take n) := by
    rw [upTo, encode_ofList, charsBefore_length]
    congr 1
    rcases Nat.le_total n s.toList.length with le | ge
    · rw [Nat.min_eq_left le]
    · rw [Nat.min_eq_right ge, List.take_length, List.take_of_length_le ge]
  rw [chars, take_encode]

/-- **Between two boundaries stands a piece of the text.** -/
theorem exists_slice (ha : IsBoundary s a) (hk : IsBoundary s k) :
    ∃ t, ((encode s).take k).drop a = encode t := by
  obtain ⟨m, rfl⟩ := ha
  obtain ⟨n, rfl⟩ := hk
  rw [take_encode]
  rcases Nat.le_total m n with le | ge
  · refine ⟨String.ofList ((s.toList.take n).drop m), ?_⟩
    have split := encode_take_append_drop (String.ofList (s.toList.take n)) m
    rw [String.toList_ofList, List.take_take, Nat.min_eq_left le] at split
    rw [split, List.drop_left' rfl]
  · refine ⟨"", ?_⟩
    have split := encode_take_append_drop (String.ofList (s.toList.take m)) n
    rw [String.toList_ofList, List.take_take, Nat.min_eq_left ge] at split
    rw [List.drop_eq_nil_of_le]
    · rfl
    · rw [split, List.length_append]
      exact Nat.le_add_right _ _

theorem IsBoundary.le (h : IsBoundary s k) : k ≤ (encode s).length := by
  obtain ⟨n, rfl⟩ := h
  rw [encode_take_append_drop s n, List.length_append]
  exact Nat.le_add_right _ _

end SourceSurvey.Text.Utf8
