/-!
# Reading UTF-8

Bytes are read into characters and faults. A fault is a maximal part of the input that no character
can start with: the lead byte and the following bytes that would still have fitted it. What is done
with faults is the reader's choice: `decodeReplacing` shows each as U+FFFD, `decodeDropping` leaves
them out, `decode?` refuses the input.
-/

namespace SourceSurvey.Text.Utf8

/-- What a lead byte announces: how many bytes follow, between which bounds the first of them lies,
and the high bits of the code point. -/
structure Lead where
  following : Nat
  low : UInt8 := 0x80
  high : UInt8 := 0xBF
  bits : Nat

/-- The announcement of a lead byte; none for a byte that starts no character. The bounds leave out
overlong forms, surrogates and code points beyond U+10FFFF. -/
def lead? (b : UInt8) : Option Lead :=
  if b < 0x80 then some ⟨0, 0x80, 0xBF, b.toNat⟩
  else if b < 0xC2 then none
  else if b < 0xE0 then some ⟨1, 0x80, 0xBF, b.toNat % 0x20⟩
  else if b == 0xE0 then some ⟨2, 0xA0, 0xBF, 0⟩
  else if b == 0xED then some ⟨2, 0x80, 0x9F, 0xD⟩
  else if b < 0xF0 then some ⟨2, 0x80, 0xBF, b.toNat % 0x10⟩
  else if b == 0xF0 then some ⟨3, 0x90, 0xBF, 0⟩
  else if b < 0xF4 then some ⟨3, 0x80, 0xBF, b.toNat % 0x08⟩
  else if b == 0xF4 then some ⟨3, 0x80, 0x8F, 4⟩
  else none

/-- Reads `n` following bytes, the first of them between `low` and `high`, and appends their bits to
`bits`. Stops at the first byte that does not fit, which is left in the rest. -/
def follow : Nat → UInt8 → UInt8 → Nat → List UInt8 → Option Nat × List UInt8
  | 0, _, _, bits, rest => (some bits, rest)
  | _ + 1, _, _, _, [] => (none, [])
  | n + 1, low, high, bits, b :: rest =>
    if low ≤ b ∧ b ≤ high then follow n 0x80 0xBF (bits * 0x40 + b.toNat % 0x40) rest
    else (none, b :: rest)

theorem length_follow_le (n : Nat) (low high : UInt8) (bits : Nat) (bytes : List UInt8) :
    (follow n low high bits bytes).2.length ≤ bytes.length := by
  induction bytes generalizing n low high bits with
  | nil => cases n <;> simp [follow]
  | cons b rest ih =>
    cases n with
    | zero => simp [follow]
    | succ n =>
      rw [follow]
      split
      · exact Nat.le_trans (ih ..) (Nat.le_succ _)
      · simp

/-- The characters of the input in order, with `none` for each fault. -/
def scan : List UInt8 → List (Option Char)
  | [] => []
  | b :: rest =>
    match lead? b with
    | none => none :: scan rest
    | some l =>
      let r := follow l.following l.low l.high l.bits rest
      r.1.map Char.ofNat :: scan r.2
termination_by bytes => bytes.length
decreasing_by
  · exact Nat.lt_succ_self _
  · exact Nat.lt_succ_of_le (length_follow_le ..)

/-- The text with each fault shown as U+FFFD. -/
def decodeReplacing (bytes : List UInt8) : String :=
  String.ofList ((scan bytes).map (·.getD '�'))

def decodeDropping (bytes : List UInt8) : String :=
  String.ofList ((scan bytes).filterMap id)

def decode? (bytes : List UInt8) : Option String :=
  ((scan bytes).mapM id).map String.ofList

def encode (s : String) : List UInt8 :=
  s.toList.flatMap String.utf8EncodeChar

end SourceSurvey.Text.Utf8
