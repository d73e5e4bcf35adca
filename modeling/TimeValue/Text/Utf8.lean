/-!
# UTF-8

Decoding bytes to characters.  A sequence is well formed when it has the length its first byte
announces, is no longer than its character needs, and does not encode a surrogate.

## Main definitions

* `Utf8.head?` — the character at the head of bytes.
* `Utf8.decode` — the text of bytes, or how many of them are well formed before the first that
  are not.
-/

namespace TimeValue.Text.Utf8

/-- The six bits of a byte that continues a sequence. -/
def continuation? (b : UInt8) : Option Nat :=
  if 0x80 ≤ b ∧ b < 0xC0 then some (b.toNat % 0x40) else none

/-- The character of a code point, which must be at least `least` for its length. -/
def char? (least code : Nat) : Option Char :=
  if least ≤ code ∧ code.isValidChar then some (Char.ofNat code) else none

/-- Reads `count` continuing bytes after the bits in `code`. -/
def continued? (code : Nat) : Nat → List UInt8 → Option (Nat × List UInt8)
  | 0, rest => some (code, rest)
  | _ + 1, [] => none
  | count + 1, b :: rest =>
    match continuation? b with
    | some bits => continued? (code * 0x40 + bits) count rest
    | none => none

/-- For the first byte of a sequence: its bits, how many bytes continue it, and the least code
point of that length. -/
def lead? (a : UInt8) : Option (Nat × Nat × Nat) :=
  if a < 0x80 then some (a.toNat, 0, 0)
  else if a < 0xC0 then none
  else if a < 0xE0 then some (a.toNat % 0x20, 1, 0x80)
  else if a < 0xF0 then some (a.toNat % 0x10, 2, 0x800)
  else if a < 0xF8 then some (a.toNat % 0x08, 3, 0x10000)
  else none

/-- The character at the head of `bytes` and the bytes after it. -/
def head? : List UInt8 → Option (Char × List UInt8)
  | [] => none
  | a :: rest =>
    match lead? a with
    | none => none
    | some (bits, count, least) =>
      match continued? bits count rest with
      | none => none
      | some (code, rest) => (char? least code).map (·, rest)

theorem length_of_continued? {code count code' : Nat} {bytes rest : List UInt8}
    (h : continued? code count bytes = some (code', rest)) : rest.length ≤ bytes.length := by
  induction count generalizing code bytes with
  | zero => simp only [continued?, Option.some.injEq, Prod.mk.injEq] at h; simp [h.2]
  | succ count ih =>
    cases bytes with
    | nil => simp [continued?] at h
    | cons b bytes =>
      simp only [continued?] at h
      split at h
      · exact Nat.le_succ_of_le (ih h)
      · exact absurd h (by simp)

/-- A character takes at least one byte. -/
theorem length_of_head? {bytes rest : List UInt8} {c : Char}
    (h : head? bytes = some (c, rest)) : rest.length < bytes.length := by
  cases bytes with
  | nil => simp [head?] at h
  | cons a bytes =>
    simp only [head?] at h
    split at h
    · exact absurd h (by simp)
    · split at h
      · exact absurd h (by simp)
      · next hcont =>
        obtain ⟨_, _, heq⟩ := Option.map_eq_some_iff.1 h
        have : _ = rest := congrArg Prod.snd heq
        subst this
        exact Nat.lt_succ_of_le (length_of_continued? hcont)

/-- The characters of `bytes`; for bytes that are not well formed, how many come before the first
bad sequence, `done` of them already read. -/
def decodeFrom (done : Nat) (bytes : List UInt8) : Except Nat (List Char) :=
  match _h : head? bytes with
  | some (c, rest) => (decodeFrom (done + c.utf8Size) rest).map (c :: ·)
  | none => if bytes.isEmpty then .ok [] else .error done
termination_by bytes.length
decreasing_by exact length_of_head? ‹_›

/-- The characters of `bytes`, or how many bytes are well formed before the first bad
sequence. -/
def decode (bytes : List UInt8) : Except Nat (List Char) :=
  decodeFrom 0 bytes

end TimeValue.Text.Utf8
