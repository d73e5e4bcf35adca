import TimeValue.Text.Utf8

/-!
# Text and its bytes

Decoding the bytes of a text gives the text back.  The bytes of a character are one ASCII byte, or
bytes that all lie beyond ASCII, so that a byte of ASCII in the bytes of a text is a character of
the text.

## Main definitions

* `Utf8.encode` — the bytes of a text.

## Main results

* `Utf8.head?_encodeChar_append` — the character at the head of the bytes of a text.
* `Utf8.decode_encode` — **decoding the bytes of a text gives the text.**
* `Utf8.mem_of_mem_encode` — the bytes of ASCII among those of a text.
-/

namespace TimeValue.Text.Utf8

/-- The bytes of a text. -/
def encode (cs : List Char) : List UInt8 :=
  cs.flatMap String.utf8EncodeChar

@[simp] theorem encode_nil : encode [] = [] := rfl

@[simp] theorem encode_cons (c : Char) (cs : List Char) :
    encode (c :: cs) = String.utf8EncodeChar c ++ encode cs := rfl

@[simp] theorem encode_append (cs cs' : List Char) : encode (cs ++ cs') = encode cs ++ encode cs' :=
  List.flatMap_append

/-! ### Bytes by their place in a character -/

theorem lead?_one : ∀ n < 0x80, lead? (UInt8.ofNat n) = some (n, 0, 0) := by decide

theorem lead?_two : ∀ n < 0x20, lead? (UInt8.ofNat (n + 0xC0)) = some (n, 1, 0x80) := by decide

theorem lead?_three : ∀ n < 0x10, lead? (UInt8.ofNat (n + 0xE0)) = some (n, 2, 0x800) := by decide

theorem lead?_four : ∀ n < 0x08, lead? (UInt8.ofNat (n + 0xF0)) = some (n, 3, 0x10000) := by decide

theorem continuation?_ofNat : ∀ n < 0x40, continuation? (UInt8.ofNat (n + 0x80)) = some n := by
  decide

theorem continued?_cons {b : UInt8} {bits : Nat} (hb : continuation? b = some bits)
    (code count : Nat) (rest : List UInt8) :
    continued? code (count + 1) (b :: rest) = continued? (code * 0x40 + bits) count rest := by
  simp only [continued?, hb]

theorem char?_eq_some {c : Char} {least code : Nat} (hcode : code = c.toNat)
    (hleast : least ≤ c.toNat) : char? least code = some c := by
  rw [hcode, char?, if_pos ⟨hleast, c.valid⟩, Char.ofNat_toNat]

theorem head?_cons {a : UInt8} {bits count least code : Nat} {rest rest' : List UInt8} {c : Char}
    (hlead : lead? a = some (bits, count, least))
    (hbits : continued? bits count rest = some (code, rest')) (hchar : char? least code = some c) :
    head? (a :: rest) = some (c, rest') := by
  simp only [head?, hlead, hbits, hchar, Option.map_some]

/-! ### Decoding -/

theorem toNat_lt (c : Char) : c.toNat < 0x110000 := by
  rcases c.valid with h | ⟨-, h⟩
  · exact Nat.lt_trans h (by decide)
  · exact h

/-- The character at the head of the bytes of a text is the first of the text. -/
theorem head?_encodeChar_append (c : Char) (rest : List UInt8) :
    head? (String.utf8EncodeChar c ++ rest) = some (c, rest) := by
  have hmax := toNat_lt c
  have hlast := continuation?_ofNat (c.toNat % 0x40) (Nat.mod_lt _ (by decide))
  have hthird := continuation?_ofNat (c.toNat / 64 % 0x40) (Nat.mod_lt _ (by decide))
  have hsecond := continuation?_ofNat (c.toNat / 4096 % 0x40) (Nat.mod_lt _ (by decide))
  -- the cases are the four lengths, and the bits of the character are put together again in each
  fun_cases String.utf8EncodeChar c with
  | case1 v h =>
    exact head?_cons (lead?_one _ (Nat.lt_succ_of_le h)) rfl (char?_eq_some rfl (Nat.zero_le _))
  | case2 v hlow h =>
    have hv : v = c.toNat := rfl
    refine head?_cons (lead?_two _ (Nat.mod_lt _ (by decide))) (continued?_cons hlast _ 0 rest)
      (char?_eq_some ?_ ?_) <;> omega
  | case3 v _ hlow h =>
    have hv : v = c.toNat := rfl
    refine head?_cons (lead?_three _ (Nat.mod_lt _ (by decide)))
      ((continued?_cons hthird _ 1 _).trans (continued?_cons hlast _ 0 rest))
      (char?_eq_some ?_ ?_) <;> omega
  | case4 v _ _ hlow =>
    have hv : v = c.toNat := rfl
    refine head?_cons (lead?_four _ (Nat.mod_lt _ (by decide)))
      ((continued?_cons hsecond _ 2 _).trans
        ((continued?_cons hthird _ 1 _).trans (continued?_cons hlast _ 0 rest)))
      (char?_eq_some ?_ ?_) <;> omega

/-- Reading goes on behind the first character of a text. -/
theorem decodeFrom_encode (cs : List Char) : ∀ done, decodeFrom done (encode cs) = .ok cs := by
  induction cs with
  | nil =>
    intro done
    unfold decodeFrom
    rfl
  | cons c cs ih =>
    intro done
    unfold decodeFrom
    split
    · next h =>
      rw [encode_cons, head?_encodeChar_append] at h
      cases h
      rw [ih]
      rfl
    · next h =>
      rw [encode_cons, head?_encodeChar_append] at h
      cases h

/-- **Decoding the bytes of a text gives the text.** -/
theorem decode_encode (cs : List Char) : decode (encode cs) = .ok cs :=
  decodeFrom_encode cs 0

/-! ### Bytes of ASCII -/

/-- A character of ASCII is its own byte. -/
theorem encodeChar_of_lt {c : Char} (h : c.toNat < 0x80) :
    String.utf8EncodeChar c = [UInt8.ofNat c.toNat] :=
  if_pos (Nat.le_of_lt_succ h)

theorem le_ofNat {n : Nat} (hlow : 0x80 ≤ n) (hhigh : n < 0x100) : 0x80 ≤ UInt8.ofNat n := by
  rw [UInt8.le_iff_toNat_le, UInt8.toNat_ofNat', Nat.mod_eq_of_lt hhigh]
  exact hlow

/-- The bytes of any other character lie beyond ASCII. -/
theorem le_of_mem_encodeChar {c : Char} (h : 0x80 ≤ c.toNat) {b : UInt8}
    (hb : b ∈ String.utf8EncodeChar c) : 0x80 ≤ b := by
  revert hb
  -- every byte is a mark of its place with some bits added
  fun_cases String.utf8EncodeChar c with
  | case1 v hlow => exact absurd hlow (Nat.not_le.2 h)
  | case2 v =>
    simp only [List.mem_cons, List.not_mem_nil, or_false]
    rintro (rfl | rfl) <;> exact le_ofNat (by omega) (by omega)
  | case3 v =>
    simp only [List.mem_cons, List.not_mem_nil, or_false]
    rintro (rfl | rfl | rfl) <;> exact le_ofNat (by omega) (by omega)
  | case4 v =>
    simp only [List.mem_cons, List.not_mem_nil, or_false]
    rintro (rfl | rfl | rfl | rfl) <;> exact le_ofNat (by omega) (by omega)

/-- A byte of ASCII in the bytes of a text is a character of the text. -/
theorem mem_of_mem_encode {c : Char} (hc : c.toNat < 0x80) {cs : List Char}
    (h : UInt8.ofNat c.toNat ∈ encode cs) : c ∈ cs := by
  obtain ⟨d, hd, hb⟩ := List.mem_flatMap.1 h
  rcases Nat.lt_or_ge d.toNat 0x80 with hlow | hhigh
  · rw [encodeChar_of_lt hlow, List.mem_singleton] at hb
    have hnat := congrArg UInt8.toNat hb
    rw [UInt8.toNat_ofNat', UInt8.toNat_ofNat', Nat.mod_eq_of_lt (by omega),
      Nat.mod_eq_of_lt (by omega)] at hnat
    have heq : c = d := by rw [← Char.ofNat_toNat c, hnat, Char.ofNat_toNat]
    exact heq ▸ hd
  · have hle := UInt8.le_iff_toNat_le.1 (le_of_mem_encodeChar hhigh hb)
    rw [UInt8.toNat_ofNat', Nat.mod_eq_of_lt (by omega)] at hle
    exact absurd hle (Nat.not_le.2 hc)

end TimeValue.Text.Utf8
