import Mathlib.Data.List.TakeWhile
import TimeValue.CashFlow.Table
import TimeValue.Proofs.Text.Utf8

/-!
# Trimming text and its bytes

Trimming takes the blanks at either end of a text, and stops at the first character on each side
that is none.

A field of a table is trimmed twice: of ASCII blanks while it is bytes, and of all blanks once it is
text.  The first changes nothing.  A blank of ASCII is one byte, and no byte of another character is
one, so that whole characters are trimmed; and all of these are blanks that the second would take.

## Main definitions

* `IsTrimmed` — a text without the blanks at its ends.
* `isBlankInBytes` — the characters that are trimmed from bytes.

## Main results

* `isTrimmed_iff` — what trimming leaves.
* `trimBytes_encode` — bytes are trimmed by whole characters.
* `decode_trimBytes` — **trimming bytes before text is read changes nothing.**
-/

namespace TimeValue

open Text

/-! ### Trimming text -/

/-- Blanks on either side are trimmed. -/
theorem trim_append {before cs after : List Char} (hbefore : ∀ c ∈ before, isBlank c = true)
    (hafter : ∀ c ∈ after, isBlank c = true) : trim (before ++ cs ++ after) = trim cs := by
  unfold trim
  rw [List.append_assoc, List.dropWhile_append_of_pos hbefore, List.dropWhile_append]
  split
  · next h =>
    have hcs : cs.dropWhile isBlank = [] := List.isEmpty_iff.1 h
    have hnil : after.dropWhile isBlank = [] := List.dropWhile_eq_nil_iff.2 hafter
    rw [hcs, hnil]
  · rw [List.reverse_append,
      List.dropWhile_append_of_pos fun c hc => hafter c (List.mem_reverse.1 hc)]

/-- A text is what is left after dropping a class of characters at its ends, between runs of
them. -/
theorem eq_takeWhile_append_dropWhile (p : Char → Bool) (cs : List Char) :
    cs = cs.takeWhile p ++ ((cs.dropWhile p).reverse.dropWhile p).reverse ++
      ((cs.dropWhile p).reverse.takeWhile p).reverse := by
  rw [List.append_assoc, ← List.reverse_append, List.takeWhile_append_dropWhile,
    List.reverse_reverse, List.takeWhile_append_dropWhile]

/-- Trimming fewer characters first changes nothing. -/
theorem trim_trim_of_imp {p : Char → Bool} (hp : ∀ c, p c = true → isBlank c = true)
    (cs : List Char) : trim ((cs.dropWhile p).reverse.dropWhile p).reverse = trim cs := by
  have hrun : ∀ (l : List Char), ∀ c ∈ l.takeWhile p, isBlank c = true :=
    fun l c hc => hp c (List.all_eq_true.1 List.all_takeWhile c hc)
  calc trim ((cs.dropWhile p).reverse.dropWhile p).reverse
      = trim (cs.takeWhile p ++ ((cs.dropWhile p).reverse.dropWhile p).reverse ++
          ((cs.dropWhile p).reverse.takeWhile p).reverse) :=
        (trim_append (hrun cs) fun c hc => hrun _ c (List.mem_reverse.1 hc)).symm
    _ = trim cs := congrArg trim (eq_takeWhile_append_dropWhile p cs).symm

/-- What is left of a text without the blanks at its ends. -/
structure IsTrimmed (cs core : List Char) : Prop where
  surrounded : ∃ before after, cs = before ++ core ++ after ∧
    (∀ c ∈ before, isBlank c = true) ∧ ∀ c ∈ after, isBlank c = true
  starts : ∀ c, core.head? = some c → isBlank c = false
  ends : ∀ c, core.getLast? = some c → isBlank c = false

theorem isBlank_of_head?_dropWhile {l : List Char} {c : Char}
    (hc : (l.dropWhile isBlank).head? = some c) : isBlank c = false := by
  have h := List.head?_dropWhile_not isBlank l
  rw [hc] at h
  simpa using h

theorem dropWhile_isBlank_eq_self {l : List Char}
    (hl : ∀ c, l.head? = some c → isBlank c = false) : l.dropWhile isBlank = l := by
  cases l with
  | nil => rfl
  | cons c l => exact List.dropWhile_cons_of_neg (by simp [hl c rfl])

/-- **Trimming leaves what stands between the blanks at the ends.** -/
theorem isTrimmed_iff {cs core : List Char} : IsTrimmed cs core ↔ trim cs = core := by
  constructor
  · rintro ⟨⟨before, after, rfl, hbefore, hafter⟩, hstarts, hends⟩
    rw [trim_append hbefore hafter, trim, dropWhile_isBlank_eq_self hstarts,
      dropWhile_isBlank_eq_self (by rwa [List.head?_reverse]), List.reverse_reverse]
  · rintro rfl
    have hrun : ∀ l : List Char, ∀ c ∈ l.takeWhile isBlank, isBlank c = true :=
      fun l c hc => List.all_eq_true.1 List.all_takeWhile c hc
    refine ⟨⟨_, _, eq_takeWhile_append_dropWhile isBlank cs, hrun cs,
      fun c hc => hrun _ c (List.mem_reverse.1 hc)⟩, fun c hc => ?_, fun c hc => ?_⟩
    · -- the last character that is left of the reversed text is its last
      rw [trim, List.head?_reverse] at hc
      have hlast : (cs.dropWhile isBlank).reverse.getLast? = some c := by
        rw [← List.takeWhile_append_dropWhile (p := isBlank) (l := (cs.dropWhile isBlank).reverse),
          List.getLast?_append, hc, Option.some_or]
      rw [List.getLast?_reverse] at hlast
      exact isBlank_of_head?_dropWhile hlast
    · rw [trim, List.getLast?_reverse] at hc
      exact isBlank_of_head?_dropWhile hc

/-- A class of characters is dropped with their images, if these are all of a class or not at
all. -/
theorem dropWhile_flatMap {α β : Type} {e : α → List β} {p : β → Bool} {q : α → Bool}
    (hq : ∀ a, q a = true → ∀ b ∈ e a, p b = true)
    (hstop : ∀ a, q a = false → e a ≠ [] ∧ ∀ b ∈ e a, p b = false) (l : List α) :
    (l.flatMap e).dropWhile p = (l.dropWhile q).flatMap e := by
  induction l with
  | nil => rfl
  | cons a l ih =>
    rw [List.flatMap_cons]
    cases ha : q a with
    | true => rw [List.dropWhile_append_of_pos (hq a ha), List.dropWhile_cons_of_pos ha, ih]
    | false =>
      obtain ⟨hne, hbytes⟩ := hstop a ha
      obtain ⟨b, bs, hb⟩ := List.ne_nil_iff_exists_cons.1 hne
      have hpb : p b = false := hbytes b (hb ▸ List.mem_cons_self)
      rw [List.dropWhile_cons_of_neg (by simp [ha]), List.flatMap_cons, hb, List.cons_append,
        List.dropWhile_cons_of_neg (by simp [hpb])]

/-! ### Trimming bytes -/

/-- A character whose bytes are blank. -/
def isBlankInBytes (c : Char) : Bool :=
  (String.utf8EncodeChar c).all isBlankByte

theorem isBlankByte_eq_false {b : UInt8} (hb : 0x80 ≤ b) : isBlankByte b = false := by
  refine Bool.eq_false_iff.2 fun h => ?_
  simp only [isBlankByte, Bool.or_eq_true, beq_iff_eq] at h
  rcases h with (((rfl | rfl) | rfl) | rfl) | rfl <;> exact absurd hb (by decide)

/-- The bytes of a character are all blank, or none is. -/
theorem isBlankByte_of_isBlankInBytes_eq_false {c : Char} (h : isBlankInBytes c = false) :
    ∀ b ∈ String.utf8EncodeChar c, isBlankByte b = false := by
  rcases Nat.lt_or_ge c.toNat 0x80 with hlow | hhigh
  · rw [isBlankInBytes, Utf8.encodeChar_of_lt hlow] at h
    rw [Utf8.encodeChar_of_lt hlow]
    simpa using h
  · exact fun b hb => isBlankByte_eq_false (Utf8.le_of_mem_encodeChar hhigh hb)

theorem isBlank_of_isBlankInBytes {c : Char} (h : isBlankInBytes c = true) : isBlank c = true := by
  have hascii : ∀ n < 0x80, isBlankByte (UInt8.ofNat n) = true → isBlank (Char.ofNat n) = true := by
    decide
  rcases Nat.lt_or_ge c.toNat 0x80 with hlow | hhigh
  · rw [isBlankInBytes, Utf8.encodeChar_of_lt hlow] at h
    exact Char.ofNat_toNat c ▸ hascii c.toNat hlow (by simpa using h)
  · obtain ⟨b, bs, hbytes⟩ := List.ne_nil_iff_exists_cons.1 (@String.utf8EncodeChar_ne_nil c)
    have hmem : b ∈ String.utf8EncodeChar c := hbytes ▸ List.mem_cons_self
    have hblank : isBlankByte b = true := List.all_eq_true.1 h b hmem
    rw [isBlankByte_eq_false (Utf8.le_of_mem_encodeChar hhigh hmem)] at hblank
    cases hblank

/-- The bytes of a text are trimmed by whole characters. -/
theorem trimBytes_encode (cs : List Char) :
    trimBytes (Utf8.encode cs) =
      Utf8.encode ((cs.dropWhile isBlankInBytes).reverse.dropWhile isBlankInBytes).reverse := by
  have hblank : ∀ c, isBlankInBytes c = true →
      ∀ b ∈ String.utf8EncodeChar c, isBlankByte b = true :=
    fun c hc => List.all_eq_true.1 hc
  have hstop : ∀ c, isBlankInBytes c = false →
      String.utf8EncodeChar c ≠ [] ∧ ∀ b ∈ String.utf8EncodeChar c, isBlankByte b = false :=
    fun c hc => ⟨String.utf8EncodeChar_ne_nil, isBlankByte_of_isBlankInBytes_eq_false hc⟩
  -- the second pass drops from the reversed bytes, so the images are reversed, too
  have hblank' : ∀ c, isBlankInBytes c = true →
      ∀ b ∈ (List.reverse ∘ String.utf8EncodeChar) c, isBlankByte b = true :=
    fun c hc b hb => hblank c hc b (List.mem_reverse.1 hb)
  have hstop' : ∀ c, isBlankInBytes c = false →
      (List.reverse ∘ String.utf8EncodeChar) c ≠ [] ∧
        ∀ b ∈ (List.reverse ∘ String.utf8EncodeChar) c, isBlankByte b = false :=
    fun c hc => ⟨mt List.reverse_eq_nil_iff.1 (hstop c hc).1,
      fun b hb => (hstop c hc).2 b (List.mem_reverse.1 hb)⟩
  unfold trimBytes Utf8.encode
  rw [dropWhile_flatMap hblank hstop, List.reverse_flatMap, dropWhile_flatMap hblank' hstop',
    List.reverse_flatMap]
  simp [Function.comp_def]

/-- **Trimming the bytes of a text first changes nothing** of what is left after trimming it. -/
theorem decode_trimBytes (cs : List Char) :
    ∃ text, Utf8.decode (trimBytes (Utf8.encode cs)) = .ok text ∧ trim text = trim cs :=
  ⟨_, trimBytes_encode cs ▸ Utf8.decode_encode _,
    trim_trim_of_imp (fun _ => isBlank_of_isBlankInBytes) cs⟩

end TimeValue
