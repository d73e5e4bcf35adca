import TimeValue.Proofs.Json.Number
import TimeValue.Proofs.Json.Text

/-!
# Values are skipped

A value that nothing reads is taken whole, to any depth, and never refused: neither for what it
holds nor for its depth.  The reader keeps a stack of the frames that are open and counts its steps.
To put values into each other one therefore says what a part does to the steps that follow it: with
`k` more steps in hand, the reader takes the part and stands where an item may end.  A part of `n`
bytes needs at most `2 * n` steps, which is what the reader allows for.

## Main definitions

* `Passes` — some bytes are taken, in front of whatever is taken after an item.
* `IsPart` — the items of a list, and the entries of an object.

## Main results

* `passes_separated` — parts with commas between them, up to the end of their frame.
* `IsValue.passes` — values.
* `IsValue.takes_skipValue` — **every value is skipped.**
-/

namespace TimeValue.Json

open Reader

/-! ### Blanks and what follows them -/

/-- No blank goes on with a number. -/
theorem endsNumber_append {ws rest : List UInt8} (hws : IsBlanks ws) (hrest : EndsNumber rest) :
    EndsNumber (ws ++ rest) := by
  cases ws with
  | nil => exact hrest
  | cons b ws =>
    rw [List.cons_append]
    refine stopsRun_cons_iff.2 ?_
    obtain rfl | rfl | rfl | rfl := isBlank_eq_true_iff.1 (hws b List.mem_cons_self)
    all_goals decide

/-- The byte that ends a frame is no blank and no comma, and goes on with no number. -/
theorem Frame.closing_facts (frame : Frame) :
    Cursor.isBlank frame.closing = false ∧ isNumberByte frame.closing = false ∧
      (frame.closing == 0x2C) = false := by
  cases frame <;> decide

/-! ### Parts and steps -/

/-- Some number of steps takes `v`, with blanks before it, in front of whatever is taken where an
item may end. -/
def Passes (first : (fuel : Nat) → (frames : List Frame) → Reader Unit) (v : List UInt8) : Prop :=
  ∃ k ≤ 2 * v.length, ∀ fuel frames ws t rest, IsBlanks ws → EndsNumber (t ++ rest) →
    Takes (skipFrom fuel .item frames) t () rest →
    Takes (first (fuel + k) frames) (ws ++ (v ++ t)) () rest

/-- A value that is skipped. -/
def Skips (v : List UInt8) : Prop :=
  Passes (fun fuel frames => skipFrom fuel .value frames) v

/-- A part of a list or of an object. -/
structure IsPart (frame : Frame) (part : List UInt8) : Prop where
  starts : ∃ b t, part = b :: t ∧ Cursor.isBlank b = false ∧ b ≠ frame.closing
  passes : Passes (fun fuel frames => do enterItem frame; skipFrom fuel .value frames) part

section Steps

variable {frame : Frame} {frames : List Frame} {ws t rest : List UInt8} {fuel : Nat}

/-- The end of a frame. -/
theorem takes_skipFrom_closing (hws : IsBlanks ws)
    (h : Takes (skipFrom fuel .item frames) t () rest) :
    Takes (skipFrom (fuel + 1) .item (frame :: frames)) (ws ++ frame.closing :: t) () rest := by
  obtain ⟨hblank, -, hcomma⟩ := frame.closing_facts
  rw [skipFrom]
  refine (takes_peekPastBlanks? hws (stopsRun_cons_iff.2 hblank)).bind ?_
  simp only [List.head?_cons, hcomma, beq_self_eq_true, Bool.false_eq_true, if_false, if_true]
  exact (takes_skip frame.closing _).bind h

/-- A comma and the next part. -/
theorem takes_skipFrom_comma (hws : IsBlanks ws)
    (h : Takes (do enterItem frame; skipFrom fuel .value (frame :: frames)) t () rest) :
    Takes (skipFrom (fuel + 1) .item (frame :: frames)) (ws ++ 0x2C :: t) () rest := by
  rw [skipFrom]
  refine (takes_peekPastBlanks? hws (stopsRun_cons_iff.2 (by decide))).bind ?_
  exact (takes_skip 0x2C _).bind h

/-- The end of a frame in which there is nothing. -/
theorem takes_skipFrom_empty (hws : IsBlanks ws)
    (h : Takes (skipFrom fuel .item frames) t () rest) :
    Takes (skipFrom (fuel + 1) .opened (frame :: frames)) (ws ++ frame.closing :: t) () rest := by
  rw [skipFrom]
  refine (takes_peekPastBlanks? hws (stopsRun_cons_iff.2 frame.closing_facts.1)).bind ?_
  simp only [List.head?_cons, beq_self_eq_true, if_true]
  exact (takes_skip frame.closing _).bind h

/-- The first part of a frame. -/
theorem takes_skipFrom_first {b : UInt8} (hws : IsBlanks ws) (hblank : Cursor.isBlank b = false)
    (hb : b ≠ frame.closing)
    (h : Takes (do enterItem frame; skipFrom fuel .value (frame :: frames)) (b :: t) () rest) :
    Takes (skipFrom (fuel + 1) .opened (frame :: frames)) (ws ++ b :: t) () rest := by
  rw [skipFrom]
  refine (takes_peekPastBlanks? hws (stopsRun_cons_iff.2 hblank)).bind ?_
  simp only [List.head?_cons, beq_eq_false_iff_ne.2 hb, Bool.false_eq_true, if_false]
  exact h

end Steps

/-! ### Values without parts -/

section Scalars

variable {ws rest : List UInt8}

/-- The first byte of a value decides what it is. -/
theorem takes_skipScalar_word {v : List UInt8} (h : IsWord v) (hws : IsBlanks ws) :
    Takes skipScalar (ws ++ v) none rest := by
  unfold skipScalar
  cases h with
  | null =>
    refine (takes_peekPastBlanks? hws (stopsRun_cons_iff.2 (by decide))).bind ?_
    refine (takes_skip 0x6E _).bind (t := [0x6E]) ?_
    exact (takes_word _ rest).bind_last (takes_pure none rest)
  | true =>
    refine (takes_peekPastBlanks? hws (stopsRun_cons_iff.2 (by decide))).bind ?_
    refine (takes_skip 0x74 _).bind (t := [0x74]) ?_
    exact (takes_word _ rest).bind_last (takes_pure none rest)
  | false =>
    refine (takes_peekPastBlanks? hws (stopsRun_cons_iff.2 (by decide))).bind ?_
    refine (takes_skip 0x66 _).bind (t := [0x66]) ?_
    exact (takes_word _ rest).bind_last (takes_pure none rest)

theorem takes_skipScalar_number {v : List UInt8} (h : IsNumber v) (hws : IsBlanks ws)
    (hrest : EndsNumber rest) : Takes skipScalar (ws ++ v) none rest := by
  unfold skipScalar
  refine (takes_peekPastBlanks? hws (h.stopsRun_isBlank rest)).bind ?_
  cases h with
  | negative h =>
    refine (takes_skip 0x2D _).bind (t := [0x2D]) ?_
    exact (takes_skipNumber h hrest).bind_last (takes_pure none rest)
  | unsigned h =>
    have hskip := takes_skipNumber h hrest
    obtain ⟨b, t, rfl, hb⟩ := h.exists_cons
    -- a digit is none of the bytes that are asked for before it
    have hn : (b == 0x6E) = false := beq_of_isDigitByte hb (by decide)
    have ht : (b == 0x74) = false := beq_of_isDigitByte hb (by decide)
    have hf : (b == 0x66) = false := beq_of_isDigitByte hb (by decide)
    have hminus : (b == 0x2D) = false := beq_of_isDigitByte hb (by decide)
    simp only [List.cons_append, List.head?_cons, hn, ht, hf, hminus, hb, Bool.false_eq_true,
      if_false, if_true]
    exact hskip.bind_last (takes_pure none rest)

theorem takes_skipScalar_text {v : List UInt8} (h : IsText v) (hws : IsBlanks ws) :
    Takes skipScalar (ws ++ 0x22 :: (v ++ [0x22])) none rest := by
  unfold skipScalar
  refine (takes_peekPastBlanks? hws (stopsRun_cons_iff.2 (by decide))).bind ?_
  refine (takes_skip 0x22 _).bind (t := [0x22]) ?_
  exact h.takes_skipText.bind_last (takes_pure none rest)

theorem takes_skipScalar_list (hws : IsBlanks ws) :
    Takes skipScalar (ws ++ [0x5B]) (some .list) rest := by
  unfold skipScalar
  refine (takes_peekPastBlanks? hws (stopsRun_cons_iff.2 (by decide))).bind ?_
  exact (takes_skip 0x5B _).bind_last (takes_pure _ rest)

theorem takes_skipScalar_object (hws : IsBlanks ws) :
    Takes skipScalar (ws ++ [0x7B]) (some .object) rest := by
  unfold skipScalar
  refine (takes_peekPastBlanks? hws (stopsRun_cons_iff.2 (by decide))).bind ?_
  exact (takes_skip 0x7B _).bind_last (takes_pure _ rest)

/-- A value without parts takes one step. -/
theorem skips_of_scalar {v : List UInt8} (hlength : v ≠ [])
    (h : ∀ ws rest, IsBlanks ws → EndsNumber rest → Takes skipScalar (ws ++ v) none rest) :
    Skips v := by
  refine ⟨1, by have := List.length_pos_iff.2 hlength; omega, ?_⟩
  intro fuel frames ws t rest hws hrest ht
  rw [← List.append_assoc]
  exact (h ws _ hws hrest).bind ht

end Scalars

/-! ### Parts between brackets -/

/-- Parts with commas between them are taken with the end of their frame. -/
theorem passes_separated {frame : Frame} {parts : List (List UInt8)} {t : List UInt8}
    (h : Separated parts t) (hparts : ∀ part ∈ parts, IsPart frame part) :
    Passes (fun fuel frames => do enterItem frame; skipFrom fuel .value (frame :: frames))
      (t ++ [frame.closing]) := by
  -- a number in the last part ends where the blanks, the comma or the closing byte come
  have hends : ∀ (b : UInt8) (ws rest : List UInt8), IsBlanks ws → isNumberByte b = false →
      EndsNumber (ws ++ b :: rest) := fun b ws rest hws hb =>
    endsNumber_append hws (stopsRun_cons_iff.2 hb)
  induction h with
  | @one part ws hws =>
    obtain ⟨k, hk, hpart⟩ := (hparts part List.mem_cons_self).passes
    refine ⟨k + 1, by simp only [List.length_append, List.length_singleton]; omega, ?_⟩
    intro fuel frames ws' t rest hws' hrest ht
    have hclose : Takes (skipFrom (fuel + 1) .item (frame :: frames)) _ () rest :=
      takes_skipFrom_closing hws ht
    have hall := hpart (fuel + 1) (frame :: frames) ws' (ws ++ frame.closing :: t) rest hws'
      (by simpa using hends _ _ _ hws frame.closing_facts.2.1) hclose
    -- behind the steps of the part there is one for the closing byte
    rw [Nat.add_assoc, Nat.add_comm 1 k] at hall
    simpa using hall
  | @cons part ws ws' t parts hws hws' h ih =>
    obtain ⟨k, hk, hpart⟩ := (hparts part List.mem_cons_self).passes
    obtain ⟨k', hk', hothers⟩ := ih fun part hpart => hparts part (List.mem_cons_of_mem _ hpart)
    refine ⟨k' + 1 + k, ?_, ?_⟩
    · simp only [List.length_append, List.length_cons, List.length_nil] at hk' ⊢
      omega
    · intro fuel frames ws'' t' rest hws'' hrest ht'
      have hnext := takes_skipFrom_comma hws (hothers fuel frames ws' t' rest hws' hrest ht')
      have hall := hpart (fuel + k' + 1) (frame :: frames) ws'' _ rest hws''
        (by simpa using hends _ _ _ hws (by decide)) hnext
      rw [Nat.add_assoc fuel, Nat.add_assoc fuel] at hall
      simpa using hall

/-- Parts between brackets are taken. -/
theorem skips_of_encloses (frame : Frame) {opening : UInt8} {parts : List (List UInt8)}
    {v : List UInt8} (h : Encloses opening frame.closing parts v)
    (hopening : ∀ ws rest, IsBlanks ws → Takes skipScalar (ws ++ [opening]) (some frame) rest)
    (hparts : ∀ part ∈ parts, IsPart frame part) : Skips v := by
  -- the byte that opens a frame takes a step of its own, whatever comes then
  have hopened : ∀ {fuel frames ws t rest}, IsBlanks ws →
      Takes (skipFrom fuel .opened (frame :: frames)) t () rest →
      Takes (skipFrom (fuel + 1) .value frames) (ws ++ opening :: t) () rest := by
    intro fuel frames ws t rest hws ht
    have hbytes : ws ++ opening :: t = (ws ++ [opening]) ++ t := by simp
    rw [skipFrom, hbytes]
    exact (hopening ws _ hws).bind ht
  cases h with
  | @empty ws hws =>
    refine ⟨2, by simp only [List.length_cons]; omega, ?_⟩
    intro fuel frames ws' t rest hws' hrest ht
    simpa using hopened hws' (takes_skipFrom_empty hws ht)
  | @parts ws t parts hws h =>
    obtain ⟨k, hk, hall⟩ := passes_separated h hparts
    refine ⟨k + 2, ?_, ?_⟩
    · simp only [List.length_append, List.length_cons, List.length_nil] at hk ⊢
      omega
    · intro fuel frames ws' t' rest hws' hrest ht'
      have hitems := hall fuel frames [] t' rest isBlanks_nil hrest ht'
      -- the first part starts with neither a blank nor the closing byte, so it is not taken for the
      -- end
      obtain ⟨b, t'', ht, hblank, hb⟩ : ∃ b t'', t = b :: t'' ∧ Cursor.isBlank b = false ∧
          b ≠ frame.closing := by
        cases h with
        | one _ =>
          obtain ⟨b, u, rfl, hb⟩ := (hparts _ List.mem_cons_self).starts
          exact ⟨b, _, rfl, hb⟩
        | cons _ _ _ =>
          obtain ⟨b, u, rfl, hb⟩ := (hparts _ List.mem_cons_self).starts
          exact ⟨b, _, rfl, hb⟩
      subst ht
      have hfirst : Takes (skipFrom (fuel + k + 1) .opened (frame :: frames)) _ () rest :=
        takes_skipFrom_first hws hblank hb (by simpa using hitems)
      simpa [Nat.add_assoc] using hopened hws' hfirst

/-! ### All values -/

/-- The items of a list. -/
theorem IsValue.isPart_list {v : List UInt8} (h : IsValue v) (hskips : Skips v) :
    IsPart .list v :=
  ⟨h.exists_cons, hskips⟩

/-- The key of an entry is taken with its colon. -/
theorem takes_skipKey {key afterKey ws rest : List UInt8} (hkey : IsText key)
    (hafter : IsBlanks afterKey) (hws : IsBlanks ws) :
    Takes skipKey (ws ++ 0x22 :: (key ++ 0x22 :: (afterKey ++ [0x3A]))) () rest := by
  have hparts : ws ++ 0x22 :: (key ++ 0x22 :: (afterKey ++ [0x3A])) =
      (ws ++ [0x22]) ++ ((key ++ [0x22]) ++ (afterKey ++ [0x3A])) := by simp
  rw [hparts]
  refine (takes_symbol hws (by decide) _ _ _).bind ?_
  exact hkey.takes_skipText.bind (takes_symbol hafter (by decide) _ _ rest)

/-- The entries of an object. -/
theorem Entry.isPart_object (e : Entry) (hkey : IsText e.key) (hskips : Skips e.value) :
    IsPart .object e.text := by
  obtain ⟨k, hk, hvalue⟩ := hskips
  refine ⟨⟨0x22, _, rfl, by decide, by decide⟩, k, ?_, ?_⟩
  · simp only [Entry.text, List.length_append, List.length_cons]
    omega
  · intro fuel frames ws t rest hws hrest ht
    have htail := hvalue fuel frames e.beforeValue t rest e.beforeValue_isBlanks hrest ht
    have hall : Takes (do enterItem .object; skipFrom (fuel + k) .value frames) _ () rest :=
      (takes_skipKey hkey e.afterKey_isBlanks hws).bind htail
    simpa [Entry.text] using hall

/-- **Every value is taken in as many steps as are allowed for.** -/
theorem IsValue.skips {v : List UInt8} (h : IsValue v) : Skips v := by
  -- lists and objects take the steps of their parts, and one or two for each bracket and comma
  induction h with
  | word h =>
    refine skips_of_scalar ?_ fun ws rest hws _ => takes_skipScalar_word h hws
    cases h <;> exact List.cons_ne_nil _ _
  | number h =>
    refine skips_of_scalar ?_ fun ws rest hws hrest => takes_skipScalar_number h hws hrest
    obtain ⟨b, t, rfl, -⟩ := (IsValue.number h).exists_cons
    exact List.cons_ne_nil _ _
  | text h =>
    exact skips_of_scalar (List.cons_ne_nil _ _) fun ws rest hws _ => takes_skipScalar_text h hws
  | list h hitems ih =>
    exact skips_of_encloses .list h (fun ws rest hws => takes_skipScalar_list hws)
      fun item hitem => (hitems item hitem).isPart_list (ih item hitem)
  | object h hkeys hvalues ih =>
    refine skips_of_encloses .object h (fun ws rest hws => takes_skipScalar_object hws)
      fun part hpart => ?_
    obtain ⟨e, he, rfl⟩ := List.mem_map.1 hpart
    exact e.isPart_object (hkeys e he) (ih e he)

/-- **Every value is skipped**, with the blanks before it. -/
theorem IsValue.takes_skipValue {v ws rest : List UInt8} (h : IsValue v) (hws : IsBlanks ws)
    (hrest : EndsNumber rest) : Takes skipValue (ws ++ v) () rest := by
  obtain ⟨k, hk, hskips⟩ := h.skips
  refine takes_get_bind fun c hc => ?_
  have hlength : c.rest.length = (ws ++ v).length + rest.length := by
    rw [hc, List.length_append]
  -- a value takes two steps for each of its bytes at most, and the fuel is measured by all bytes
  -- left
  obtain ⟨fuel, hfuel⟩ : ∃ fuel, 2 * c.rest.length + 2 = fuel + 1 + k :=
    ⟨2 * c.rest.length + 1 - k, by rw [List.length_append] at hlength; omega⟩
  have hall := hskips (fuel + 1) [] ws [] rest hws hrest (takes_pure () rest)
  rw [hfuel]
  rwa [List.append_nil] at hall

end TimeValue.Json
