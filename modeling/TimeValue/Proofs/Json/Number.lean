import TimeValue.Proofs.Json.Grammar

/-!
# Numbers are read as they are written

A number ends where neither a digit nor a point nor a mark of a power follows.  Up to there it is
taken, and its value or the reason to refuse it depends on its own bytes alone: a number stands for
the same value wherever it stands.  A number that is skipped is taken to the same byte, and never
refused.

## Main definitions

* `EndsNumber` — what may follow a number.
* `IsDetermined` — the bytes taken decide whether a reader gives a value, and which.

## Main results

* `IsUnsigned.isDetermined_number` — the bytes of a number decide its value.
* `IsNumber.takes_float`, `IsNumber.takes_whole` — **a number read by itself is read as the same
  value in any place.**
* `IsUnsigned.takes_skipNumber` — numbers are skipped.
-/

namespace TimeValue.Json

variable {β γ : Type}

/-! ### Where a number ends -/

/-- A byte that goes on with a number. -/
def isNumberByte (b : UInt8) : Bool :=
  isDigitByte b || b == 0x2E || b == 0x65 || b == 0x45

/-- A number may end in front of `rest`. -/
def EndsNumber (rest : List UInt8) : Prop :=
  StopsRun isNumberByte rest

theorem isNumberByte_eq_false_iff {b : UInt8} :
    isNumberByte b = false ↔ isDigitByte b = false ∧ b ≠ 0x2E ∧ b ≠ 0x65 ∧ b ≠ 0x45 := by
  simp only [isNumberByte, Bool.or_eq_false_iff, beq_eq_false_iff_ne, and_assoc]

section Ends

variable {rest fraction power : List UInt8}

theorem EndsNumber.stopsRun (h : EndsNumber rest) : StopsRun isDigitByte rest :=
  fun b hb => (isNumberByte_eq_false_iff.1 (h b hb)).1

theorem EndsNumber.head?_beq (h : EndsNumber rest) {b : UInt8} (hb : isNumberByte b = true) :
    (rest.head? == some b) = false := by
  refine beq_eq_false_iff_ne.2 fun hhead => ?_
  rw [h b hhead] at hb
  cases hb

/-- The digits of the places end in front of a power. -/
theorem IsPower.stopsRun (h : IsPower power) (hrest : EndsNumber rest) :
    StopsRun isDigitByte (power ++ rest) := by
  cases h with
  | none => exact hrest.stopsRun
  | power hmark _ _ _ =>
    rw [List.cons_append, stopsRun_cons_iff]
    obtain rfl | rfl := hmark
    · decide
    · decide

/-- No power starts with a point. -/
theorem IsPower.head?_beq (h : IsPower power) (hrest : EndsNumber rest) :
    ((power ++ rest).head? == some 0x2E) = false := by
  cases h with
  | none => exact hrest.head?_beq (by decide)
  | power hmark _ _ _ => obtain rfl | rfl := hmark <;> rfl

/-- The digits of the whole part end in front of the places. -/
theorem IsFraction.stopsRun (h : IsFraction fraction) (hpower : IsPower power)
    (hrest : EndsNumber rest) : StopsRun isDigitByte (fraction ++ (power ++ rest)) := by
  cases h with
  | none => exact hpower.stopsRun hrest
  | places _ _ =>
    rw [List.cons_append, stopsRun_cons_iff]
    decide

end Ends

/-! ### Values that depend on the bytes taken -/

/-- The reader takes `t` and gives a value, or fails on it. -/
def Yields (r : Reader β) (t rest : List UInt8) : Option β → Prop
  | some x => Takes r t x rest
  | none => Refuses r t rest

/-- The bytes `t` decide whether the reader gives a value, and which. -/
def IsDetermined (r : Reader β) (t : List UInt8) : Prop :=
  ∃ value?, ∀ rest, EndsNumber rest → Yields r t rest value?

section Determined

variable {r : Reader β} {s : β → Reader γ} {t t' : List UInt8} {x : β}

theorem isDetermined_pure (x : β) : IsDetermined (pure x) [] :=
  ⟨some x, fun rest _ => takes_pure x rest⟩

theorem isDetermined_failHere (cause : Cause) (t : List UInt8) :
    IsDetermined (Reader.failHere cause : Reader β) t :=
  ⟨none, fun _ _ c _ => ⟨c.fault cause, rfl⟩⟩

/-- After what is taken in any case, the bytes that follow decide. -/
theorem IsDetermined.bind (hr : ∀ rest, EndsNumber rest → Takes r t x (t' ++ rest))
    (hs : IsDetermined (s x) t') : IsDetermined (r >>= s) (t ++ t') := by
  obtain ⟨value?, hvalue⟩ := hs
  refine ⟨value?, fun rest hrest => ?_⟩
  have hthen := hvalue rest hrest
  cases value? with
  | some y => exact (hr rest hrest).bind hthen
  | none => exact (hr rest hrest).bind_refuses hthen

theorem IsDetermined.bind_nil (hr : ∀ rest, EndsNumber rest → Takes r [] x (t ++ rest))
    (hs : IsDetermined (s x) t) : IsDetermined (r >>= s) t :=
  IsDetermined.bind hr hs

/-- A reader may look at the byte that comes next, if it does the same whatever follows. -/
theorem IsDetermined.peek_bind {f : Option UInt8 → Reader γ} {s : Reader γ}
    (hf : ∀ rest, EndsNumber rest → f (t ++ rest).head? = s) (h : IsDetermined s t) :
    IsDetermined (Reader.peek? >>= f) t := by
  obtain ⟨value?, hvalue⟩ := h
  refine ⟨value?, fun rest hrest => ?_⟩
  have hpeek := Reader.takes_peek? (t ++ rest)
  have hthen := hvalue rest hrest
  rw [← hf rest hrest] at hthen
  cases value? with
  | some y => exact hpeek.bind_nil hthen
  | none => exact Takes.bind_refuses hpeek hthen

/-- A reader may look at its cursor, if it sees no more than the bytes taken. -/
theorem IsDetermined.get_bind {f : Cursor → Reader γ}
    (hf : ∀ rest c, EndsNumber rest → c.rest = t ++ rest → f c = f (.start t))
    (h : IsDetermined (f (.start t)) t) : IsDetermined (get >>= f) t := by
  obtain ⟨value?, hvalue⟩ := h
  refine ⟨value?, fun rest hrest => ?_⟩
  have hthen := hvalue rest hrest
  cases value? with
  | some y => exact takes_get_bind fun c hc => hf rest c hrest hc ▸ hthen
  | none => exact refuses_get_bind fun c hc => hf rest c hrest hc ▸ hthen

/-- What takes nothing may follow. -/
theorem IsDetermined.bind_last (hr : IsDetermined r t) (hs : ∀ x, IsDetermined (s x) []) :
    IsDetermined (r >>= s) t := by
  obtain ⟨_ | x, hvalue⟩ := hr
  · refine ⟨none, fun rest hrest c hc => ?_⟩
    obtain ⟨fault, hfault⟩ := hvalue rest hrest c hc
    exact ⟨fault, by rw [StateT.run_bind, hfault]; rfl⟩
  · have hall : IsDetermined (r >>= s) (t ++ []) :=
      IsDetermined.bind (fun rest hrest => hvalue rest hrest) (hs x)
    rwa [List.append_nil] at hall

end Determined

/-! ### The parts of a number -/

/-- The digits that no longer fit come last. -/
theorem exists_eq_append_collect (limit value : Nat) (digits : List UInt8) :
    ∃ fitting, digits = fitting ++ (collect limit value digits).2 := by
  induction digits generalizing value with
  | nil => exact ⟨[], rfl⟩
  | cons b digits ih =>
    rw [collect]
    split
    · obtain ⟨fitting, hfitting⟩ := ih (10 * value + digitOfByte b)
      exact ⟨b :: fitting, congrArg (b :: ·) hfitting⟩
    · exact ⟨[], rfl⟩

namespace Reader

theorem isDetermined_scaled (negative : Bool) (word : Nat) (exponent : Int) :
    IsDetermined (scaled negative word exponent) [] := by
  unfold scaled
  split
  · exact isDetermined_pure _
  · dsimp only
    split
    · split
      · exact isDetermined_failHere _ _
      · exact isDetermined_pure _
    · split
      · exact isDetermined_pure _
      · exact isDetermined_failHere _ _

theorem takes_atExponent (rest : List UInt8) :
    Takes atExponent [] (rest.head? == some 0x65 || rest.head? == some 0x45) rest :=
  (takes_peek? rest).bind_nil (takes_pure _ rest)

theorem takes_powerSign {sign : List UInt8} (hsign : IsPowerSign sign) {b : UInt8}
    (hb : isDigitByte b = true) (rest : List UInt8) :
    Takes powerSign sign (sign == [0x2D]) (b :: rest) := by
  unfold powerSign
  cases hsign with
  | none =>
    refine (takes_peek? (b :: rest)).bind_nil ?_
    have hplus : (b == 0x2B) = false := beq_of_isDigitByte hb (by decide)
    have hminus : (b == 0x2D) = false := beq_of_isDigitByte hb (by decide)
    simp only [List.head?_cons, Option.some_beq_some, hplus, hminus]
    exact takes_pure _ _
  | plus =>
    refine (takes_peek? _).bind_nil ?_
    exact (takes_skip _ _).bind_last (takes_pure _ _)
  | minus =>
    refine (takes_peek? _).bind_nil ?_
    exact (takes_skip _ _).bind_last (takes_pure _ _)

theorem isDetermined_withExponent {power : List UInt8} (hpower : IsPower power) (hne : power ≠ [])
    (negative : Bool) (word : Nat) (exponent : Int) :
    IsDetermined (withExponent negative word exponent) power := by
  cases hpower with
  | none => exact absurd rfl hne
  | @power mark b sign digits _ hsign hb hdigits =>
    unfold withExponent
    refine IsDetermined.bind (fun _ _ => takes_skip mark _) ?_
    refine IsDetermined.bind (fun rest _ => takes_powerSign hsign hb (digits ++ rest)) ?_
    refine IsDetermined.bind (fun rest _ => takes_next? b (digits ++ rest)) ?_
    simp only [hb, Bool.not_true, Bool.false_eq_true, if_false]
    -- the digits are those that come next, whatever follows them
    have hrun : ∀ rest, EndsNumber rest → (digits ++ rest).takeWhile isDigitByte = digits :=
      fun rest hrest => takeWhile_append_of_stopsRun hdigits hrest.stopsRun
    have hall : digits.takeWhile isDigitByte = digits := by
      simpa using hrun [] (stopsRun_nil _)
    refine IsDetermined.get_bind (fun rest c hrest hc => ?_) ?_
    · simp only [hc, hrun rest hrest, Cursor.start, hall]
    · simp only [Cursor.start, hall]
      obtain ⟨fitting, hfitting⟩ := exists_eq_append_collect maxExponent (digitOfByte b) digits
      cases hleft : (collect maxExponent (digitOfByte b) digits).2 with
      | nil =>
        exact IsDetermined.bind_last ⟨some (), fun rest _ => takes_advanceBy digits rest⟩
          fun _ => isDetermined_scaled _ _ _
      | cons d others =>
        -- the power is too large: all digits are taken, but the rest of them apart
        have hdigits' : digits = (fitting ++ [d]) ++ others := by
          rw [hfitting, hleft, List.append_assoc, List.singleton_append]
        have hlength : digits.length - others.length = (fitting ++ [d]).length := by
          rw [hdigits', List.length_append, Nat.add_sub_cancel]
        dsimp only
        rw [hlength, hdigits']
        refine IsDetermined.bind (fun rest _ => takes_advanceBy (fitting ++ [d]) _) ?_
        split
        · exact isDetermined_failHere _ _
        · exact IsDetermined.bind_last ⟨some (), fun rest _ => takes_advanceBy others rest⟩
            fun _ => isDetermined_pure _

/-- A power starts with its mark, and nothing else does. -/
theorem takes_atExponent_of_isPower {power rest : List UInt8} (hpower : IsPower power)
    (hrest : EndsNumber rest) : Takes atExponent [] (!power.isEmpty) (power ++ rest) := by
  have h := takes_atExponent (power ++ rest)
  cases hpower with
  | none =>
    -- without a power a number ends, and what follows goes on with none
    have hlower : (rest.head? == some 0x65) = false := hrest.head?_beq (by decide)
    have hupper : (rest.head? == some 0x45) = false := hrest.head?_beq (by decide)
    rwa [List.nil_append, hlower, hupper] at h
  | power hmark _ _ _ =>
    obtain rfl | rfl := hmark
    · exact h
    · exact h

theorem isDetermined_finishFloat {power : List UInt8} (hpower : IsPower power) (negative : Bool)
    (word : Nat) (exponent : Int) : IsDetermined (finishFloat negative word exponent) power := by
  refine IsDetermined.bind_nil (fun rest hrest => takes_atExponent_of_isPower hpower hrest) ?_
  cases power with
  | nil => exact isDetermined_scaled negative word exponent
  | cons b power => exact isDetermined_withExponent hpower (by simp) negative word exponent

theorem isDetermined_withPlaces {digits power : List UInt8} (hne : digits ≠ [])
    (hdigits : AreDigits digits) (hpower : IsPower power) (negative : Bool) (word : Nat)
    (exponent : Int) :
    IsDetermined (withPlaces negative word exponent) (0x2E :: (digits ++ power)) := by
  unfold withPlaces
  refine IsDetermined.bind (t := [0x2E]) (fun rest _ => takes_skip 0x2E _) ?_
  refine IsDetermined.bind (fun rest hrest => takes_takeRun hdigits (hpower.stopsRun hrest)) ?_
  rw [if_neg (by simpa using hne)]
  exact isDetermined_finishFloat hpower _ _ _

/-- What follows the whole part decides with it. -/
theorem isDetermined_afterWhole {fraction power : List UInt8} (hfraction : IsFraction fraction)
    (hpower : IsPower power) (negative : Bool) (word dropped : Nat) :
    IsDetermined (afterWhole negative word dropped) (fraction ++ power) := by
  unfold afterWhole
  cases hfraction with
  | places hne hdigits =>
    refine IsDetermined.bind_nil (fun rest _ => takes_peek? _) ?_
    exact IsDetermined.bind_last (isDetermined_withPlaces hne hdigits hpower _ _ _)
      fun _ => isDetermined_pure _
  | none =>
    rw [List.nil_append]
    refine IsDetermined.peek_bind
      (fun rest hrest => by rw [hpower.head?_beq hrest, if_neg Bool.false_ne_true]) ?_
    refine IsDetermined.bind_nil (fun rest hrest => takes_atExponent_of_isPower hpower hrest) ?_
    cases power with
    | nil =>
      show IsDetermined (if dropped = 0 then pure (integer negative word)
        else scaled negative word dropped >>= fun x => pure (.float x)) []
      split
      · exact isDetermined_pure _
      · exact (isDetermined_scaled _ _ _).bind_last fun _ => isDetermined_pure _
    | cons mark power =>
      exact (isDetermined_withExponent hpower (by simp) negative word dropped).bind_last
        fun _ => isDetermined_pure _

/-- **The bytes of a number decide its value**, or that it is refused. -/
theorem isDetermined_number {t : List UInt8} (h : IsUnsigned t) (negative : Bool) :
    IsDetermined (number negative) t := by
  obtain @⟨whole, fraction, power, hwhole, hfraction, hpower⟩ := h
  unfold number
  cases hwhole with
  | zero =>
    refine IsDetermined.bind (t := [0x30]) (fun rest _ => takes_next? 0x30 _) ?_
    refine IsDetermined.peek_bind (s := afterWhole negative 0 0) (fun rest hrest => ?_)
      (isDetermined_afterWhole hfraction hpower negative 0 0)
    have hstop := hfraction.stopsRun hpower hrest
    rw [List.append_assoc]
    -- behind a zero no digit may follow, and none does
    cases hhead : (fraction ++ (power ++ rest)).head? with
    | none => rfl
    | some b => simp only [hstop b hhead, Bool.false_eq_true, if_false]
  | @digits b digits hb hne hdigits =>
    refine IsDetermined.bind (t := [b]) (fun rest _ => takes_next? b _) ?_
    simp only [beq_eq_false_iff_ne.2 hne, hb, Bool.false_eq_true, if_false, if_true]
    refine IsDetermined.bind (fun rest hrest => takes_takeRun hdigits ?_) ?_
    · rw [List.append_assoc]
      exact hfraction.stopsRun hpower hrest
    · exact isDetermined_afterWhole hfraction hpower negative _ _

theorem isDetermined_anyNumber {t : List UInt8} (h : IsNumber t) (expected : String) :
    IsDetermined (anyNumber expected) t := by
  unfold anyNumber
  cases h with
  | unsigned h =>
    obtain ⟨b, t', rfl, hb⟩ := h.exists_cons
    refine IsDetermined.bind_nil (fun rest _ => takes_peekPastBlanks? isBlanks_nil
      (stopsRun_cons_iff.2 (isBlank_of_isDigitByte hb))) ?_
    have hminus : (b == 0x2D) = false := beq_of_isDigitByte hb (by decide)
    simp only [hminus, hb, Bool.false_eq_true, if_false, if_true]
    exact isDetermined_number h false
  | negative h =>
    refine IsDetermined.bind_nil (fun rest _ => takes_peekPastBlanks? isBlanks_nil
      (stopsRun_cons_iff.2 (by decide))) ?_
    exact IsDetermined.bind (t := [0x2D]) (fun rest _ => takes_skip 0x2D _)
      (isDetermined_number h true)

theorem isDetermined_float {t : List UInt8} (h : IsNumber t) : IsDetermined float t := by
  refine (isDetermined_anyNumber h "f64").bind_last fun value => ?_
  cases value <;> exact isDetermined_pure _

theorem isDetermined_whole {t : List UInt8} (h : IsNumber t) : IsDetermined whole t := by
  refine (isDetermined_anyNumber h "u32").bind_last fun value => ?_
  cases value with
  | natural n =>
    dsimp only
    split
    · exact isDetermined_pure n
    · exact isDetermined_failHere _ _
  | negative n => exact isDetermined_failHere _ _
  | float x => exact isDetermined_failHere _ _

end Reader

theorem IsNumber.stopsRun_isBlank {t : List UInt8} (h : IsNumber t) (rest : List UInt8) :
    StopsRun Cursor.isBlank (t ++ rest) := by
  cases h with
  | unsigned h =>
    obtain ⟨b, t', rfl, hb⟩ := h.exists_cons
    exact stopsRun_cons_iff.2 (isBlank_of_isDigitByte hb)
  | negative h => exact stopsRun_cons_iff.2 (by decide)

/-- A reader whose value depends on the bytes taken gives the value that it gives for these bytes by
themselves. -/
theorem IsDetermined.takes_of_read {r : Reader β} {t : List UInt8} (h : IsDetermined r t) {x : β}
    (hread : read r t = .ok x) {rest : List UInt8} (hrest : EndsNumber rest) :
    Takes r t x rest := by
  obtain ⟨value?, hvalue⟩ := h
  -- by itself the number stands before nothing, which ends it as well
  have halone := hvalue [] (stopsRun_nil _)
  cases value? with
  | none =>
    obtain ⟨fault, hfault⟩ := halone (.start t) (List.append_nil t).symm
    rw [read, hfault] at hread
    cases hread
  | some y =>
    have hwhole := Takes.read_eq_ok halone isBlanks_nil
    rw [List.append_nil, hread] at hwhole
    cases hwhole
    exact hvalue rest hrest

/-- **A number that is read by itself is read as the same value in any place.** -/
theorem IsNumber.takes_float {t ws rest : List UInt8} (h : IsNumber t) {x : Float}
    (hread : read Reader.float t = .ok x) (hws : IsBlanks ws) (hrest : EndsNumber rest) :
    Takes Reader.float (ws ++ t) x rest :=
  ((passesBlanks_peekPastBlanks?.bind _).bind _).takes hws (h.stopsRun_isBlank rest)
    ((Reader.isDetermined_float h).takes_of_read hread hrest)

theorem IsNumber.takes_whole {t ws rest : List UInt8} (h : IsNumber t) {n : Nat}
    (hread : read Reader.whole t = .ok n) (hws : IsBlanks ws) (hrest : EndsNumber rest) :
    Takes Reader.whole (ws ++ t) n rest :=
  ((passesBlanks_peekPastBlanks?.bind _).bind _).takes hws (h.stopsRun_isBlank rest)
    ((Reader.isDetermined_whole h).takes_of_read hread hrest)

/-! ### Numbers that are skipped -/

namespace Reader

section Skip

variable {fraction power rest : List UInt8}

theorem takes_skipExponent (hpower : IsPower power) (hne : power ≠ []) (hrest : EndsNumber rest) :
    Takes skipExponent power () rest := by
  cases hpower with
  | none => exact absurd rfl hne
  | @power mark b sign digits _ hsign hb hdigits =>
    unfold skipExponent
    refine (takes_skip mark _).bind ?_
    refine ((takes_powerSign hsign hb (digits ++ rest)).discard).bind ?_
    refine (takes_next? b (digits ++ rest)).bind ?_
    simp only [hb, if_true]
    exact (takes_takeRun hdigits hrest.stopsRun).discard

/-- A power is skipped if there is one. -/
theorem takes_skipPower (hpower : IsPower power) (hrest : EndsNumber rest) :
    Takes (do if ← atExponent then skipExponent) power () rest := by
  refine (takes_atExponent_of_isPower hpower hrest).bind_nil ?_
  cases power with
  | nil => exact takes_pure () rest
  | cons b power => exact takes_skipExponent hpower (by simp) hrest

/-- What follows the whole part is skipped. -/
theorem takes_skipTail (hfraction : IsFraction fraction) (hpower : IsPower power)
    (hrest : EndsNumber rest) : Takes skipNumber.tail (fraction ++ power) () rest := by
  unfold skipNumber.tail
  refine (takes_peek? _).bind_nil ?_
  cases hfraction with
  | @places digits hne hdigits =>
    show Takes skipPlaces ([0x2E] ++ (digits ++ power)) () rest
    unfold skipPlaces
    refine (takes_skip 0x2E _).bind ?_
    refine (takes_takeRun hdigits (hpower.stopsRun hrest)).bind ?_
    rw [if_neg (by simpa using hne)]
    exact takes_skipPower hpower hrest
  | none =>
    rw [List.nil_append, hpower.head?_beq hrest]
    exact takes_skipPower hpower hrest

/-- **Numbers are skipped**, whatever their value. -/
theorem takes_skipNumber {t : List UInt8} (h : IsUnsigned t) (hrest : EndsNumber rest) :
    Takes skipNumber t () rest := by
  obtain @⟨whole, fraction, power, hwhole, hfraction, hpower⟩ := h
  have hstop := hfraction.stopsRun hpower hrest
  have htail := takes_skipTail hfraction hpower hrest
  unfold skipNumber
  cases hwhole with
  | zero =>
    refine (takes_next? 0x30 _).bind (t := [0x30]) ?_
    refine (takes_peek? _).bind_nil ?_
    rw [List.append_assoc]
    cases hhead : (fraction ++ (power ++ rest)).head? with
    | none => exact htail
    | some b =>
      simp only [hstop b hhead, Bool.false_eq_true, if_false]
      exact htail
  | @digits b digits hb hne hdigits =>
    refine (takes_next? b _).bind (t := [b]) ?_
    simp only [beq_eq_false_iff_ne.2 hne, hb, Bool.false_eq_true, if_false, if_true]
    refine ((takes_takeRun hdigits ?_).discard).bind htail
    rw [List.append_assoc]
    exact hstop

end Skip

end Reader

end TimeValue.Json
