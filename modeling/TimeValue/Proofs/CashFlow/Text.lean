import TimeValue.Proofs.CashFlow.Table
import TimeValue.Proofs.Text.Numeral

/-!
# The texts of flows

A text is a flow if its first colon stands between a period and an amount, blanks around either left
aside.  A period is an optional plus sign and digits, worth at most what 32 bits hold; an amount is
whatever is read as a number.  Any other text is refused, with the first reason that applies: there
is no colon, the part before it is no period, the part after it is no amount.  The message quotes
the text or the part as it is written, with its blanks.

## Main definitions

* `SplitsAtColon` — the parts of a text before and after its first colon.
* `IsPeriodText`, `IsAmountText` — the parts that are read, with their values.

## Main results

* `splitAtColon?_eq_some_iff`, `splitAtColon?_eq_none_iff` — where a text is split.
* `CashFlow.ofText_cases` — **which texts are flows, and why others are not.**
-/

namespace TimeValue

open Text

/-! ### The parts of a text -/

/-- The parts of a text before and after its first colon. -/
structure SplitsAtColon (cs left right : List Char) : Prop where
  eq_append : cs = left ++ ':' :: right
  notMem : ':' ∉ left

/-- A period between blanks. -/
def IsPeriodText (part : List Char) (p : Nat) : Prop :=
  ∃ core, IsTrimmed part core ∧ IsWhole core p ∧ p ≤ 4294967295

/-- An amount between blanks. -/
def IsAmountText (part : List Char) (a : Float) : Prop :=
  ∃ core, IsTrimmed part core ∧ readDecimal core = .ok a

theorem isPeriodText_iff {part : List Char} {p : Nat} :
    IsPeriodText part p ↔ readWhole 10 maxWhole (trim part) = .ok p := by
  simp only [IsPeriodText, isTrimmed_iff, exists_eq_left', readWhole_eq_ok_iff, maxWhole]

theorem isAmountText_iff {part : List Char} {a : Float} :
    IsAmountText part a ↔ readDecimal (trim part) = .ok a := by
  simp only [IsAmountText, isTrimmed_iff, exists_eq_left']

/-! ### The first colon -/

theorem splitAtColon?_eq_none_iff {cs : List Char} : splitAtColon? cs = none ↔ ':' ∉ cs := by
  constructor
  · intro h hmem
    -- a text with a colon would be split at the first one
    obtain ⟨left, right, rfl, hleft⟩ := List.eq_append_cons_of_mem hmem
    rw [splitAtColon?_append hleft] at h
    cases h
  · intro h
    have hne : ∀ c ∈ cs, (c != ':') = true := by
      rintro c hc
      exact bne_iff_ne.2 fun heq => h (heq ▸ hc)
    rw [splitAtColon?, List.dropWhile_eq_nil_iff.2 hne]

theorem splitAtColon?_eq_some_iff {cs left right : List Char} :
    splitAtColon? cs = some (left, right) ↔ SplitsAtColon cs left right := by
  constructor
  · intro h
    have hmem : ':' ∈ cs := by
      refine not_not.1 fun hnot => ?_
      rw [splitAtColon?_eq_none_iff.2 hnot] at h
      cases h
    -- the split is at the first colon, and there is only one such
    obtain ⟨left', right', rfl, hleft'⟩ := List.eq_append_cons_of_mem hmem
    rw [splitAtColon?_append hleft'] at h
    cases h
    exact ⟨rfl, hleft'⟩
  · rintro ⟨rfl, hleft⟩
    exact splitAtColon?_append hleft right

/-! ### Flows -/

section Parts

variable {cs left right : List Char}

theorem CashFlow.ofText_of_splitsAtColon (h : SplitsAtColon cs left right) :
    CashFlow.ofText cs = CashFlow.ofParts left right := by
  rw [CashFlow.ofText, splitAtColon?_eq_some_iff.2 h]

theorem CashFlow.ofText_eq_ok_iff {flow : CashFlow Float} :
    CashFlow.ofText cs = .ok flow ↔
      ∃ left right, SplitsAtColon cs left right ∧ IsPeriodText left flow.period ∧
        IsAmountText right flow.amount := by
  constructor
  · intro h
    unfold CashFlow.ofText at h
    split at h
    · cases h
    · next left right hsplit =>
      obtain ⟨hperiod, hamount⟩ := CashFlow.ofParts_eq_ok_iff.1 h
      exact ⟨left, right, splitAtColon?_eq_some_iff.1 hsplit, isPeriodText_iff.2 hperiod,
        isAmountText_iff.2 hamount⟩
  · rintro ⟨left, right, hsplit, hperiod, hamount⟩
    rw [CashFlow.ofText_of_splitsAtColon hsplit]
    exact CashFlow.ofParts_eq_ok_iff.2 ⟨isPeriodText_iff.1 hperiod, isAmountText_iff.1 hamount⟩

/-- A part that is no period is reported, whatever stands after the colon. -/
theorem CashFlow.ofParts_of_badPeriod (h : ¬ ∃ p, IsPeriodText left p) (right : List Char) :
    ∃ fault, readWhole 10 maxWhole (trim left) = .error fault ∧
      CashFlow.ofParts left right = .error (.badPeriod left fault) := by
  unfold CashFlow.ofParts
  cases hread : readWhole 10 maxWhole (trim left) with
  | error fault => exact ⟨fault, rfl, rfl⟩
  | ok p => exact absurd ⟨p, isPeriodText_iff.2 hread⟩ h

/-- After a period, a part that is no amount is reported. -/
theorem CashFlow.ofParts_of_badAmount (hperiod : ∃ p, IsPeriodText left p)
    (h : ¬ ∃ a, IsAmountText right a) :
    ∃ fault, readDecimal (trim right) = .error fault ∧
      CashFlow.ofParts left right = .error (.badAmount right fault) := by
  obtain ⟨p, hp⟩ := hperiod
  unfold CashFlow.ofParts
  -- the period is read first, so the amount is only looked at behind one
  rw [isPeriodText_iff.1 hp]
  cases hread : readDecimal (trim right) with
  | error fault => exact ⟨fault, rfl, rfl⟩
  | ok a => exact absurd ⟨a, isAmountText_iff.2 hread⟩ h

end Parts

/-- **Which texts are flows, and why others are not.**  Where there is a colon the first one counts.
A text that is no flow is refused with a message about the missing colon, about the part before it
if that is no period, and about the part after it otherwise, with the reason for which that part
could not be read. -/
theorem CashFlow.ofText_cases (cs : List Char) :
    (∀ p a, CashFlow.ofText cs = .ok ⟨p, a⟩ ↔
      ∃ left right, SplitsAtColon cs left right ∧ IsPeriodText left p ∧ IsAmountText right a) ∧
    (':' ∉ cs → (CashFlow.ofText cs).mapError FlowFault.message =
      .error ("expected PERIOD:AMOUNT, got '" ++ String.ofList cs ++ "'")) ∧
    ∀ left right, SplitsAtColon cs left right →
      ((¬ ∃ p, IsPeriodText left p) → ∃ fault,
        readWhole 10 4294967295 (trim left) = .error fault ∧
          (CashFlow.ofText cs).mapError FlowFault.message =
            .error ("invalid period '" ++ String.ofList left ++ "': " ++ fault.message)) ∧
      ((∃ p, IsPeriodText left p) → (¬ ∃ a, IsAmountText right a) → ∃ fault,
        readDecimal (trim right) = .error fault ∧
          (CashFlow.ofText cs).mapError FlowFault.message =
            .error ("invalid amount '" ++ String.ofList right ++ "': " ++ fault.message)) := by
  refine ⟨fun p a => CashFlow.ofText_eq_ok_iff, fun hnot => ?_, fun left right hsplit => ?_⟩
  · rw [CashFlow.ofText, splitAtColon?_eq_none_iff.2 hnot]
    rfl
  · rw [CashFlow.ofText_of_splitsAtColon hsplit]
    constructor
    · intro hbad
      obtain ⟨fault, hread, hparts⟩ := CashFlow.ofParts_of_badPeriod hbad right
      exact ⟨fault, hread, by rw [hparts]; rfl⟩
    · intro hperiod hbad
      obtain ⟨fault, hread, hparts⟩ := CashFlow.ofParts_of_badAmount hperiod hbad
      exact ⟨fault, hread, by rw [hparts]; rfl⟩

/-- A period with a plus sign, a zero and blanks is one; a number alone has no colon; a negative
period is named before a bad amount, and with its blank. -/
theorem CashFlow.ofText_cases_period :
    CashFlow.ofText " +07 :2.5".toList = .ok ⟨7, 2.5⟩ ∧
      (CashFlow.ofText ['7']).mapError FlowFault.message =
        .error "expected PERIOD:AMOUNT, got '7'" ∧
      (CashFlow.ofText "-1 :x".toList).mapError FlowFault.message =
        .error "invalid period '-1 ': invalid digit found in string" ∧
      (CashFlow.ofText "1: x".toList).mapError FlowFault.message =
        .error "invalid amount ' x': invalid float literal" := by
  have hsplit : SplitsAtColon " +07 :2.5".toList " +07 ".toList "2.5".toList :=
    ⟨by decide, by decide⟩
  have hsplit' : SplitsAtColon "-1 :x".toList "-1 ".toList "x".toList := ⟨by decide, by decide⟩
  have hsplit'' : SplitsAtColon "1: x".toList "1".toList " x".toList := ⟨by decide, by decide⟩
  have hperiod : IsPeriodText " +07 ".toList 7 := isPeriodText_iff.2 (by decide)
  have hamount : IsAmountText "2.5".toList 2.5 := isAmountText_iff.2 rfl
  have hbad : ¬ ∃ p, IsPeriodText "-1 ".toList p := by
    rintro ⟨p, hp⟩
    cases isPeriodText_iff.1 hp
  have hone : IsPeriodText "1".toList 1 := isPeriodText_iff.2 (by decide)
  have hbad' : ¬ ∃ a, IsAmountText " x".toList a := by
    rintro ⟨a, ha⟩
    cases isAmountText_iff.1 ha
  obtain ⟨fault, hfault, htext⟩ := ((CashFlow.ofText_cases _).2.2 _ _ hsplit').1 hbad
  obtain ⟨fault', hfault', htext'⟩ := ((CashFlow.ofText_cases _).2.2 _ _ hsplit'').2 ⟨1, hone⟩ hbad'
  cases hfault
  cases hfault'
  exact ⟨((CashFlow.ofText_cases _).1 7 2.5).2 ⟨_, _, hsplit, hperiod, hamount⟩,
    (CashFlow.ofText_cases ['7']).2.1 (by decide), htext, htext'⟩

end TimeValue
