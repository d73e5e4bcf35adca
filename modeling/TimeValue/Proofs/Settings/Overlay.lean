import TimeValue.Settings.Variables

/-!
# Variables overlay each other

Two sets of variables may be applied one after the other.  The later set hides the earlier one key
by key, but only where its text is a number of the kind that the key asks for: a text that is none
lets the earlier one through.  So there is one set that does what both do, and applying a set twice
does nothing more.

## Main definitions

* `decimalIn`, `wholeIn` — the number in a text with blanks around it.
* `parses` — whether a text is a number of the kind that a key asks for.
* `overlay` — one set of variables on top of another.

## Main results

* `Settings.withVariables_overlay` — **two sets one after the other are one on top of the other.**
* `Settings.withVariables_congr` — only the texts that parse count.
-/

namespace TimeValue

open Text

/-- The decimal in a text with blanks around it. -/
def decimalIn (text : String) : Option Float :=
  (readDecimal (trim text.toList)).toOption

/-- The whole number in a text with blanks around it. -/
def wholeIn (text : String) : Option Nat :=
  (readWhole 10 maxWhole (trim text.toList)).toOption

/-- Whether a text is a number of the kind that a key asks for: one key asks for a whole number,
the others ask for decimals. -/
def parses (key text : String) : Bool :=
  if key = "FINCALC_MAX_ITERATIONS" then (wholeIn text).isSome else (decimalIn text).isSome

/-- One set of variables on top of another: under each key the upper text where it parses, and the
lower one otherwise. -/
def overlay (upper lower : String → Option String) : String → Option String := fun key =>
  (upper key).filter (parses key) <|> lower key

/-! ### What a variable holds -/

section Holds

variable {lookup upper lower : String → Option String} {v : Variable}

theorem Variable.decimal?_eq (lookup : String → Option String) (v : Variable) :
    v.decimal? lookup = (lookup v.name).bind decimalIn := rfl

theorem Variable.whole?_eq (lookup : String → Option String) (v : Variable) :
    v.whole? lookup = (lookup v.name).bind wholeIn := rfl

theorem Variable.parses_of_ne (hv : v ≠ .maxIterations) (text : String) :
    parses v.name text = (decimalIn text).isSome :=
  if_neg fun hname => hv (Variable.name_injective hname)

theorem parses_maxIterations (text : String) :
    parses Variable.maxIterations.name text = (wholeIn text).isSome :=
  if_pos rfl

/-- A text that does not parse holds nothing. -/
theorem bind_filter_isSome {β : Type} (parse : String → Option β) (text? : Option String) :
    (text?.filter fun text => (parse text).isSome).bind parse = text?.bind parse := by
  cases text? with
  | none => rfl
  | some text => cases h : parse text <;> simp [Option.filter, h]

/-- What the upper text holds hides what the lower one holds. -/
theorem bind_filter_orElse {β : Type} (parse : String → Option β) (upper? lower? : Option String) :
    ((upper?.filter fun text => (parse text).isSome) <|> lower?).bind parse =
      (upper?.bind parse <|> lower?.bind parse) := by
  cases upper? with
  | none => rfl
  -- a text that does not parse is dropped, and the lower one shows
  | some text => cases h : parse text <;> simp [Option.filter, h]

theorem Variable.decimal?_filter (hv : v ≠ .maxIterations) :
    v.decimal? lookup = ((lookup v.name).filter (parses v.name)).bind decimalIn := by
  rw [decimal?_eq, funext (parses_of_ne hv), bind_filter_isSome]

theorem Variable.whole?_filter :
    maxIterations.whole? lookup =
      ((lookup maxIterations.name).filter (parses maxIterations.name)).bind wholeIn := by
  rw [whole?_eq, funext parses_maxIterations, bind_filter_isSome]

theorem Variable.decimal?_overlay (hv : v ≠ .maxIterations) :
    v.decimal? (overlay upper lower) = (v.decimal? upper <|> v.decimal? lower) := by
  simp only [decimal?_eq, overlay, funext (parses_of_ne hv), bind_filter_orElse]

theorem Variable.whole?_overlay :
    maxIterations.whole? (overlay upper lower) =
      (maxIterations.whole? upper <|> maxIterations.whole? lower) := by
  simp only [whole?_eq, overlay, funext parses_maxIterations, bind_filter_orElse]

end Holds

/-! ### Laws -/

/-- The settings of two sets are those of the upper one on top of those of the lower one. -/
theorem Layer.ofVariables_overlay (upper lower : String → Option String) :
    ofVariables (overlay upper lower) = (ofVariables upper).onto (ofVariables lower) := by
  simp (disch := decide) only [ofVariables, onto, Variable.decimal?_overlay,
    Variable.whole?_overlay]
  rfl

/-- A set on top of itself is itself. -/
theorem overlay_self (lookup : String → Option String) : overlay lookup lookup = lookup := by
  funext key
  cases h : lookup key with
  | none => simp [overlay, h]
  -- where the upper text is dropped, the lower one is the same text again
  | some text => cases hparses : parses key text <;> simp [overlay, h, hparses, Option.filter]

namespace Settings

/-- **Two sets one after the other are one on top of the other.** -/
theorem withVariables_overlay (s : Settings) (upper lower : String → Option String) :
    (s.withVariables lower).withVariables upper = s.withVariables (overlay upper lower) := by
  rw [withVariables, withVariables, withVariables, Layer.ofVariables_overlay, withLayer_onto]

/-- A set applied twice does nothing more. -/
theorem withVariables_withVariables (s : Settings) (lookup : String → Option String) :
    (s.withVariables lookup).withVariables lookup = s.withVariables lookup := by
  rw [withVariables_overlay, overlay_self]

/-- Sets with the same texts that parse give the same settings. -/
theorem withVariables_congr (s : Settings) {lookup lookup' : String → Option String}
    (h : ∀ key, (lookup key).filter (parses key) = (lookup' key).filter (parses key)) :
    s.withVariables lookup = s.withVariables lookup' := by
  -- settings see a text only if it parses
  have hlayer : Layer.ofVariables lookup = Layer.ofVariables lookup' := by
    simp (disch := decide) only [Layer.ofVariables, Variable.decimal?_filter,
      Variable.whole?_filter, h]
  rw [withVariables, withVariables, hlayer]

/-- A variable with a text that does not parse might as well not be set. -/
theorem withVariables_unparsed (s : Settings) (lookup : String → Option String) {key text : String}
    (h : parses key text = false) :
    s.withVariables (fun key' => if key' = key then some text else lookup key') =
      s.withVariables (fun key' => if key' = key then none else lookup key') := by
  refine withVariables_congr s fun key' => ?_
  by_cases hkey : key' = key
  · subst hkey
    simp [Option.filter, h]
  · simp only [hkey, if_false]

end Settings

end TimeValue
