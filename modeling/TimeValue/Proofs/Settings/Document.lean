import TimeValue.Proofs.Json.Record
import TimeValue.Proofs.Settings.Overlay
import TimeValue.Settings.Document

/-!
# Documents give what stands in them

A document is an object that may hold two others, and these may hold nine numbers between them.  A
number counts as what it is by itself; keys that mean nothing may hold any values; and nothing
depends on the order of the keys.

Each member of an object adds what it gives on top of what was there.  Since no key is given twice,
the sum of the members gives under each key what the member of that key does, and nothing where
there is none.

## Main definitions

* `Gives`, `Holds` — the number, and the object, that members give under a key.
* `GivesSolver`, `GivesRange` — the settings in the two objects.
* `IsDocument` — a document and the settings in it.

## Main results

* `IsDocument.ofDocument` — **a document is read as the settings in it.**
* `Settings.document_under_variables` — **each setting comes from its variable, or else from its
  key, or else is standard**, and variables overlay each other.
-/

namespace TimeValue

open Json

/-! ### Settings in objects -/

section Objects

variable {β : Type}

/-- What members give under a key: the number that stands there, as it is by itself, or nothing if
the key is not there. -/
structure Gives (reader : Reader β) (members : List Member) (key : String) (x? : Option β) :
    Prop where
  given : ∀ m ∈ members, m.name = key →
    IsNumber m.value ∧ ∃ x, x? = some x ∧ Json.read reader m.value = .ok x
  absent : (∀ m ∈ members, m.name ≠ key) → x? = none

/-- Members without a key give nothing under it. -/
theorem Gives.none {reader : Reader β} {members : List Member} {key : String}
    (h : ∀ m ∈ members, m.name ≠ key) : Gives reader members key none :=
  ⟨fun m hm hname => absurd hname (h m hm), fun _ => rfl⟩

/-- The members of the object that members hold under a key; there are none if the key is not
there. -/
structure Holds (members : List Member) (key : String) (inner : List Member) : Prop where
  given : ∀ m ∈ members, m.name = key → IsObject inner m.value
  absent : (∀ m ∈ members, m.name ≠ key) → inner = []

/-- The settings in the object for the root finder. -/
structure GivesSolver (members : List Member) (layer : Layer) : Prop where
  initialGuess : Gives Reader.float members "initial_guess" layer.initialGuess
  maxIterations : Gives Reader.whole members "max_iterations" layer.maxIterations
  tolerance : Gives Reader.float members "tolerance" layer.tolerance
  lowerBound : Gives Reader.float members "lower_bound" layer.lowerBound
  upperBound : Gives Reader.float members "upper_bound" layer.upperBound
  minDerivative : Gives Reader.float members "min_derivative" layer.minDerivative
  others : ∀ m ∈ members, m.name ∉ ["initial_guess", "max_iterations", "tolerance", "lower_bound",
    "upper_bound", "min_derivative"] → IsValue m.value

/-- The settings in the object for the rates of the curve. -/
structure GivesRange (members : List Member) (layer : Layer) : Prop where
  minRate : Gives Reader.float members "min" layer.minRate
  maxRate : Gives Reader.float members "max" layer.maxRate
  rateStep : Gives Reader.float members "step" layer.rateStep
  others : ∀ m ∈ members, m.name ∉ ["min", "max", "step"] → IsValue m.value

/-- A document with these members, those of its two objects, and the settings in them. -/
structure IsDocument (members solver range : List Member) (layer : Layer) (t : List UInt8) :
    Prop where
  object : IsObject members t
  solver_holds : Holds members "solver" solver
  range_holds : Holds members "npv_range" range
  solver_gives : GivesSolver solver layer
  range_gives : GivesRange range layer
  others : ∀ m ∈ members, m.name ∉ ["solver", "npv_range"] → IsValue m.value

end Objects

/-! ### Sums of layers -/

section Sums

variable {β : Type} {members : List Member} {key : String} {x? : Option β}

/-- A setting of a sum of layers, when the members of one key give it and no others do. -/
theorem foldl_onto_eq_ite {part : Member → Layer} {setting : Layer → Option β}
    (honto : ∀ upper lower : Layer,
      setting (upper.onto lower) = (setting upper <|> setting lower))
    (hpart : ∀ m, setting (part m) = if m.name = key then x? else none) (s : Layer) :
    setting (members.foldl (fun s m => (part m).onto s) s) =
      if ∃ m ∈ members, m.name = key then (x? <|> setting s) else setting s := by
  induction members generalizing s with
  | nil => simp
  | cons m members ih =>
    rw [List.foldl_cons, ih, honto, hpart]
    -- a member under the key gives the value, and any later one gives it again
    by_cases hm : m.name = key
    · by_cases hothers : ∃ m ∈ members, m.name = key
      · cases x? <;> simp [hm, hothers]
      · simp [hm, hothers]
    · simp [hm]

/-- The setting is the one given, on top of what was there, if nothing is given where the key is
not there. -/
theorem foldl_onto {part : Member → Layer} {setting : Layer → Option β}
    (honto : ∀ upper lower : Layer,
      setting (upper.onto lower) = (setting upper <|> setting lower))
    (hpart : ∀ m, setting (part m) = if m.name = key then x? else none)
    (habsent : (∀ m ∈ members, m.name ≠ key) → x? = none) (s : Layer) :
    setting (members.foldl (fun s m => (part m).onto s) s) = (x? <|> setting s) := by
  rw [foldl_onto_eq_ite honto hpart]
  split
  · rfl
  · next hnone =>
    rw [habsent fun m hm hname => hnone ⟨m, hm, hname⟩]
    rfl

/-- A setting that no members give stays as it was. -/
theorem foldl_onto_none {part : Member → Layer} {setting : Layer → Option β}
    (honto : ∀ upper lower : Layer,
      setting (upper.onto lower) = (setting upper <|> setting lower))
    (hpart : ∀ m, setting (part m) = none) (s : Layer) :
    setting (members.foldl (fun s m => (part m).onto s) s) = setting s := by
  induction members generalizing s with
  | nil => rfl
  | cons m members ih =>
    rw [List.foldl_cons, ih, honto, hpart]
    rfl

end Sums

/-! ### The settings by their keys -/

/-- The settings of the root finder in a layer. -/
def Layer.solverOnly (layer : Layer) : Layer :=
  { layer with minRate := none, maxRate := none, rateStep := none }

/-- The settings of the curve in a layer. -/
def Layer.rangeOnly (layer : Layer) : Layer :=
  { Layer.empty with
    minRate := layer.minRate, maxRate := layer.maxRate, rateStep := layer.rateStep }

/-- What a layer gives under a key of the object for the root finder. -/
def solverPart (layer : Layer) (name : String) : Layer where
  initialGuess := if name = "initial_guess" then layer.initialGuess else none
  maxIterations := if name = "max_iterations" then layer.maxIterations else none
  tolerance := if name = "tolerance" then layer.tolerance else none
  lowerBound := if name = "lower_bound" then layer.lowerBound else none
  upperBound := if name = "upper_bound" then layer.upperBound else none
  minDerivative := if name = "min_derivative" then layer.minDerivative else none
  minRate := none
  maxRate := none
  rateStep := none

/-- What a layer gives under a key of the object for the rates of the curve. -/
def rangePart (layer : Layer) (name : String) : Layer :=
  { Layer.empty with
    minRate := if name = "min" then layer.minRate else none
    maxRate := if name = "max" then layer.maxRate else none
    rateStep := if name = "step" then layer.rateStep else none }

/-- What a layer gives under a key of a document. -/
def documentPart (layer : Layer) (name : String) : Layer where
  initialGuess := if name = "solver" then layer.initialGuess else none
  maxIterations := if name = "solver" then layer.maxIterations else none
  tolerance := if name = "solver" then layer.tolerance else none
  lowerBound := if name = "solver" then layer.lowerBound else none
  upperBound := if name = "solver" then layer.upperBound else none
  minDerivative := if name = "solver" then layer.minDerivative else none
  minRate := if name = "npv_range" then layer.minRate else none
  maxRate := if name = "npv_range" then layer.maxRate else none
  rateStep := if name = "npv_range" then layer.rateStep else none

section Reads

variable {members : List Member} {m : Member} {layer : Layer} {fields : List (Json.Field Layer)}
  {key : String} {effect : Layer → Layer}

/-- A field that holds a number reads it. -/
theorem Gives.reads_numberField {x? : Option Float} (h : Gives Reader.float members key x?)
    (hm : m ∈ members) (hname : m.name = key) {put : Layer → Float → Layer}
    (hfind : fields.find? (·.name == key) = some (numberField key put))
    (heffect : ∀ x, x? = some x → ∀ s, put s x = effect s) : Reads fields m effect := by
  -- the value that the member's text is read as is the one that the layer gives
  obtain ⟨hnumber, x, hx, hread⟩ := h.given m hm hname
  refine .field (hname ▸ hfind) fun s ws rest hws hrest => ?_
  rw [← heffect x hx s]
  exact (hnumber.takes_float hread hws hrest).bind_last (takes_pure (put s x) rest)

/-- A field that holds a whole number reads it. -/
theorem Gives.reads_wholeField {n? : Option Nat} (h : Gives Reader.whole members key n?)
    (hm : m ∈ members) (hname : m.name = key) {put : Layer → Nat → Layer}
    (hfind : fields.find? (·.name == key) = some (wholeField key put))
    (heffect : ∀ n, n? = some n → ∀ s, put s n = effect s) : Reads fields m effect := by
  obtain ⟨hnumber, n, hn, hread⟩ := h.given m hm hname
  refine .field (hname ▸ hfind) fun s ws rest hws hrest => ?_
  rw [← heffect n hn s]
  exact (hnumber.takes_whole hread hws hrest).bind_last (takes_pure (put s n) rest)

theorem GivesSolver.reads (h : GivesSolver members layer) (hm : m ∈ members) :
    Reads solverFields m (solverPart layer m.name).onto := by
  by_cases hother : m.name ∈ ["initial_guess", "max_iterations", "tolerance", "lower_bound",
    "upper_bound", "min_derivative"]
  · simp only [List.mem_cons, List.not_mem_nil, or_false] at hother
    obtain hname | hname | hname | hname | hname | hname := hother
    · refine h.initialGuess.reads_numberField hm hname rfl fun x hx s => ?_
      simp [solverPart, Layer.onto, hname, hx]
    · refine h.maxIterations.reads_wholeField hm hname rfl fun n hn s => ?_
      simp [solverPart, Layer.onto, hname, hn]
    · refine h.tolerance.reads_numberField hm hname rfl fun x hx s => ?_
      simp [solverPart, Layer.onto, hname, hx]
    · refine h.lowerBound.reads_numberField hm hname rfl fun x hx s => ?_
      simp [solverPart, Layer.onto, hname, hx]
    · refine h.upperBound.reads_numberField hm hname rfl fun x hx s => ?_
      simp [solverPart, Layer.onto, hname, hx]
    · refine h.minDerivative.reads_numberField hm hname rfl fun x hx s => ?_
      simp [solverPart, Layer.onto, hname, hx]
  -- a member under another key is skipped, and gives nothing
  · refine .other hother (h.others m hm hother) fun s => ?_
    simp only [List.mem_cons, List.not_mem_nil, or_false, not_or] at hother
    simp [solverPart, Layer.onto, hother]

theorem GivesRange.reads (h : GivesRange members layer) (hm : m ∈ members) :
    Reads rangeFields m (rangePart layer m.name).onto := by
  by_cases hother : m.name ∈ ["min", "max", "step"]
  · simp only [List.mem_cons, List.not_mem_nil, or_false] at hother
    obtain hname | hname | hname := hother
    · refine h.minRate.reads_numberField hm hname rfl fun x hx s => ?_
      simp [rangePart, Layer.onto, Layer.empty, hname, hx]
    · refine h.maxRate.reads_numberField hm hname rfl fun x hx s => ?_
      simp [rangePart, Layer.onto, Layer.empty, hname, hx]
    · refine h.rateStep.reads_numberField hm hname rfl fun x hx s => ?_
      simp [rangePart, Layer.onto, Layer.empty, hname, hx]
  · refine .other hother (h.others m hm hother) fun s => ?_
    simp only [List.mem_cons, List.not_mem_nil, or_false, not_or] at hother
    simp [rangePart, Layer.onto, Layer.empty, hother]

/-- The members of the object for the root finder add up to its settings. -/
theorem GivesSolver.foldl_eq (h : GivesSolver members layer) (s : Layer) :
    members.foldl (fun s m => (solverPart layer m.name).onto s) s = layer.solverOnly.onto s := by
  -- each setting is given by the members of its own key only
  ext1
  · exact foldl_onto (fun _ _ => rfl) (fun _ => rfl) h.initialGuess.absent s
  · exact foldl_onto (fun _ _ => rfl) (fun _ => rfl) h.maxIterations.absent s
  · exact foldl_onto (fun _ _ => rfl) (fun _ => rfl) h.tolerance.absent s
  · exact foldl_onto (fun _ _ => rfl) (fun _ => rfl) h.lowerBound.absent s
  · exact foldl_onto (fun _ _ => rfl) (fun _ => rfl) h.upperBound.absent s
  · exact foldl_onto (fun _ _ => rfl) (fun _ => rfl) h.minDerivative.absent s
  · exact foldl_onto_none (fun _ _ => rfl) (fun _ => rfl) s
  · exact foldl_onto_none (fun _ _ => rfl) (fun _ => rfl) s
  · exact foldl_onto_none (fun _ _ => rfl) (fun _ => rfl) s

/-- The members of the object for the rates of the curve add up to its settings. -/
theorem GivesRange.foldl_eq (h : GivesRange members layer) (s : Layer) :
    members.foldl (fun s m => (rangePart layer m.name).onto s) s = layer.rangeOnly.onto s := by
  ext1
  · exact foldl_onto_none (fun _ _ => rfl) (fun _ => rfl) s
  · exact foldl_onto_none (fun _ _ => rfl) (fun _ => rfl) s
  · exact foldl_onto_none (fun _ _ => rfl) (fun _ => rfl) s
  · exact foldl_onto_none (fun _ _ => rfl) (fun _ => rfl) s
  · exact foldl_onto_none (fun _ _ => rfl) (fun _ => rfl) s
  · exact foldl_onto_none (fun _ _ => rfl) (fun _ => rfl) s
  · exact foldl_onto (fun _ _ => rfl) (fun _ => rfl) h.minRate.absent s
  · exact foldl_onto (fun _ _ => rfl) (fun _ => rfl) h.maxRate.absent s
  · exact foldl_onto (fun _ _ => rfl) (fun _ => rfl) h.rateStep.absent s

end Reads

/-! ### Documents -/

section Documents

variable {members solver range : List Member} {layer : Layer} {t ws ws' : List UInt8}
  {cs : List Char}

theorem IsDocument.reads (h : IsDocument members solver range layer t) {m : Member}
    (hm : m ∈ members) : Reads documentFields m (documentPart layer m.name).onto := by
  by_cases hother : m.name ∈ ["solver", "npv_range"]
  · simp only [List.mem_cons, List.not_mem_nil, or_false] at hother
    obtain hname | hname := hother
    · refine .field (by rw [hname]; rfl) fun s ws rest hws hrest => ?_
      have htakes : Takes (Reader.record "SolverConfig" solverFields s) (ws ++ m.value) _ rest :=
        (h.solver_holds.given m hm hname).takes_record (fun m hm => h.solver_gives.reads hm) _ hws
      rw [h.solver_gives.foldl_eq] at htakes
      rw [hname]
      exact htakes
    · refine .field (by rw [hname]; rfl) fun s ws rest hws hrest => ?_
      have htakes : Takes (Reader.record "RateRange" rangeFields s) (ws ++ m.value) _ rest :=
        (h.range_holds.given m hm hname).takes_record (fun m hm => h.range_gives.reads hm) _ hws
      rw [h.range_gives.foldl_eq] at htakes
      rw [hname]
      exact htakes
  · refine .other hother (h.others m hm hother) fun s => ?_
    simp only [List.mem_cons, List.not_mem_nil, or_false, not_or] at hother
    simp [documentPart, Layer.onto, hother]

/-- The members of a document add up to its settings. -/
theorem IsDocument.foldl_eq (h : IsDocument members solver range layer t) (s : Layer) :
    members.foldl (fun s m => (documentPart layer m.name).onto s) s = layer.onto s := by
  -- without the object for the root finder none of its settings is given
  have hsolver : ∀ {β : Type} {reader : Reader β} {key : String} {x? : Option β},
      Gives reader solver key x? → (∀ m ∈ members, m.name ≠ "solver") → x? = none := by
    intro β reader key x? hgives habsent
    exact hgives.absent (by simp [h.solver_holds.absent habsent])
  have hrange : ∀ {β : Type} {reader : Reader β} {key : String} {x? : Option β},
      Gives reader range key x? → (∀ m ∈ members, m.name ≠ "npv_range") → x? = none := by
    intro β reader key x? hgives habsent
    exact hgives.absent (by simp [h.range_holds.absent habsent])
  ext1
  · exact foldl_onto (fun _ _ => rfl) (fun _ => rfl) (hsolver h.solver_gives.initialGuess) s
  · exact foldl_onto (fun _ _ => rfl) (fun _ => rfl) (hsolver h.solver_gives.maxIterations) s
  · exact foldl_onto (fun _ _ => rfl) (fun _ => rfl) (hsolver h.solver_gives.tolerance) s
  · exact foldl_onto (fun _ _ => rfl) (fun _ => rfl) (hsolver h.solver_gives.lowerBound) s
  · exact foldl_onto (fun _ _ => rfl) (fun _ => rfl) (hsolver h.solver_gives.upperBound) s
  · exact foldl_onto (fun _ _ => rfl) (fun _ => rfl) (hsolver h.solver_gives.minDerivative) s
  · exact foldl_onto (fun _ _ => rfl) (fun _ => rfl) (hrange h.range_gives.minRate) s
  · exact foldl_onto (fun _ _ => rfl) (fun _ => rfl) (hrange h.range_gives.maxRate) s
  · exact foldl_onto (fun _ _ => rfl) (fun _ => rfl) (hrange h.range_gives.rateStep) s

theorem Layer.onto_empty (layer : Layer) : layer.onto .empty = layer := by
  simp [onto, empty]

/-- **A document is read as the settings in it**, with blanks on either side. -/
theorem IsDocument.ofDocument (h : IsDocument members solver range layer t) (hws : IsBlanks ws)
    (hws' : IsBlanks ws') (htext : Text.Utf8.encode cs = ws ++ (t ++ ws')) :
    Layer.ofDocument (Text.Utf8.encode cs) = .ok layer := by
  have htakes : Takes (Reader.record "EngineConfig" documentFields .empty) (ws ++ t) _ ws' :=
    h.object.takes_record (fun m hm => h.reads hm) _ hws
  rw [h.foldl_eq, Layer.onto_empty] at htakes
  have hread := htakes.read_eq_ok hws'
  rw [List.append_assoc, ← htext] at hread
  rw [Layer.ofDocument, Text.Utf8.decode_encode, hread]
  rfl

/-- **Each setting comes from its variable, or else from its key in the document, or else is
standard; and variables overlay each other.**  A variable counts if it is set and its text, without
the blanks around it, is a number of the right kind; one setting has no variable. -/
theorem Settings.document_under_variables (h : IsDocument members solver range layer t)
    (hws : IsBlanks ws) (hws' : IsBlanks ws') (htext : Text.Utf8.encode cs = ws ++ (t ++ ws'))
    (lookup : String → Option String) :
    (Settings.ofDocument (Text.Utf8.encode cs)).map (·.withVariables lookup) = .ok {
        solver := {
          initialGuess := ((lookup "FINCALC_INITIAL_GUESS").bind decimalIn).getD
            (layer.initialGuess.getD standard.solver.initialGuess)
          maxIterations := ((lookup "FINCALC_MAX_ITERATIONS").bind wholeIn).getD
            (layer.maxIterations.getD standard.solver.maxIterations)
          tolerance := ((lookup "FINCALC_TOLERANCE").bind decimalIn).getD
            (layer.tolerance.getD standard.solver.tolerance)
          lowerBound := ((lookup "FINCALC_LOWER_BOUND").bind decimalIn).getD
            (layer.lowerBound.getD standard.solver.lowerBound)
          upperBound := ((lookup "FINCALC_UPPER_BOUND").bind decimalIn).getD
            (layer.upperBound.getD standard.solver.upperBound)
          minDerivative := layer.minDerivative.getD standard.solver.minDerivative }
        range := {
          min := ((lookup "FINCALC_NPV_MIN_RATE").bind decimalIn).getD
            (layer.minRate.getD standard.range.min)
          max := ((lookup "FINCALC_NPV_MAX_RATE").bind decimalIn).getD
            (layer.maxRate.getD standard.range.max)
          step := ((lookup "FINCALC_NPV_RATE_STEP").bind decimalIn).getD
            (layer.rateStep.getD standard.range.step) } } ∧
      (∀ (s : Settings) (upper lower : String → Option String),
        (s.withVariables lower).withVariables upper = s.withVariables (overlay upper lower)) ∧
      (∀ s : Settings, (s.withVariables lookup).withVariables lookup = s.withVariables lookup) ∧
      ∀ (s : Settings) (key text : String), parses key text = false →
        s.withVariables (fun key' => if key' = key then some text else lookup key') =
          s.withVariables (fun key' => if key' = key then none else lookup key') := by
  refine ⟨?_, fun s upper lower => s.withVariables_overlay upper lower,
    fun s => s.withVariables_withVariables lookup,
    fun s key text hparses => s.withVariables_unparsed lookup hparses⟩
  rw [Settings.ofDocument, h.ofDocument hws hws' htext]
  rfl

end Documents

/-! ### A document -/

/-- The most steps that the root finder takes. -/
def stepsMember : Member :=
  .compact "max_iterations" [0x35, 0x30] (by decide)

/-- The length of a step that ends its search. -/
def lengthMember : Member :=
  .compact "tolerance" [0x31] (by decide)

/-- The object around the two. -/
def solverMember : Member :=
  .compact "solver"
    (0x7B ::
      ([] ++ (stepsMember.text ++ ([] ++ 0x2C :: ([] ++ (lengthMember.text ++ []))) ++ [0x7D])))
    (by decide)

/-- A key that means nothing, with a list. -/
def otherMember : Member :=
  .compact "a" (0x5B :: ([] ++ ([0x6E, 0x75, 0x6C, 0x6C] ++ [] ++ [0x5D]))) (by decide)

/-- What the document says. -/
def documentLayer : Layer :=
  { Layer.empty with maxIterations := some 50, tolerance := some 1 }

/-- What the variables say. -/
def documentVariables (key : String) : Option String :=
  [("FINCALC_MAX_ITERATIONS", "7.5"), ("FINCALC_TOLERANCE", " 0.25 ")].lookup key

theorem isNumber_of_digit {b : UInt8} {digits : List UInt8} (hb : isDigitByte b = true)
    (hne : b ≠ 0x30) (h : AreDigits digits) : IsNumber (b :: digits) := by
  have hparts := IsUnsigned.parts (.digits hb hne h) .none .none
  rw [List.append_nil, List.append_nil] at hparts
  exact .unsigned hparts

theorem givesSolver_documentLayer : GivesSolver [stepsMember, lengthMember] documentLayer where
  initialGuess := .none (by simp [stepsMember, lengthMember, Member.compact])
  maxIterations := {
    given := fun m hm hname => by
      obtain rfl | rfl : m = stepsMember ∨ m = lengthMember := by simpa using hm
      · exact ⟨isNumber_of_digit (by decide) (by decide) (by decide), 50, rfl, rfl⟩
      · exact absurd hname (by decide)
    absent := fun h => absurd rfl (h stepsMember (by simp)) }
  tolerance := {
    given := fun m hm hname => by
      obtain rfl | rfl : m = stepsMember ∨ m = lengthMember := by simpa using hm
      · exact absurd hname (by decide)
      · exact ⟨isNumber_of_digit (by decide) (by decide) (by decide), 1, rfl, rfl⟩
    absent := fun h => absurd rfl (h lengthMember (by simp)) }
  lowerBound := .none (by simp [stepsMember, lengthMember, Member.compact])
  upperBound := .none (by simp [stepsMember, lengthMember, Member.compact])
  minDerivative := .none (by simp [stepsMember, lengthMember, Member.compact])
  others := by simp [stepsMember, lengthMember, Member.compact]

theorem isDocument_documentLayer :
    IsDocument [otherMember, solverMember] [stepsMember, lengthMember] [] documentLayer
      (0x7B :: ([] ++ (otherMember.text ++ ([] ++ 0x2C :: ([] ++ (solverMember.text ++ []))) ++
        [0x7D]))) where
  object := ⟨.parts isBlanks_nil (.cons isBlanks_nil isBlanks_nil (.one isBlanks_nil)), by decide⟩
  solver_holds := {
    given := fun m hm hname => by
      obtain rfl | rfl : m = otherMember ∨ m = solverMember := by simpa using hm
      · exact absurd hname (by decide)
      · exact ⟨.parts isBlanks_nil (.cons isBlanks_nil isBlanks_nil (.one isBlanks_nil)),
          by decide⟩
    absent := fun h => absurd rfl (h solverMember (by simp)) }
  range_holds := ⟨by simp [otherMember, solverMember, Member.compact], fun _ => rfl⟩
  solver_gives := givesSolver_documentLayer
  range_gives := ⟨.none (by simp), .none (by simp), .none (by simp), by simp⟩
  others := fun m hm hother => by
    obtain rfl | rfl : m = otherMember ∨ m = solverMember := by simpa using hm
    · exact .list (.parts isBlanks_nil (.one isBlanks_nil)) (by simpa using .word .null)
    · exact absurd hother (by decide)

/-- A document gives the most steps and the length of the last one, beside a key that means nothing.
The variable for the steps holds a number that is not whole, so the document counts; the one for the
length holds a decimal between blanks, which counts instead; the bound has neither. -/
theorem Settings.document_under_variables_steps :
    ((Settings.ofDocument (Text.Utf8.encode
      "\x7b\"a\":[null],\"solver\":\x7b\"max_iterations\":50,\"tolerance\":1\x7d\x7d".toList)).map
        (·.withVariables documentVariables)).map
      (fun s => (s.solver.maxIterations, s.solver.tolerance, s.solver.upperBound)) =
        .ok (50, 0.25, standard.solver.upperBound) :=
  congrArg (Except.map fun s => (s.solver.maxIterations, s.solver.tolerance, s.solver.upperBound))
    (document_under_variables isDocument_documentLayer isBlanks_nil isBlanks_nil (by decide)
      documentVariables).1

end TimeValue
