/-!
# Options of a command line

The arguments of a command line are taken from left to right.  A switch is named by `--` and its
name; one that takes a value has it attached after `=`, or in the next argument.  An argument `--`
ends the switches, and so does the first word, an argument that does not look like a switch.  What
comes after is left for the command.

## Main definitions

* `Action`, `Switch` — a switch, and what it does to a state.
* `Level` — the switches that are known at a place.
* `Level.classify` — an argument as switch, word, or neither.
* `Level.scan` — the state after the switches, and the arguments that are left.

## Main results

* `Level.rest_suffix_of_scanFrom` — what is left comes from the end of the arguments.
-/

namespace TimeValue.Command

/-! ### Switches -/

/-- Why a command line is not carried out. -/
inductive Ending
  /-- It is not a command line of the program. -/
  | misuse
  /-- It asks for help. -/
  | help
  /-- It asks for the version. -/
  | version
  deriving DecidableEq, Repr, Inhabited

/-- What a switch does to a state. -/
inductive Action (σ : Type)
  /-- It changes the state. -/
  | flag (set : σ → σ)
  /-- It takes a value, which may be refused.  `hyphens` tells whether a value in the next argument
  may be anything; otherwise it must be a word. -/
  | value (hyphens : Bool) (set : σ → String → Option σ)
  /-- It ends the scan. -/
  | stop (ending : Ending)

/-- A switch. -/
structure Switch (σ : Type) where
  /-- The name after `--`. -/
  name : String
  /-- What the switch does. -/
  action : Action σ
  /-- Whether it may be given more than once. -/
  repeatable : Bool

/-- The switches that are known at a place. -/
structure Level (σ : Type) where
  /-- The switches with names. -/
  switches : List (Switch σ)
  /-- Letters that end the scan, after a single hyphen. -/
  letters : List (Char × Ending)
  /-- Whether an argument that looks like a switch, but is none, is a word. -/
  hyphenWords : Bool

/-! ### Arguments -/

/-- An argument as a level sees it. -/
inductive Shape (σ : Type)
  /-- A word. -/
  | word
  /-- The end of the switches. -/
  | separator
  /-- A switch, with the value that is attached to it. -/
  | switch (s : Switch σ) (attached : Option String)
  /-- A letter that ends the scan. -/
  | letter (ending : Ending)
  /-- What looks like a switch, but is none. -/
  | unknown

/-- A name and what stands after its first `=`. -/
def splitAttached (cs : List Char) : String × Option String :=
  (String.ofList (cs.takeWhile (· != '=')),
    match cs.dropWhile (· != '=') with
    | [] => none
    | _ :: value => some (String.ofList value))

namespace Level

variable {σ : Type}

/-- What an argument is that looks like a switch, but is none. -/
def stranger (level : Level σ) : Shape σ :=
  if level.hyphenWords then .word else .unknown

/-- Letters after a single hyphen.  The first decides; but where strangers are words, a letter
that is not known makes the whole a word. -/
def classifyLetters (level : Level σ) (first : Char) (others : List Char) : Shape σ :=
  match level.letters.lookup first with
  | none => level.stranger
  | some ending =>
    if level.hyphenWords && others.any (fun c => (level.letters.lookup c).isNone) then .word
    else .letter ending

/-- An argument as the level sees it. -/
def classify (level : Level σ) (argument : String) : Shape σ :=
  match argument.toList with
  | ['-', '-'] => .separator
  | '-' :: '-' :: rest =>
    let (name, attached) := splitAttached rest
    match level.switches.find? (·.name == name) with
    | some s => .switch s attached
    | none => level.stranger
  | '-' :: first :: others => level.classifyLetters first others
  | _ => .word

/-- Whether an argument may be the value of the switch before it. -/
def mayBeValue (level : Level σ) (hyphens : Bool) (argument : String) : Bool :=
  hyphens || level.classify argument matches .word

/-! ### Scanning -/

/-- The result of a scan. -/
structure Scanned (σ : Type) where
  /-- The state after the switches. -/
  state : σ
  /-- Whether a separator ended the switches. -/
  separated : Bool
  /-- The arguments that are left. -/
  rest : List String

/-- Takes switches; those named in `seen` have been given before. -/
def scanFrom (level : Level σ) (seen : List String) (state : σ) :
    List String → Except Ending (Scanned σ)
  | [] => .ok ⟨state, false, []⟩
  | argument :: rest =>
    match level.classify argument with
    | .word => .ok ⟨state, false, argument :: rest⟩
    | .separator => .ok ⟨state, true, rest⟩
    | .letter ending => .error ending
    | .unknown => .error .misuse
    | .switch s attached =>
      -- Given twice, even a switch whose value would be refused is a misuse.
      if seen.contains s.name && !s.repeatable then .error .misuse
      else
        match s.action, attached with
        | .stop ending, none => .error ending
        | .flag set, none => level.scanFrom (s.name :: seen) (set state) rest
        | .value _ set, some value =>
          match set state value with
          | some state => level.scanFrom (s.name :: seen) state rest
          | none => .error .misuse
        | .value hyphens set, none =>
          match rest with
          | [] => .error .misuse
          | value :: rest =>
            if level.mayBeValue hyphens value then
              match set state value with
              | some state => level.scanFrom (s.name :: seen) state rest
              | none => .error .misuse
            else .error .misuse
        | _, some _ => .error .misuse

/-- What is left comes from the end of the arguments. -/
theorem rest_suffix_of_scanFrom {level : Level σ} {seen : List String} {state : σ}
    {arguments : List String} {scanned : Scanned σ}
    (h : level.scanFrom seen state arguments = .ok scanned) : scanned.rest <:+ arguments := by
  fun_induction scanFrom level seen state arguments with
  | case1 => cases h; exact List.suffix_rfl
  | case2 => cases h; exact List.suffix_rfl
  | case3 => cases h; exact List.suffix_cons _ _
  -- A flag or an attached value takes one argument, a value of its own a second one.
  | case8 => rename_i ih; exact (ih h).trans (List.suffix_cons _ _)
  | case9 => rename_i ih; exact (ih h).trans (List.suffix_cons _ _)
  | case12 =>
    rename_i ih
    exact (ih h).trans ((List.suffix_cons _ _).trans (List.suffix_cons _ _))
  | _ => cases h

/-- Takes the switches at the start of arguments. -/
def scan (level : Level σ) (state : σ) (arguments : List String) :
    Except Ending (Scanned σ) :=
  level.scanFrom [] state arguments

end Level

end TimeValue.Command
