import TimeValue.Json.Struct

/-!
# What a reader takes

A reader that succeeds has taken the bytes before its cursor now, and has given a value for them.
Which bytes it takes may depend on what follows them: a run of digits ends where no digit follows.
So this is stated for the bytes taken together with the bytes left, and readers are put together by
cutting the bytes taken into theirs.  The places in faults follow from the bytes and need no
mention.

## Main definitions

* `Takes` — a reader takes some bytes and gives a value, in front of others.
* `Refuses` — a reader fails on some bytes, in front of others.
* `StopsRun`, `IsBlanks` — what ends a run of bytes, and runs of blanks.
* `PassesBlanks` — blanks in front make no difference to a reader.

## Main results

* `Takes.bind` — one reader after the other.
* `takes_takeRun`, `takes_peekPastBlanks?`, `takes_word`, `takes_symbol` — the steps of readers.
* `Takes.read_eq_ok` — a text that is taken as a whole.
-/

namespace TimeValue.Json

variable {β γ : Type}

/-! ### Cursors -/

namespace Cursor

theorem rest_advance (c : Cursor) : c.advance.rest = c.rest.tail := by
  obtain ⟨_ | ⟨b, rest⟩, line, column⟩ := c
  · rfl
  · rw [advance]
    dsimp only
    split <;> rfl

theorem rest_advanceBy (c : Cursor) (n : Nat) : (c.advanceBy n).rest = c.rest.drop n := by
  induction n generalizing c with
  | zero => rfl
  | succ n ih => rw [advanceBy, ih, rest_advance, List.drop_tail]

theorem advanceBy_add (c : Cursor) (m n : Nat) :
    c.advanceBy (m + n) = (c.advanceBy m).advanceBy n := by
  induction m generalizing c with
  | zero => rw [Nat.zero_add, advanceBy]
  | succ m ih => rw [Nat.add_right_comm, advanceBy, ih, advanceBy]

/-- After the bytes that come first come the others. -/
theorem rest_advanceBy_length {c : Cursor} {t rest : List UInt8} (hc : c.rest = t ++ rest) :
    (c.advanceBy t.length).rest = rest := by
  rw [rest_advanceBy, hc, List.drop_left]

end Cursor

/-! ### Taking bytes -/

/-- Where `t` and then `rest` come next, the reader takes `t` and gives `x`. -/
def Takes (r : Reader β) (t : List UInt8) (x : β) (rest : List UInt8) : Prop :=
  ∀ c : Cursor, c.rest = t ++ rest → r.run c = .ok (x, c.advanceBy t.length)

/-- Where `t` and then `rest` come next, the reader fails. -/
def Refuses (r : Reader β) (t rest : List UInt8) : Prop :=
  ∀ c : Cursor, c.rest = t ++ rest → ∃ fault, r.run c = .error fault

section Takes

variable {r : Reader β} {s : β → Reader γ} {t t' rest : List UInt8} {x : β} {y : γ}

theorem takes_pure (x : β) (rest : List UInt8) : Takes (pure x) [] x rest :=
  fun _ _ => rfl

/-- One reader after the other takes the bytes of both. -/
theorem Takes.bind (hr : Takes r t x (t' ++ rest)) (hs : Takes (s x) t' y rest) :
    Takes (r >>= s) (t ++ t') y rest := by
  intro c hc
  rw [List.append_assoc] at hc
  -- the second reader starts where the first one stopped
  rw [StateT.run_bind, hr c hc, List.length_append, Cursor.advanceBy_add]
  exact hs _ (Cursor.rest_advanceBy_length hc)

/-- A reader that takes nothing comes first. -/
theorem Takes.bind_nil (hr : Takes r [] x (t ++ rest)) (hs : Takes (s x) t y rest) :
    Takes (r >>= s) t y rest :=
  hr.bind hs

/-- A reader that takes nothing comes last. -/
theorem Takes.bind_last (hr : Takes r t x rest) (hs : Takes (s x) [] y rest) :
    Takes (r >>= s) t y rest := by
  have hthen := hr.bind (hs : Takes (s x) [] y rest)
  rwa [List.append_nil] at hthen

/-- The value that a reader gives may be dropped. -/
theorem Takes.discard (hr : Takes r t x rest) : Takes (discard r) t () rest := by
  have hbind : Functor.discard r = r >>= fun _ => pure () := rfl
  rw [hbind]
  exact hr.bind_last (takes_pure () rest)

/-- What follows a reader fails. -/
theorem Takes.bind_refuses (hr : Takes r t x (t' ++ rest)) (hs : Refuses (s x) t' rest) :
    Refuses (r >>= s) (t ++ t') rest := by
  intro c hc
  rw [List.append_assoc] at hc
  rw [StateT.run_bind, hr c hc]
  exact hs _ (Cursor.rest_advanceBy_length hc)

/-- A reader that looks at its cursor sees the bytes that come next. -/
theorem takes_get_bind {f : Cursor → Reader γ}
    (h : ∀ c : Cursor, c.rest = t ++ rest → Takes (f c) t y rest) : Takes (get >>= f) t y rest :=
  fun c hc => h c hc c hc

theorem refuses_get_bind {f : Cursor → Reader γ}
    (h : ∀ c : Cursor, c.rest = t ++ rest → Refuses (f c) t rest) : Refuses (get >>= f) t rest :=
  fun c hc => h c hc c hc

theorem takes_advanceBy (t rest : List UInt8) :
    Takes (modify (Cursor.advanceBy · t.length)) t () rest :=
  fun _ _ => rfl

end Takes

/-! ### Single steps -/

/-- What follows does not go on with a class of bytes. -/
def StopsRun (isMember : UInt8 → Bool) (rest : List UInt8) : Prop :=
  ∀ b, rest.head? = some b → isMember b = false

theorem stopsRun_nil (isMember : UInt8 → Bool) : StopsRun isMember [] := by
  simp [StopsRun]

theorem stopsRun_cons_iff {isMember : UInt8 → Bool} {b : UInt8} {rest : List UInt8} :
    StopsRun isMember (b :: rest) ↔ isMember b = false := by
  simp [StopsRun]

theorem takeWhile_append_of_stopsRun {isMember : UInt8 → Bool} {run rest : List UInt8}
    (hrun : ∀ b ∈ run, isMember b = true) (hrest : StopsRun isMember rest) :
    (run ++ rest).takeWhile isMember = run := by
  -- the run ends with the text or at the first byte behind it
  rw [List.takeWhile_append_of_pos hrun]
  cases rest with
  | nil => rw [List.takeWhile_nil, List.append_nil]
  | cons b rest =>
    rw [List.takeWhile_cons_of_neg (by simp [stopsRun_cons_iff.1 hrest]), List.append_nil]

/-- The four blanks of JSON. -/
def IsBlanks (ws : List UInt8) : Prop :=
  ∀ b ∈ ws, Cursor.isBlank b = true

instance (ws : List UInt8) : Decidable (IsBlanks ws) :=
  List.decidableBAll (Cursor.isBlank · = true) ws

theorem isBlanks_nil : IsBlanks [] := by
  simp [IsBlanks]

namespace Reader

variable {b : UInt8} {rest ws : List UInt8}

theorem takes_peek? (rest : List UInt8) : Takes peek? [] rest.head? rest := by
  intro c hc
  rw [List.nil_append] at hc
  rw [← hc]
  rfl

theorem takes_skip (b : UInt8) (rest : List UInt8) : Takes skip [b] () rest :=
  fun _ _ => rfl

theorem takes_next? (b : UInt8) (rest : List UInt8) : Takes next? [b] (some b) rest :=
  (takes_peek? ([b] ++ rest)).bind_nil ((takes_skip b rest).bind_last (takes_pure _ rest))

/-- The longest run is taken where something else follows. -/
theorem takes_takeRun {isMember : UInt8 → Bool} {run : List UInt8}
    (hrun : ∀ b ∈ run, isMember b = true) (hrest : StopsRun isMember rest) :
    Takes (takeRun isMember) run run rest := by
  refine takes_get_bind fun c hc => ?_
  rw [hc, takeWhile_append_of_stopsRun hrun hrest]
  exact (takes_advanceBy run rest).bind_last (takes_pure run rest)

/-- Blanks are taken before one looks. -/
theorem takes_peekPastBlanks? (hws : IsBlanks ws) (hrest : StopsRun Cursor.isBlank rest) :
    Takes peekPastBlanks? ws rest.head? rest := by
  -- as many bytes are passed as there are blanks
  have hblanks : Takes (modify Cursor.afterBlanks) ws () rest := by
    intro c hc
    have hafter : c.afterBlanks = c.advanceBy ws.length := by
      rw [Cursor.afterBlanks, hc, takeWhile_append_of_stopsRun hws hrest]
    exact congrArg (fun c' => Except.ok ((), c')) hafter
  exact hblanks.bind_last (takes_peek? rest)

/-- A word is taken byte by byte. -/
theorem takes_word (bytes rest : List UInt8) : Takes (word bytes) bytes () rest := by
  induction bytes with
  | nil => exact takes_pure () rest
  | cons b bytes ih =>
    refine (takes_next? b (bytes ++ rest)).bind ?_
    dsimp only
    rw [if_pos (beq_self_eq_true b)]
    exact ih

/-- A byte that must come next is taken with the blanks before it. -/
theorem takes_symbol (hws : IsBlanks ws) (hb : Cursor.isBlank b = false) (ended other : Cause)
    (rest : List UInt8) : Takes (symbol b ended other) (ws ++ [b]) () rest := by
  refine (takes_peekPastBlanks? hws (stopsRun_cons_iff.2 hb)).bind ?_
  dsimp only [List.cons_append, List.head?_cons]
  rw [if_pos (beq_self_eq_true b)]
  exact takes_skip b rest

end Reader

/-! ### Blanks in front -/

/-- The reader does the same before and after blanks. -/
def PassesBlanks (r : Reader β) : Prop :=
  ∀ (c : Cursor) (ws rest : List UInt8), c.rest = ws ++ rest → IsBlanks ws →
    StopsRun Cursor.isBlank rest → r.run c = r.run (c.advanceBy ws.length)

theorem passesBlanks_peekPastBlanks? : PassesBlanks Reader.peekPastBlanks? := by
  intro c ws rest hc hws hrest
  rw [Reader.takes_peekPastBlanks? hws hrest c hc,
    Reader.takes_peekPastBlanks? isBlanks_nil hrest _ (Cursor.rest_advanceBy_length hc)]
  rfl

theorem PassesBlanks.bind {r : Reader β} (hr : PassesBlanks r) (s : β → Reader γ) :
    PassesBlanks (r >>= s) := by
  intro c ws rest hc hws hrest
  rw [StateT.run_bind, StateT.run_bind, hr c ws rest hc hws hrest]

/-- What is taken after blanks is taken with them. -/
theorem PassesBlanks.takes {r : Reader β} (hr : PassesBlanks r) {ws t rest : List UInt8} {x : β}
    (hws : IsBlanks ws) (hstop : StopsRun Cursor.isBlank (t ++ rest)) (h : Takes r t x rest) :
    Takes r (ws ++ t) x rest := by
  intro c hc
  rw [List.append_assoc] at hc
  rw [hr c ws _ hc hws hstop, h _ (Cursor.rest_advanceBy_length hc), List.length_append,
    Cursor.advanceBy_add]

/-! ### Whole texts -/

/-- What is taken up to the blanks at the end is the value of the whole text. -/
theorem Takes.read_eq_ok {r : Reader β} {t ws : List UInt8} {x : β} (h : Takes r t x ws)
    (hws : IsBlanks ws) : read r (t ++ ws) = .ok x := by
  have hrest : ((Cursor.start (t ++ ws)).advanceBy t.length).rest = ws :=
    Cursor.rest_advanceBy_length rfl
  have hend : ((Cursor.start (t ++ ws)).advanceBy t.length).afterBlanks.rest = [] := by
    -- nothing but blanks is left, and they end with the text
    have hall := takeWhile_append_of_stopsRun hws (stopsRun_nil Cursor.isBlank)
    rw [List.append_nil] at hall
    rw [Cursor.afterBlanks, Cursor.rest_advanceBy, hrest, hall, List.drop_length]
  rw [read, h _ rfl]
  refine (pure_bind (x, (Cursor.start (t ++ ws)).advanceBy t.length) _).trans ?_
  dsimp only
  rw [hend]
  rfl

end TimeValue.Json
