import TimeValue.Proofs.Json.Skip
import TimeValue.Proofs.Text.Utf8

/-!
# Records are read member by member

The members of an object have a name each: the characters that the key spells, escapes included.  A
record finds the field of that name and lets it read the value into the state; a member that is no
field is skipped.  So an object with no name twice is read as the members would be, one after the
other, each by itself — in whatever order they stand.

## Main definitions

* `Member` — an entry whose key spells a name.
* `IsObject` — an object, by its members.
* `Reads` — what a member does to the state of a record.

## Main results

* `IsObject.takes_record` — **an object is read as the effects of its members**, the first one
  first.
-/

namespace TimeValue.Json

open Reader

variable {σ : Type}

/-! ### Members -/

/-- An entry whose key spells a name. -/
structure Member extends Entry where
  /-- The name. -/
  name : String
  spelled : Spells key (Text.Utf8.encode name.toList)

/-- A member whose key is written as its name, and without blanks. -/
def Member.compact (name : String) (value : List UInt8)
    (h : ArePlain (Text.Utf8.encode name.toList)) : Member where
  key := Text.Utf8.encode name.toList
  afterKey := []
  beforeValue := []
  value := value
  afterKey_isBlanks := isBlanks_nil
  beforeValue_isBlanks := isBlanks_nil
  name := name
  spelled := .plain h

/-- An object with these members; no two share a name. -/
structure IsObject (members : List Member) (t : List UInt8) : Prop where
  encloses : Encloses 0x7B 0x7D (members.map fun m => m.text) t
  nodup : (members.map Member.name).Nodup

/-- What a member does to the state of a record with these fields. -/
inductive Reads (fields : List (Field σ)) (m : Member) (effect : σ → σ) : Prop
  /-- A field reads its value, wherever it stands. -/
  | field {f : Field σ} (hfind : fields.find? (·.name == m.name) = some f)
    (h : ∀ state ws rest, IsBlanks ws → EndsNumber rest →
      Takes (f.read state) (ws ++ m.value) (effect state) rest)
  /-- A member that is no field does nothing; its value may be any. -/
  | other (hother : m.name ∉ fields.map Field.name) (hvalue : IsValue m.value)
    (heffect : ∀ state, effect state = state)

theorem IsObject.exists_cons {members : List Member} {t : List UInt8} (h : IsObject members t) :
    ∃ t', t = 0x7B :: t' :=
  h.encloses.exists_cons

theorem charsOf_encode (cs : List Char) : charsOf (Text.Utf8.encode cs) = cs := by
  rw [charsOf, Text.Utf8.decode_encode]

/-! ### Looking for a key -/

section Keys

variable {ws ws' rest : List UInt8}

theorem takes_atKey_first (hws : IsBlanks ws) : Takes (atKey true) ws true (0x22 :: rest) :=
  (takes_peekPastBlanks? hws (stopsRun_cons_iff.2 (by decide))).bind_last (takes_pure true _)

theorem takes_atKey_comma (hws : IsBlanks ws) (hws' : IsBlanks ws') :
    Takes (atKey false) (ws ++ 0x2C :: ws') true (0x22 :: rest) := by
  refine (takes_peekPastBlanks? hws (stopsRun_cons_iff.2 (by decide))).bind ?_
  refine (takes_skip 0x2C _).bind (t := [0x2C]) ?_
  refine (takes_peekPastBlanks? hws' (stopsRun_cons_iff.2 (by decide))).bind_last ?_
  exact takes_pure true _

theorem takes_atKey_end (isFirst : Bool) (hws : IsBlanks ws) :
    Takes (atKey isFirst) ws false (0x7D :: rest) :=
  (takes_peekPastBlanks? hws (stopsRun_cons_iff.2 (by decide))).bind_last (takes_pure false _)

end Keys

/-! ### Reading the members -/

section Members

variable {fields : List (Field σ)} {fuel : Nat} {isFirst : Bool} {seen : List String}
  {p ws t rest : List UInt8} {state state' : σ}

/-- The end of the members. -/
theorem takes_entries_end (hws : IsBlanks ws) :
    Takes (entries fields (fuel + 1) isFirst seen state) (ws ++ [0x7D]) state rest := by
  rw [entries]
  refine (takes_atKey_end isFirst hws).bind ?_
  exact (takes_skip 0x7D rest).bind_last (takes_pure state rest)

/-- A member, and what follows it.  Its name counts as given from then on, if it is a field. -/
theorem takes_entries_member {m : Member} {effect : σ → σ} (hreads : Reads fields m effect)
    (hkey : ∀ rest, Takes (atKey isFirst) p true (0x22 :: rest)) (hseen : m.name ∉ seen)
    (hrest : EndsNumber (t ++ rest))
    (hnext : ∀ seen', (∀ name ∈ seen', name ∈ seen ∨ name = m.name) →
      Takes (entries fields fuel false seen' (effect state)) t state' rest) :
    Takes (entries fields (fuel + 1) isFirst seen state) (p ++ (m.text ++ t)) state' rest := by
  -- the bytes, cut where one reader hands on to the next
  have hbytes : m.text ++ t = [0x22] ++ ((m.key ++ [0x22]) ++
      ((m.afterKey ++ [0x3A]) ++ ((m.beforeValue ++ m.value) ++ t))) := by
    simp [Entry.text]
  have hname : String.ofList (charsOf (Text.Utf8.encode m.name.toList)) = m.name := by
    rw [charsOf_encode, String.ofList_toList]
  rw [entries, hbytes]
  refine (hkey _).bind ?_
  refine (takes_skip 0x22 _).bind ?_
  refine m.spelled.takes_text.bind ?_
  simp only [hname]
  have hcolon := takes_symbol (b := 0x3A) m.afterKey_isBlanks (by decide) .endInObject
    .expectedColon ((m.beforeValue ++ m.value) ++ t ++ rest)
  cases hreads with
  | @field f hfind h =>
    -- a field is refused if it was given before
    have hnew : seen.contains m.name = false := by simpa using hseen
    simp only [hfind, hnew, Bool.false_eq_true, if_false]
    refine hcolon.bind ?_
    refine (h state _ _ m.beforeValue_isBlanks hrest).bind ?_
    refine hnext _ fun name hname => ?_
    obtain rfl | hname := List.mem_cons.1 hname
    · exact .inr rfl
    · exact .inl hname
  | other hother hvalue heffect =>
    have hfind : fields.find? (·.name == m.name) = none :=
      List.find?_eq_none.2 fun f hf hf' => hother (List.mem_map.2 ⟨f, hf, beq_iff_eq.1 hf'⟩)
    simp only [hfind]
    refine hcolon.bind ?_
    refine (hvalue.takes_skipValue m.beforeValue_isBlanks hrest).bind ?_
    rw [← heffect state]
    exact hnext _ fun name hname => .inl hname

/-- Members with commas between them are read up to the end of the object. -/
theorem takes_entries_separated {parts : List (List UInt8)} (h : Separated parts t)
    {members : List Member} (hparts : members.map (fun m => m.text) = parts)
    {effect : Member → σ → σ} (hreads : ∀ m ∈ members, Reads fields m (effect m))
    (hnodup : (members.map Member.name).Nodup) (hseen : ∀ m ∈ members, m.name ∉ seen)
    (hkey : ∀ rest, Takes (atKey isFirst) p true (0x22 :: rest)) (hfuel : t.length < fuel) :
    Takes (entries fields fuel isFirst seen state) (p ++ (t ++ [0x7D]))
      (members.foldl (fun state m => effect m state) state) rest := by
  -- each member takes bytes, at least its quotes, so that the fuel lasts
  obtain ⟨fuel, rfl⟩ := Nat.exists_eq_add_one_of_ne_zero (Nat.ne_zero_of_lt hfuel)
  induction h generalizing members fuel isFirst seen p state with
  | @one part ws hws =>
    obtain ⟨m, rfl, rfl⟩ := List.map_eq_singleton_iff.1 hparts
    obtain ⟨fuel, rfl⟩ : ∃ fuel', fuel = fuel' + 1 := by
      refine Nat.exists_eq_add_one_of_ne_zero ?_
      simp only [Entry.text, List.length_append, List.length_cons] at hfuel
      omega
    rw [List.append_assoc]
    refine takes_entries_member (hreads m List.mem_cons_self) hkey
      (hseen m List.mem_cons_self) ?_ fun _ _ => takes_entries_end hws
    rw [List.append_assoc]
    exact endsNumber_append hws (stopsRun_cons_iff.2 (by decide))
  | @cons part ws ws' t parts hws hws' h ih =>
    obtain ⟨m, members, rfl, rfl, rfl⟩ := List.map_eq_cons_iff.1 hparts
    obtain ⟨hnew, hnodup⟩ := List.nodup_cons.1 hnodup
    obtain ⟨fuel, rfl⟩ : ∃ fuel', fuel = fuel' + 1 := by
      refine Nat.exists_eq_add_one_of_ne_zero ?_
      simp only [Entry.text, List.length_append, List.length_cons] at hfuel
      omega
    have hbytes : m.text ++ (ws ++ 0x2C :: (ws' ++ t)) ++ [0x7D] =
        m.text ++ ((ws ++ 0x2C :: ws') ++ (t ++ [0x7D])) := by simp
    rw [hbytes]
    refine takes_entries_member (hreads m List.mem_cons_self) hkey
      (hseen m List.mem_cons_self) ?_ fun seen' hseen' => ?_
    · simpa using endsNumber_append hws (stopsRun_cons_iff.2 (by decide))
    · refine ih rfl (fun m' hm' => hreads m' (List.mem_cons_of_mem m hm')) hnodup ?_
        (fun rest => takes_atKey_comma hws hws') _ ?_
      -- no name comes twice, so the members that follow are not among those given
      · intro m' hm' hgiven
        obtain hgiven | hgiven := hseen' _ hgiven
        · exact hseen m' (List.mem_cons_of_mem m hm') hgiven
        · exact hnew (hgiven ▸ List.mem_map_of_mem hm')
      · simp only [List.length_append, List.length_cons] at hfuel
        omega

/-- **An object is read as the effects of its members**, the first one first. -/
theorem IsObject.takes_record {members : List Member} (h : IsObject members t)
    {effect : Member → σ → σ} (hreads : ∀ m ∈ members, Reads fields m (effect m)) (name : String)
    (hws : IsBlanks ws) :
    Takes (record name fields state) (ws ++ t)
      (members.foldl (fun state m => effect m state) state) rest := by
  obtain ⟨t', ht'⟩ := h.exists_cons
  unfold record
  refine (takes_peekPastBlanks? hws ?_).bind ?_
  · rw [ht']
    exact stopsRun_cons_iff.2 (by decide)
  · obtain ⟨hencloses, hnodup⟩ := h
    generalize hparts : (members.map fun m => m.text) = parts at hencloses
    cases hencloses with
    | @empty ws' hws' =>
      obtain rfl := List.map_eq_nil_iff.1 hparts
      refine (takes_skip 0x7B _).bind (t := [0x7B]) ?_
      exact takes_get_bind fun c hc => takes_entries_end hws'
    | @parts ws' t _ hws' h =>
      have hbytes : 0x7B :: (ws' ++ (t ++ [0x7D])) = [0x7B] ++ (ws' ++ (t ++ [0x7D])) := rfl
      rw [hbytes]
      refine (takes_skip 0x7B _).bind ?_
      refine takes_get_bind fun c hc => ?_
      refine takes_entries_separated h hparts hreads hnodup (fun _ _ => List.not_mem_nil)
        (fun rest => takes_atKey_first hws') ?_
      rw [hc]
      simp only [List.length_append]
      omega

end Members

end TimeValue.Json
