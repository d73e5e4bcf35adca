import TimeValue.Csv.Record
import TimeValue.Proofs.Text.Utf8

/-!
# Lines of plain cells

A cell without commas, quotes and line ends stands for itself: a line of such cells, joined by
commas, is a record of just these cells.  Text made of such lines has a record for each of them, in
order, whatever ends the lines and however many empty lines stand between them.

## Main definitions

* `line` — cells joined by commas.
* `IsRow` — cells that are plain, and not an empty line.
* `Spells` — the text of some rows.

## Main results

* `spells_lines` — any rows have a text.
* `readFields_line` — a line of plain fields is read as these fields.
* `records_of_spells` — **a text has the records of its rows.**
-/

namespace TimeValue.Csv

open Text

/-! ### Text -/

/-- Nothing in the cell separates, quotes or ends. -/
def IsPlainCell (cell : List Char) : Prop :=
  ',' ∉ cell ∧ '"' ∉ cell ∧ '\n' ∉ cell ∧ '\r' ∉ cell

instance : DecidablePred IsPlainCell :=
  fun cell => inferInstanceAs (Decidable (',' ∉ cell ∧ '"' ∉ cell ∧ '\n' ∉ cell ∧ '\r' ∉ cell))

/-- Cells joined by commas. -/
def line (cells : List (List Char)) : List Char :=
  [','].intercalate cells

/-- Plain cells whose line holds anything at all. -/
structure IsRow (cells : List (List Char)) : Prop where
  /-- The cells are plain. -/
  plain : ∀ cell ∈ cells, IsPlainCell cell
  /-- The line is not empty. -/
  line_ne : line cells ≠ []

/-- The text of rows: each on a line, with a line end behind all but the last, which may go without.
An empty line is no row. -/
inductive Spells : List Char → List (List (List Char)) → Prop
  /-- No text at all. -/
  | nil : Spells [] []
  /-- An empty line. -/
  | empty {c text rows} (hend : c = '\n' ∨ c = '\r') (rest : Spells text rows) :
    Spells (c :: text) rows
  /-- A row without a line end. -/
  | last {cells} (hrow : IsRow cells) : Spells (line cells) [cells]
  /-- A row with its line end. -/
  | cons {c cells text rows} (hrow : IsRow cells) (hend : c = '\n' ∨ c = '\r')
    (rest : Spells text rows) : Spells (line cells ++ c :: text) (cells :: rows)

/-- Two cells or more are no empty line. -/
theorem IsRow.of_two_le {cells : List (List Char)} (hplain : ∀ cell ∈ cells, IsPlainCell cell)
    (hlength : 2 ≤ cells.length) : IsRow cells := by
  refine ⟨hplain, ?_⟩
  rcases cells with _ | ⟨cell, _ | ⟨cell', cells⟩⟩
  · simp at hlength
  · simp at hlength
  · simp [line, List.intercalate_cons_cons]

/-- Any rows have a text. -/
theorem spells_lines (rows : List (List (List Char))) (hrows : ∀ cells ∈ rows, IsRow cells) :
    Spells (rows.flatMap fun cells => line cells ++ ['\n']) rows := by
  induction rows with
  | nil => exact .nil
  | cons cells rows ih =>
    obtain ⟨hrow, hrest⟩ := List.forall_mem_cons.1 hrows
    rw [List.flatMap_cons, List.append_assoc]
    exact .cons hrow (.inl rfl) (ih hrest)

/-- What stands in joined lists stands in one of them, or joins. -/
theorem eq_or_exists_of_mem_intercalate {α : Type} {a sep : α} {xs : List (List α)}
    (h : a ∈ [sep].intercalate xs) : a = sep ∨ ∃ x ∈ xs, a ∈ x := by
  induction xs with
  | nil => simp at h
  | cons x xs ih =>
    rcases xs with _ | ⟨y, ys⟩
    · exact .inr ⟨x, List.mem_cons_self, by simpa using h⟩
    · rw [List.intercalate_cons_cons, List.mem_append, List.mem_append, List.mem_singleton] at h
      rcases h with (h | h) | h
      · exact .inr ⟨x, List.mem_cons_self, h⟩
      · exact .inl h
      · exact (ih h).imp_right fun ⟨z, hz, ha⟩ => ⟨z, List.mem_cons_of_mem x hz, ha⟩

/-- A text starts like its first row, or with a line end. -/
theorem Spells.head?_mem {text : List Char} {cells : List (List Char)}
    {rows : List (List (List Char))} (h : Spells text (cells :: rows)) {c : Char}
    (hc : text.head? = some c) : c = '\n' ∨ c = '\r' ∨ c ∈ line cells := by
  -- a row has a character, since an empty line is none
  have hfirst : ∀ {cells text}, IsRow cells → (line cells ++ text).head? = some c →
      c ∈ line cells := by
    intro cells text hrow hc
    rcases hline : line cells with _ | ⟨d, ds⟩
    · exact absurd hline hrow.line_ne
    · rw [hline] at hc
      obtain rfl := Option.some.inj hc
      exact List.mem_cons_self
  cases h with
  | empty hend rest =>
    obtain rfl := Option.some.inj hc
    exact hend.imp_right .inl
  | last hrow => exact .inr (.inr (hfirst hrow ((List.append_nil (line cells)).symm ▸ hc)))
  | cons hrow hend rest => exact .inr (.inr (hfirst hrow hc))

/-! ### Bytes -/

/-- Nothing in the field separates, quotes or ends. -/
def IsPlain (field : List UInt8) : Prop :=
  ∀ b ∈ field, b ≠ comma ∧ b ≠ quote ∧ isTerminator b = false

theorem isPlain_encode {cell : List Char} (h : IsPlainCell cell) : IsPlain (Utf8.encode cell) := by
  obtain ⟨hcomma, hquote, hfeed, hreturn⟩ := h
  -- bytes below 128 come from no other character than their own
  intro b hb
  refine ⟨?_, ?_, ?_⟩
  · rintro rfl
    exact hcomma (Utf8.mem_of_mem_encode (by decide) hb)
  · rintro rfl
    exact hquote (Utf8.mem_of_mem_encode (by decide) hb)
  · rw [isTerminator, Bool.or_eq_false_iff, beq_eq_false_iff_ne, beq_eq_false_iff_ne]
    constructor
    · rintro rfl
      exact hfeed (Utf8.mem_of_mem_encode (by decide) hb)
    · rintro rfl
      exact hreturn (Utf8.mem_of_mem_encode (by decide) hb)

/-- The bytes of joined cells are the bytes of the cells, joined. -/
theorem encode_line (cells : List (List Char)) :
    Utf8.encode (line cells) = [comma].intercalate (cells.map Utf8.encode) := by
  have hcomma : String.utf8EncodeChar ',' = [comma] := by decide
  unfold line
  induction cells with
  | nil => rfl
  | cons cell cells ih =>
    -- a last cell has no comma behind it
    rcases cells with _ | ⟨cell', cells⟩
    · simp
    · rw [List.intercalate_cons_cons, Utf8.encode_append, Utf8.encode_append, ih, Utf8.encode_cons,
        hcomma]
      simp only [List.map_cons, List.intercalate_cons_cons]
      rfl

/-! ### Reading a line -/

section Reading

variable {mode : Mode} {b : UInt8} {field rest : List UInt8} (fields : List (List UInt8))
  (read : List UInt8) (place : Place)

/-- Outside quotes a byte separates, ends or is taken. -/
theorem readFields_cons (hmode : mode = .atStart ∨ mode = .plain) (hb : b ≠ quote) :
    readFields mode fields read place (b :: rest) =
      if b == comma then readFields .atStart (read.reverse :: fields) [] (place.after b) rest
      else if isTerminator b then ((read.reverse :: fields).reverse, ⟨place.after b, rest⟩)
      else readFields .plain fields (b :: read) (place.after b) rest := by
  have hquote : (b == quote) = false := beq_eq_false_iff_ne.2 hb
  rcases hmode with rfl | rfl
  · rw [readFields]
    simp only [hquote, Bool.false_eq_true, if_false]
  · rw [readFields]

theorem ne_quote_of_isTerminator (hb : isTerminator b = true) : b ≠ quote := by
  rintro rfl
  exact absurd hb (by decide)

theorem ne_comma_of_isTerminator (hb : isTerminator b = true) : b ≠ comma := by
  rintro rfl
  exact absurd hb (by decide)

/-- A plain field is read up to what separates or ends it. -/
theorem readFields_append (hmode : mode = .atStart ∨ mode = .plain) (hfield : IsPlain field)
    (hrest : ∀ b, rest.head? = some b → b = comma ∨ isTerminator b = true) :
    readFields mode fields read place (field ++ rest) =
      readFields .plain fields (field.reverse ++ read) (place.afterAll field) rest := by
  induction field generalizing mode read place with
  | nil =>
    rcases rest with _ | ⟨b, rest⟩
    · rcases hmode with rfl | rfl <;> rfl
    -- behind the field only bytes follow that both modes treat alike
    · have hb : b ≠ quote := by
        rcases hrest b rfl with rfl | hb
        · decide
        · exact ne_quote_of_isTerminator hb
      show readFields mode fields read place (b :: rest) = readFields .plain fields read place _
      rw [readFields_cons _ _ _ hmode hb, readFields_cons _ _ _ (.inr rfl) hb]
  | cons b field ih =>
    obtain ⟨⟨hcomma, hquote, hend⟩, hfield⟩ := List.forall_mem_cons.1 hfield
    -- no byte of a plain field separates or ends it, so each is taken
    rw [List.cons_append, readFields_cons _ _ _ hmode hquote,
      if_neg (beq_eq_false_iff_ne.2 hcomma ▸ Bool.false_ne_true),
      if_neg (hend ▸ Bool.false_ne_true), ih _ _ (.inr rfl) hfield, List.reverse_cons,
      List.append_assoc]
    rfl

/-- **A line of plain fields is read as these fields.**  The byte that ends it is taken. -/
theorem readFields_line {line : List (List UInt8)} (hne : line ≠ [])
    (hline : ∀ field ∈ line, IsPlain field)
    (hrest : ∀ b, rest.head? = some b → isTerminator b = true) :
    ∃ place', readFields .atStart fields [] place ([comma].intercalate line ++ rest) =
      (fields.reverse ++ line, ⟨place', rest.drop 1⟩) := by
  induction line generalizing fields place with
  | nil => exact absurd rfl hne
  | cons field line ih =>
    obtain ⟨hfield, hline⟩ := List.forall_mem_cons.1 hline
    -- the last field is ended by what ends the line, each before it by a comma
    rcases line with _ | ⟨field', line⟩
    · rw [List.intercalate_singleton,
        readFields_append _ _ _ (.inl rfl) hfield fun b hb => .inr (hrest b hb)]
      rcases rest with _ | ⟨b, rest⟩
      · exact ⟨place.afterAll field, by simp [readFields]⟩
      · have hb := hrest b rfl
        rw [readFields_cons _ _ _ (.inr rfl) (ne_quote_of_isTerminator hb),
          if_neg (beq_eq_false_iff_ne.2 (ne_comma_of_isTerminator hb) ▸ Bool.false_ne_true),
          if_pos hb]
        exact ⟨(place.afterAll field).after b, by simp⟩
    · obtain ⟨place', hread⟩ := ih (field :: fields)
        ((place.afterAll field).after comma) (List.cons_ne_nil _ _) hline
      have hstop : ∀ b, (comma :: ([comma].intercalate (field' :: line) ++ rest)).head? = some b →
          b = comma ∨ isTerminator b = true :=
        fun b hb => .inl (Option.some.inj hb).symm
      refine ⟨place', ?_⟩
      rw [List.intercalate_cons_cons, List.append_assoc, List.append_assoc, List.singleton_append,
        readFields_append _ _ _ (.inl rfl) hfield hstop,
        readFields_cons _ _ _ (.inr rfl) (by decide), if_pos (beq_self_eq_true comma)]
      simpa using hread

end Reading

/-! ### Records -/

/-- No byte of a row ends it. -/
theorem IsRow.isTerminator_eq_false {cells : List (List Char)} (hrow : IsRow cells) {b : UInt8}
    (hb : b ∈ Utf8.encode (line cells)) : isTerminator b = false := by
  rw [encode_line] at hb
  rcases eq_or_exists_of_mem_intercalate hb with rfl | ⟨field, hfield, hb⟩
  · decide
  · obtain ⟨cell, hcell, rfl⟩ := List.mem_map.1 hfield
    exact (isPlain_encode (hrow.plain cell hcell) b hb).2.2

/-- Line ends alone hold no record. -/
theorem recordsFrom_nil {bytes : List UInt8} (h : bytes.dropWhile isTerminator = []) (index : Nat)
    (place : Place) : recordsFrom index place bytes = [] := by
  rw [recordsFrom]
  split
  · rfl
  · next h' =>
    rw [h] at h'
    cases h'

/-- The first record is read behind any line ends. -/
theorem recordsFrom_cons {bytes body : List UInt8} (h : bytes.dropWhile isTerminator = body)
    (hne : body ≠ []) (index : Nat) (place : Place) :
    ∃ start, recordsFrom index place bytes =
      ⟨index, place, (readFields .atStart [] [] start body).1⟩ ::
        recordsFrom (index + 1) (readFields .atStart [] [] start body).2.place
          (readFields .atStart [] [] start body).2.bytes := by
  refine ⟨place.afterAll (bytes.takeWhile isTerminator), ?_⟩
  rw [recordsFrom]
  split
  · next h' => exact absurd (h.symm.trans h') hne
  · next h' =>
    rw [← h', h]

/-- A row of a text is a record, behind any line ends. -/
theorem recordsFrom_line {cells : List (List Char)} (hrow : IsRow cells) {ends : List UInt8}
    (hends : ∀ b ∈ ends, isTerminator b = true) (rest : List UInt8)
    (hrest : ∀ b, rest.head? = some b → isTerminator b = true) (index : Nat) (place : Place) :
    ∃ place', recordsFrom index place (ends ++ (Utf8.encode (line cells) ++ rest)) =
      ⟨index, place, cells.map Utf8.encode⟩ :: recordsFrom (index + 1) place' (rest.drop 1) := by
  have hcells : cells.map Utf8.encode ≠ [] := by
    intro h
    exact hrow.line_ne (List.map_eq_nil_iff.1 h ▸ rfl)
  have hplain : ∀ field ∈ cells.map Utf8.encode, IsPlain field := by
    intro field hfield
    obtain ⟨cell, hcell, rfl⟩ := List.mem_map.1 hfield
    exact isPlain_encode (hrow.plain cell hcell)
  -- the row starts with a byte that ends nothing, so that the line ends before it are dropped, no
  -- more
  obtain ⟨b, bytes, hbytes⟩ : ∃ b bytes, Utf8.encode (line cells) = b :: bytes := by
    refine List.ne_nil_iff_exists_cons.1 fun h => hrow.line_ne ?_
    exact Except.ok.inj ((Utf8.decode_encode _).symm.trans (h ▸ Utf8.decode_encode []))
  have hdrop : (ends ++ (Utf8.encode (line cells) ++ rest)).dropWhile isTerminator =
      Utf8.encode (line cells) ++ rest := by
    have hb : isTerminator b = false :=
      hrow.isTerminator_eq_false (hbytes ▸ List.mem_cons_self)
    rw [List.dropWhile_append_of_pos hends, hbytes, List.cons_append,
      List.dropWhile_cons_of_neg (hb ▸ Bool.false_ne_true)]
  obtain ⟨start, hrecords⟩ := recordsFrom_cons hdrop (by simp [hbytes]) index place
  obtain ⟨place', hread⟩ := readFields_line [] start hcells hplain hrest
  rw [encode_line] at hrecords ⊢
  rw [hread] at hrecords
  exact ⟨place', hrecords⟩

/-- A line end is a byte that ends a record. -/
theorem encodeChar_of_isLineEnd {c : Char} (hc : c = '\n' ∨ c = '\r') :
    ∃ b, String.utf8EncodeChar c = [b] ∧ isTerminator b = true := by
  rcases hc with rfl | rfl
  · exact ⟨lineFeed, by decide, by decide⟩
  · exact ⟨carriageReturn, by decide, by decide⟩

/-- The records of a text behind any line ends are its rows, counted in order. -/
theorem recordsFrom_of_spells {text : List Char} {rows : List (List (List Char))}
    (h : Spells text rows) : ∀ ends : List UInt8, (∀ b ∈ ends, isTerminator b = true) →
      ∀ index place,
        (recordsFrom index place (ends ++ Utf8.encode text)).map (·.fields) =
            rows.map (·.map Utf8.encode) ∧
          (recordsFrom index place (ends ++ Utf8.encode text)).map (·.index) =
            List.range' index rows.length := by
  -- an empty line adds its byte to the line ends that the next record is read behind
  induction h with
  | nil =>
    intro ends hends index place
    rw [recordsFrom_nil (List.dropWhile_append_of_pos hends)]
    exact ⟨rfl, rfl⟩
  | empty hend _ ih =>
    intro ends hends index place
    obtain ⟨b, hb, hterminator⟩ := encodeChar_of_isLineEnd hend
    rw [Utf8.encode_cons, hb, ← List.append_assoc]
    exact ih _ (List.forall_mem_append.2 ⟨hends, by simpa using hterminator⟩) index place
  | last hrow =>
    intro ends hends index place
    obtain ⟨place', hfirst⟩ := recordsFrom_line hrow hends [] nofun index place
    rw [List.append_nil] at hfirst
    rw [hfirst, recordsFrom_nil rfl]
    exact ⟨rfl, rfl⟩
  | @cons c cells text rows hrow hend _ ih =>
    intro ends hends index place
    obtain ⟨b, hb, hterminator⟩ := encodeChar_of_isLineEnd hend
    obtain ⟨place', hfirst⟩ := recordsFrom_line hrow hends (b :: Utf8.encode text)
      (fun b' hb' => Option.some.inj hb' ▸ hterminator) index place
    obtain ⟨hfields, hindices⟩ := ih [] nofun (index + 1) place'
    rw [Utf8.encode_append, Utf8.encode_cons, hb, List.singleton_append, hfirst]
    exact ⟨congrArg _ hfields, congrArg _ hindices⟩

/-- The bytes of a text start with the mark only if the text does. -/
theorem byteOrderMark_isPrefixOf_encode {text : List Char}
    (h : byteOrderMark.isPrefixOf (Utf8.encode text) = true) : text.head? = some '\uFEFF' := by
  have hmark : byteOrderMark = String.utf8EncodeChar '\uFEFF' := by decide
  obtain ⟨rest, hrest⟩ := List.isPrefixOf_iff_prefix.1 h
  rcases text with _ | ⟨c, cs⟩
  · rw [Utf8.encode_nil, List.append_eq_nil_iff] at hrest
    exact absurd hrest.1 (by decide)
  -- both readings start with the mark, and the first character is determined by the bytes
  · have hhead := Utf8.head?_encodeChar_append c (Utf8.encode cs)
    rw [← Utf8.encode_cons, ← hrest, hmark, Utf8.head?_encodeChar_append] at hhead
    obtain ⟨rfl, -⟩ := Prod.mk.inj (Option.some.inj hhead)
    rfl

/-- **A text has the records of its rows**, counted in order. -/
theorem records_of_spells {text : List Char} {rows : List (List (List Char))}
    (h : Spells text rows) (hmark : text.head? ≠ some '\uFEFF') :
    (records (Utf8.encode text)).map (·.fields) = rows.map (·.map Utf8.encode) ∧
      (records (Utf8.encode text)).map (·.index) = List.range rows.length := by
  rw [records, if_neg fun hprefix => hmark (byteOrderMark_isPrefixOf_encode hprefix),
    List.range_eq_range']
  exact recordsFrom_of_spells h [] nofun 0 .start

end TimeValue.Csv
