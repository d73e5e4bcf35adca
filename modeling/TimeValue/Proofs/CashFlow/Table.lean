import Mathlib.Data.List.Forall2
import Mathlib.Data.List.GetD
import TimeValue.CashFlow.Text
import TimeValue.Proofs.Csv.Lines
import TimeValue.Proofs.Text.Blank

/-!
# Tables and flows as text

A table whose cells need no quotes holds the same flows as the texts `PERIOD:AMOUNT` made of its
rows.  Both ways of writing trim the two numbers and read them by the same rules; the table finds
them by the names of its columns, wherever these stand, and takes its rows in order up to the first
that is not a flow.

## Main definitions

* `Settles` — where the value of a column comes from.
* `NamesColumns` — a header that names one column of each kind.
* `flowText` — a row as the text of a flow.
* `IsFlowRow` — the rows that both ways of writing can hold.

## Main results

* `readNamed_eq_ok_iff` — **which values of named columns are a flow.**
* `readRecord_eq_ok_iff` — a row is a flow exactly if its text is one.
* `flowsOfTable_eq_ok_iff_flowText` — **a table holds the flows of its texts.**
-/

namespace TimeValue

open Text

/-- Elements that are all read are read one by one. -/
theorem mapM_eq_ok_iff {ε α β : Type} {f : α → Except ε β} {xs : List α} {ys : List β} :
    xs.mapM f = .ok ys ↔ List.Forall₂ (fun x y => f x = .ok y) xs ys := by
  induction xs generalizing ys with
  | nil =>
    rw [List.mapM_nil, List.forall₂_nil_left_iff]
    exact ⟨fun h => (Except.ok.inj h).symm, fun h => h ▸ rfl⟩
  | cons x xs ih =>
    rw [List.mapM_cons, List.forall₂_cons_left_iff]
    -- the first element that is not read ends the reading on both sides
    cases hx : f x with
    | error e => simp [bind, Except.bind]
    | ok y =>
      cases hxs : xs.mapM f with
      | error e => simp [bind, Except.bind, ← ih, hxs]
      | ok ys' => simp [bind, Except.bind, pure, Except.pure, ← ih, hxs, eq_comm]

/-- The texts of plain fields are the cells, trimmed. -/
theorem fieldTexts_encode (record : Csv.Record) (cells : List (List Char)) :
    ∀ index, fieldTexts record index (cells.map Utf8.encode) = .ok (cells.map trim) := by
  induction cells with
  | nil => exact fun _ => rfl
  | cons cell cells ih =>
    intro index
    obtain ⟨text, hdecode, htrim⟩ := decode_trimBytes cell
    simp only [List.map_cons, fieldTexts, hdecode, ih, htrim]
    rfl

/-! ### Values of named columns -/

/-- The texts in the columns of a name. -/
def textsOf (column : Column) (values : List (Option Column × List Char)) : List (List Char) :=
  (values.filter (·.1 = some column)).map (·.2)

/-- Where a column's value comes from: it is known already, and the column is not named again, or
the column is named once and its text reads as the value. -/
def Settles {β : Type} (Reads : List Char → β → Prop) (known? : Option β) (texts : List (List Char))
    (value : β) : Prop :=
  known? = some value ∧ texts = [] ∨ known? = none ∧ ∃ text, texts = [text] ∧ Reads text value

section Settles

variable {β : Type} {Reads : List Char → β → Prop} {texts : List (List Char)} {known value : β}

theorem settles_some_iff :
    Settles Reads (some known) texts value ↔ known = value ∧ texts = [] := by
  simp [Settles]

theorem settles_none_cons_iff {text : List Char} :
    Settles Reads none (text :: texts) value ↔ Reads text value ∧ texts = [] := by
  simp [Settles, and_comm]

end Settles

/-- A text read as a period, in whatever field it stands. -/
def ReadsPeriod (text : List Char) (period : Nat) : Prop :=
  readPeriod 0 text = .ok period

/-- A text read as an amount, in whatever field it stands. -/
def ReadsAmount (text : List Char) (amount : Float) : Prop :=
  readAmount 0 text = .ok amount

theorem mapError_eq_ok_iff {ε ε' α : Type} {r : Except ε α} {f : ε → ε'} {x : α} :
    r.mapError f = .ok x ↔ r = .ok x := by
  cases r <;> simp [Except.mapError]

theorem readPeriod_eq_ok_iff {field : Nat} {text : List Char} {period : Nat} :
    readPeriod field text = .ok period ↔ ReadsPeriod text period := by
  simp only [ReadsPeriod, readPeriod, mapError_eq_ok_iff]

theorem readAmount_eq_ok_iff {field : Nat} {text : List Char} {amount : Float} :
    readAmount field text = .ok amount ↔ ReadsAmount text amount := by
  simp only [ReadsAmount, readAmount, mapError_eq_ok_iff]

/-- **Values of named columns are a flow exactly if either column is named once, by a text that can
be read.** -/
theorem readNamed_eq_ok_iff {flow : CashFlow Float} (values : List (Option Column × List Char)) :
    ∀ field period? amount?,
      readNamed field period? amount? values = .ok flow ↔
        Settles ReadsPeriod period? (textsOf .period values) flow.period ∧
          Settles ReadsAmount amount? (textsOf .amount values) flow.amount := by
  induction values with
  | nil =>
    intro field period? amount?
    obtain ⟨period, amount⟩ := flow
    cases period? <;> cases amount? <;> simp [readNamed, textsOf, Settles]
  | cons value values ih =>
    intro field period? amount?
    obtain ⟨column?, text⟩ := value
    -- a value of either column settles it, unless an earlier one has
    rcases column? with _ | _ | _
    · exact ih (field + 1) period? amount?
    · have hperiod : textsOf .period ((some .period, text) :: values) =
          text :: textsOf .period values := rfl
      have hamount : textsOf .amount ((some .period, text) :: values) =
          textsOf .amount values := rfl
      rw [hperiod, hamount, readNamed]
      rcases period? with _ | known
      · rw [settles_none_cons_iff, ← readPeriod_eq_ok_iff]
        cases hread : readPeriod field text with
        | error fault => simp [bind, Except.bind]
        | ok period => simp [bind, Except.bind, ih, settles_some_iff, and_assoc]
      · simp [settles_some_iff]
    · have hperiod : textsOf .period ((some .amount, text) :: values) =
          textsOf .period values := rfl
      have hamount : textsOf .amount ((some .amount, text) :: values) =
          text :: textsOf .amount values := rfl
      rw [hperiod, hamount, readNamed]
      rcases amount? with _ | known
      · rw [settles_none_cons_iff, ← readAmount_eq_ok_iff]
        cases hread : readAmount field text with
        | error fault => simp [bind, Except.bind]
        | ok amount => simp [bind, Except.bind, ih, settles_some_iff]
      · simp [settles_some_iff]

/-! ### Columns of a header -/

/-- The names of a column. -/
def Column.names : Column → List (List Char)
  | .period => ["period".toList, "Period".toList]
  | .amount => ["amount".toList, "Amount".toList]

theorem Column.ofName?_eq_some_iff {name : List Char} {column : Column} :
    Column.ofName? name = some column ↔ name ∈ column.names := by
  unfold Column.ofName?
  split_ifs with hperiod hamount
  · cases column with
    | period => simpa [Column.names] using hperiod
    | amount => rcases hperiod with rfl | rfl <;> decide
  · cases column with
    | period => rcases hamount with rfl | rfl <;> decide
    | amount => simpa [Column.names] using hamount
  · cases column with
    | period => simpa [Column.names] using hperiod
    | amount => simpa [Column.names] using hamount

/-- A header that names each of the two columns once, at its place.  Blanks around a name do not
count, and cells elsewhere have other names. -/
def NamesColumns (header : List (List Char)) (place : Column → Nat) : Prop :=
  ∀ column k, (∃ cell, header[k]? = some cell ∧ trim cell ∈ column.names) ↔ k = place column

/-- What each cell of a header names. -/
def namedColumns (header : List (List Char)) : List (Option Column) :=
  header.map fun cell => Column.ofName? (trim cell)

@[simp] theorem length_namedColumns (header : List (List Char)) :
    (namedColumns header).length = header.length :=
  List.length_map _

/-- The columns of a record with these cells. -/
theorem columnsOf_encode {record : Csv.Record} {header : List (List Char)}
    (hfields : record.fields = header.map Utf8.encode) :
    columnsOf record = some (namedColumns header) := by
  rw [columnsOf, hfields, fieldTexts_encode]
  exact congrArg some List.map_map

theorem NamesColumns.getElem?_eq_iff {header : List (List Char)} {place : Column → Nat}
    (hheader : NamesColumns header place) (column : Column) (k : Nat) :
    (namedColumns header)[k]? = some (some column) ↔ k = place column := by
  rw [← hheader column k, namedColumns, List.getElem?_map, Option.map_eq_some_iff]
  simp only [Column.ofName?_eq_some_iff]

/-- A column that is not named has no text. -/
theorem textsOf_zip_eq_nil {column : Column} {columns : List (Option Column)}
    (hcolumns : some column ∉ columns) (texts : List (List Char)) :
    textsOf column (columns.zip texts) = [] := by
  rw [textsOf, List.map_eq_nil_iff, List.filter_eq_nil_iff]
  rintro ⟨column?, text⟩ hmem
  have hne : column? ≠ some column := fun h => hcolumns (h ▸ (List.of_mem_zip hmem).1)
  simpa using hne

/-- A column that is named once has the text at its place. -/
theorem textsOf_zip {column : Column} {columns : List (Option Column)} {texts : List (List Char)}
    {place : Nat} (hcolumns : ∀ k, columns[k]? = some (some column) ↔ k = place)
    (hlength : texts.length = columns.length) :
    textsOf column (columns.zip texts) = [texts.getD place []] := by
  induction columns generalizing texts place with
  | nil => simpa using (hcolumns place).2 rfl
  | cons column? columns ih =>
    obtain ⟨text, texts, rfl⟩ := List.exists_cons_of_length_eq_add_one hlength
    rw [List.zip_cons_cons]
    -- the column is named here and nowhere behind, or only behind
    rcases place with _ | place
    · have hnamed : column? = some column := by simpa using (hcolumns 0).2 rfl
      have hrest : some column ∉ columns := by
        intro hmem
        obtain ⟨k, hk⟩ := List.mem_iff_getElem?.1 hmem
        exact Nat.succ_ne_zero k ((hcolumns (k + 1)).1 hk)
      have hnil := textsOf_zip_eq_nil hrest texts
      rw [textsOf, List.filter_cons_of_pos (by simp [hnamed]), List.map_cons]
      exact congrArg (text :: ·) hnil
    · have hother : column? ≠ some column := fun h =>
        Nat.succ_ne_zero place ((hcolumns 0).1 (congrArg some h)).symm
      have hrest := ih (fun k => (hcolumns (k + 1)).trans Nat.succ_inj) (Nat.succ.inj hlength)
      rw [textsOf, List.filter_cons_of_neg (by simpa using hother)]
      exact hrest

/-! ### Rows as text -/

/-- A row as the text of a flow. -/
def flowText (place : Column → Nat) (row : List (List Char)) : List Char :=
  row.getD (place .period) [] ++ ':' :: row.getD (place .amount) []

/-- A row with a cell in each column, whose period has no colon and is not hexadecimal.  A table
knows periods written after `0x`, and a colon in a period would end it in a text. -/
structure IsFlowRow (width : Nat) (place : Column → Nat) (row : List (List Char)) : Prop where
  /-- The row is as wide as the table. -/
  length_eq : row.length = width
  /-- The period has no colon. -/
  no_colon : ':' ∉ row.getD (place .period) []
  /-- The period is not hexadecimal. -/
  not_hex : ¬ "0x".toList <+: trim (row.getD (place .period) [])

theorem splitAtColon?_append {period : List Char} (hperiod : ':' ∉ period) (amount : List Char) :
    splitAtColon? (period ++ ':' :: amount) = some (period, amount) := by
  have hbefore : ∀ c ∈ period, (c != ':') = true := by
    intro c hc
    exact bne_iff_ne.2 fun h => hperiod (h ▸ hc)
  rw [splitAtColon?, List.dropWhile_append_of_pos hbefore, List.takeWhile_append_of_pos hbefore]
  simp

/-- The two parts of a flow are read apart. -/
theorem CashFlow.ofParts_eq_ok_iff {period amount : List Char} {flow : CashFlow Float} :
    CashFlow.ofParts period amount = .ok flow ↔
      readWhole 10 maxWhole (trim period) = .ok flow.period ∧
        readDecimal (trim amount) = .ok flow.amount := by
  obtain ⟨p, a⟩ := flow
  unfold CashFlow.ofParts
  cases readWhole 10 maxWhole (trim period) with
  | error fault => simp
  | ok p' =>
    cases readDecimal (trim amount) with
    | error fault => simp
    | ok a' => simp

/-- A period that is not hexadecimal is read as a whole number. -/
theorem readsPeriod_iff {text : List Char} (htext : ¬ "0x".toList <+: text) {period : Nat} :
    ReadsPeriod text period ↔ readWhole 10 maxWhole text = .ok period := by
  rw [ReadsPeriod, readPeriod, mapError_eq_ok_iff]
  rintro digits rfl
  exact htext ⟨digits, rfl⟩

theorem readsAmount_iff {text : List Char} {amount : Float} :
    ReadsAmount text amount ↔ readDecimal text = .ok amount := by
  rw [ReadsAmount, readAmount, mapError_eq_ok_iff]

section Row

variable {columns : List (Option Column)} {record : Csv.Record} {row : List (List Char)}
  {place : Column → Nat}

/-- The cells of a row are read, trimmed, as values of the named columns. -/
theorem readRecord_encode (hfields : record.fields = row.map Utf8.encode)
    (hlength : row.length = columns.length) :
    readRecord (some columns) columns.length record =
      (readNamed 0 none none (columns.zip (row.map trim))).mapError (.badRecord record) := by
  -- the row is as wide as the header, so that its cells are looked at at all
  have hwidth : ¬ record.fields.length ≠ columns.length := by
    rw [hfields, List.length_map]
    exact not_not.2 hlength
  rw [readRecord, if_neg hwidth, hfields, fieldTexts_encode]
  rfl

/-- **A row is a flow exactly if its text is one**, and the same flow. -/
theorem readRecord_eq_ok_iff
    (hcolumns : ∀ column k, columns[k]? = some (some column) ↔ k = place column)
    (hfields : record.fields = row.map Utf8.encode) (hrow : IsFlowRow columns.length place row)
    (flow : CashFlow Float) :
    readRecord (some columns) columns.length record = .ok flow ↔
      CashFlow.ofText (flowText place row) = .ok flow := by
  -- each column has one text, that of the row's cell at its place
  have htexts : ∀ column, textsOf column (columns.zip (row.map trim)) =
      [trim (row.getD (place column) [])] := by
    intro column
    rw [textsOf_zip (hcolumns column) (by rw [List.length_map, hrow.length_eq])]
    exact congrArg (fun text => [text]) (List.getD_map row [] trim)
  rw [readRecord_encode hfields hrow.length_eq, mapError_eq_ok_iff, readNamed_eq_ok_iff, htexts,
    htexts, settles_none_cons_iff, settles_none_cons_iff, readsPeriod_iff hrow.not_hex,
    readsAmount_iff, CashFlow.ofText, flowText, splitAtColon?_append hrow.no_colon]
  simp only [and_true]
  exact CashFlow.ofParts_eq_ok_iff.symm

/-- A row that is not a flow is named in the fault. -/
theorem exists_badRecord_of_readRecord (hfields : record.fields = row.map Utf8.encode)
    (hlength : row.length = columns.length) {fault : TableFault}
    (h : readRecord (some columns) columns.length record = .error fault) :
    ∃ fault', fault = .badRecord record fault' := by
  rw [readRecord_encode hfields hlength] at h
  cases hread : readNamed 0 none none (columns.zip (row.map trim)) with
  | ok flow =>
    rw [hread] at h
    cases h
  | error fault' =>
    rw [hread] at h
    exact ⟨fault', (Except.error.inj h).symm⟩

/-- Records of rows are read as the flows of their texts. -/
theorem mapM_readRecord_eq_ok_iff
    (hcolumns : ∀ column k, columns[k]? = some (some column) ↔ k = place column)
    {rows : List (List (List Char))} {data : List Csv.Record}
    (hfields : data.map (·.fields) = rows.map (·.map Utf8.encode))
    (hrows : ∀ row ∈ rows, IsFlowRow columns.length place row) (flows : List (CashFlow Float)) :
    data.mapM (readRecord (some columns) columns.length) = .ok flows ↔
      List.Forall₂ (fun row flow => CashFlow.ofText (flowText place row) = .ok flow)
        rows flows := by
  rw [mapM_eq_ok_iff]
  induction rows generalizing data flows with
  | nil =>
    obtain rfl := List.map_eq_nil_iff.1 hfields
    rw [List.forall₂_nil_left_iff, List.forall₂_nil_left_iff]
  | cons row rows ih =>
    obtain ⟨record, data, rfl, hrecord, hdata⟩ := List.map_eq_cons_iff.1 hfields
    obtain ⟨hrow, hrows⟩ := List.forall_mem_cons.1 hrows
    simp only [List.forall₂_cons_left_iff, readRecord_eq_ok_iff hcolumns hrecord hrow,
      ih hdata hrows]

/-- The first row whose text is not a flow ends the reading, and its record is named. -/
theorem exists_first_of_mapM_readRecord
    (hcolumns : ∀ column k, columns[k]? = some (some column) ↔ k = place column)
    {rows : List (List (List Char))} {data : List Csv.Record}
    (hfields : data.map (·.fields) = rows.map (·.map Utf8.encode))
    (hrows : ∀ row ∈ rows, IsFlowRow columns.length place row) {tableFault : TableFault}
    (h : data.mapM (readRecord (some columns) columns.length) = .error tableFault) :
    ∃ before row after fault record recordFault, rows = before ++ row :: after ∧
      (∀ row' ∈ before, ∃ flow, CashFlow.ofText (flowText place row') = .ok flow) ∧
      CashFlow.ofText (flowText place row) = .error fault ∧
      tableFault = .badRecord record recordFault ∧ data[before.length]? = some record ∧
      record.fields = row.map Utf8.encode := by
  induction rows generalizing data with
  | nil =>
    obtain rfl := List.map_eq_nil_iff.1 hfields
    cases h
  | cons row rows ih =>
    obtain ⟨record, data, rfl, hrecord, hdata⟩ := List.map_eq_cons_iff.1 hfields
    obtain ⟨hrow, hrows⟩ := List.forall_mem_cons.1 hrows
    have htext := readRecord_eq_ok_iff hcolumns hrecord hrow
    rw [List.mapM_cons] at h
    -- the first row fails itself, or is a flow and the first failure is behind it
    cases hread : readRecord (some columns) columns.length record with
    | error fault =>
      rw [hread] at h
      obtain rfl : fault = tableFault := Except.error.inj h
      obtain ⟨recordFault, rfl⟩ := exists_badRecord_of_readRecord hrecord hrow.length_eq hread
      cases hflow : CashFlow.ofText (flowText place row) with
      | ok flow => exact absurd (hread.symm.trans ((htext flow).2 hflow)) nofun
      | error fault =>
        exact ⟨[], row, rows, fault, record, recordFault, rfl, nofun, hflow, rfl, rfl, hrecord⟩
    | ok flow =>
      cases hreads : data.mapM (readRecord (some columns) columns.length) with
      | ok flows =>
        rw [hread, hreads] at h
        cases h
      | error fault =>
        rw [hread, hreads] at h
        obtain rfl : fault = tableFault := Except.error.inj h
        obtain ⟨before, row', after, fault', record', recordFault, rfl, hbefore, hbad⟩ :=
          ih hdata hrows hreads
        exact ⟨row :: before, row', after, fault', record', recordFault, rfl,
          List.forall_mem_cons.2 ⟨⟨flow, (htext flow).1 hread⟩, hbefore⟩, hbad⟩

end Row

/-! ### Tables as text -/

/-- A text starts with the byte order mark only if a cell of its first row does. -/
theorem head?_ne_byteOrderMark {text : List Char} {header : List (List Char)}
    {rows : List (List (List Char))} (htext : Csv.Spells text (header :: rows))
    (hmark : ∀ cell ∈ header, '\uFEFF' ∉ cell) : text.head? ≠ some '\uFEFF' := by
  intro hhead
  rcases htext.head?_mem hhead with h | h | h
  · exact absurd h (by decide)
  · exact absurd h (by decide)
  -- the mark would stand in a cell or between two
  · rcases Csv.eq_or_exists_of_mem_intercalate h with h | ⟨cell, hcell, h⟩
    · exact absurd h (by decide)
    · exact hmark cell hcell h

/-- The rows behind the header are read in order, each as a record with its cells and its number. -/
theorem flowsOfTable_of_spells {text : List Char} {header : List (List Char)}
    {rows : List (List (List Char))} (htext : Csv.Spells text (header :: rows))
    (hmark : ∀ cell ∈ header, '\uFEFF' ∉ cell) :
    ∃ data : List Csv.Record,
      flowsOfTable (Utf8.encode text) =
          data.mapM (readRecord (some (namedColumns header)) (namedColumns header).length) ∧
        data.map (·.fields) = rows.map (·.map Utf8.encode) ∧
        data.map (·.index) = List.range' 1 rows.length := by
  obtain ⟨hfields, hindices⟩ := Csv.records_of_spells htext (head?_ne_byteOrderMark htext hmark)
  rw [List.map_cons] at hfields
  obtain ⟨first, data, hrecords, hfirst, hdata⟩ := List.map_eq_cons_iff.1 hfields
  refine ⟨data, ?_, hdata, ?_⟩
  · simp only [flowsOfTable, hrecords, columnsOf_encode hfirst]
    rw [hfirst, List.length_map, length_namedColumns]
  · rw [hrecords, List.range_eq_range', List.length_cons, List.range'_succ, List.map_cons]
      at hindices
    exact (List.cons.inj hindices).2

/-- **A table holds the flows of its texts.**  It is read if the text of each row is a flow, and
these are then its flows, in the order of the rows.  Otherwise the fault names the first row whose
text is not a flow; rows are counted from one, behind the header. -/
theorem flowsOfTable_eq_ok_iff_flowText {text : List Char} {header : List (List Char)}
    {rows : List (List (List Char))} {place : Column → Nat}
    (htext : Csv.Spells text (header :: rows)) (hheader : NamesColumns header place)
    (hmark : ∀ cell ∈ header, '\uFEFF' ∉ cell)
    (hrows : ∀ row ∈ rows, IsFlowRow header.length place row) :
    (∀ flows, flowsOfTable (Utf8.encode text) = .ok flows ↔
      List.Forall₂ (fun row flow => CashFlow.ofText (flowText place row) = .ok flow) rows flows) ∧
    ((¬ ∃ flows, List.Forall₂ (fun row flow => CashFlow.ofText (flowText place row) = .ok flow)
        rows flows) →
      ∃ before row after fault record recordFault, rows = before ++ row :: after ∧
        (∀ row' ∈ before, ∃ flow, CashFlow.ofText (flowText place row') = .ok flow) ∧
        CashFlow.ofText (flowText place row) = .error fault ∧
        flowsOfTable (Utf8.encode text) = .error (.badRecord record recordFault) ∧
        record.index = before.length + 1 ∧ record.fields = row.map Utf8.encode) := by
  obtain ⟨data, htable, hfields, hindices⟩ := flowsOfTable_of_spells htext hmark
  have hcolumns := hheader.getElem?_eq_iff
  rw [← length_namedColumns] at hrows
  have hok := mapM_readRecord_eq_ok_iff hcolumns hfields hrows
  rw [htable]
  refine ⟨hok, fun hnone => ?_⟩
  cases hdata : data.mapM (readRecord (some (namedColumns header))
    (namedColumns header).length) with
  | ok flows => exact absurd ⟨flows, (hok flows).1 hdata⟩ hnone
  | error tableFault =>
    obtain ⟨before, row, after, fault, record, recordFault, hsplit, hbefore, hbad, rfl, hget,
      hrecord⟩ := exists_first_of_mapM_readRecord hcolumns hfields hrows hdata
    -- the records are numbered from one, so that the number is told by how many come before
    have hindex : record.index = before.length + 1 := by
      have hnumber : (data.map (·.index))[before.length]? = some record.index := by
        rw [List.getElem?_map, hget, Option.map_some]
      rw [hindices, hsplit, List.getElem?_range' (by simp)] at hnumber
      have hsum := Option.some.inj hnumber
      omega
    exact ⟨before, row, after, fault, record, recordFault, hsplit, hbefore, hbad, rfl, hindex,
      hrecord⟩

/-- The columns may stand in any order, with others among them and blanks around the cells. -/
theorem flowsOfTable_rent :
    flowsOfTable (Utf8.encode "amount,note, Period\n300,rent,2\n-1000,, 0 \n".toList) =
      .ok [⟨2, ofDecimal 300 0⟩, ⟨0, -ofDecimal 1000 0⟩] := by
  have htext := Csv.spells_lines
    [["amount".toList, "note".toList, " Period".toList], ["300".toList, "rent".toList, "2".toList],
      ["-1000".toList, [], " 0 ".toList]]
    (by simp only [List.forall_mem_cons]
        exact ⟨.of_two_le (by decide) (by decide), .of_two_le (by decide) (by decide),
          .of_two_le (by decide) (by decide), nofun⟩)
  have hheader : NamesColumns ["amount".toList, "note".toList, " Period".toList]
      fun | .period => 2 | .amount => 0 := by
    intro column k
    rcases k with _ | _ | _ | k <;> cases column <;> simp <;> decide
  refine ((flowsOfTable_eq_ok_iff_flowText htext hheader (by decide) ?_).1 _).2
    (.cons rfl (.cons rfl .nil))
  simp only [List.forall_mem_cons]
  exact ⟨⟨rfl, by decide, by decide⟩, ⟨rfl, by decide, by decide⟩, nofun⟩

end TimeValue
