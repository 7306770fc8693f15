import Marreta.Db.Injection

namespace Marreta

open Foundation

/-! Which rows the write terminals of a query select.

A select, an update and a delete render the filters of a query independently.
`deleteLikeSelect` and `updateLikeSelect` say what the two writes should send,
in terms of the select: the same condition, its placeholders shifted by the
number of assigned columns, with the same values bound to them. -/

/-! ## Shifting placeholders -/

def digitsNumber (digits : List Char) : Nat :=
  Nat.ofDigitChars 10 digits 0

/-- The number after a `$`, raised by `count`. -/
def shiftedNumber (count : Nat) (rest : List Char) : List Char :=
  match rest.takeWhile Char.isDigit with
  | [] => []
  | digits => (toString (digitsNumber digits + count)).toList

/-- Raise the number of every placeholder of a text.  Inside a placeholder the
digits of the old number are skipped. -/
def shiftPlaceholders (count : Nat) (inside : Bool) : List Char → List Char
  | [] => []
  | ch :: rest =>
      if ch = '$' then '$' :: (shiftedNumber count rest ++ shiftPlaceholders count true rest)
      else if inside && ch.isDigit then shiftPlaceholders count true rest
      else ch :: shiftPlaceholders count false rest

example : shiftPlaceholders 8 false "a = $1 AND b IN ($2)".toList =
    "a = $9 AND b IN ($10)".toList := by decide

/-! ## What the write terminals should send -/

/-- The plain read of the rows a query selects. -/
def readQuery (query : Query) : Query :=
  { (QueryState.new query.table : Query) with
    filters := query.filters, knownColumns := query.knownColumns }

/-- The text after the table of a plain read. -/
def conditionText (table : String) (select : SqlStatement) : List Char :=
  select.sql.render.toList.drop ("SELECT * FROM " ++ table).toList.length

/-- The text and the bound values of a statement. -/
def SqlStatement.sent (statement : SqlStatement) : List Char × List Value :=
  (statement.sql.render.toList, statement.params)

def deleteLikeSelect (query : Query) : Except MarretaError (List Char × List Value) := do
  let select ← buildSelect (readQuery query)
  .ok (("DELETE FROM " ++ query.table).toList ++ conditionText query.table select,
    select.params)

def updateLikeSelect (query : Query) (data : DbRow) :
    Except MarretaError (List Char × List Value) := do
  let keys := sortedKeys data
  let assigned ← numberedColumns query.knownColumns 1 (keys.map fun key => (key, "="))
  let select ← buildSelect (readQuery query)
  .ok (("UPDATE " ++ query.table ++ " SET ").toList ++
      (Sql.joined ", " assigned).render.toList ++
      shiftPlaceholders keys.length false (conditionText query.table select),
    sortedValues data ++ select.params)

/-- Both write terminals select the rows a read selects. -/
def WritesLikeSelect (query : Query) (data : DbRow) : Prop :=
  SqlStatement.sent <$> deleteStatement query = deleteLikeSelect query ∧
    SqlStatement.sent <$> updateStatement query data = updateLikeSelect query data

/-! ## Rendered text -/

namespace Sql

theorem render_append (first second : Sql) :
    render (first ++ second) = first.render ++ second.render := by
  simp [render, String.join_append]

theorem render_cons (piece : SqlPiece) (sql : Sql) :
    render (piece :: sql) = pieceText piece ++ sql.render := by
  simp [render, String.join_cons]

theorem joined_cons (separator : String) (part : Sql) (parts : List Sql) :
    joined separator (part :: parts) =
      part ++ if parts.isEmpty then [] else .text separator :: joined separator parts := by
  cases parts with
  | nil => simp [joined]
  | cons next parts => simp [joined, List.intercalate]

end Sql

/-! ## Shifting the placeholders of a condition -/

theorem shiftPlaceholders_text (count : Nat) {text : List Char} (plain : '$' ∉ text)
    (rest : List Char) :
    shiftPlaceholders count false (text ++ rest) =
      text ++ shiftPlaceholders count false rest := by
  induction text with
  | nil => rfl
  | cons ch text ih =>
      have other : ch ≠ '$' := fun same => plain (by simp [same])
      rw [List.cons_append, shiftPlaceholders, if_neg other,
        ih fun member => plain (List.mem_cons_of_mem _ member)]
      rfl

theorem shiftPlaceholders_digits (count : Nat) {digits rest : List Char}
    (inside : ∀ ch ∈ digits, ch.isDigit = true)
    (ends : ∀ ch ∈ rest.head?, ch.isDigit = false) :
    shiftPlaceholders count true (digits ++ rest) = shiftPlaceholders count false rest := by
  induction digits with
  | nil =>
      cases rest with
      | nil => rfl
      | cons ch rest =>
          have other : ch.isDigit = false := ends ch rfl
          simp [shiftPlaceholders, other]
  | cons ch digits ih =>
      have digit : ch.isDigit = true := inside ch (by simp)
      have other : ch ≠ '$' := by
        rintro rfl
        exact absurd digit (by decide)
      rw [List.cons_append, shiftPlaceholders, if_neg other, if_pos (by simp [digit])]
      exact ih fun ch member => inside ch (List.mem_cons_of_mem _ member)

theorem toList_placeholder (index : Nat) :
    (placeholder index).toList = '$' :: Nat.toDigits 10 index := by
  simp [placeholder]

theorem shiftPlaceholders_placeholder (count index : Nat) {rest : List Char}
    (ends : ∀ ch ∈ rest.head?, ch.isDigit = false) :
    shiftPlaceholders count false ((placeholder index).toList ++ rest) =
      (placeholder (index + count)).toList ++ shiftPlaceholders count false rest := by
  have digits : ∀ ch ∈ Nat.toDigits 10 index, ch.isDigit = true :=
    fun ch member => Nat.isDigit_of_mem_toDigits (by decide) (by decide) member
  have number : (Nat.toDigits 10 index ++ rest).takeWhile Char.isDigit =
      Nat.toDigits 10 index := by
    rw [List.takeWhile_append_of_pos digits]
    cases rest with
    | nil => simp
    | cons ch rest => simp [ends ch rfl]
  have shifted : shiftedNumber count (Nat.toDigits 10 index ++ rest) =
      Nat.toDigits 10 (index + count) := by
    rw [shiftedNumber, number]
    split
    · rename_i empty
      exact absurd empty Nat.toDigits_ne_nil
    · simp [digitsNumber]
  rw [toList_placeholder, toList_placeholder, List.cons_append, shiftPlaceholders, if_pos rfl,
    shifted, shiftPlaceholders_digits count digits ends]
  simp

theorem QuotedName.plain {text : String} (quoted : QuotedName text) : '$' ∉ text.toList := by
  obtain ⟨segments, count, sound, rfl⟩ := quoted
  have segment : ∀ segment ∈ segments, '$' ∉ (quoteSegment segment).toList := by
    intro segment member
    have shaped := sound segment member
    cases segment with
    | nil => simp [segmentOk] at shaped
    | cons first rest =>
        simp only [segmentOk, Bool.and_eq_true, List.all_eq_true] at shaped
        have start : first ≠ '$' := by
          rintro rfl
          exact absurd shaped.1 (by decide)
        have inner : '$' ∉ rest := fun member => absurd (shaped.2 _ member) (by decide)
        simpa [quoteSegment] using ⟨Ne.symm start, inner⟩
  rcases segments with _ | ⟨first, _ | ⟨second, _ | ⟨third, rest⟩⟩⟩
  · simp at count
  · simpa using segment first (by simp)
  · simpa [String.intercalate_cons_cons] using
      ⟨segment first (by simp), segment second (by simp)⟩
  · simp at count

theorem columnPiece_plain {raw : String} {known : Option (List String)} {piece : SqlPiece}
    (valid : columnPiece raw known = .ok piece) : '$' ∉ (Sql.pieceText piece).toList := by
  have quoted := columnPiece_ensures raw known
  rw [valid] at quoted
  cases renders : validateColumn raw known with
  | error error => simp [columnPiece, renders, bind, Except.bind] at valid
  | ok rendered =>
      obtain rfl : SqlPiece.name raw rendered = piece := by
        simpa [columnPiece, renders, bind, Except.bind] using valid
      exact QuotedName.plain (quoted raw rendered (by simp))

/-- One column and its placeholder. -/
def numberedClause (piece : SqlPiece) (operator : String) (next : Nat) : Sql :=
  [piece, .text (" " ++ operator ++ " " ++ placeholder next)]

theorem numberedColumns_cons_eq_ok {known : Option (List String)} {next : Nat}
    {column operator : String} {columns : List (String × String)} {clauses : List Sql} :
    numberedColumns known next ((column, operator) :: columns) = .ok clauses ↔
      ∃ piece rest, columnPiece column known = .ok piece ∧
        numberedColumns known (next + 1) columns = .ok rest ∧
        numberedClause piece operator next :: rest = clauses := by
  rw [numberedColumns, bind_eq_ok]
  refine exists_congr fun piece => ?_
  rw [bind_eq_ok, ← exists_and_left]
  refine exists_congr fun rest => and_congr_right fun _ => and_congr_right fun _ => ?_
  exact ⟨Except.ok.inj, congrArg Except.ok⟩

theorem toList_joined_numbered (piece : SqlPiece) (operator : String) (next : Nat)
    (rest : List Sql) :
    (Sql.joined " AND " (numberedClause piece operator next :: rest)).render.toList =
      ((Sql.pieceText piece).toList ++ (" " ++ operator ++ " ").toList) ++
        ((placeholder next).toList ++
          if rest.isEmpty then [] else " AND ".toList ++ (Sql.joined " AND " rest).render.toList) := by
  rw [Sql.joined_cons, Sql.render_append, String.toList_append]
  have clause : (Sql.render (numberedClause piece operator next)).toList =
      ((Sql.pieceText piece).toList ++ (" " ++ operator ++ " ").toList) ++
        (placeholder next).toList := by
    simp [numberedClause, Sql.pieceText, Sql.render]
  rw [clause, List.append_assoc]
  congr 2
  split
  · rfl
  · rw [Sql.render_cons, String.toList_append]
    rfl

theorem shift_numberedColumns {known : Option (List String)} (count : Nat)
    {columns : List (String × String)} (plain : ∀ column ∈ columns, '$' ∉ column.2.toList)
    {next : Nat} {clauses : List Sql}
    (numbered : numberedColumns known next columns = .ok clauses) :
    ∃ shifted, numberedColumns known (next + count) columns = .ok shifted ∧
      shifted.isEmpty = clauses.isEmpty ∧
      (Sql.joined " AND " shifted).render.toList =
        shiftPlaceholders count false (Sql.joined " AND " clauses).render.toList := by
  induction columns generalizing next clauses with
  | nil =>
      obtain rfl : [] = clauses := Except.ok.inj numbered
      exact ⟨[], rfl, rfl, rfl⟩
  | cons column columns ih =>
      obtain ⟨column, operator⟩ := column
      obtain ⟨piece, rest, valid, later, rfl⟩ := (numberedColumns_cons_eq_ok).mp numbered
      obtain ⟨shifted, found, sameEmpty, texts⟩ :=
        ih (fun column member => plain column (List.mem_cons_of_mem _ member)) later
      refine ⟨numberedClause piece operator (next + count) :: shifted, ?_, rfl, ?_⟩
      · refine (numberedColumns_cons_eq_ok).mpr ⟨piece, shifted, valid, ?_, rfl⟩
        rwa [show next + count + 1 = next + 1 + count by omega]
      have text : '$' ∉ (Sql.pieceText piece).toList ++ (" " ++ operator ++ " ").toList := by
        have name := columnPiece_plain valid
        have sign := plain (column, operator) (by simp)
        simpa using ⟨name, sign⟩
      rw [toList_joined_numbered, toList_joined_numbered, shiftPlaceholders_text count text,
        shiftPlaceholders_placeholder]
      · congr 2
        rw [sameEmpty, texts]
        split
        · rfl
        · rw [shiftPlaceholders_text count (by decide)]
      · split
        · simp
        · intro ch head
          obtain rfl : ch = ' ' := by simpa using head.symm
          decide

theorem shift_whereClause {known : Option (List String)} (count : Nat)
    {columns : List (String × String)} (plain : ∀ column ∈ columns, '$' ∉ column.2.toList)
    {next : Nat} {clauses : List Sql}
    (numbered : numberedColumns known next columns = .ok clauses) :
    ∃ shifted, numberedColumns known (next + count) columns = .ok shifted ∧
      (whereClause shifted).render.toList =
        shiftPlaceholders count false (whereClause clauses).render.toList := by
  obtain ⟨shifted, found, sameEmpty, texts⟩ := shift_numberedColumns count plain numbered
  refine ⟨shifted, found, ?_⟩
  rw [whereClause, whereClause, sameEmpty]
  split
  · rfl
  · rw [Sql.render_cons, Sql.render_cons, String.toList_append, String.toList_append, texts]
    exact (shiftPlaceholders_text count (by decide) _).symm

/-! ## The filters of a select and of a write -/

/-- A filter whose column the builders refuse. -/
def Rejected (known : Option (List String)) (filter : Filter) : Prop :=
  ∀ quoted, validateColumn filter.column known ≠ .ok quoted

theorem rejected_iff {known : Option (List String)} {filter : Filter} :
    Rejected known filter ↔ ∃ error, columnPiece filter.column known = .error error := by
  rw [Rejected, columnPiece]
  cases validateColumn filter.column known with
  | ok quoted => simp [bind, Except.bind]
  | error error => simp [bind, Except.bind]

/-- Both renderings fail at the first rejected column, wherever they count from. -/
theorem filters_rejected {known : Option (List String)} {filters : List Filter} {next : Nat}
    {error : MarretaError}
    (fails : numberedColumns known next (filterColumns filters) = .error error) :
    (∃ filter ∈ filters, Rejected known filter) ∧
      (∀ other, numberedColumns known other (filterColumns filters) = .error error) ∧
      ∀ other, filterClauses known other filters = .error error := by
  induction filters generalizing next with
  | nil => cases fails
  | cons filter filters ih =>
      cases valid : columnPiece filter.column known with
      | error fault =>
          obtain rfl : fault = error := by
            simpa [filterColumns, numberedColumns, valid, bind, Except.bind] using fails
          refine ⟨⟨filter, by simp, (rejected_iff).mpr ⟨fault, valid⟩⟩, fun other => ?_, fun other => ?_⟩
          · simp [filterColumns, numberedColumns, valid, bind, Except.bind]
          · simp [filterClauses, filterClause, valid, bind, Except.bind]
      | ok piece =>
          have later : numberedColumns known (next + 1) (filterColumns filters) = .error error := by
            cases rest : numberedColumns known (next + 1) (filterColumns filters) with
            | error fault =>
                have same : fault = error := by
                  simpa [filterColumns, numberedColumns, valid, bind, Except.bind,
                    show numberedColumns known (next + 1) (List.map _ filters) = _ from rest]
                    using fails
                rw [same]
            | ok clauses =>
                simp [filterColumns, numberedColumns, valid, bind, Except.bind,
                  show numberedColumns known (next + 1) (List.map _ filters) = _ from rest] at fails
          obtain ⟨⟨bad, member, rejected⟩, columns, clauses⟩ := ih later
          refine ⟨⟨bad, List.mem_cons_of_mem _ member, rejected⟩, fun other => ?_, fun other => ?_⟩
          · have rest := columns (other + 1)
            simp [filterColumns, numberedColumns, valid, bind, Except.bind,
              show numberedColumns known (other + 1) (List.map _ filters) = _ from rest]
          · rw [filterClauses]
            have first : ∃ clause, filterClause known other filter = .ok clause := by
              rw [filterClause, valid]
              simp only [bind, Except.bind]
              split <;> exact ⟨_, rfl⟩
            obtain ⟨⟨clause, values⟩, found⟩ := first
            simp [found, bind, Except.bind, clauses]

theorem filters_accepted {known : Option (List String)} {filters : List Filter} {next : Nat}
    {written : List Sql}
    (numbered : numberedColumns known next (filterColumns filters) = .ok written) :
    ∀ filter ∈ filters, ¬ Rejected known filter := by
  induction filters generalizing next written with
  | nil => simp
  | cons filter filters ih =>
      obtain ⟨piece, rest, valid, later, rfl⟩ := (numberedColumns_cons_eq_ok).mp numbered
      intro other member
      rcases List.mem_cons.mp member with rfl | member
      · rw [rejected_iff, valid]
        simp
      · exact ih later other member

theorem filterClauses_ok {known : Option (List String)} {filters : List Filter} {next : Nat}
    {written : List Sql}
    (numbered : numberedColumns known next (filterColumns filters) = .ok written) (other : Nat) :
    ∃ clauses params, filterClauses known other filters = .ok (clauses, params) := by
  induction filters generalizing next written other with
  | nil => exact ⟨[], [], rfl⟩
  | cons filter filters ih =>
      obtain ⟨piece, rest, valid, later, rfl⟩ := (numberedColumns_cons_eq_ok).mp numbered
      have first : ∃ clause values, filterClause known other filter = .ok (clause, values) := by
        rw [filterClause, valid]
        simp only [bind, Except.bind]
        split <;> exact ⟨_, _, rfl⟩
      obtain ⟨clause, values, found⟩ := first
      obtain ⟨clauses, params, tail⟩ := ih later (other + values.length)
      exact ⟨clause :: clauses, values ++ params, by
        simp [filterClauses, found, tail, bind, Except.bind]⟩

theorem filterClause_in {known : Option (List String)} {filter : Filter} {piece : SqlPiece}
    (valid : columnPiece filter.column known = .ok piece) (listed : filter.op = .in)
    (next : Nat) :
    ∃ list values, filterClause known next filter =
      .ok ([piece, .text (" IN (" ++ list ++ ")")], values) := by
  rw [filterClause, valid, listed]
  cases filter.value <;> exact ⟨_, _, rfl⟩

theorem filterClause_plain {known : Option (List String)} {filter : Filter} {piece : SqlPiece}
    (valid : columnPiece filter.column known = .ok piece) (other : filter.op ≠ .in)
    (next : Nat) :
    filterClause known next filter =
      .ok (numberedClause piece filter.op.toSql next, [filter.value]) := by
  rw [filterClause, valid]
  cases op : filter.op <;> simp_all [bind, Except.bind, numberedClause]

theorem filterClauses_plain {known : Option (List String)} {filters : List Filter}
    (plain : ∀ filter ∈ filters, filter.op ≠ .in) {next : Nat} {clauses : List Sql}
    (numbered : numberedColumns known next (filterColumns filters) = .ok clauses) :
    filterClauses known next filters = .ok (clauses, filters.map (·.value)) := by
  induction filters generalizing next clauses with
  | nil =>
      obtain rfl : [] = clauses := Except.ok.inj numbered
      rfl
  | cons filter filters ih =>
      obtain ⟨piece, rest, valid, later, rfl⟩ := (numberedColumns_cons_eq_ok).mp numbered
      have found := filterClause_plain valid (plain filter (by simp)) next
      rw [filterClauses, found]
      have tail := ih (fun filter member => plain filter (List.mem_cons_of_mem _ member)) later
      simp [bind, Except.bind, tail]

/-- With a list filter, or any filter that uses `in`, the texts part where the
select opens a bracket and the write puts a placeholder. -/
theorem filterClauses_in {known : Option (List String)} {filters : List Filter}
    (listed : ∃ filter ∈ filters, filter.op = .in) {next : Nat} {written : List Sql}
    (numbered : numberedColumns known next (filterColumns filters) = .ok written) :
    ∃ clauses params start one other, filterClauses known next filters = .ok (clauses, params) ∧
      clauses.isEmpty = false ∧ written.isEmpty = false ∧
      (Sql.joined " AND " clauses).render.toList = start ++ '(' :: one ∧
      (Sql.joined " AND " written).render.toList = start ++ '$' :: other := by
  induction filters generalizing next written with
  | nil => simp at listed
  | cons filter filters ih =>
      obtain ⟨piece, rest, valid, later, rfl⟩ := (numberedColumns_cons_eq_ok).mp numbered
      by_cases own : filter.op = .in
      · obtain ⟨list, values, found⟩ := filterClause_in valid own next
        obtain ⟨clauses, params, tail⟩ := filterClauses_ok later (next + values.length)
        have select : ∃ one, (Sql.joined " AND "
            ([piece, .text (" IN (" ++ list ++ ")")] :: clauses)).render.toList =
              (Sql.pieceText piece).toList ++ " IN ".toList ++ '(' :: one := by
          rw [Sql.joined_cons, Sql.render_append, Sql.render_cons, Sql.render_cons]
          exact ⟨_, by simp [Sql.pieceText]; rfl⟩
        have write : ∃ other, (Sql.joined " AND "
            (numberedClause piece filter.op.toSql next :: rest)).render.toList =
              (Sql.pieceText piece).toList ++ " IN ".toList ++ '$' :: other := by
          rw [toList_joined_numbered, toList_placeholder, own]
          exact ⟨_, by simp [FilterOp.toSql]; rfl⟩
        obtain ⟨one, select⟩ := select
        obtain ⟨other, write⟩ := write
        refine ⟨_, values ++ params, _, one, other, ?_, rfl, rfl, select, write⟩
        simp [filterClauses, found, tail, bind, Except.bind]
      · have more : ∃ filter ∈ filters, filter.op = .in := by
          obtain ⟨found, member, listed⟩ := listed
          rcases List.mem_cons.mp member with rfl | member
          · exact absurd listed own
          · exact ⟨found, member, listed⟩
        obtain ⟨clauses, params, start, one, two, tail, some, others, select, write⟩ :=
          ih more later
        refine ⟨numberedClause piece filter.op.toSql next :: clauses, [filter.value] ++ params,
          ((Sql.pieceText piece).toList ++ (" " ++ filter.op.toSql ++ " ").toList) ++
            ((placeholder next).toList ++ (" AND ".toList ++ start)), one, two, ?_, rfl, rfl, ?_, ?_⟩
        · simp [filterClauses, filterClause_plain valid own, tail, bind, Except.bind]
        · rw [toList_joined_numbered, some, select]
          simp
        · rw [toList_joined_numbered, others, write]
          simp

/-! ## Writes and selects -/

theorem toList_whereClause {clauses : List Sql} (nonempty : clauses.isEmpty = false) :
    (whereClause clauses).render.toList =
      " WHERE ".toList ++ (Sql.joined " AND " clauses).render.toList := by
  rw [whereClause, nonempty, if_neg (by simp), Sql.render_cons, String.toList_append]
  rfl

/-- A plain read: the table, then the condition. -/
theorem buildSelect_readQuery {query : Query} {clauses : List Sql} {params : List Value}
    (found : filterClauses query.knownColumns 1 query.filters = .ok (clauses, params)) :
    ∃ select, buildSelect (readQuery query) = .ok select ∧ select.params = params ∧
      conditionText query.table select = (whereClause clauses).render.toList := by
  let head : Sql := [.text "SELECT ", .text "*", .text (" FROM " ++ query.table)]
  have builds : buildSelect (readQuery query) =
      .ok { sql := head ++ whereClause clauses, params } := by
    simp [buildSelect, readQuery, selectList, orderClause, boundClause, QueryState.new, found,
      bind, Except.bind, head]
  have text : (Sql.render (head ++ whereClause clauses)).toList =
      ("SELECT * FROM " ++ query.table).toList ++ (whereClause clauses).render.toList := by
    rw [Sql.render_append]
    simp [Sql.render, Sql.pieceText, head]
  refine ⟨_, builds, rfl, ?_⟩
  rw [conditionText, text, List.drop_left]

theorem buildSelect_readQuery_error {query : Query} {error : MarretaError}
    (fails : filterClauses query.knownColumns 1 query.filters = .error error) :
    buildSelect (readQuery query) = .error error := by
  simp [buildSelect, readQuery, selectList, QueryState.new, fails, bind, Except.bind]

theorem plain_filterColumns (filters : List Filter) :
    ∀ column ∈ filterColumns filters, '$' ∉ column.2.toList := by
  intro column member
  obtain ⟨filter, -, rfl⟩ := List.mem_map.mp member
  have signs : ∀ op : FilterOp, '$' ∉ op.toSql.toList := by
    intro op
    cases op <;> decide
  exact signs filter.op

theorem deleteLikeSelect_of_plain {query : Query} {clauses : List Sql}
    (plain : ∀ filter ∈ query.filters, filter.op ≠ .in)
    (numbered : numberedColumns query.knownColumns 1 (filterColumns query.filters) = .ok clauses) :
    SqlStatement.sent <$> deleteStatement query = deleteLikeSelect query := by
  obtain ⟨select, builds, params, condition⟩ :=
    buildSelect_readQuery (filterClauses_plain plain numbered)
  rw [deleteLikeSelect, builds, deleteStatement, buildDelete, numbered]
  simp [bind, Except.bind, Functor.map, Except.map, SqlStatement.sent, params, condition,
    Sql.render_cons, Sql.pieceText]

theorem updateLikeSelect_of_plain {query : Query} (data : DbRow) {clauses : List Sql}
    (plain : ∀ filter ∈ query.filters, filter.op ≠ .in)
    (numbered : numberedColumns query.knownColumns 1 (filterColumns query.filters) = .ok clauses) :
    SqlStatement.sent <$> updateStatement query data = updateLikeSelect query data := by
  obtain ⟨select, builds, params, condition⟩ :=
    buildSelect_readQuery (filterClauses_plain plain numbered)
  obtain ⟨shifted, found, texts⟩ := shift_whereClause (sortedKeys data).length
    (plain_filterColumns query.filters) numbered
  rw [Nat.add_comm] at found
  rw [updateLikeSelect, builds, updateStatement, buildUpdate, found]
  cases numberedColumns query.knownColumns 1 ((sortedKeys data).map fun key => (key, "=")) with
  | error error => rfl
  | ok assigned =>
      simp [bind, Except.bind, Functor.map, Except.map, SqlStatement.sent, params, condition,
        Sql.render_cons, Sql.render_append, Sql.pieceText, texts]

/-- The write terminals select the rows of the read if and only if no filter uses
`in`, or a rejected column makes all three fail. -/
theorem writesLikeSelect_iff (query : Query) (data : DbRow) :
    WritesLikeSelect query data ↔
      (∀ filter ∈ query.filters, filter.op ≠ .in) ∨
        ∃ filter ∈ query.filters, Rejected query.knownColumns filter := by
  cases numbered : numberedColumns query.knownColumns 1 (filterColumns query.filters) with
  | error error =>
      obtain ⟨rejected, columns, clauses⟩ := filters_rejected numbered
      have reads := buildSelect_readQuery_error (clauses 1)
      refine iff_of_true ⟨?_, ?_⟩ (.inr rejected)
      · rw [deleteLikeSelect, reads, deleteStatement, buildDelete, columns]
        rfl
      · rw [updateLikeSelect, reads, updateStatement, buildUpdate, columns]
        cases numberedColumns query.knownColumns 1
          ((sortedKeys data).map fun key => (key, "=")) <;> rfl
  | ok written =>
      have accepted : ¬ ∃ filter ∈ query.filters, Rejected query.knownColumns filter := by
        rintro ⟨filter, member, rejected⟩
        exact filters_accepted numbered filter member rejected
      rw [or_iff_left accepted]
      refine ⟨fun same => ?_, fun plain =>
        ⟨deleteLikeSelect_of_plain plain numbered, updateLikeSelect_of_plain data plain numbered⟩⟩
      by_contra some
      have listed : ∃ filter ∈ query.filters, filter.op = .in := by
        simpa using some
      obtain ⟨clauses, params, start, one, other, found, selects, writes, select, write⟩ :=
        filterClauses_in listed numbered
      obtain ⟨statement, builds, -, condition⟩ := buildSelect_readQuery found
      have texts := same.1
      rw [deleteLikeSelect, builds, deleteStatement, buildDelete, numbered] at texts
      simp only [bind, Except.bind, Functor.map, Except.map, SqlStatement.sent, condition,
        Except.ok.injEq, Prod.mk.injEq, Sql.render_append, String.toList_append,
        toList_whereClause selects, toList_whereClause writes, select, write] at texts
      simp [Sql.render, Sql.pieceText] at texts

/-- `db.users >> in("id", [1, 2]) >> delete`. -/
def listedQuery : Query :=
  { (QueryState.new "users" : Query) with
    filters := [{ column := "id", op := .in, value := .list [.integer 1, .integer 2] }] }

theorem listedQuery_writes_other_rows : ¬ WritesLikeSelect listedQuery [] := by
  rintro ⟨deletes, -⟩
  have texts := congrArg (fun sent => (sent.map Prod.fst).toOption) deletes
  have write : ((SqlStatement.sent <$> deleteStatement listedQuery).map Prod.fst).toOption =
      some "DELETE FROM users WHERE \"id\" IN $1".toList := by decide +kernel
  have read : ((deleteLikeSelect listedQuery).map Prod.fst).toOption =
      some "DELETE FROM users WHERE \"id\" IN ($1, $2)".toList := by decide +kernel
  simp only [write, read] at texts
  exact absurd texts (by decide)

end Marreta
