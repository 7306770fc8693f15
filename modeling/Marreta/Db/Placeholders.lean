import Marreta.Db.Selection

namespace Marreta

open Foundation

/-! The placeholders of a select.

Every filter numbers its parameters from the length of the parameter list on, and pushes
its values to the same list.  Text and list stay aligned, except for what the table and the
joins splice into the text. -/

/-! ## Placeholders of a text -/

/-- The numbers of the placeholders of a text, from left to right. -/
def placeholdersIn : List Char → List Nat
  | [] => []
  | ch :: rest =>
      if ch = '$' then
        match rest.takeWhile Char.isDigit with
        | [] => placeholdersIn rest
        | digits => digitsNumber digits :: placeholdersIn rest
      else placeholdersIn rest

example : placeholdersIn "a = $1 AND b IN ($2, $13) $".toList = [1, 2, 13] := by decide

/-- The text does not go on with a number. -/
def Apart (text : List Char) : Prop :=
  ∀ ch ∈ text.head?, ch.isDigit = false

theorem Apart.append {text rest : List Char} (first : Apart text) (second : Apart rest) :
    Apart (text ++ rest) := by
  cases text with
  | nil => exact second
  | cons ch text => exact first

theorem apart_mark {mark : List Char} (opens : (mark.head?.any fun ch => !ch.isDigit) = true)
    (text : List Char) : Apart (mark ++ text) := by
  cases mark with
  | nil => cases opens
  | cons first mark =>
      intro ch found
      obtain rfl := Option.some.inj found
      simpa using opens

theorem placeholdersIn_plain {text : List Char} (plain : '$' ∉ text) (rest : List Char) :
    placeholdersIn (text ++ rest) = placeholdersIn rest := by
  induction text with
  | nil => rfl
  | cons ch text ih =>
      have other : ch ≠ '$' := fun same => plain (by simp [same])
      rw [List.cons_append, placeholdersIn, if_neg other]
      exact ih fun member => plain (List.mem_cons_of_mem _ member)

theorem takeWhile_apart {text rest : List Char} (apart : Apart rest) :
    (text ++ rest).takeWhile Char.isDigit = text.takeWhile Char.isDigit := by
  induction text with
  | nil =>
      cases rest with
      | nil => rfl
      | cons ch rest =>
          have stops : ch.isDigit = false := apart ch rfl
          simp [stops]
  | cons ch text ih =>
      rw [List.cons_append, List.takeWhile_cons, List.takeWhile_cons, ih]

theorem placeholdersIn_append (text : List Char) {rest : List Char} (apart : Apart rest) :
    placeholdersIn (text ++ rest) = placeholdersIn text ++ placeholdersIn rest := by
  induction text with
  | nil => rfl
  | cons ch text ih =>
      rw [List.cons_append, placeholdersIn, placeholdersIn, takeWhile_apart apart, ih]
      split
      · split
        · rfl
        · rfl
      · rfl

theorem placeholdersIn_placeholder (index : Nat) {rest : List Char} (apart : Apart rest) :
    placeholdersIn ((placeholder index).toList ++ rest) = index :: placeholdersIn rest := by
  have digits : ∀ ch ∈ Nat.toDigits 10 index, ch.isDigit = true :=
    fun ch member => Nat.isDigit_of_mem_toDigits (by decide) (by decide) member
  have plain : '$' ∉ Nat.toDigits 10 index := fun member => absurd (digits _ member) (by decide)
  have number : (Nat.toDigits 10 index ++ rest).takeWhile Char.isDigit =
      Nat.toDigits 10 index := by
    rw [takeWhile_apart apart, List.takeWhile_eq_self_iff]
    exact digits
  rw [toList_placeholder, List.cons_append, placeholdersIn, if_pos rfl, number,
    placeholdersIn_plain plain]
  split
  · rename_i empty
    exact absurd empty Nat.toDigits_ne_nil
  · simp [digitsNumber]

/-! ## The property -/

/-- The values that a filter binds. -/
def boundValues (filter : Filter) : List Value :=
  match filter.op, filter.value with
  | .in, .list items => items
  | _, value => [value]

/-- The same filters with other values, list for list of one length. -/
def SameFilterShape (filter other : Filter) : Prop :=
  other.column = filter.column ∧ other.op = filter.op ∧
    (boundValues other).length = (boundValues filter).length

/-- The placeholders count the parameters, the parameters are the values of the filters, and
the text says nothing about the values. -/
structure BoundInOrder (query : Query) (statement : SqlStatement) : Prop where
  counted : placeholdersIn statement.sql.render.toList = List.range' 1 statement.params.length
  bound : statement.params = query.filters.flatMap boundValues
  unrendered : ∀ filters, List.Forall₂ SameFilterShape query.filters filters →
    buildSelect { query with filters } =
      .ok { sql := statement.sql, params := filters.flatMap boundValues }

/-- The names that a select splices as they are. -/
def splicedNames (query : Query) : List String :=
  query.table :: query.joins.flatMap fun join => [join.table, join.on]

/-! ## Filters -/

/-- A filter rendered for a number of values. -/
def clauseOf (column : SqlPiece) (op : FilterOp) (next count : Nat) : Sql :=
  match op with
  | .in => [column, .text (" IN (" ++
      String.intercalate ", " ((List.range count).map fun index => placeholder (next + index)) ++
        ")")]
  | op => [column, .text (" " ++ op.toSql ++ " " ++ placeholder next)]

theorem filterClause_eq_clauseOf (known : Option (List String)) (next : Nat) (filter : Filter) :
    filterClause known next filter = (columnPiece filter.column known).map fun column =>
      (clauseOf column filter.op next (boundValues filter).length, boundValues filter) := by
  rw [filterClause]
  obtain ⟨column, op, value⟩ := filter
  cases columnPiece column known with
  | error fault => rfl
  | ok piece =>
      cases op with
      | «in» =>
          cases value with
          | list items => rfl
          | _ => simp [clauseOf, boundValues, bind, Except.bind, Except.map]
      | _ => rfl

theorem plain_toSql (op : FilterOp) : '$' ∉ (" " ++ op.toSql ++ " ").toList := by
  cases op <;> decide

/-- The placeholders of a list, numbered from `next` on. -/
theorem placeholdersIn_list (next count : Nat) {rest : List Char} (apart : Apart rest) :
    placeholdersIn ((String.intercalate ", "
      ((List.range count).map fun index => placeholder (next + index))).toList ++ rest) =
        List.range' next count ++ placeholdersIn rest := by
  have numbers : (List.range count).map (fun index => placeholder (next + index)) =
      (List.range' next count).map placeholder := by
    rw [List.range'_eq_map_range, List.map_map]
    rfl
  rw [numbers]
  clear numbers
  induction count generalizing next with
  | zero => rfl
  | succ count ih =>
      rw [List.range'_succ, List.map_cons]
      cases count with
      | zero =>
          simp only [List.range'_zero, List.map_nil, String.intercalate_singleton]
          exact placeholdersIn_placeholder next apart
      | succ count =>
          have split : String.intercalate ", "
              (placeholder next :: (List.range' (next + 1) (count + 1)).map placeholder) =
                placeholder next ++ (", " ++ String.intercalate ", "
                  ((List.range' (next + 1) (count + 1)).map placeholder)) := by
            rw [List.range'_succ, List.map_cons, String.intercalate_cons_cons, String.append_assoc]
          rw [split, String.toList_append, String.toList_append, List.append_assoc,
            List.append_assoc, placeholdersIn_placeholder next, placeholdersIn_plain (by decide),
            ih (next + 1)]
          · rfl
          · exact apart_mark (by decide) _

theorem placeholdersIn_clauseOf {column : SqlPiece} (plain : '$' ∉ (Sql.pieceText column).toList)
    (filter : Filter) (next : Nat) {rest : List Char} (apart : Apart rest) :
    placeholdersIn ((clauseOf column filter.op next (boundValues filter).length).render.toList ++
      rest) = List.range' next (boundValues filter).length ++ placeholdersIn rest := by
  obtain ⟨name, op, value⟩ := filter
  have compared (single : (boundValues ⟨name, op, value⟩).length = 1) :
      placeholdersIn ((Sql.render [column, .text (" " ++ op.toSql ++ " " ++ placeholder next)]).toList
        ++ rest) = List.range' next (boundValues ⟨name, op, value⟩).length ++
          placeholdersIn rest := by
    rw [single, Sql.render_cons, Sql.render_cons, String.toList_append, List.append_assoc,
      placeholdersIn_plain plain, String.toList_append, Sql.pieceText, String.toList_append,
      List.append_assoc, List.append_assoc, placeholdersIn_plain (plain_toSql op),
      placeholdersIn_placeholder next]
    · rfl
    · exact apart
  cases op with
  | «in» =>
      rw [clauseOf, Sql.render_cons, Sql.render_cons, String.toList_append, List.append_assoc,
        placeholdersIn_plain plain, String.toList_append, Sql.pieceText, String.toList_append,
        String.toList_append, List.append_assoc, List.append_assoc, List.append_assoc,
        placeholdersIn_plain (by decide), placeholdersIn_list next _ (apart_mark (by decide) _),
        placeholdersIn_plain (by decide)]
      rfl
  | _ => exact compared rfl

/-- The clauses of filters are told from their columns, operators and numbers of values. -/
theorem filterClauses_cons_eq_ok {known : Option (List String)} {next : Nat} {filter : Filter}
    {filters : List Filter} {clauses : List Sql} {params : List Value} :
    filterClauses known next (filter :: filters) = .ok (clauses, params) ↔
      ∃ column rest more, columnPiece filter.column known = .ok column ∧
        filterClauses known (next + (boundValues filter).length) filters = .ok (rest, more) ∧
        clauses = clauseOf column filter.op next (boundValues filter).length :: rest ∧
        params = boundValues filter ++ more := by
  rw [filterClauses, filterClause_eq_clauseOf]
  cases columnPiece filter.column known with
  | error fault => simp [Except.map, bind, Except.bind]
  | ok column =>
      simp only [Except.map, bind, Except.bind]
      cases filterClauses known (next + (boundValues filter).length) filters with
      | error fault => simp
      | ok result =>
          simp only [Except.ok.injEq, Prod.mk.injEq]
          constructor
          · rintro ⟨rfl, rfl⟩
            exact ⟨column, result.1, result.2, rfl, rfl, rfl, rfl⟩
          · rintro ⟨_, rest, more, rfl, rfl, rfl, rfl⟩
            exact ⟨rfl, rfl⟩

theorem filterClauses_bound {known : Option (List String)} {next : Nat} {filters : List Filter}
    {clauses : List Sql} {params : List Value}
    (built : filterClauses known next filters = .ok (clauses, params)) :
    params = filters.flatMap boundValues := by
  induction filters generalizing next clauses params with
  | nil =>
      cases built
      rfl
  | cons filter filters ih =>
      obtain ⟨column, rest, more, -, later, -, rfl⟩ := (filterClauses_cons_eq_ok).mp built
      rw [List.flatMap_cons, ih later]

theorem filterClauses_counted {known : Option (List String)} {next : Nat} {filters : List Filter}
    {clauses : List Sql} {params : List Value}
    (built : filterClauses known next filters = .ok (clauses, params)) {rest : List Char}
    (apart : Apart rest) :
    placeholdersIn ((Sql.joined " AND " clauses).render.toList ++ rest) =
      List.range' next params.length ++ placeholdersIn rest := by
  induction filters generalizing next clauses params with
  | nil =>
      cases built
      rfl
  | cons filter filters ih =>
      obtain ⟨column, others, more, valid, later, rfl, rfl⟩ := (filterClauses_cons_eq_ok).mp built
      have plain := columnPiece_plain valid
      have tail := ih later
      rw [Sql.joined_cons, Sql.render_append, String.toList_append, List.append_assoc,
        placeholdersIn_clauseOf plain filter next, List.length_append, ← List.range'_append_1,
        List.append_assoc, ← tail]
      · congr 1
        split
        · rename_i empty
          rw [List.isEmpty_iff.mp empty]
          rfl
        · rw [Sql.render_cons, String.toList_append, List.append_assoc, Sql.pieceText,
            placeholdersIn_plain (by decide)]
      · split
        · exact apart
        · rw [Sql.render_cons, String.toList_append, List.append_assoc]
          exact apart_mark (by decide) _

theorem filterClauses_unrendered {known : Option (List String)} {next : Nat}
    {filters others : List Filter} {clauses : List Sql} {params : List Value}
    (built : filterClauses known next filters = .ok (clauses, params))
    (shapes : List.Forall₂ SameFilterShape filters others) :
    filterClauses known next others = .ok (clauses, others.flatMap boundValues) := by
  induction shapes generalizing next clauses params with
  | nil =>
      cases built
      rfl
  | @cons filter other filters others shape shapes ih =>
      obtain ⟨column, rest, more, valid, later, rfl, rfl⟩ := (filterClauses_cons_eq_ok).mp built
      obtain ⟨sameColumn, sameOp, sameCount⟩ := shape
      refine (filterClauses_cons_eq_ok).mpr ⟨column, rest, others.flatMap boundValues, ?_, ?_, ?_, ?_⟩
      · rw [sameColumn]
        exact valid
      · rw [sameCount]
        exact ih later
      · rw [sameOp, sameCount]
      · rw [List.flatMap_cons]

/-! ## The rest of the text -/

/-- The statement has no placeholder and can stand after one. -/
structure Quiet (sql : Sql) : Prop where
  plain : '$' ∉ sql.render.toList
  apart : Apart sql.render.toList

theorem quiet_nil : Quiet [] :=
  ⟨List.not_mem_nil, nofun⟩

theorem plain_joined {separator : String} (apart : '$' ∉ separator.toList) {parts : List Sql}
    (plain : ∀ part ∈ parts, '$' ∉ part.render.toList) :
    '$' ∉ (Sql.joined separator parts).render.toList := by
  induction parts with
  | nil => exact List.not_mem_nil
  | cons part parts ih =>
      have first := plain part List.mem_cons_self
      have later := ih fun other member => plain other (List.mem_cons_of_mem _ member)
      rw [Sql.joined_cons, Sql.render_append, String.toList_append, List.mem_append, not_or]
      refine ⟨first, ?_⟩
      split
      · exact List.not_mem_nil
      · rw [Sql.render_cons, String.toList_append, List.mem_append, not_or]
        exact ⟨apart, later⟩

theorem columnPiece_ensures_plain (raw : String) (known : Option (List String)) :
    Ensures (fun piece => '$' ∉ (Sql.pieceText piece).toList) (fun _ => True)
      (columnPiece raw known) := by
  cases made : columnPiece raw known with
  | error fault => exact trivial
  | ok piece => exact columnPiece_plain made

theorem selectList_ensures_plain (query : Query) :
    Ensures (fun select => '$' ∉ (Sql.render select).toList) (fun _ => True)
      (selectList query) := by
  unfold selectList
  split
  · exact (by decide : '$' ∉ (Sql.render [.text "COUNT(*) AS count"]).toList)
  split
  · exact (by decide : '$' ∉ (Sql.render [.text "*"]).toList)
  · apply Ensures.bind (Ensures.mapM fun column _ => columnPiece_ensures_plain column _)
    intro columns plain
    apply plain_joined (by decide)
    intro part member
    obtain ⟨piece, inside, rfl⟩ := List.mem_map.mp member
    simpa [Sql.render] using plain piece inside

theorem plain_direction {direction : List Char} (valid : isDirection direction = true) :
    '$' ∉ direction := by
  intro member
  have upper : '$' ∈ direction.map Char.toUpper := List.mem_map.mpr ⟨'$', member, by decide⟩
  simp only [isDirection, Bool.or_eq_true, decide_eq_true_eq] at valid
  rcases valid with same | same
  · rw [same] at upper
    exact absurd upper (by decide)
  · rw [same] at upper
    exact absurd upper (by decide)

theorem orderPart_ensures_plain (known : Option (List String)) (part : List Char) :
    Ensures (fun sql => '$' ∉ (Sql.render sql).toList) (fun _ => True) (orderPart known part) := by
  unfold orderPart
  split
  · apply (columnPiece_ensures_plain _ known).bind
    intro piece plain
    simpa [Sql.render] using plain
  · split
    · rename_i direction
      apply (columnPiece_ensures_plain _ known).bind
      intro piece plain
      simpa [Sql.render, Sql.pieceText] using ⟨plain, plain_direction direction⟩
    · exact trivial
  · exact trivial

theorem buildOrderBy_ensures_plain (order : String) (known : Option (List String)) :
    Ensures (fun sql => '$' ∉ (Sql.render sql).toList) (fun _ => True)
      (buildOrderBy order known) := by
  apply Ensures.bind (Ensures.mapM fun part _ => orderPart_ensures_plain known part)
  intro parts plain
  exact @plain_joined ", " (by decide) parts plain

theorem orderClause_ensures_quiet (query : Query) :
    Ensures Quiet (fun _ => True) (orderClause query) := by
  unfold orderClause
  split
  · exact quiet_nil
  · apply (buildOrderBy_ensures_plain _ _).bind
    intro order plain
    constructor
    · rw [Sql.render_cons, String.toList_append, List.mem_append, not_or]
      exact ⟨by decide, plain⟩
    · rw [Sql.render_cons, String.toList_append]
      exact apart_mark (by decide) _

theorem plain_number (bound : Int64) : '$' ∉ (toString bound).toList := by
  have digits (number : Nat) : '$' ∉ number.repr.toList := by
    intro member
    rw [Nat.toList_repr] at member
    exact absurd (Nat.isDigit_of_mem_toDigits (by decide) (by decide) member) (by decide)
  change '$' ∉ (toString bound.toInt).toList
  rw [Int.toString_eq_repr, Int.repr_eq_if]
  split
  · exact digits _
  · rw [String.toList_append, List.mem_append, not_or]
    exact ⟨by decide, digits _⟩

theorem quiet_boundClause {keyword : String} (plain : '$' ∉ keyword.toList)
    (apart : ∀ text, Apart (keyword.toList ++ text)) (bound : Option Int64) :
    Quiet (boundClause keyword bound) := by
  cases bound with
  | none => exact quiet_nil
  | some bound =>
      have text : (Sql.render (boundClause keyword (some bound))).toList =
          keyword.toList ++ (toString bound).toList := by
        simp [boundClause, Sql.render, Sql.pieceText]
      constructor
      · rw [text, List.mem_append, not_or]
        exact ⟨plain, plain_number bound⟩
      · rw [text]
        exact apart _

/-- What the table and the joins splice into the text. -/
theorem placeholdersIn_joins (table : String) (joins : List JoinClause) {rest : List Char}
    (apart : Apart rest) :
    Apart ((Sql.render (joins.flatMap (joinClause table))).toList ++ rest) ∧
    placeholdersIn ((Sql.render (joins.flatMap (joinClause table))).toList ++ rest) =
      (joins.flatMap fun join =>
        placeholdersIn join.table.toList ++ (placeholdersIn table.toList ++
          (placeholdersIn join.on.toList ++ placeholdersIn join.table.toList))) ++
        placeholdersIn rest := by
  induction joins with
  | nil => exact ⟨apart, rfl⟩
  | cons join joins ih =>
      obtain ⟨below, counted⟩ := ih
      have text : (Sql.render ((join :: joins).flatMap (joinClause table))).toList ++ rest =
          (" " ++ joinKeyword join.kind ++ " ").toList ++ (join.table.toList ++ (" ON ".toList ++
            (table.toList ++ (".".toList ++ (join.on.toList ++ (" = ".toList ++
              (join.table.toList ++ (".id".toList ++
                ((Sql.render (joins.flatMap (joinClause table))).toList ++ rest))))))))) := by
        rw [List.flatMap_cons, Sql.render_append]
        simp [joinClause, Sql.render, Sql.pieceText]
      have keyword : '$' ∉ (" " ++ joinKeyword join.kind ++ " ").toList := by
        cases join.kind <;> decide
      rw [text]
      constructor
      · apply apart_mark
        cases join.kind <;> decide
      · rw [placeholdersIn_plain keyword, placeholdersIn_append join.table.toList (apart_mark (by decide) _),
          placeholdersIn_plain (by decide), placeholdersIn_append table.toList (apart_mark (by decide) _),
          placeholdersIn_plain (by decide), placeholdersIn_append join.on.toList (apart_mark (by decide) _),
          placeholdersIn_plain (by decide), placeholdersIn_append join.table.toList (apart_mark (by decide) _),
          placeholdersIn_plain (by decide), counted, List.flatMap_cons]
        simp only [List.append_assoc]

/-! ## Selects -/

theorem buildSelect_eq_ok {query : Query} {statement : SqlStatement} :
    buildSelect query = .ok statement ↔
      ∃ select clauses params order, selectList query = .ok select ∧
        filterClauses query.knownColumns 1 query.filters = .ok (clauses, params) ∧
        orderClause query = .ok order ∧
        statement = ⟨[.text "SELECT "] ++ select ++ [.text (" FROM " ++ query.table)] ++
          query.joins.flatMap (joinClause query.table) ++ whereClause clauses ++ order ++
          boundClause " LIMIT " query.limit ++ boundClause " OFFSET " query.offset, params⟩ := by
  simp only [buildSelect, bind_eq_ok, Prod.exists, Except.ok.injEq]
  constructor
  · rintro ⟨select, listed, clauses, params, filtered, order, ordered, rfl⟩
    exact ⟨select, clauses, params, order, listed, filtered, ordered, rfl⟩
  · rintro ⟨select, clauses, params, order, listed, filtered, ordered, rfl⟩
    exact ⟨select, listed, clauses, params, filtered, order, ordered, rfl⟩

theorem placeholdersIn_whereClause {known : Option (List String)} {filters : List Filter}
    {clauses : List Sql} {params : List Value}
    (built : filterClauses known 1 filters = .ok (clauses, params)) {rest : List Char}
    (apart : Apart rest) :
    Apart ((whereClause clauses).render.toList ++ rest) ∧
    placeholdersIn ((whereClause clauses).render.toList ++ rest) =
      List.range' 1 params.length ++ placeholdersIn rest := by
  have counted := filterClauses_counted built apart
  unfold whereClause
  split
  · rename_i empty
    rw [List.isEmpty_iff.mp empty] at counted
    exact ⟨apart, counted⟩
  · rw [Sql.render_cons, String.toList_append, List.append_assoc]
    refine ⟨apart_mark (by decide) _, ?_⟩
    rw [Sql.pieceText, placeholdersIn_plain (by decide), counted]

/-- The placeholders of the names that a select splices. -/
def splicedPlaceholders (query : Query) : List Nat :=
  placeholdersIn query.table.toList ++ query.joins.flatMap fun join =>
    placeholdersIn join.table.toList ++ (placeholdersIn query.table.toList ++
      (placeholdersIn join.on.toList ++ placeholdersIn join.table.toList))

theorem placeholdersIn_buildSelect {query : Query} {statement : SqlStatement}
    (built : buildSelect query = .ok statement) :
    placeholdersIn statement.sql.render.toList =
      splicedPlaceholders query ++ List.range' 1 statement.params.length := by
  obtain ⟨select, clauses, params, order, listed, filtered, ordered, rfl⟩ :=
    (buildSelect_eq_ok).mp built
  have plainSelect : '$' ∉ (Sql.render select).toList := by
    have ensured := selectList_ensures_plain query
    rw [listed] at ensured
    exact ensured
  have quietOrder : Quiet order := by
    have ensured := orderClause_ensures_quiet query
    rw [ordered] at ensured
    exact ensured
  have quietLimit := @quiet_boundClause " LIMIT " (by decide) (apart_mark (by decide)) query.limit
  have quietOffset :=
    @quiet_boundClause " OFFSET " (by decide) (apart_mark (by decide)) query.offset
  have ending := quietOrder.apart.append (quietLimit.apart.append quietOffset.apart)
  obtain ⟨apartWhere, countedWhere⟩ := placeholdersIn_whereClause filtered ending
  obtain ⟨apartJoins, countedJoins⟩ := placeholdersIn_joins query.table query.joins apartWhere
  have last : placeholdersIn ((boundClause " OFFSET " query.offset).render.toList) = [] := by
    rw [← List.append_nil (Sql.render _).toList, placeholdersIn_plain quietOffset.plain]
    rfl
  simp only [Sql.render_append, String.toList_append, List.append_assoc]
  have opening : (Sql.render [.text "SELECT "]).toList = "SELECT ".toList := by rfl
  have from_ : (Sql.render [.text (" FROM " ++ query.table)]).toList =
      " FROM ".toList ++ query.table.toList := by
    simp [Sql.render, Sql.pieceText]
  rw [opening, from_, List.append_assoc, placeholdersIn_plain (by decide),
    placeholdersIn_plain plainSelect, placeholdersIn_plain (by decide),
    placeholdersIn_append query.table.toList apartJoins, countedJoins, countedWhere,
    placeholdersIn_plain quietOrder.plain, placeholdersIn_plain quietLimit.plain, last,
    List.append_nil, splicedPlaceholders, List.append_assoc]

theorem splicedPlaceholders_eq_nil (query : Query) :
    splicedPlaceholders query = [] ↔
      ∀ name ∈ splicedNames query, placeholdersIn name.toList = [] := by
  simp only [splicedPlaceholders, splicedNames, List.append_eq_nil_iff, List.flatMap_eq_nil_iff,
    List.forall_mem_cons, List.mem_flatMap]
  constructor
  · rintro ⟨table, joins⟩
    refine ⟨table, ?_⟩
    rintro name ⟨join, member, inside⟩
    obtain ⟨joined, -, on, -⟩ := joins join member
    rcases List.mem_cons.mp inside with rfl | inside
    · exact joined
    · obtain rfl := List.mem_singleton.mp inside
      exact on
  · rintro ⟨table, names⟩
    refine ⟨table, fun join member => ?_⟩
    have joined := names join.table ⟨join, member, List.mem_cons_self⟩
    have on := names join.on ⟨join, member, List.mem_cons_of_mem _ List.mem_cons_self⟩
    exact ⟨joined, table, on, joined⟩

/-- The placeholders of a select are in order if and only if no spliced name has one. -/
theorem boundInOrder_iff {query : Query} {statement : SqlStatement}
    (built : buildSelect query = .ok statement) :
    BoundInOrder query statement ↔
      ∀ name ∈ splicedNames query, placeholdersIn name.toList = [] := by
  have counted := placeholdersIn_buildSelect built
  rw [← splicedPlaceholders_eq_nil]
  constructor
  · intro bound
    rw [bound.counted] at counted
    exact List.append_left_eq_self.mp counted.symm
  · intro none
    rw [none, List.nil_append] at counted
    obtain ⟨select, clauses, params, order, listed, filtered, ordered, rfl⟩ :=
      buildSelect_eq_ok.mp built
    refine ⟨counted, filterClauses_bound filtered, fun filters shapes => ?_⟩
    exact buildSelect_eq_ok.mpr ⟨select, clauses, filters.flatMap boundValues, order, listed,
      filterClauses_unrendered filtered shapes, ordered, rfl⟩

/-- Orders of one user, by status. -/
def statusQuery : Query :=
  { (QueryState.new "orders" : Query) with
    filters := [⟨"user_id", .eq, .integer 7⟩,
      ⟨"status", .in, .list [.string "open", .string "paid"]⟩] }

/-- A join with a name of the form of a placeholder. -/
def dollarQuery : Query :=
  { (QueryState.new "orders" : Query) with
    joins := [⟨.inner, "users$1", "user_id"⟩], filters := [⟨"id", .eq, .integer 7⟩] }

/-- What is built for the two queries. -/
theorem queries_built :
    (buildSelect statusQuery).isOk = true ∧
      (buildSelect dollarQuery).toOption.map (fun statement =>
        (placeholdersIn statement.sql.render.toList, statement.params.length)) =
          some ([1, 1, 1], 1) := by
  decide +kernel

theorem statusQuery_bound :
    ∃ statement, buildSelect statusQuery = .ok statement ∧ BoundInOrder statusQuery statement ∧
      statement.params.length = 3 := by
  obtain ⟨statement, built⟩ : ∃ statement, buildSelect statusQuery = .ok statement :=
    returns_of_isOk queries_built.1
  have bound : BoundInOrder statusQuery statement := (boundInOrder_iff built).mpr (by decide)
  refine ⟨statement, built, bound, ?_⟩
  rw [bound.bound]
  decide

theorem dollarQuery_unordered :
    ∃ statement, buildSelect dollarQuery = .ok statement ∧
      placeholdersIn statement.sql.render.toList = [1, 1, 1] ∧
      ¬ BoundInOrder dollarQuery statement := by
  have evaluates := queries_built.2
  cases built : buildSelect dollarQuery with
  | error fault => rw [built] at evaluates; cases evaluates
  | ok statement =>
      rw [built] at evaluates
      obtain ⟨found, count⟩ := Prod.mk.inj (Option.some.inj evaluates)
      refine ⟨statement, rfl, found, fun bound => ?_⟩
      have counted := bound.counted
      rw [found, count] at counted
      exact absurd counted (by decide)

end Marreta
