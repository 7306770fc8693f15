import Marreta.Db.Statements
import Marreta.Doc.Mongo

namespace Marreta

open Foundation

/-! Which rows a bulk write touches.

A write should touch the rows that `fetch` returns for the same chain.  The content of
the database and its way to evaluate conditions and to sort are arbitrary. -/

/-! ## What statements mean -/

/-- A condition a database can parse: `in` wants a list in brackets, every other
operator a single value. -/
def SqlCondition.wellFormed (condition : SqlCondition) : Bool :=
  match condition.op, condition.operand with
  | .in, .listed indexes => !indexes.isEmpty
  | .in, .single _ | _, .listed _ => false
  | _, .single _ => true

/-- The values bound to the placeholders of an operand. -/
def SqlOperand.values (params : List Value) : SqlOperand → List Value
  | .single index => params[index - 1]?.toList
  | .listed indexes => indexes.filterMap fun index => params[index - 1]?

def skipRows {Row : Type} : Option Int64 → List Row → Option (List Row)
  | none, rows => some rows
  | some count, rows => if count < 0 then none else some (rows.drop count.toInt.toNat)

def takeRows {Row : Type} : Option Int64 → List Row → Option (List Row)
  | none, rows => some rows
  | some count, rows => if count < 0 then none else some (rows.take count.toInt.toNat)

/-- The rows between the bounds; a negative bound is an error. -/
def boundedRows {Row : Type} (limit offset : Option Int64) (rows : List Row) :
    Option (List Row) :=
  (skipRows offset rows).bind (takeRows limit)

/-- The content of a relational database and how it evaluates the parts of a
statement.  A result row consists of a row of the table and one of each joined table. -/
structure Database (Row : Type) where
  rows : String → List Row
  /-- The rows of a joined table that belong to a row. -/
  partners : String → JoinClause → List Row → List Row
  /-- The row of nulls that stands for a missing partner. -/
  blank : Row
  holds : SqlPiece → FilterOp → List Value → List Row → Bool
  sort : Sql → List (List Row) → List (List Row)
  sort_perm : ∀ order rows, (sort order rows).Perm rows

namespace Database

variable {Row : Type} (database : Database Row)

def joinRows (table : String) (rows : List (List Row)) (join : JoinClause) :
    List (List Row) :=
  rows.flatMap fun row =>
    match join.kind, database.partners table join row with
    | .left, [] => [row ++ [database.blank]]
    | _, partners => partners.map fun partner => row ++ [partner]

def matching (conditions : List SqlCondition) (params : List Value) (row : List Row) : Bool :=
  conditions.all fun condition =>
    database.holds condition.column condition.op (condition.operand.values params) row

def tableRows (table : String) : List (List Row) :=
  (database.rows table).map fun row => [row]

def ordered : Option Sql → List (List Row) → List (List Row)
  | none, rows => rows
  | some order, rows => database.sort order rows

/-- The rows a select returns, unless the statement is malformed. -/
def select (statement : SelectStatement) (params : List Value) : Option (List (List Row)) :=
  if statement.conditions.all SqlCondition.wellFormed then
    let joined := statement.joins.foldl (database.joinRows statement.table)
      (database.tableRows statement.table)
    let found := joined.filter (database.matching statement.conditions params)
    boundedRows statement.limit statement.offset (database.ordered statement.order found)
  else none

/-- The rows a write changes or removes, unless the statement is malformed. -/
def touch (statement : WriteStatement) (params : List Value) : Option (List (List Row)) :=
  if statement.assigned.all (fun assigned => !assigned.isEmpty) &&
      statement.conditions.all SqlCondition.wellFormed then
    some ((database.tableRows statement.table).filter
      (database.matching statement.conditions params))
  else none

/-- The rows that `fetch` returns for a query. -/
def fetched (query : Query) : Option (List (List Row)) := do
  let (statement, params) ← (readSelect query).toOption
  database.select statement params

/-- The rows that a write terminal touches. -/
def written (query : Query) (write : BulkWrite) : Option (List (List Row)) := do
  let (statement, params) ← (readWrite query write).toOption
  database.touch statement params

end Database

/-! ## Documents -/

inductive DocWrite where
  | update (data : DbRow)
  | upsert (data : DbRow)
  | delete

/-- The change of an update: fields to set, or operators the program gave. -/
inductive MongoUpdate where
  | set (data : DbRow)
  | operators (data : DbRow)

inductive MongoWrite where
  | updateMany (filter : List MongoCondition) (update : MongoUpdate) (upsert : Bool)
  | deleteMany (filter : List MongoCondition)

def queryUpdate (query : DocQuery) (data : DbRow) : MongoWrite :=
  .updateMany (buildQueryFilter query) (.set data) false

def queryUpsert (query : DocQuery) (data : DbRow) : MongoWrite :=
  let update := if (data.get? "$set").isSome || (data.get? "$inc").isSome then
    MongoUpdate.operators data else .set data
  .updateMany (buildQueryFilter query) update true

def queryDelete (query : DocQuery) : MongoWrite :=
  .deleteMany (buildQueryFilter query)

def DocWrite.request (query : DocQuery) : DocWrite → MongoWrite
  | .update data => queryUpdate query data
  | .upsert data => queryUpsert query data
  | .delete => queryDelete query

/-- A skip has to fit a signed number. -/
def skipDocs {Doc : Type} : Option UInt64 → List Doc → Option (List Doc)
  | none, docs => some docs
  | some count, docs => if count.toNat < 2 ^ 63 then some (docs.drop count.toNat) else none

/-- A limit of zero is none, and its sign does not matter. -/
def limitDocs {Doc : Type} : Option Int64 → List Doc → List Doc
  | none, docs => docs
  | some count, docs => if count = 0 then docs else docs.take count.toInt.natAbs

/-- The content of a document database and how it evaluates filters and sorts. -/
structure DocStore (Doc : Type) where
  docs : String → List Doc
  holds : MongoCondition → Doc → Bool
  sort : String → SortDirection → List Doc → List Doc
  sort_perm : ∀ field direction docs, (sort field direction docs).Perm docs

namespace DocStore

variable {Doc : Type} (store : DocStore Doc)

def found (collection : String) (filter : List MongoCondition) : List Doc :=
  (store.docs collection).filter fun doc => filter.all fun condition => store.holds condition doc

/-- The documents in their order. -/
def sorted : Option (String × SortDirection) → List Doc → List Doc
  | none, docs => docs
  | some (field, direction), docs => store.sort field direction docs

/-- The answer to a `find`. -/
def find (collection : String) (filter : List MongoCondition) (options : FindOptions) :
    Option (List Doc) :=
  (skipDocs options.skip (store.sorted options.sort (store.found collection filter))).map
    (limitDocs options.limit)

def fetched (query : DocQuery) : Option (List Doc) :=
  store.find query.collection (buildQueryFilter query) (buildQueryOptions query)

/-- The documents that a write changes or removes, those it inserts apart. -/
def touch (collection : String) : MongoWrite → List Doc
  | .updateMany filter _ _ | .deleteMany filter => store.found collection filter

end DocStore

/-! ## Calls -/

/-- A chain that ends in a write.  The chains of a document query have no grouping
step. -/
inductive BulkCall where
  | db (table : String) (steps : List (Position × QueryStep)) (write : BulkWrite)
  | doc (position : Position) (collection : String)
      (steps : List { step : DocStep // step.isGrouping = false }) (write : DocWrite)

def DocWrite.isUpsert : DocWrite → Bool
  | .upsert _ => true
  | _ => false

/-- A call is rejected before anything is sent, or it touches the rows that `fetch`
returns for the same chain, on every content of the database. -/
def TouchesFetched (columns : String → Option (List String)) : BulkCall → Prop
  | .db table steps write =>
      match runSteps steps (promoteTable columns table) with
      | .error _ => True
      | .ok query =>
          match statementOf (write.terminal.op query) with
          | .error _ => True
          | .ok _ =>
              ∀ {Row : Type} (database : Database Row), ∃ fetched written,
                database.fetched query = some fetched ∧
                database.written query write = some written ∧
                ∀ row, row ∈ written ↔ row ∈ fetched
  | .doc position collection steps write =>
      match runDocSteps position (steps.map Subtype.val) (DocQueryState.new collection) with
      | .error _ => True
      | .ok query =>
          ∀ {Doc : Type} (store : DocStore Doc),
            let written := store.touch query.collection (write.request query)
            (write.isUpsert = true → written ≠ []) →
              ∃ fetched, store.fetched query = some fetched ∧
                ∀ doc, doc ∈ written ↔ doc ∈ fetched

/-! ## When they do -/

/-- A column of the write is refused. -/
def WriteRefused (query : Query) (write : BulkWrite) : Prop :=
  (∃ filter ∈ query.filters, Rejected query.knownColumns filter) ∨
    ∃ data, write = .update data ∧
      ∃ entry ∈ data, ∀ quoted, validateColumn entry.1 query.knownColumns ≠ .ok quoted

/-- The query is one of filters, with columns and an order that are accepted. -/
structure FiltersOnly (query : Query) (write : BulkWrite) : Prop where
  joins : query.joins = []
  limit : query.limit = none
  offset : query.offset = none ∨ query.offset = some 0
  filters : ∀ filter ∈ query.filters, filter.op ≠ .in
  columns : (selectList query).isOk = true
  order : (orderClause query).isOk = true
  assigns : write ≠ .update []

def BulkCall.Bare (columns : String → Option (List String)) : BulkCall → Prop
  | .db table steps write =>
      match runSteps steps (promoteTable columns table) with
      | .error _ => True
      | .ok query => WriteRefused query write ∨ FiltersOnly query write
  | .doc position collection steps _ =>
      match runDocSteps position (steps.map Subtype.val) (DocQueryState.new collection) with
      | .error _ => True
      | .ok query =>
          (query.limit = none ∨ query.limit = some 0) ∧
            (query.offset = none ∨ query.offset = some 0)

/-! ## Conditions of selects and writes -/

section Conditions

variable {known : Option (List String)}

theorem selectCondition_plain {filter : Filter} (plain : filter.op ≠ .in) (next : Nat) :
    selectCondition known next filter =
      (fun column => (⟨column, filter.op, .single next⟩, [filter.value])) <$>
        columnPiece filter.column known := by
  unfold selectCondition
  cases columnPiece filter.column known with
  | error error => rfl
  | ok column =>
      cases op : filter.op with
      | «in» => exact absurd op plain
      | _ => rfl

/-- Without `in`, a select numbers its conditions as a write does. -/
theorem selectConditions_plain {filters : List Filter}
    (plain : ∀ filter ∈ filters, filter.op ≠ .in) (next : Nat) :
    selectConditions known next filters =
      (fun conditions => (conditions, filters.map (·.value))) <$>
        writeConditions known next filters := by
  induction filters generalizing next with
  | nil => rfl
  | cons filter filters induction =>
      have rest := induction (fun other member => plain other (List.mem_cons_of_mem _ member))
      rw [selectConditions, writeConditions, selectCondition_plain (plain filter (by simp))]
      cases columnPiece filter.column known with
      | error error => rfl
      | ok column =>
          simp only [Functor.map, Except.map, bind, Except.bind, List.length_singleton]
          rw [rest (next + 1)]
          cases writeConditions known (next + 1) filters <;> rfl

theorem writeConditions_cons {filter : Filter} {filters : List Filter} {next : Nat}
    {conditions : List SqlCondition}
    (written : writeConditions known next (filter :: filters) = .ok conditions) :
    ∃ column rest, columnPiece filter.column known = .ok column ∧
      writeConditions known (next + 1) filters = .ok rest ∧
      conditions = { column, op := filter.op, operand := .single next } :: rest := by
  rw [writeConditions] at written
  cases valid : columnPiece filter.column known with
  | error error => rw [valid] at written; cases written
  | ok column =>
      cases later : writeConditions known (next + 1) filters with
      | error error => rw [valid] at written; simp [later, bind, Except.bind] at written
      | ok rest =>
          rw [valid] at written
          simp only [later, bind, Except.bind, Except.ok.injEq] at written
          exact ⟨column, rest, rfl, rfl, written.symm⟩

/-- Conditions mean the same wherever their numbers start, as long as the same values
stand there. -/
theorem matching_writeConditions {Row : Type} (database : Database Row) {filters : List Filter}
    {one other : Nat} {conditions others : List SqlCondition} {params more : List Value}
    (written : writeConditions known (one + 1) filters = .ok conditions)
    (again : writeConditions known (other + 1) filters = .ok others)
    (same : params.drop one = more.drop other) :
    database.matching conditions params = database.matching others more := by
  induction filters generalizing one other conditions others with
  | nil =>
      cases written
      cases again
      rfl
  | cons filter filters induction =>
      obtain ⟨column, rest, valid, later, rfl⟩ := writeConditions_cons written
      obtain ⟨otherColumn, otherRest, validAgain, laterAgain, rfl⟩ := writeConditions_cons again
      obtain rfl : column = otherColumn := Except.ok.inj (valid.symm.trans validAgain)
      have tails : params.drop (one + 1) = more.drop (other + 1) := by
        rw [← List.drop_drop, ← List.drop_drop, same]
      have heads : (SqlOperand.single (one + 1)).values params =
          (SqlOperand.single (other + 1)).values more := by
        have first := congrArg (fun values => values[0]?.toList) same
        simpa [SqlOperand.values] using first
      have rests := induction later laterAgain tails
      funext row
      have restRow := congrFun rests row
      rw [Database.matching, Database.matching] at restRow
      rw [Database.matching, Database.matching, List.all_cons, List.all_cons, restRow, heads]

theorem wellFormed_writeConditions {filters : List Filter} {next : Nat}
    {conditions : List SqlCondition} (written : writeConditions known next filters = .ok conditions) :
    conditions.all SqlCondition.wellFormed = true ↔ ∀ filter ∈ filters, filter.op ≠ .in := by
  induction filters generalizing next conditions with
  | nil =>
      cases written
      simp
  | cons filter filters induction =>
      obtain ⟨column, rest, -, later, rfl⟩ := writeConditions_cons written
      have own : SqlCondition.wellFormed
          { column := column, op := filter.op, operand := .single next } = true ↔
            filter.op ≠ .in := by
        cases filter.op <;> simp [SqlCondition.wellFormed]
      rw [List.all_cons, Bool.and_eq_true, own, induction later, List.forall_mem_cons]

theorem writeConditions_ok_iff {filters : List Filter} {next : Nat} :
    (∃ conditions, writeConditions known next filters = .ok conditions) ↔
      ¬ ∃ filter ∈ filters, Rejected known filter := by
  induction filters generalizing next with
  | nil => simp [writeConditions]
  | cons filter filters induction =>
      rw [List.exists_mem_cons_iff, not_or, ← @induction (next + 1), rejected_iff]
      rw [writeConditions]
      cases columnPiece filter.column known with
      | error error => simp [bind, Except.bind]
      | ok column =>
          cases writeConditions known (next + 1) filters <;> simp [bind, Except.bind]

theorem assignedColumns_ok_iff {keys : List String} {next : Nat} :
    (∃ assigned, assignedColumns known next keys = .ok assigned) ↔
      ¬ ∃ key ∈ keys, ∀ quoted, validateColumn key known ≠ .ok quoted := by
  induction keys generalizing next with
  | nil => simp [assignedColumns]
  | cons key keys induction =>
      rw [List.exists_mem_cons_iff, not_or, ← @induction (next + 1)]
      rw [assignedColumns, columnPiece]
      cases validateColumn key known with
      | error error => simp [bind, Except.bind]
      | ok quoted =>
          cases assignedColumns known (next + 1) keys <;> simp [bind, Except.bind]

theorem length_assignedColumns {keys : List String} {next : Nat}
    {assigned : List (SqlPiece × Nat)} (found : assignedColumns known next keys = .ok assigned) :
    assigned.length = keys.length := by
  induction keys generalizing next assigned with
  | nil => cases found; rfl
  | cons key keys induction =>
      rw [assignedColumns] at found
      cases valid : columnPiece key known with
      | error error => rw [valid] at found; cases found
      | ok column =>
          cases later : assignedColumns known (next + 1) keys with
          | error error => rw [valid] at found; simp [later, bind, Except.bind] at found
          | ok rest =>
              rw [valid] at found
              simp only [later, bind, Except.bind, Except.ok.injEq] at found
              rw [← found, List.length_cons, List.length_cons, induction later]

end Conditions

theorem length_sortedValues (data : DbRow) :
    (sortedValues data).length = (sortedKeys data).length := by
  have found : ∀ key ∈ sortedKeys data, (data.lookup key).isSome = true := by
    intro key member
    rw [List.lookup_isSome_iff]
    obtain ⟨entry, inside, rfl⟩ := (mem_sortedKeys data key).mp member
    exact ⟨entry, inside, by simp⟩
  rw [sortedValues, List.length_filterMap_eq_countP, List.countP_eq_length]
  exact found

/-- A write is refused exactly when one of its columns is. -/
theorem readWrite_ok_iff (query : Query) (write : BulkWrite) :
    (∃ read, readWrite query write = .ok read) ↔ ¬ WriteRefused query write := by
  rw [WriteRefused, not_or]
  cases write with
  | delete =>
      rw [← @writeConditions_ok_iff _ _ 1, readWrite]
      cases writeConditions query.knownColumns 1 query.filters <;>
        simp [bind, Except.bind]
  | update data =>
      have keys : (¬ ∃ other, BulkWrite.update data = .update other ∧
          ∃ entry ∈ other, ∀ quoted, validateColumn entry.1 query.knownColumns ≠ .ok quoted) ↔
          ∃ assigned, assignedColumns query.knownColumns 1 (sortedKeys data) = .ok assigned := by
        rw [assignedColumns_ok_iff, not_iff_not]
        constructor
        · rintro ⟨other, same, entry, member, refused⟩
          obtain rfl : data = other := BulkWrite.update.inj same
          exact ⟨entry.1, (mem_sortedKeys data _).mpr ⟨entry, member, rfl⟩, refused⟩
        · rintro ⟨key, member, refused⟩
          obtain ⟨entry, inside, rfl⟩ := (mem_sortedKeys data key).mp member
          exact ⟨data, rfl, entry, inside, refused⟩
      rw [keys, ← @writeConditions_ok_iff _ _ ((sortedKeys data).length + 1), readWrite]
      cases assignedColumns query.knownColumns 1 (sortedKeys data) with
      | error error => simp [bind, Except.bind]
      | ok assigned =>
          cases writeConditions query.knownColumns ((sortedKeys data).length + 1)
            query.filters <;> simp [bind, Except.bind]

/-! ## Bounds -/

section Bounds

variable {Row : Type} {limit offset : Option Int64} {rows kept : List Row}

theorem skipRows_sublist (found : skipRows offset rows = some kept) : kept.Sublist rows := by
  cases offset with
  | none =>
      obtain rfl : rows = kept := Option.some.inj found
      exact .refl _
  | some count =>
      rw [skipRows] at found
      split at found
      · cases found
      · rw [← Option.some.inj found]
        exact List.drop_sublist _ _

theorem takeRows_sublist (found : takeRows limit rows = some kept) : kept.Sublist rows := by
  cases limit with
  | none =>
      obtain rfl : rows = kept := Option.some.inj found
      exact .refl _
  | some count =>
      rw [takeRows] at found
      split at found
      · cases found
      · rw [← Option.some.inj found]
        exact List.take_sublist _ _

theorem boundedRows_sublist (found : boundedRows limit offset rows = some kept) :
    kept.Sublist rows := by
  obtain ⟨rest, skipped, taken⟩ := Option.bind_eq_some_iff.mp found
  exact (takeRows_sublist taken).trans (skipRows_sublist skipped)

theorem skipRows_zero (zero : offset = none ∨ offset = some 0) : skipRows offset rows = some rows := by
  rcases zero with rfl | rfl <;> rfl

/-- The first of some rows is only kept without an offset. -/
theorem offset_of_head {first : Row} (found : skipRows offset [first] = some kept)
    (inside : first ∈ kept) : offset = none ∨ offset = some 0 := by
  cases offset with
  | none => exact .inl rfl
  | some count =>
      right
      rw [skipRows] at found
      split at found
      · cases found
      · rename_i positive
        rw [← Option.some.inj found] at inside
        have bound : ¬ count.toInt < 0 := fun negative =>
          positive (Int64.lt_iff_toInt_lt.mpr negative)
        have value : count.toInt = 0 := by
          by_contra other
          have empty : [first].drop count.toInt.toNat = [] := by
            rw [List.drop_eq_nil_iff, List.length_singleton]
            omega
          rw [empty] at inside
          cases inside
        rw [show count = 0 from Int64.toInt_inj.mp value]

/-- Enough rows are only kept without a limit. -/
theorem limit_of_keeps (build : Nat → Row) (distinct : Function.Injective build)
    (keeps : ∀ count : Nat, ∃ kept,
      takeRows limit ((List.range (count + 1)).map build) = some kept ∧ build count ∈ kept) :
    limit = none := by
  cases limit with
  | none => rfl
  | some bound =>
      obtain ⟨kept, found, last⟩ := keeps bound.toInt.toNat
      rw [takeRows] at found
      split at found
      · cases found
      · rw [← Option.some.inj found, ← List.map_take, List.take_range,
          List.mem_map_of_injective distinct] at last
        simp at last

end Bounds

/-! ## Relational writes -/

theorem readSelect_ok {query : Query} {read : SelectStatement × List Value}
    (found : readSelect query = .ok read) :
    ∃ columns conditions order, selectList query = .ok columns ∧
      selectConditions query.knownColumns 1 query.filters = .ok (conditions, read.2) ∧
      readOrder query = .ok order ∧
      read.1 = { columns, table := query.table, joins := query.joins, conditions, order,
                 limit := query.limit, offset := query.offset } := by
  rw [readSelect] at found
  obtain ⟨columns, selected, found⟩ := bind_eq_ok.mp found
  obtain ⟨⟨conditions, params⟩, filtered, found⟩ := bind_eq_ok.mp found
  obtain ⟨order, ordered, found⟩ := bind_eq_ok.mp found
  rw [← Except.ok.inj found]
  exact ⟨columns, conditions, order, selected, filtered, ordered, rfl⟩

theorem isOk_readOrder (query : Query) :
    (orderClause query).isOk = (readOrder query).isOk := by
  unfold orderClause readOrder
  cases query.orderBy with
  | none => rfl
  | some order =>
      cases built : buildOrderBy order query.knownColumns <;>
        simp [built, bind, Except.bind, Functor.map, Except.map, Except.isOk, Except.toBool]

/-- The conditions of an accepted write, and what is bound before their values. -/
theorem readWrite_ok {query : Query} {write : BulkWrite} {read : WriteStatement × List Value}
    (found : readWrite query write = .ok read) :
    ∃ next conditions, writeConditions query.knownColumns (next + 1) query.filters = .ok conditions ∧
      read.1.table = query.table ∧ read.1.conditions = conditions ∧
      read.2.drop next = query.filters.map (·.value) ∧
      (read.1.assigned.all (fun assigned => !assigned.isEmpty) = true ↔ write ≠ .update []) := by
  cases write with
  | delete =>
      rw [readWrite] at found
      obtain ⟨conditions, written, found⟩ := bind_eq_ok.mp found
      rw [← Except.ok.inj found]
      exact ⟨0, conditions, written, rfl, rfl, rfl, by simp⟩
  | update data =>
      rw [readWrite] at found
      obtain ⟨assigned, keys, found⟩ := bind_eq_ok.mp found
      obtain ⟨conditions, written, found⟩ := bind_eq_ok.mp found
      rw [← Except.ok.inj found]
      refine ⟨(sortedKeys data).length, conditions, written, rfl, rfl, ?_, ?_⟩
      · exact List.drop_left' (length_sortedValues data)
      · have lengths : assigned.length = data.length := by
          rw [length_assignedColumns keys, sortedKeys, List.length_insertionSort, List.length_map]
        cases data with
        | nil => simp [List.length_eq_zero_iff.mp lengths]
        | cons entry rest =>
            cases assigned with
            | nil => simp at lengths
            | cons column others => simp

theorem length_joinRows {Row : Type} (database : Database Row) (table : String)
    (joins : List JoinClause) {rows : List (List Row)} {width : Nat}
    (widths : ∀ row ∈ rows, row.length = width) :
    ∀ row ∈ joins.foldl (database.joinRows table) rows, row.length = width + joins.length := by
  induction joins generalizing rows width with
  | nil => simpa using widths
  | cons join joins induction =>
      have wider : ∀ row ∈ database.joinRows table rows join, row.length = width + 1 := by
        intro row member
        obtain ⟨inner, inside, joined⟩ := List.mem_flatMap.mp member
        have width := widths inner inside
        split at joined
        · rw [List.mem_singleton.mp joined, List.length_append, width]
          rfl
        · obtain ⟨partner, -, rfl⟩ := List.mem_map.mp joined
          rw [List.length_append, width]
          rfl
      intro row member
      rw [induction wider row member, List.length_cons]
      omega

/-- A database of numbers in which every condition holds. -/
def countingDatabase (count : Nat) : Database Nat :=
  { rows := fun _ => List.range (count + 1), partners := fun _ _ _ => [0], blank := 0
    holds := fun _ _ _ _ => true, sort := fun _ rows => rows
    sort_perm := fun _ rows => List.Perm.refl rows }

theorem touch_eq_some {Row : Type} {database : Database Row} {statement : WriteStatement}
    {params : List Value} {written : List (List Row)}
    (found : database.touch statement params = some written) :
    (statement.assigned.all (fun assigned => !assigned.isEmpty) = true ∧
      statement.conditions.all SqlCondition.wellFormed = true) ∧
      written = (database.tableRows statement.table).filter
        (database.matching statement.conditions params) := by
  rw [Database.touch] at found
  split at found
  · rename_i formed
    exact ⟨by simpa using formed, (Option.some.inj found).symm⟩
  · cases found

theorem select_eq_some {Row : Type} {database : Database Row} {statement : SelectStatement}
    {params : List Value} {fetched : List (List Row)}
    (found : database.select statement params = some fetched) :
    boundedRows statement.limit statement.offset (database.ordered statement.order
      ((statement.joins.foldl (database.joinRows statement.table)
        (database.tableRows statement.table)).filter
          (database.matching statement.conditions params))) = some fetched := by
  rw [Database.select] at found
  split at found
  · exact found
  · cases found

theorem counting_matching (count : Nat) (conditions : List SqlCondition) (params : List Value)
    (rows : List (List Nat)) :
    rows.filter ((countingDatabase count).matching conditions params) = rows := by
  refine List.filter_eq_self.mpr fun row _ => ?_
  rw [Database.matching, List.all_eq_true]
  exact fun _ _ => rfl

theorem counting_ordered (count : Nat) (order : Option Sql) (rows : List (List Nat)) :
    (countingDatabase count).ordered order rows = rows := by
  cases order <;> rfl

/-- What the numbers tell about a write that touches what is fetched. -/
theorem filtersOnly_of_counting {query : Query} {write : BulkWrite}
    (touches : ∀ count, ∃ fetched written, (countingDatabase count).fetched query = some fetched ∧
      (countingDatabase count).written query write = some written ∧
      ∀ row, row ∈ written ↔ row ∈ fetched) : FiltersOnly query write := by
  -- every number is fetched, from the rows that the joins and the bounds leave
  have all : ∀ count, ∃ read written, readSelect query = .ok read ∧ readWrite query write = .ok written ∧
      (written.1.assigned.all (fun assigned => !assigned.isEmpty) = true ∧
        written.1.conditions.all SqlCondition.wellFormed = true) ∧
      ∃ fetched, boundedRows query.limit query.offset (query.joins.foldl
        ((countingDatabase count).joinRows query.table)
        ((List.range (count + 1)).map fun row => [row])) = some fetched ∧
      ∀ row ≤ count, [row] ∈ fetched := by
    intro count
    obtain ⟨fetched, rows, isFetched, isWritten, same⟩ := touches count
    obtain ⟨read, reads, selected⟩ := Option.bind_eq_some_iff.mp isFetched
    obtain ⟨written, writes, touched⟩ := Option.bind_eq_some_iff.mp isWritten
    have reads := eq_ok_of_toOption reads
    have writes := eq_ok_of_toOption writes
    obtain ⟨columns, conditions, order, -, -, -, statement⟩ := readSelect_ok reads
    obtain ⟨next, conditions, -, table, -⟩ := readWrite_ok writes
    obtain ⟨formed, rfl⟩ := touch_eq_some touched
    have bounded := select_eq_some selected
    rw [counting_ordered, counting_matching, statement] at bounded
    refine ⟨read, written, reads, writes, formed, fetched, bounded, fun row inside => ?_⟩
    refine (same [row]).mp ?_
    rw [counting_matching, Database.tableRows]
    exact List.mem_map_of_mem (List.mem_range.mpr (Nat.lt_succ_of_le inside))
  obtain ⟨read, written, reads, writes, ⟨assigns, formed⟩, fetched, bounded, inside⟩ := all 0
  obtain ⟨columns, conditions, order, selected, -, ordered, -⟩ := readSelect_ok reads
  obtain ⟨next, conditions, numbered, -, rfl, -, assigned⟩ := readWrite_ok writes
  have joins : query.joins = [] := by
    have member := (boundedRows_sublist bounded).subset (inside 0 (Nat.le_refl 0))
    have single : ∀ row ∈ (List.range (0 + 1)).map fun row => [row], row.length = 1 := by simp
    have width := length_joinRows (countingDatabase 0) query.table query.joins single _ member
    exact List.length_eq_zero_iff.mp (by simpa using width)
  have offset : query.offset = none ∨ query.offset = some 0 := by
    rw [joins] at bounded
    obtain ⟨rest, skipped, taken⟩ := Option.bind_eq_some_iff.mp bounded
    exact offset_of_head skipped ((takeRows_sublist taken).subset (inside 0 (Nat.le_refl 0)))
  have limit : query.limit = none := by
    refine limit_of_keeps (fun row => [row]) (fun one other same => by simpa using same)
      fun count => ?_
    obtain ⟨-, -, -, -, -, fetched, bounded, inside⟩ := all count
    rw [joins, boundedRows, skipRows_zero offset] at bounded
    exact ⟨fetched, bounded, inside count (Nat.le_refl count)⟩
  exact {
    joins, limit, offset
    filters := (wellFormed_writeConditions numbered).mp formed
    columns := by rw [selected]; rfl
    order := by rw [isOk_readOrder, ordered]; rfl
    assigns := assigned.mp assigns }

/-- A query of filters only is written as it is fetched. -/
theorem FiltersOnly.touches {query : Query} {write : BulkWrite} (only : FiltersOnly query write)
    {read : WriteStatement × List Value} (accepted : readWrite query write = .ok read)
    {Row : Type} (database : Database Row) :
    ∃ fetched written, database.fetched query = some fetched ∧
      database.written query write = some written ∧ ∀ row, row ∈ written ↔ row ∈ fetched := by
  obtain ⟨next, conditions, numbered, table, rfl, bound, assigned⟩ := readWrite_ok accepted
  obtain ⟨columns, selected⟩ := returns_of_isOk only.columns
  obtain ⟨order, ordered⟩ := returns_of_isOk ((isOk_readOrder query).symm.trans only.order)
  obtain ⟨others, again⟩ := (@writeConditions_ok_iff _ _ 1).mpr
    ((@writeConditions_ok_iff _ _ (next + 1)).mp ⟨_, numbered⟩)
  have formed := (wellFormed_writeConditions numbered).mpr only.filters
  have otherFormed := (wellFormed_writeConditions again).mpr only.filters
  let statement : SelectStatement :=
    { columns, table := query.table, joins := [], conditions := others, order, limit := none
      offset := query.offset }
  have reads : readSelect query = .ok (statement, query.filters.map (·.value)) := by
    rw [readSelect, selected, selectConditions_plain only.filters, again, ordered, only.joins,
      only.limit]
    rfl
  have equal : database.matching others (query.filters.map (·.value)) =
      database.matching read.1.conditions read.2 := by
    have first : writeConditions query.knownColumns (0 + 1) query.filters = .ok others := again
    exact matching_writeConditions database first numbered bound.symm
  let found := (database.tableRows query.table).filter
    (database.matching read.1.conditions read.2)
  refine ⟨database.ordered order found, found, ?_, ?_, fun row => ?_⟩
  · rw [Database.fetched, reads]
    show database.select statement _ = _
    rw [Database.select, if_pos otherFormed]
    show boundedRows none query.offset _ = _
    rw [boundedRows, skipRows_zero only.offset]
    show some (database.ordered order (List.filter _ (database.tableRows query.table))) = _
    rw [equal]
  · rw [Database.written, accepted]
    show database.touch read.1 read.2 = _
    rw [Database.touch, if_pos (by rw [assigned.mpr only.assigns, formed]; rfl), table]
  · cases order with
    | none => rfl
    | some order => exact (database.sort_perm order _).mem_iff.symm

/-! ## Document writes -/

/-- The documents of a write are those of the filter. -/
theorem touch_request {Doc : Type} (store : DocStore Doc) (query : DocQuery) (write : DocWrite) :
    store.touch query.collection (write.request query) =
      store.found query.collection (buildQueryFilter query) := by
  cases write <;> rfl

/-- A collection of numbers in which every condition holds. -/
def countingStore (count : Nat) : DocStore Nat :=
  { docs := fun _ => List.range (count + 1), holds := fun _ _ => true
    sort := fun _ _ docs => docs, sort_perm := fun _ _ docs => List.Perm.refl docs }

theorem counting_found (count : Nat) (collection : String) (filter : List MongoCondition) :
    (countingStore count).found collection filter = List.range (count + 1) := by
  refine List.filter_eq_self.mpr fun doc _ => ?_
  rw [List.all_eq_true]
  exact fun _ _ => rfl

theorem counting_fetched (count : Nat) (query : DocQuery) :
    (countingStore count).fetched query =
      (skipDocs (query.offset.map Int64.toUInt64) (List.range (count + 1))).map
        (limitDocs query.limit) := by
  rw [DocStore.fetched, DocStore.find, counting_found]
  show (skipDocs _ ((countingStore count).sorted query.sort _)).map _ = _
  cases query.sort <;> rfl

section Bounds

variable {Doc : Type} {docs kept : List Doc}

theorem limitDocs_sublist (limit : Option Int64) (docs : List Doc) :
    (limitDocs limit docs).Sublist docs := by
  cases limit with
  | none => exact .refl _
  | some count =>
      rw [limitDocs]
      split
      · exact .refl _
      · exact List.take_sublist _ _

theorem limitDocs_zero {limit : Option Int64} (zero : limit = none ∨ limit = some 0) :
    limitDocs limit docs = docs := by
  rcases zero with rfl | rfl <;> rfl

theorem skipDocs_zero {offset : Option Int64} (zero : offset = none ∨ offset = some 0) :
    skipDocs (offset.map Int64.toUInt64) docs = some docs := by
  rcases zero with rfl | rfl <;> rfl

/-- The first of some documents is only kept without an offset. -/
theorem docOffset_of_head {offset : Option Int64} {first : Doc}
    (found : skipDocs (offset.map Int64.toUInt64) [first] = some kept) (inside : first ∈ kept) :
    offset = none ∨ offset = some 0 := by
  cases offset with
  | none => exact .inl rfl
  | some count =>
      right
      rw [Option.map_some, skipDocs] at found
      split at found
      · rw [← Option.some.inj found] at inside
        have none : count.toUInt64.toNat = 0 := by
          by_contra other
          have empty : [first].drop count.toUInt64.toNat = [] := by
            rw [List.drop_eq_nil_iff, List.length_singleton]
            omega
          rw [empty] at inside
          cases inside
        have zero : count.toUInt64 = (0 : Int64).toUInt64 := UInt64.toNat_inj.mp none
        rw [show count = 0 from congrArg UInt64.toInt64 zero]
      · cases found

theorem docLimit_of_keeps {limit : Option Int64}
    (keeps : ∀ count : Nat, count ∈ limitDocs limit (List.range (count + 1))) :
    limit = none ∨ limit = some 0 := by
  cases limit with
  | none => exact .inl rfl
  | some bound =>
      by_cases zero : bound = 0
      · exact .inr (by rw [zero])
      · have last := keeps bound.toInt.natAbs
        rw [limitDocs, if_neg zero, List.take_range] at last
        simp at last

end Bounds

theorem docTouches_iff (query : DocQuery) (write : DocWrite) :
    (∀ {Doc : Type} (store : DocStore Doc),
      let written := store.touch query.collection (write.request query)
      (write.isUpsert = true → written ≠ []) →
        ∃ fetched, store.fetched query = some fetched ∧ ∀ doc, doc ∈ written ↔ doc ∈ fetched) ↔
      (query.limit = none ∨ query.limit = some 0) ∧
        (query.offset = none ∨ query.offset = some 0) := by
  constructor
  · intro touches
    have all : ∀ count, ∃ rest,
        skipDocs (query.offset.map Int64.toUInt64) (List.range (count + 1)) = some rest ∧
          ∀ doc ≤ count, doc ∈ limitDocs query.limit rest := by
      intro count
      have written : (countingStore count).touch query.collection (write.request query) =
          List.range (count + 1) := by
        rw [touch_request, counting_found]
      obtain ⟨fetched, found, same⟩ := touches (countingStore count)
        (fun _ => by rw [written]; simp)
      rw [counting_fetched] at found
      obtain ⟨rest, skipped, rfl⟩ := Option.map_eq_some_iff.mp found
      refine ⟨rest, skipped, fun doc inside => (same doc).mp ?_⟩
      rw [written]
      exact List.mem_range.mpr (Nat.lt_succ_of_le inside)
    have offset : query.offset = none ∨ query.offset = some 0 := by
      obtain ⟨rest, skipped, inside⟩ := all 0
      exact docOffset_of_head skipped
        ((limitDocs_sublist query.limit rest).subset (inside 0 (Nat.le_refl 0)))
    refine ⟨docLimit_of_keeps fun count => ?_, offset⟩
    obtain ⟨rest, skipped, inside⟩ := all count
    obtain rfl := Option.some.inj ((skipDocs_zero offset).symm.trans skipped)
    exact inside count (Nat.le_refl count)
  · rintro ⟨limit, offset⟩ Doc store written -
    refine ⟨store.sorted query.sort (store.found query.collection (buildQueryFilter query)),
      ?_, fun doc => ?_⟩
    · rw [DocStore.fetched, DocStore.find]
      show (skipDocs (query.offset.map Int64.toUInt64) _).map (limitDocs query.limit) = _
      rw [skipDocs_zero offset, Option.map_some, limitDocs_zero limit]
      rfl
    · rw [show written = _ from touch_request store query write]
      cases query.sort with
      | none => rfl
      | some sort => exact (store.sort_perm sort.1 sort.2 _).mem_iff.symm

/-! ## Bulk writes -/

/-- A bulk write touches what is fetched if and only if its chain leaves a query of
filters: no join, no bound, no `in` on a table, and nothing that only the fetch would
reject or only the update could not say. -/
theorem touchesFetched_iff (columns : String → Option (List String)) (call : BulkCall) :
    TouchesFetched columns call ↔ call.Bare columns := by
  cases call with
  | doc position collection steps write =>
      rw [TouchesFetched, BulkCall.Bare]
      cases runDocSteps position (steps.map Subtype.val) (DocQueryState.new collection) with
      | error error => rfl
      | ok query => exact docTouches_iff query write
  | db table steps write =>
      rw [TouchesFetched, BulkCall.Bare]
      cases runSteps steps (promoteTable columns table) with
      | error error => rfl
      | ok query =>
          have accepted := readWrite_ok_iff query write
          simp only [statementOf_write]
          cases read : readWrite query write with
          | error error =>
              have refused : WriteRefused query write := by
                by_contra free
                obtain ⟨_, ok⟩ := accepted.mpr free
                rw [read] at ok
                cases ok
              exact iff_of_true trivial (.inl refused)
          | ok statement =>
              have free : ¬ WriteRefused query write := accepted.mp ⟨statement, read⟩
              rw [or_iff_right free]
              exact ⟨fun touches => filtersOnly_of_counting fun count => touches (countingDatabase count),
                fun only _ database => only.touches read database⟩

/-- `db.users >> limit(1) >> delete`. -/
def firstUser : BulkCall :=
  .db "users" [(⟨1, 10⟩, .limit [.integer 1])] .delete

/-- The delete removes every user, and `fetch` would have returned one. -/
theorem firstUser_deletes_all :
    ¬ TouchesFetched (fun _ => none) firstUser := by
  intro touches
  obtain ⟨fetched, written, isFetched, isWritten, same⟩ := touches (countingDatabase 1)
  obtain rfl : [[0]] = fetched := Option.some.inj isFetched
  obtain rfl : [[0], [1]] = written := Option.some.inj isWritten
  exact absurd ((same [1]).mp (by decide)) (by decide)

end Marreta
