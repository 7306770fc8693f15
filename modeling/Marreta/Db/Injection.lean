import Marreta.Foundation.Ensures
import Marreta.Db.QueryStep

namespace Marreta

open Foundation

/-! Which statements of the relational driver are free of injected text.

Names that go through `validateColumn` reach the statement as quoted
identifiers or not at all.  The keys of a saved row and the two names of a join
are spliced as they were given. -/

/-- One or two dot-separated identifier segments, each in double quotes. -/
def QuotedName (text : String) : Prop :=
  ∃ segments : List (List Char),
    (segments.length = 1 ∨ segments.length = 2) ∧
    (∀ segment ∈ segments, segmentOk segment = true) ∧
    text = String.intercalate "." (segments.map quoteSegment)

/-- Every name spliced into a statement is a quoted identifier. -/
def NamesQuoted (sql : Sql) : Prop :=
  ∀ raw rendered, .name raw rendered ∈ sql → QuotedName rendered

def IsIdentifierError : MarretaError → Prop
  | .dbIdentifierError code _ => code = .invalidIdentifier ∨ code = .unknownColumn
  | _ => False

/-- The text of a quoted name starts with a quote, so a bare word is none. -/
theorem QuotedName.head {text : String} (quoted : QuotedName text) :
    text.toList.head? = some '"' := by
  obtain ⟨segments, count, -, rfl⟩ := quoted
  match segments, count with
  | [first], _ => simp [quoteSegment]
  | [first, second], _ => simp [quoteSegment, String.intercalate_cons_cons]

/-! ## Pieces of a statement -/

section Pieces

variable {sql other : Sql}

@[simp] theorem namesQuoted_nil : NamesQuoted [] := by
  intro raw rendered member
  simp at member

@[simp] theorem namesQuoted_text (text : String) :
    NamesQuoted (.text text :: sql) ↔ NamesQuoted sql := by
  simp [NamesQuoted]

@[simp] theorem namesQuoted_name (raw rendered : String) :
    NamesQuoted (.name raw rendered :: sql) ↔
      QuotedName rendered ∧ NamesQuoted sql := by
  simp only [NamesQuoted, List.mem_cons, SqlPiece.name.injEq]
  constructor
  · intro all
    exact ⟨all raw rendered (.inl ⟨rfl, rfl⟩), fun raw rendered member =>
      all raw rendered (.inr member)⟩
  · rintro ⟨first, rest⟩ raw' rendered' (⟨rfl, rfl⟩ | member)
    · exact first
    · exact rest raw' rendered' member

@[simp] theorem namesQuoted_append :
    NamesQuoted (sql ++ other) ↔ NamesQuoted sql ∧ NamesQuoted other := by
  simp only [NamesQuoted, List.mem_append]
  constructor
  · intro all
    exact ⟨fun raw rendered member => all raw rendered (.inl member),
      fun raw rendered member => all raw rendered (.inr member)⟩
  · rintro ⟨left, right⟩ raw rendered (member | member)
    · exact left raw rendered member
    · exact right raw rendered member

theorem namesQuoted_joined (separator : String) (parts : List Sql) :
    NamesQuoted (Sql.joined separator parts) ↔ ∀ part ∈ parts, NamesQuoted part := by
  induction parts with
  | nil => simp [Sql.joined]
  | cons head tail induction =>
      cases tail with
      | nil => simp [Sql.joined]
      | cons next rest =>
          have split : Sql.joined separator (head :: next :: rest) =
              head ++ .text separator :: Sql.joined separator (next :: rest) := by
            simp [Sql.joined, List.intercalate]
          rw [split, namesQuoted_append, namesQuoted_text, induction]
          simp

theorem namesQuoted_flatMap {α : Type} (pieces : α → Sql) (items : List α) :
    NamesQuoted (items.flatMap pieces) ↔ ∀ item ∈ items, NamesQuoted (pieces item) := by
  induction items with
  | nil => simp
  | cons head tail induction =>
      rw [List.flatMap_cons, namesQuoted_append, induction]
      simp

end Pieces

/-! ## Validated names -/

theorem quoteIdentifier_ensures (raw : String) :
    Ensures QuotedName IsIdentifierError (quoteIdentifier raw) := by
  unfold quoteIdentifier
  split
  case isTrue shaped =>
      simp only [shapedIdentifier, Bool.and_eq_true, Bool.or_eq_true,
        decide_eq_true_eq, List.all_eq_true] at shaped
      exact ⟨identifierSegments raw, shaped.1, shaped.2, rfl⟩
  case isFalse => exact .inl rfl

theorem validateColumn_ensures (raw : String) (known : Option (List String)) :
    Ensures QuotedName IsIdentifierError (validateColumn raw known) := by
  refine (quoteIdentifier_ensures raw).bind fun quoted quotedHolds => ?_
  cases known with
  | none => exact quotedHolds
  | some columns =>
      simp only
      split
      · exact quotedHolds
      · exact .inr rfl

theorem columnPiece_ensures (raw : String) (known : Option (List String)) :
    Ensures (fun piece => NamesQuoted [piece]) IsIdentifierError
      (columnPiece raw known) := by
  refine (validateColumn_ensures raw known).bind fun rendered quoted => ?_
  simpa using quoted

theorem orderPart_ensures (known : Option (List String)) (part : List Char) :
    Ensures NamesQuoted IsIdentifierError (orderPart known part) := by
  unfold orderPart
  split
  · exact (columnPiece_ensures _ known).bind fun piece quoted => quoted
  · split
    · refine (columnPiece_ensures _ known).bind fun piece quoted => ?_
      exact (namesQuoted_append).mpr ⟨quoted, by simp⟩
    · exact .inl rfl
  · exact .inl rfl

theorem buildOrderBy_ensures (order : String) (known : Option (List String)) :
    Ensures NamesQuoted IsIdentifierError (buildOrderBy order known) := by
  refine (Ensures.mapM fun part _ => orderPart_ensures known part).bind
    fun parts quoted => ?_
  exact (namesQuoted_joined _ parts).mpr quoted

theorem filterClause_ensures (known : Option (List String)) (next : Nat)
    (filter : Filter) :
    Ensures (fun clause => NamesQuoted clause.1) IsIdentifierError
      (filterClause known next filter) := by
  refine (columnPiece_ensures filter.column known).bind fun column quoted => ?_
  have withText (text : String) : NamesQuoted [column, .text text] :=
    (namesQuoted_append).mpr ⟨quoted, by simp⟩
  split <;> exact withText _

theorem filterClauses_ensures (known : Option (List String)) (next : Nat)
    (filters : List Filter) :
    Ensures (fun clauses => ∀ clause ∈ clauses.1, NamesQuoted clause)
      IsIdentifierError (filterClauses known next filters) := by
  induction filters generalizing next with
  | nil => simp [filterClauses]
  | cons head tail induction =>
      refine (filterClause_ensures known next head).bind fun clause quoted => ?_
      refine (induction _).bind fun clauses quotedRest => ?_
      simpa using ⟨quoted, quotedRest⟩

theorem numberedColumns_ensures (known : Option (List String)) (next : Nat)
    (columns : List (String × String)) :
    Ensures (fun clauses => ∀ clause ∈ clauses, NamesQuoted clause)
      IsIdentifierError (numberedColumns known next columns) := by
  induction columns generalizing next with
  | nil => simp [numberedColumns]
  | cons head tail induction =>
      refine (columnPiece_ensures head.1 known).bind fun piece quoted => ?_
      refine (induction _).bind fun clauses quotedRest => ?_
      have first : NamesQuoted [piece, .text (" " ++ head.2 ++ " " ++ placeholder next)] :=
        (namesQuoted_append).mpr ⟨quoted, by simp⟩
      simpa using ⟨first, quotedRest⟩

theorem selectList_ensures (query : Query) :
    Ensures NamesQuoted IsIdentifierError (selectList query) := by
  unfold selectList
  split
  · simp
  · split
    · simp
    · refine (Ensures.mapM fun column _ =>
        columnPiece_ensures column query.knownColumns).bind fun columns quoted => ?_
      refine (namesQuoted_joined _ _).mpr fun part member => ?_
      obtain ⟨piece, pieceMember, rfl⟩ := List.mem_map.mp member
      exact quoted piece pieceMember

theorem orderClause_ensures (query : Query) :
    Ensures NamesQuoted IsIdentifierError (orderClause query) := by
  unfold orderClause
  split
  · simp
  · refine (buildOrderBy_ensures _ _).bind fun parts quoted => ?_
    simpa using quoted

theorem namesQuoted_whereClause {clauses : List Sql}
    (quoted : ∀ clause ∈ clauses, NamesQuoted clause) :
    NamesQuoted (whereClause clauses) := by
  unfold whereClause
  split
  · simp
  · simpa [namesQuoted_joined] using quoted

@[simp] theorem namesQuoted_boundClause (keyword : String) (bound : Option Int64) :
    NamesQuoted (boundClause keyword bound) := by
  cases bound <;> simp [boundClause]

theorem buildUpdate_ensures (table : String) (keys : List String)
    (filters : List Filter) (known : Option (List String)) :
    Ensures NamesQuoted IsIdentifierError (buildUpdate table keys filters known) := by
  refine (numberedColumns_ensures known 1 _).bind fun setClauses quotedSet => ?_
  refine (numberedColumns_ensures known _ _).bind fun clauses quoted => ?_
  simpa [namesQuoted_joined] using ⟨quotedSet, namesQuoted_whereClause quoted⟩

theorem buildDelete_ensures (table : String) (filters : List Filter)
    (known : Option (List String)) :
    Ensures NamesQuoted IsIdentifierError (buildDelete table filters known) := by
  refine (numberedColumns_ensures known 1 _).bind fun clauses quoted => ?_
  simpa using namesQuoted_whereClause quoted

/-! ## Selects -/

/-- Both names of a join are already quoted identifiers. -/
def JoinQuoted (join : JoinClause) : Prop :=
  QuotedName join.table ∧ QuotedName join.on

theorem namesQuoted_joinClause (table : String) (join : JoinClause) :
    NamesQuoted (joinClause table join) ↔ JoinQuoted join := by
  simp only [joinClause, namesQuoted_text, namesQuoted_name, namesQuoted_nil, JoinQuoted]
  tauto

/-- Every name that a select validates is accepted. -/
def Accepted (query : Query) : Prop :=
  Returns (selectList query) ∧
    Returns (filterClauses query.knownColumns 1 query.filters) ∧
    Returns (orderClause query)

/-- A select that is built splices quoted names only if its joins do. -/
theorem buildSelect_spec (query : Query) :
    (∃ statement, buildSelect query = .ok statement ∧ Accepted query ∧
      (NamesQuoted statement.sql ↔ ∀ join ∈ query.joins, JoinQuoted join)) ∨
    (∃ error, buildSelect query = .error error ∧ ¬ Accepted query ∧
      IsIdentifierError error) := by
  have selectHolds := selectList_ensures query
  have filterHolds := filterClauses_ensures query.knownColumns 1 query.filters
  have orderHolds := orderClause_ensures query
  unfold buildSelect Accepted
  cases selected : selectList query with
  | error error =>
      rw [selected] at selectHolds
      exact .inr ⟨error, rfl, by simp [Returns], selectHolds⟩
  | ok select =>
      rw [selected] at selectHolds
      cases filtered : filterClauses query.knownColumns 1 query.filters with
      | error error =>
          rw [filtered] at filterHolds
          exact .inr ⟨error, rfl, by simp [Returns], filterHolds⟩
      | ok clauses =>
          rw [filtered] at filterHolds
          cases ordered : orderClause query with
          | error error =>
              rw [ordered] at orderHolds
              exact .inr ⟨error, rfl, by simp [Returns], orderHolds⟩
          | ok order =>
              rw [ordered] at orderHolds
              refine .inl ⟨_, rfl, ⟨⟨_, rfl⟩, ⟨_, rfl⟩, ⟨_, rfl⟩⟩, ?_⟩
              have whereHolds := namesQuoted_whereClause filterHolds
              simp only [Ensures.ok_iff] at selectHolds orderHolds
              simp [namesQuoted_flatMap, namesQuoted_joinClause, selectHolds,
                whereHolds, orderHolds]

theorem fetchOneStatement_spec (query : Query) :
    (∃ statement, fetchOneStatement query = .ok statement ∧ Accepted query ∧
      (NamesQuoted statement.sql ↔ ∀ join ∈ query.joins, JoinQuoted join)) ∨
    (∃ error, fetchOneStatement query = .error error ∧ ¬ Accepted query ∧
      IsIdentifierError error) := by
  unfold fetchOneStatement
  rcases buildSelect_spec query with
    ⟨statement, built, accepted, quoted⟩ | ⟨error, built, rejected, identifier⟩
  · refine .inl ?_
    rw [built]
    by_cases unlimited : query.limit.isNone = true
    · refine ⟨{ statement with sql := statement.sql ++ [.text " LIMIT 1"] }, ?_, accepted, ?_⟩
      · simp [Bind.bind, Except.bind, unlimited]
      · simpa using quoted
    · exact ⟨statement, by simp [Bind.bind, Except.bind, unlimited], accepted, quoted⟩
  · exact .inr ⟨error, by rw [built]; rfl, rejected, identifier⟩

/-! ## Rows -/

/-- Every key of a row is already a quoted identifier. -/
def KeysQuoted (data : DbRow) : Prop :=
  ∀ entry ∈ data, QuotedName entry.1

theorem mem_sortedKeys (data : DbRow) (key : String) :
    key ∈ sortedKeys data ↔ ∃ entry ∈ data, entry.1 = key := by
  unfold sortedKeys
  rw [List.mem_insertionSort, List.mem_map]

theorem keysQuoted_iff (data : DbRow) :
    KeysQuoted data ↔ ∀ key ∈ sortedKeys data, QuotedName key := by
  simp only [KeysQuoted, mem_sortedKeys]
  constructor
  · rintro all key ⟨entry, member, rfl⟩
    exact all entry member
  · intro all entry member
    exact all entry.1 ⟨entry, member, rfl⟩

theorem namesQuoted_insertStatement (table : String) (data : DbRow) :
    NamesQuoted (insertStatement table data).sql ↔ KeysQuoted data := by
  rw [keysQuoted_iff]
  simp [insertStatement, namesQuoted_joined, keyPiece]

theorem namesQuoted_assignments (next : Nat) (keys : List String) :
    (∀ clause ∈ assignments next keys, NamesQuoted clause) ↔
      ∀ key ∈ keys, QuotedName key := by
  induction keys generalizing next with
  | nil => simp [assignments]
  | cons head tail induction => simp [assignments, keyPiece, induction]

theorem namesQuoted_updateByIdStatement (table : String) (id : Value)
    (data : DbRow) :
    NamesQuoted (updateByIdStatement table id data).sql ↔ KeysQuoted data := by
  rw [keysQuoted_iff]
  simp [updateByIdStatement, namesQuoted_joined, namesQuoted_assignments]

/-! ## Operations and calls -/

/-- The condition on an operation: what it splices unchecked is quoted, unless
a name it checks is rejected first. -/
def GuardedOp : DbOp → Prop
  | .save _ data | .updateById _ _ data => KeysQuoted data
  | .queryFetch query | .queryFetchOne query =>
      Accepted query → ∀ join ∈ query.joins, JoinQuoted join
  | .queryCount query | .queryExists query =>
      Accepted (countQuery query) → ∀ join ∈ query.joins, JoinQuoted join
  | _ => True

/-- A statement is sent with quoted names only, or the operation stops with an
identifier error and sends nothing. -/
def SafeResult (result : Except MarretaError SqlStatement) : Prop :=
  Ensures (fun statement => NamesQuoted statement.sql) IsIdentifierError result

theorem safeResult_of_spec {query : Query}
    {result : Except MarretaError SqlStatement}
    (spec : (∃ statement, result = .ok statement ∧ Accepted query ∧
        (NamesQuoted statement.sql ↔ ∀ join ∈ query.joins, JoinQuoted join)) ∨
      (∃ error, result = .error error ∧ ¬ Accepted query ∧ IsIdentifierError error)) :
    SafeResult result ↔ (Accepted query → ∀ join ∈ query.joins, JoinQuoted join) := by
  rcases spec with ⟨statement, rfl, accepted, quoted⟩ | ⟨error, rfl, rejected, identifier⟩
  · simp [SafeResult, quoted, accepted]
  · simp [SafeResult, identifier, rejected]

theorem updateStatement_safe (query : Query) (data : DbRow) :
    SafeResult (updateStatement query data) :=
  (buildUpdate_ensures _ _ _ _).bind fun _ quoted => quoted

theorem deleteStatement_safe (query : Query) : SafeResult (deleteStatement query) :=
  (buildDelete_ensures _ _ _).bind fun _ quoted => quoted

theorem findAll_safe (table : String) (filters : List Filter) :
    SafeResult (buildSelect { (QueryState.new table : Query) with filters }) :=
  (safeResult_of_spec (buildSelect_spec _)).mpr fun _ join member => by
    simp [QueryState.new] at member

theorem safeResult_iff_guardedOp (op : DbOp) :
    SafeResult (statementOf op) ↔ GuardedOp op := by
  cases op with
  | save table data => exact namesQuoted_insertStatement table data
  | updateById table id data => exact namesQuoted_updateByIdStatement table id data
  | findAll table filters => exact iff_of_true (findAll_safe table filters) trivial
  | queryFetch query => exact safeResult_of_spec (buildSelect_spec query)
  | queryFetchOne query => exact safeResult_of_spec (fetchOneStatement_spec query)
  | queryCount query => exact safeResult_of_spec (buildSelect_spec (countQuery query))
  | queryExists query => exact safeResult_of_spec (buildSelect_spec (countQuery query))
  | queryUpdate query data => exact iff_of_true (updateStatement_safe query data) trivial
  | queryDelete query => exact iff_of_true (deleteStatement_safe query) trivial
  | find table id => simp [SafeResult, statementOf, GuardedOp]
  | deleteById table id => simp [SafeResult, statementOf, GuardedOp]
  | nativeQuery sql params => simp [SafeResult, statementOf, GuardedOp]

theorem channel_sends_safe (channel : Channel) (op : DbOp) :
    Ensures (fun sent => NamesQuoted sent.statement.sql) IsIdentifierError
      (channel.sends op) ↔ SafeResult (statementOf op) := by
  cases channel <;>
    cases built : statementOf op <;>
      simp [Channel.sends, PostgresDriver.sends, PgTransaction.sends, SafeResult,
        built, Bind.bind, Except.bind]

/-- A call sends quoted names only, or fails with an identifier error, or was
ill-typed before the driver saw it; in the last two cases it sends nothing. -/
def SafeCall (columns : String → Option (List String)) (channel : Channel)
    (call : DbCall) : Prop :=
  match call.op columns with
  | .error _ => ∀ sent, call.sends columns channel ≠ .ok sent
  | .ok _ =>
      Ensures (fun sent => NamesQuoted sent.statement.sql) IsIdentifierError
        (call.sends columns channel)

def GuardedCall (columns : String → Option (List String)) (call : DbCall) : Prop :=
  ∀ op, call.op columns = .ok op → GuardedOp op

theorem safeCall_iff_guardedCall (columns : String → Option (List String))
    (channel : Channel) (call : DbCall) :
    SafeCall columns channel call ↔ GuardedCall columns call := by
  unfold SafeCall GuardedCall DbCall.sends
  cases built : call.op columns with
  | error error => simp [Bind.bind, Except.bind]
  | ok op =>
      have safe := (channel_sends_safe channel op).trans (safeResult_iff_guardedOp op)
      simpa [Bind.bind, Except.bind] using safe

/-- Every call of a sequence is safe on the connection it uses. -/
def InjectionFree (columns : String → Option (List String))
    (calls : List (Channel × DbCall)) : Prop :=
  (∀ entry ∈ calls, SafeCall columns entry.1 entry.2) ∧
    ∀ sent ∈ sentBy columns calls, NamesQuoted sent.statement.sql

theorem namesQuoted_of_mem_sentBy {columns : String → Option (List String)}
    {calls : List (Channel × DbCall)}
    (safe : ∀ entry ∈ calls, SafeCall columns entry.1 entry.2) :
    ∀ sent ∈ sentBy columns calls, NamesQuoted sent.statement.sql := by
  induction calls with
  | nil => simp [sentBy]
  | cons entry calls induction =>
      have rest := induction fun other member => safe other (by simp [member])
      obtain ⟨channel, call⟩ := entry
      have first := safe (channel, call) (by simp)
      unfold sentBy
      cases sends : call.sends columns channel with
      | error error => exact rest
      | ok sent =>
          intro other member
          rcases List.mem_cons.mp member with rfl | member
          · unfold SafeCall at first
            split at first
            · exact absurd sends (first _)
            · simpa [sends] using first
          · exact rest other member

/-- A sequence of calls is injection free exactly when each of its calls is
guarded, whatever connections they use. -/
theorem injectionFree_iff (columns : String → Option (List String))
    (calls : List (Channel × DbCall)) :
    InjectionFree columns calls ↔
      ∀ entry ∈ calls, GuardedCall columns entry.2 := by
  have each : (∀ entry ∈ calls, SafeCall columns entry.1 entry.2) ↔
      ∀ entry ∈ calls, GuardedCall columns entry.2 :=
    forall₂_congr fun entry _ => safeCall_iff_guardedCall columns entry.1 entry.2
  exact ⟨fun free => each.mp free.1, fun guarded =>
    ⟨each.mpr guarded, namesQuoted_of_mem_sentBy (each.mpr guarded)⟩⟩

/-- A saved row whose key closes the column list is sent as it is. -/
theorem injectionFree_save_fails :
    ¬ ∀ columns calls, InjectionFree columns calls := by
  intro all
  let key := "id) VALUES (1); DROP TABLE users; --"
  let call : DbCall := .save "users" [(key, .integer 1)]
  have safe : SafeCall (fun _ => none) .pool call :=
    (all (fun _ => none) [(.pool, call)]).1 (.pool, call) (by simp)
  have guarded : KeysQuoted [(key, .integer 1)] :=
    (safeCall_iff_guardedCall _ _ _).mp safe (.save "users" [(key, .integer 1)]) rfl
  have head : key.toList.head? = some '"' :=
    (guarded (key, .integer 1) (by simp)).head
  revert head
  decide

end Marreta
