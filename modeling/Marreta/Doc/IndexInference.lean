import Mathlib
import Marreta.Foundation.SortedDistinct
import Marreta.Syntax.Ast

namespace Marreta

open Foundation

/-! Indexes for the document database, inferred from the queries of a program.

A pipeline over a collection gives a list of keys: the fields it compares for equality,
the fields it sorts on, and the fields it compares otherwise.  Lists that begin another
list of the collection are dropped, and each of the others becomes an index. -/

/-- A field and whether it is ascending. -/
abbrev IndexKey := String × Bool

/-- The fields of a query by their roles.  A query with a field or a direction that is
not a literal is skipped. -/
structure Shape where
  equality : List String
  sort : List IndexKey
  range : List String
  skip : Bool

namespace Shape

def empty : Shape :=
  { equality := [], sort := [], range := [], skip := false }

/-- Append a key unless its field is there already. -/
def addKey (keys : List IndexKey) (key : IndexKey) : List IndexKey :=
  if keys.any fun known => known.1 = key.1 then keys else keys ++ [key]

def intoComposite (shape : Shape) : Option (List IndexKey) :=
  if shape.skip then none
  else
    let keys := (sortedDistinct (· ≤ ·) shape.equality).map fun field => (field, true)
    let keys := shape.sort.foldl addKey keys
    let keys := (shape.range.map fun field => (field, true)).foldl addKey keys
    if keys = [] then none else some keys

end Shape

/-! ## Stages -/

def literalStr : Expression → Option String
  | .stringLiteral text => some text
  | _ => none

namespace Shape

def addRange (shape : Shape) (field : String) : Shape :=
  { shape with range := shape.range ++ [field] }

def dropped (shape : Shape) : Shape :=
  { shape with skip := true }

/-- An argument of `where`. -/
def addFilter (shape : Shape) (argument : Argument) : Shape :=
  match argument with
  | .positional (.binaryOp left operator _) =>
      match literalStr left with
      | some field =>
          match operator with
          | .equal => { shape with equality := shape.equality ++ [field] }
          | .greater | .less | .greaterEqual | .lessEqual => shape.addRange field
          | _ => shape
      | none => shape.dropped
  | _ => shape

/-- The direction of `order`, if it can be told. -/
def direction? : Option Argument → Option Bool
  | none => some true
  | some (.positional direction) =>
      (literalStr direction).map fun text => decide (text ≠ "desc")
  | some (.named _ _) => some true

def classifyStage (name : String) (arguments : List Argument) (shape : Shape) : Shape :=
  match name with
  | "where" => arguments.foldl addFilter shape
  | "order" =>
      match arguments with
      | .positional field :: rest =>
          match literalStr field, direction? rest.head? with
          | some field, some ascending =>
              { shape with sort := shape.sort ++ [(field, ascending)] }
          | _, _ => shape.dropped
      | _ => shape
  | "in" =>
      match arguments with
      | .positional field :: _ =>
          match literalStr field with
          | some field => shape.addRange field
          | none => shape.dropped
      | _ => shape
  | _ => shape

/-- Stages other than calls do not count. -/
def addStage (shape : Shape) (stage : PipelineStage) : Shape :=
  match stage with
  | .expression (.functionCall name arguments) => shape.classifyStage name arguments
  | _ => shape

end Shape

/-- The collection of `doc.collection` and `doc.query("collection")`. -/
def docCollectionOf : Expression → Option String
  | .propertyAccess (.identifier "doc") property => some property
  | .methodCall (.identifier "doc") "query" (.positional (.stringLiteral collection) :: _) =>
      some collection
  | _ => none

/-- A collection and the keys that one of its queries asks for. -/
abbrev QueryShape := String × List IndexKey

def pipelineShape (input : Expression) (stages : List PipelineStage) : List QueryShape :=
  match docCollectionOf input with
  | some collection =>
      match (stages.foldl Shape.addStage .empty).intoComposite with
      | some keys => [(collection, keys)]
      | none => []
  | none => []

/-! ## The walk

What each part adds to the shapes, in the order of the source. -/

mutual
def walkStatements : List Statement → List QueryShape
  | [] => []
  | statement :: rest => walkStatement statement ++ walkStatements rest

def walkStatement : Statement → List QueryShape
  | .assignment _ value _ _ | .conditionalAssignment _ value _ _ _ => walkExpression value
  | .expressionStatement expression _ _ => walkExpression expression
  | .require condition _ _ _ _ | .reject condition _ _ _ _ => walkExpression condition
  | .while condition body _ _ => walkExpression condition ++ walkStatements body
  | .taskDef _ _ body _ _ => walkTaskBody body
  | .route _ _ _ allow _ body _ _ => walkExpressions allow ++ walkStatements body
  | .reply statusCode _ body _ _ _ _ => walkExpression statusCode ++ walkExpression body
  | .fail _ message _ _ => walkExpression message
  | .raise message condition _ _ => walkExpression message ++ walkOptional condition
  | .nack _ condition _ _ => walkOptional condition
  | .export statement => walkStatement statement
  | .transaction body _ _ => walkStatements body
  | .onQueue queueName _ _ body _ _ => walkExpression queueName ++ walkStatements body
  | .onTopic pattern _ _ body _ _ => walkExpression pattern ++ walkStatements body
  -- Scenarios are tests and serve no requests.
  | .schema .. | .authProvider .. | .scenario .. => []

def walkTaskBody : TaskBody → List QueryShape
  | .inline value => walkExpression value
  | .block statements result => walkStatements statements ++ walkExpression result

def walkExpressions : List Expression → List QueryShape
  | [] => []
  | value :: rest => walkExpression value ++ walkExpressions rest

def walkOptional : Option Expression → List QueryShape
  | none => []
  | some value => walkExpression value

def walkEntries : List (String × Expression) → List QueryShape
  | [] => []
  | (_, value) :: rest => walkExpression value ++ walkEntries rest

def walkArguments : List Argument → List QueryShape
  | [] => []
  | .positional value :: rest | .named _ value :: rest =>
      walkExpression value ++ walkArguments rest

def walkArms : List MatchArm → List QueryShape
  | [] => []
  | .mk _ value :: rest => walkExpression value ++ walkArms rest

def walkElse : Option TaskBody → List QueryShape
  | none => []
  | some body => walkTaskBody body

def walkExpression : Expression → List QueryShape
  | .integer _ | .float _ | .stringLiteral _ | .boolean _ | .null | .identifier _
  | .taskCall _ => []
  | .list items => walkExpressions items
  | .mapLiteral entries | .schemaConstructor _ entries => walkEntries entries
  | .binaryOp left _ right => walkExpression left ++ walkExpression right
  | .unaryOp _ operand => walkExpression operand
  | .propertyAccess object _ => walkExpression object
  | .methodCall object _ arguments => walkExpression object ++ walkArguments arguments
  | .httpClientResponseSchema call _ => walkExpression call
  | .functionCall _ arguments => walkArguments arguments
  | .matchOn subject arms => walkExpression subject ++ walkArms arms
  | .ifElse condition thenBranch elseBranch =>
      walkExpression condition ++ walkTaskBody thenBranch ++ walkElse elseBranch
  | .subscript object key => walkExpression object ++ walkExpression key
  | .pipeline input stages =>
      pipelineShape input stages ++ walkExpression input ++ walkPipelineStages stages
  | .broadcast input targets => walkExpression input ++ walkExpressions targets
  | .rescue expr handler => walkExpression expr ++ walkExpression handler
  | .queuePush queueName _ payload => walkExpression queueName ++ walkOptional payload
  | .topicPublish topic _ payload => walkExpression topic ++ walkOptional payload

def walkPipelineStages : List PipelineStage → List QueryShape
  | [] => []
  | stage :: rest => walkPipelineStage stage ++ walkPipelineStages rest

def walkPipelineStage : PipelineStage → List QueryShape
  | .expression value => walkExpression value
  | .map _ body => walkMapBody body
  | .reduce initial _ _ body => walkExpression initial ++ walkTaskBody body
  | .rescue (.inline value) => walkExpression value
  | .rescue (.block statements) => walkStatements statements

def walkMapBody : List MapStatement → List QueryShape
  | [] => []
  | .statement value :: rest => walkStatement value ++ walkMapBody rest
  | .keep value condition :: rest =>
      walkExpression value ++ walkOptional condition ++ walkMapBody rest
  | .skip condition :: rest => walkExpression condition ++ walkMapBody rest
end

/-! ## The plan -/

/-- Key by key, first by field and then descending before ascending. -/
def keysLe (one other : List IndexKey) : Prop :=
  one.map toLex ≤ other.map toLex

instance : DecidableRel keysLe :=
  fun one other => inferInstanceAs (Decidable (one.map toLex ≤ other.map toLex))

/-- A list of keys serves the queries of the lists it begins with. -/
def dedupByPrefix (shapes : List (List IndexKey)) : List (List IndexKey) :=
  let all := sortedDistinct keysLe shapes
  all.filter fun keys =>
    !all.any fun other => decide (keys.length < other.length) && keys.isPrefixOf other

/-- The keys of each collection, the collections in their order. -/
def plannedKeys (program : Program) : List QueryShape :=
  let shapes := walkStatements program
  (sortedDistinct (· ≤ ·) (shapes.map (·.1))).flatMap fun collection =>
    let own := (shapes.filter (·.1 = collection)).map (·.2)
    (dedupByPrefix own).map fun keys => (collection, keys)

/-- A query of the program asks for the keys, and no query of the collection asks for
more keys after these. -/
def Planned (program : Program) (shape : QueryShape) : Prop :=
  shape ∈ walkStatements program ∧
    ∀ keys, (shape.1, keys) ∈ walkStatements program → shape.2 <+: keys → keys = shape.2

theorem mem_dedupByPrefix {shapes : List (List IndexKey)} {keys : List IndexKey} :
    keys ∈ dedupByPrefix shapes ↔
      keys ∈ shapes ∧ ∀ other ∈ shapes, keys <+: other → other = keys := by
  unfold dedupByPrefix
  rw [List.mem_filter, mem_sortedDistinct]
  apply and_congr_right
  intro member
  rw [Bool.not_eq_true', List.any_eq_false]
  apply forall_congr'
  intro other
  rw [mem_sortedDistinct]
  apply imp_congr_right
  intro known
  rw [Bool.and_eq_true, decide_eq_true_eq, List.isPrefixOf_iff_prefix, not_and]
  constructor
  · intro longest begins
    have shortest : ¬ keys.length < other.length := fun longer => longest longer begins
    exact (begins.eq_of_length_le (by omega)).symm
  · intro longest longer begins
    rw [longest begins] at longer
    omega

theorem mem_plannedKeys {program : Program} {shape : QueryShape} :
    shape ∈ plannedKeys program ↔ Planned program shape := by
  obtain ⟨collection, keys⟩ := shape
  have own (other : List IndexKey) :
      other ∈ ((walkStatements program).filter (·.1 = collection)).map (·.2) ↔
        (collection, other) ∈ walkStatements program := by
    rw [List.mem_map]
    constructor
    · rintro ⟨⟨name, found⟩, member, rfl⟩
      obtain ⟨member, same⟩ := List.mem_filter.mp member
      rw [← of_decide_eq_true same]
      exact member
    · intro member
      exact ⟨(collection, other), List.mem_filter.mpr ⟨member, decide_eq_true rfl⟩, rfl⟩
  have kept : keys ∈ dedupByPrefix
        (((walkStatements program).filter (·.1 = collection)).map (·.2)) ↔
      Planned program (collection, keys) := by
    rw [mem_dedupByPrefix, own]
    apply and_congr_right
    intro _
    apply forall_congr'
    intro other
    rw [own]
  unfold plannedKeys
  rw [← kept, List.mem_flatMap]
  constructor
  · rintro ⟨name, -, member⟩
    obtain ⟨other, inside, same⟩ := List.mem_map.mp member
    cases same
    exact inside
  · intro inside
    refine ⟨collection, ?_, List.mem_map.mpr ⟨keys, inside, rfl⟩⟩
    rw [mem_sortedDistinct]
    exact List.mem_map_of_mem (kept.mp inside).1

end Marreta
