import Marreta.Foundation.Numbering
import Marreta.OpenApi.Outcomes

namespace Marreta

open Foundation

/-! The operations of the document and the components they refer to. -/

namespace OpenApi

/-! ## Bodies -/

/-- The schema that is shown for a body. -/
inductive BodySchema where
  | typed (type : ApiType) (format : Option ApiFormat)
  | freeForm
  | nullable
  | unconstrained
  | items (element : BodySchema)
  | properties (entries : List (String × BodySchema))
  | ref (name : String)
  /-- An object of a schema without a component. -/
  | unresolved (name : String)

namespace BodySchema

mutual
/-- Equality of documents, in which the order of properties does not count. -/
def same : BodySchema → BodySchema → Bool
  | .typed type format, .typed other otherFormat => type = other && format = otherFormat
  | .freeForm, .freeForm | .nullable, .nullable | .unconstrained, .unconstrained => true
  | .items element, .items other => element.same other
  | .properties entries, .properties others =>
      entries.length = others.length && sameEntries entries others
  | .ref name, .ref other | .unresolved name, .unresolved other => name = other
  | _, _ => false

def sameEntries : List (String × BodySchema) → List (String × BodySchema) → Bool
  | [], _ => true
  | (key, schema) :: rest, others =>
      (match others.lookup key with
        | some other => schema.same other
        | none => false) && sameEntries rest others
end

mutual
/-- The names of the components that are referred to. -/
def refs : BodySchema → List String
  | .ref name => [name]
  | .items element => element.refs
  | .properties entries => entriesRefs entries
  | .typed .. | .freeForm | .nullable | .unconstrained | .unresolved _ => []

def entriesRefs : List (String × BodySchema) → List String
  | [] => []
  | (_, schema) :: rest => schema.refs ++ entriesRefs rest
end

end BodySchema

section Bodies

variable (componentNames : List String)

def schemaRefOrFallback (name : String) : BodySchema :=
  if name ∈ componentNames then .ref name else .unresolved name

mutual
def inferExpressionSchema : Expression → BodySchema
  | .stringLiteral _ => .typed .string none
  | .integer _ => .typed .integer (some .int64)
  | .float _ => .typed .number (some .float)
  | .boolean _ => .typed .boolean none
  | .null => .nullable
  | .list items => .items (inferListItemSchema items)
  | .mapLiteral items => .properties (inferProperties [] items)
  | .schemaConstructor schemaName _ => schemaRefOrFallback componentNames schemaName
  | .functionCall name arguments =>
      if name = "decimal" ∧ arguments ≠ [] then .typed .string (some .decimal)
      else .typed .object none
  | _ => .typed .object none

/-- The schema of all items, if they have the same. -/
def inferListItemSchema : List Expression → BodySchema
  | [] => .unconstrained
  | first :: rest =>
      let firstSchema := inferExpressionSchema first
      if allInfer firstSchema rest then firstSchema else .unconstrained

def allInfer (schema : BodySchema) : List Expression → Bool
  | [] => true
  | item :: rest => (inferExpressionSchema item).same schema && allInfer schema rest

/-- The last property of a key counts. -/
def inferProperties (properties : Table String BodySchema) :
    List (String × Expression) → Table String BodySchema
  | [] => properties
  | (key, value) :: rest =>
      inferProperties (Table.put properties key (inferExpressionSchema value)) rest
end

/-- The media type of a body with its schema. -/
structure Content where
  mediaType : String
  schema : BodySchema

/-- What is shown of a reply. -/
def responseContent (response : ResponseSpec) : Content :=
  match response.contentType with
  | .json =>
      { mediaType := "application/json"
        schema := (response.schemaName.map (schemaRefOrFallback componentNames)).getD
          (inferExpressionSchema componentNames response.body) }
  | .html => { mediaType := "text/html", schema := .typed .string none }
  | .text => { mediaType := "text/plain", schema := .typed .string none }

def buildRequestBody (route : RouteDefinition) : Option Content :=
  if route.take.any (·.kind = .payload) then
    some
      { mediaType := "application/json"
        schema := ((bindingSchema route.take .payload).map
          (schemaRefOrFallback componentNames)).getD .freeForm }
  else if route.take.any (·.kind = .raw) then
    some { mediaType := "text/plain", schema := .typed .string none }
  else if route.take.any (·.kind = .form) then
    some { mediaType := "application/x-www-form-urlencoded", schema := .typed .object none }
  else none

end Bodies

/-! ## Operation ids -/

def verbStr : HttpVerb → String
  | .get => "get"
  | .post => "post"
  | .put => "put"
  | .patch => "patch"
  | .delete => "delete"

def normalizeOperationIdSegment (segment : List Char) : List Char :=
  segment.map fun ch => if ch.isAlphanum then ch.toLower else '_'

/-- Drop the underscores that follow an underscore. -/
def collapseRuns (previousUnderscore : Bool) : List Char → List Char
  | [] => []
  | ch :: rest =>
      if ch = '_' then
        if previousUnderscore then collapseRuns true rest else '_' :: collapseRuns true rest
      else ch :: collapseRuns false rest

def collapseUnderscores (input : List Char) : List Char :=
  (((collapseRuns false input).dropWhile (· = '_')).reverse.dropWhile (· = '_')).reverse

def operationIdSegment : List Char → List Char
  | ':' :: param => '_' :: ("by_".toList ++ normalizeOperationIdSegment param)
  | segment => '_' :: normalizeOperationIdSegment segment

/-- The id of a route that no other route has taken. -/
def naturalId (route : RouteDefinition) : String :=
  String.ofList (collapseUnderscores ((verbStr route.verb).toList ++
    ((route.path.toList.splitOn '/').filter (· ≠ [])).flatMap operationIdSegment))

/-- A further use of an id. -/
def repeatedId (id : String) (count : Nat) : String :=
  id ++ "_" ++ toString count

/-- The id of a route, with the number of uses of each id so far. -/
def operationId (route : RouteDefinition) (seen : Table String Nat) : String × Table String Nat :=
  let id := naturalId route
  let count := (seen.lookup id).getD 0 + 1
  (numbered repeatedId id count, Table.put seen id count)

/-! ## Operations -/

/-- A path with each parameter in braces. -/
def toOpenapiPath (path : String) : List Char :=
  List.intercalate ['/'] ((path.toList.splitOn '/').map fun segment =>
    match segment with
    | ':' :: name => '\x7b' :: name ++ ['\x7d']
    | segment => segment)

/-- An operation without its tags, parameters and security.  The parameters show the fields of
the schemas of the query and the headers. -/
structure Operation where
  operationId : String
  requestBody : Option Content
  responses : Table ResponseKey (Option Content)

structure OperationKey where
  path : List Char
  verb : HttpVerb
deriving DecidableEq

def operationKey (route : RouteDefinition) : OperationKey where
  path := toOpenapiPath route.path
  verb := route.verb

def buildOperation (componentNames : List String) (route : RouteDefinition) (operationId : String) :
    Operation where
  operationId
  requestBody := buildRequestBody componentNames route
  responses :=
    let listed := listedResponses route
    if listed.isEmpty then
      [(.code 200, some { mediaType := "application/json", schema := .typed .object none })]
    else
      listed.map fun entry => (entry.1, entry.2.reply.map (responseContent componentNames))

/-- The names of the components that an operation refers to. -/
def Operation.refs (operation : Operation) : List String :=
  (operation.requestBody.toList ++ operation.responses.filterMap (·.2)).flatMap (·.schema.refs)

/-- The operations of the paths.  The last one of a path and a verb stays. -/
def buildPaths (componentNames : List String) :
    List RouteDefinition → Table String Nat → Table OperationKey Operation →
      Table OperationKey Operation
  | [], _, paths => paths
  | route :: routes, seen, paths =>
      let (id, seen) := operationId route seen
      buildPaths componentNames routes seen
        (Table.put paths (operationKey route) (buildOperation componentNames route id))

structure Document where
  paths : Table OperationKey Operation
  components : Components

def buildDocument (runtime : ProjectRuntime) (routes : List RouteDefinition) (schemas : Schemas) :
    Document :=
  let components := buildComponentSchemas runtime routes schemas
  { paths := buildPaths components.keys routes [] [], components }

end OpenApi
end Marreta
