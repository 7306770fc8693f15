import Marreta.Project.Modules

namespace Marreta

open Foundation

/-! Which routes may use `auth`. -/

mutual
def expressionReferencesAuth : Expression → Bool
  | .identifier name => name = "auth"
  | .integer _ | .float _ | .stringLiteral _ | .boolean _ | .null | .taskCall _ => false
  | .list items => expressionsReferenceAuth items
  | .mapLiteral pairs => pairsReferenceAuth pairs
  | .schemaConstructor _ fields => pairsReferenceAuth fields
  | .binaryOp left _ right => expressionReferencesAuth left || expressionReferencesAuth right
  | .unaryOp _ operand => expressionReferencesAuth operand
  | .propertyAccess object _ => expressionReferencesAuth object
  | .methodCall object _ arguments =>
      expressionReferencesAuth object || argumentsReferenceAuth arguments
  | .httpClientResponseSchema call _ => expressionReferencesAuth call
  | .functionCall _ arguments => argumentsReferenceAuth arguments
  | .matchOn subject arms => expressionReferencesAuth subject || armsReferenceAuth arms
  | .ifElse condition thenBranch none =>
      expressionReferencesAuth condition || taskBodyReferencesAuth thenBranch
  | .ifElse condition thenBranch (some elseBranch) =>
      expressionReferencesAuth condition || taskBodyReferencesAuth thenBranch ||
        taskBodyReferencesAuth elseBranch
  | .subscript object key => expressionReferencesAuth object || expressionReferencesAuth key
  | .pipeline input stages => expressionReferencesAuth input || stagesReferenceAuth stages
  | .broadcast input targets =>
      expressionReferencesAuth input || expressionsReferenceAuth targets
  | .rescue expr handler => expressionReferencesAuth expr || expressionReferencesAuth handler
  | .queuePush queueName _ none => expressionReferencesAuth queueName
  | .queuePush queueName _ (some payload) =>
      expressionReferencesAuth queueName || expressionReferencesAuth payload
  | .topicPublish topic _ none => expressionReferencesAuth topic
  | .topicPublish topic _ (some payload) =>
      expressionReferencesAuth topic || expressionReferencesAuth payload

def expressionsReferenceAuth : List Expression → Bool
  | [] => false
  | value :: rest => expressionReferencesAuth value || expressionsReferenceAuth rest

def pairsReferenceAuth : List (String × Expression) → Bool
  | [] => false
  | (_, value) :: rest => expressionReferencesAuth value || pairsReferenceAuth rest

def argumentsReferenceAuth : List Argument → Bool
  | [] => false
  | .positional value :: rest | .named _ value :: rest =>
      expressionReferencesAuth value || argumentsReferenceAuth rest

def armsReferenceAuth : List MatchArm → Bool
  | [] => false
  | .mk (.literal pattern) value :: rest =>
      expressionReferencesAuth pattern || expressionReferencesAuth value ||
        armsReferenceAuth rest
  | .mk .fallback value :: rest => expressionReferencesAuth value || armsReferenceAuth rest

def taskBodyReferencesAuth : TaskBody → Bool
  | .inline value => expressionReferencesAuth value
  | .block statements result =>
      statementsReferenceAuth statements || expressionReferencesAuth result

def stagesReferenceAuth : List PipelineStage → Bool
  | [] => false
  | .expression value :: rest => expressionReferencesAuth value || stagesReferenceAuth rest
  | .map _ body :: rest => mapStatementsReferenceAuth body || stagesReferenceAuth rest
  | .reduce initial _ _ body :: rest =>
      expressionReferencesAuth initial || taskBodyReferencesAuth body || stagesReferenceAuth rest
  | .rescue (.inline value) :: rest =>
      expressionReferencesAuth value || stagesReferenceAuth rest
  | .rescue (.block statements) :: rest =>
      statementsReferenceAuth statements || stagesReferenceAuth rest

def mapStatementsReferenceAuth : List MapStatement → Bool
  | [] => false
  | .statement value :: rest => statementReferencesAuth value || mapStatementsReferenceAuth rest
  | .keep value none :: rest =>
      expressionReferencesAuth value || mapStatementsReferenceAuth rest
  | .keep value (some condition) :: rest =>
      expressionReferencesAuth value || expressionReferencesAuth condition ||
        mapStatementsReferenceAuth rest
  | .skip condition :: rest =>
      expressionReferencesAuth condition || mapStatementsReferenceAuth rest

def statementReferencesAuth : Statement → Bool
  | .assignment _ value _ _ => expressionReferencesAuth value
  | .conditionalAssignment _ value condition _ _ =>
      expressionReferencesAuth value || expressionReferencesAuth condition
  | .require condition _ _ _ _ | .reject condition _ _ _ _ => expressionReferencesAuth condition
  | .while condition body _ _ =>
      expressionReferencesAuth condition || statementsReferenceAuth body
  | .taskDef _ _ body _ _ => taskBodyReferencesAuth body
  | .expressionStatement expression _ _ => expressionReferencesAuth expression
  | .route _ _ auth allow _ body _ _ =>
      auth.isSome || expressionsReferenceAuth allow || statementsReferenceAuth body
  | .schema .. | .authProvider .. | .scenario .. => false
  | .reply statusCode _ body _ none _ _ =>
      expressionReferencesAuth statusCode || expressionReferencesAuth body
  | .reply statusCode _ body _ (some extraHeaders) _ _ =>
      expressionReferencesAuth statusCode || expressionReferencesAuth body ||
        expressionReferencesAuth extraHeaders
  | .fail _ message _ _ => expressionReferencesAuth message
  | .raise message none _ _ => expressionReferencesAuth message
  | .raise message (some condition) _ _ =>
      expressionReferencesAuth message || expressionReferencesAuth condition
  | .export statement => statementReferencesAuth statement
  | .transaction body _ _ => statementsReferenceAuth body
  | .onQueue queueName _ _ body _ _ =>
      expressionReferencesAuth queueName || statementsReferenceAuth body
  | .onTopic pattern _ _ body _ _ =>
      expressionReferencesAuth pattern || statementsReferenceAuth body
  | .nack _ none _ _ => false
  | .nack _ (some condition) _ _ => expressionReferencesAuth condition

def statementsReferenceAuth : List Statement → Bool
  | [] => false
  | statement :: rest => statementReferencesAuth statement || statementsReferenceAuth rest
end

def validateRouteAuth (authProviders : Table String AuthProvider) (route : RouteDefinition) :
    Except MarretaError Unit :=
  let name := route.verb.display ++ " " ++ route.path
  match route.auth with
  | some auth =>
      if (authProviders.lookup auth.provider).isSome then .ok ()
      else
        .error (.runtimeError
          ("route " ++ name ++ " requires unknown auth provider '" ++ auth.provider ++ "'")
          auth.line auth.column)
  | none =>
      if !route.allow.isEmpty then
        .error (.runtimeError ("route " ++ name ++ " declares allow without require auth")
          route.line route.column)
      else if statementsReferenceAuth route.body then
        .error (.runtimeError
          ("public route " ++ name ++
            " cannot access auth; add `require auth <provider>` first")
          route.line route.column)
      else .ok ()

def validateAuthContract (routes : List RouteDefinition)
    (authProviders : Table String AuthProvider) : Except MarretaError Unit :=
  routes.forM (validateRouteAuth authProviders)

end Marreta
