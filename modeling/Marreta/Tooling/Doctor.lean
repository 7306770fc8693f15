import Marreta.Config.ConnectionUrls
import Marreta.Project.PublicRoutes

namespace Marreta

open Foundation Config

/-! What `doctor` checks.

The report validates the configuration of a provider when the project shows the intent to use
it.  The intent is read off the code of the loaded project, without running it. -/

namespace Doctor

inductive Provider where
  | db | doc | cache | queue
deriving DecidableEq

/-- The identifier that shows the intent. -/
def Provider.name : Provider → String
  | .db => "db"
  | .doc => "doc"
  | .cache => "cache"
  | .queue => "queue"

/-! ## Visits

A visit sets flags and clears none, so each flag is one search for the provider. -/

section

variable (provider : Provider)

mutual
def visitExpression : Expression → Bool
  | .identifier name => name = provider.name
  | .binaryOp left _ right => visitExpression left || visitExpression right
  | .unaryOp _ operand => visitExpression operand
  | .propertyAccess object _ => visitExpression object
  | .methodCall object _ arguments => visitExpression object || visitArguments arguments
  | .httpClientResponseSchema call _ => visitExpression call
  | .functionCall _ arguments => visitArguments arguments
  | .taskCall _ => false
  | .matchOn subject arms => visitExpression subject || visitArms arms
  | .ifElse condition thenBranch none => visitExpression condition || visitTaskBody thenBranch
  | .ifElse condition thenBranch (some elseBranch) =>
      visitExpression condition || visitTaskBody thenBranch || visitTaskBody elseBranch
  | .subscript object key => visitExpression object || visitExpression key
  | .pipeline input stages => visitExpression input || visitStages stages
  | .broadcast input targets => visitExpression input || visitExpressions targets
  | .rescue expr handler => visitExpression expr || visitExpression handler
  | .queuePush queueName _ none => provider = .queue || visitExpression queueName
  | .queuePush queueName _ (some payload) =>
      provider = .queue || visitExpression queueName || visitExpression payload
  | .topicPublish topic _ none => provider = .queue || visitExpression topic
  | .topicPublish topic _ (some payload) =>
      provider = .queue || visitExpression topic || visitExpression payload
  | .integer _ | .float _ | .stringLiteral _ | .boolean _ | .null => false
  | .list items => visitExpressions items
  | .mapLiteral items => visitPairs items
  | .schemaConstructor _ fields => visitPairs fields

def visitExpressions : List Expression → Bool
  | [] => false
  | value :: rest => visitExpression value || visitExpressions rest

def visitPairs : List (String × Expression) → Bool
  | [] => false
  | (_, value) :: rest => visitExpression value || visitPairs rest

def visitArguments : List Argument → Bool
  | [] => false
  | .positional value :: rest | .named _ value :: rest =>
      visitExpression value || visitArguments rest

/-- The patterns are not visited. -/
def visitArms : List MatchArm → Bool
  | [] => false
  | .mk _ value :: rest => visitExpression value || visitArms rest

def visitTaskBody : TaskBody → Bool
  | .inline value => visitExpression value
  | .block statements result => visitStatements statements || visitExpression result

def visitStages : List PipelineStage → Bool
  | [] => false
  | .expression value :: rest => visitExpression value || visitStages rest
  | .map _ body :: rest => visitMapStatements body || visitStages rest
  | .reduce initial _ _ body :: rest =>
      visitExpression initial || visitTaskBody body || visitStages rest
  | .rescue (.inline value) :: rest => visitExpression value || visitStages rest
  | .rescue (.block statements) :: rest => visitStatements statements || visitStages rest

def visitMapStatements : List MapStatement → Bool
  | [] => false
  | .statement value :: rest => visitStatement value || visitMapStatements rest
  | .keep value none :: rest => visitExpression value || visitMapStatements rest
  | .keep value (some condition) :: rest =>
      visitExpression value || visitExpression condition || visitMapStatements rest
  | .skip condition :: rest => visitExpression condition || visitMapStatements rest

def visitStatement : Statement → Bool
  | .assignment _ value _ _ => visitExpression value
  | .conditionalAssignment _ value condition _ _ =>
      visitExpression value || visitExpression condition
  | .require condition _ _ _ _ | .reject condition _ _ _ _ => visitExpression condition
  | .while condition body _ _ => visitExpression condition || visitStatements body
  | .taskDef _ _ body _ _ => visitTaskBody body
  | .expressionStatement expression _ _ => visitExpression expression
  | .route _ _ _ _ _ body _ _ => visitStatements body
  | .schema .. => false
  | .authProvider (.jwt _ fields) _ _ | .authProvider (.apiKey _ fields) _ _ => visitFields fields
  | .reply statusCode _ body _ none _ _ => visitExpression statusCode || visitExpression body
  | .reply statusCode _ body _ (some extraHeaders) _ _ =>
      visitExpression statusCode || visitExpression body || visitExpression extraHeaders
  | .fail _ message _ _ => visitExpression message
  | .raise message none _ _ => visitExpression message
  | .raise message (some condition) _ _ => visitExpression message || visitExpression condition
  | .export statement => visitStatement statement
  -- A transaction does not show that the database is used.
  | .transaction body _ _ => visitStatements body
  | .onQueue queueName _ _ body _ _ =>
      provider = .queue || visitExpression queueName || visitStatements body
  | .onTopic pattern _ _ body _ _ =>
      provider = .queue || visitExpression pattern || visitStatements body
  | .nack _ none _ _ => false
  | .nack _ (some condition) _ _ => visitExpression condition
  | .scenario _ steps _ _ => visitSteps steps

def visitStatements : List Statement → Bool
  | [] => false
  | statement :: rest => visitStatement statement || visitStatements rest

def visitFields : List AuthProviderField → Bool
  | [] => false
  | .mk _ value _ _ :: rest => visitExpression value || visitFields rest

def visitSteps : List ScenarioStep → Bool
  | [] => false
  | .given target returns _ _ :: rest =>
      visitExpression target || visitExpression returns || visitSteps rest
  | .when _ _ none none _ _ :: rest => visitSteps rest
  | .when _ _ (some body) none _ _ :: rest => visitExpression body || visitSteps rest
  | .when _ _ none (some headers) _ _ :: rest => visitExpression headers || visitSteps rest
  | .when _ _ (some body) (some headers) _ _ :: rest =>
      visitExpression body || visitExpression headers || visitSteps rest
  | .thenStatus status _ _ :: rest => visitExpression status || visitSteps rest
  | .thenResponse expected _ _ :: rest => visitExpression expected || visitSteps rest
end

end

/-! ## The intent of a project -/

structure DoctorIntent where
  db : Bool
  doc : Bool
  cache : Bool
  queue : Bool
  migrations : Bool
deriving DecidableEq

def DoctorIntent.shows (intent : DoctorIntent) : Provider → Bool
  | .db => intent.db
  | .doc => intent.doc
  | .cache => intent.cache
  | .queue => intent.queue

/-- The parts of the registry that are read. -/
structure RouteRegistry where
  routes : List RouteDefinition
  persistentSchemas : Schemas
  startupStmts : List Statement
  consumers : List ConsumerDefinition

def isExport : Statement → Bool
  | .export _ => true
  | _ => false

/-- The startup statements of the entrypoint, and the exports of the other files. -/
def mergedStartup (modules : List ModuleDefinition) : List Statement :=
  modules.flatMap fun module =>
    if module.isEntrypoint then module.startupStmts else module.startupStmts.filter isExport

def registryOf (merged : MergedModules) : RouteRegistry where
  routes := merged.routes
  persistentSchemas := collectPersistentSchemas merged.allSchemas
  startupStmts := mergedStartup merged.modules
  consumers := merged.consumers

def visitsProject (provider : Provider) (registry : RouteRegistry) : Bool :=
  visitStatements provider registry.startupStmts ||
    (registry.routes.any fun route => visitStatements provider route.body) ||
    registry.consumers.any fun consumer =>
      provider = .queue || visitExpression provider consumer.target ||
        visitStatements provider consumer.body

def discoverProjectIntent (registry : RouteRegistry) : DoctorIntent where
  db := !registry.persistentSchemas.isEmpty || visitsProject .db registry
  doc := visitsProject .doc registry
  cache := visitsProject .cache registry
  queue := visitsProject .queue registry
  migrations := !registry.persistentSchemas.isEmpty

/-! ## The report -/

inductive DoctorStatus where
  | ok | error | skip | plain
deriving DecidableEq

structure DoctorEntry where
  status : DoctorStatus
  message : String
deriving DecidableEq

structure DoctorSection where
  title : String
  entries : List DoctorEntry
deriving DecidableEq

structure DoctorReport where
  sections : List DoctorSection
  hasErrors : Bool
deriving DecidableEq

def okEntry (message : String) : DoctorEntry :=
  { status := .ok, message }

def errorEntry (message : String) : DoctorEntry :=
  { status := .error, message }

/-- The parts of the configuration that are read. -/
structure MarretaConfig where
  configErrors : List String
  db : Option DbRuntimeConfig
  doc : Option DocRuntimeConfig
  cache : Option CacheRuntimeConfig
  queue : Option QueueRuntimeConfig

abbrev Checked :=
  Except (List DoctorEntry) (List DoctorEntry)

def configErrorsForPrefix (config : MarretaConfig) (key : String) : List String :=
  config.configErrors.filter fun message => key.toList <:+: message.toList

def validateRuntimeConfig {α : Type} (configErrors : List String) (value : Option α)
    (missingProviderMessage : String) (validator : α → Except String (List DoctorEntry)) :
    Checked :=
  if configErrors ≠ [] then .error (configErrors.map errorEntry)
  else
    match value with
    | none => .error [errorEntry missingProviderMessage]
    | some value => (validator value).mapError fun message => [errorEntry message]

def providerEntries (kind provider : String) (host : Option (List Char)) : List DoctorEntry :=
  [okEntry (kind ++ " provider = " ++ provider),
    okEntry (kind ++ " host = " ++ (host.map String.ofList).getD "<missing>")]

section

variable (toLowercase : String → String) (config : MarretaConfig)

def validateDbConfig : Checked :=
  validateRuntimeConfig (configErrorsForPrefix config "MARRETA_DB_") config.db
    "MARRETA_DB_PROVIDER is required for projects that use db.* or db: schemas"
    fun db => do
      let _ ← db.connectionUrl toLowercase
      return providerEntries "db" db.provider db.host

def validateDocConfig : Checked :=
  validateRuntimeConfig (configErrorsForPrefix config "MARRETA_DOC_") config.doc
    "MARRETA_DOC_PROVIDER is required for projects that use doc.*"
    fun doc => do
      let _ ← doc.connectionUrl toLowercase
      return providerEntries "doc" doc.provider doc.host

def validateCacheConfig : Checked :=
  validateRuntimeConfig (configErrorsForPrefix config "MARRETA_CACHE_") config.cache
    "MARRETA_CACHE_PROVIDER is required for projects that use cache.*"
    fun cache => do
      let _ ← cache.connectionUrl toLowercase
      return providerEntries "cache" cache.provider cache.host

def validateQueueConfig : Checked :=
  validateRuntimeConfig (configErrorsForPrefix config "MARRETA_QUEUE_") config.queue
    "MARRETA_QUEUE_PROVIDER is required for projects that use queue.* or queue consumers"
    fun queue => do
      let _ ← queue.connectionUrl toLowercase
      return providerEntries "queue" queue.provider queue.host

def validateConfig : Provider → Checked
  | .db => validateDbConfig toLowercase config
  | .doc => validateDocConfig toLowercase config
  | .cache => validateCacheConfig toLowercase config
  | .queue => validateQueueConfig toLowercase config

/-- The entries of a check, and whether it failed. -/
def checkEntries : Checked → List DoctorEntry × Bool
  | .ok lines => (lines, false)
  | .error lines => (lines, true)

/-- The providers are checked in this order. -/
def configChecks (intent : DoctorIntent) : List (List DoctorEntry × Bool) :=
  ([.db, .doc, .cache, .queue].filter intent.shows).map fun provider =>
    checkEntries (validateConfig toLowercase config provider)

def intentEntries (intent : DoctorIntent) : List DoctorEntry :=
  ([.db, .doc, .cache, .queue].filter intent.shows).map (fun provider => okEntry provider.name) ++
    if intent.migrations then [okEntry "migrations"] else []

/-- A section without entries is left out. -/
def sectionOf (title : String) (entries : List DoctorEntry) : List DoctorSection :=
  if entries.isEmpty then [] else [{ title, entries }]

/-- The other sections of a report, with whether they found errors. -/
structure OtherSections where
  project : DoctorSection
  declarations : DoctorReport
  rest : DoctorReport

def buildDoctorReport (others : OtherSections) (registry : RouteRegistry) : DoctorReport :=
  let intent := discoverProjectIntent registry
  let checks := configChecks toLowercase config intent
  { sections := others.project :: sectionOf "Intent" (intentEntries intent) ++
      others.declarations.sections ++ sectionOf "Config" (checks.flatMap (·.1)) ++
      others.rest.sections
    hasErrors := others.declarations.hasErrors || checks.any (·.2) || others.rest.hasErrors }

end

/-! ## Code that a visit reads -/

def armValue : MatchArm → Call
  | .mk _ value => .expression value

/-- Every part of an expression is read, but no pattern. -/
def readParts : Call → List Call
  | .expression (.matchOn subject arms) =>
      .expression subject :: arms.map armValue
  | .expression value => value.parts
  | .statement (.taskDef _ _ body _ _) => body.parts
  | .statement value => value.parts

/-- What the visit takes for a use of the provider. -/
def Marks (provider : Provider) : Call → Prop
  | .expression (.identifier name) => name = provider.name
  | .expression (.queuePush ..) | .expression (.topicPublish ..) => provider = .queue
  | _ => False

def visitCall (provider : Provider) : Call → Bool
  | .expression value => visitExpression provider value
  | .statement value => visitStatement provider value

/-- Code that a visit of the call comes to. -/
inductive Read : Call → Call → Prop
  | self (call : Call) : Read call call
  | part {call part inner : Call} (member : part ∈ readParts call) (read : Read part inner) :
      Read call inner

/-! ## Visits of parts -/

section

variable {provider : Provider}

theorem visitExpressions_eq (items : List Expression) :
    visitExpressions provider items = (items.map Call.expression).any (visitCall provider) := by
  induction items with
  | nil => rfl
  | cons value rest induction =>
      rw [visitExpressions, induction]
      rfl

theorem visitPairs_eq (items : List (String × Expression)) :
    visitPairs provider items =
      (items.map fun pair => Call.expression pair.2).any (visitCall provider) := by
  induction items with
  | nil => rfl
  | cons pair rest induction =>
      rw [visitPairs, induction]
      rfl

theorem visitArguments_eq (items : List Argument) :
    visitArguments provider items = (items.map Argument.part).any (visitCall provider) := by
  induction items with
  | nil => rfl
  | cons argument rest induction =>
      cases argument <;>
      · rw [visitArguments, induction]
        rfl

theorem visitArms_eq (arms : List MatchArm) :
    visitArms provider arms = (arms.map armValue).any (visitCall provider) := by
  induction arms with
  | nil => rfl
  | cons arm rest induction =>
      cases arm
      rw [visitArms, induction]
      rfl

theorem visitStatements_eq (statements : List Statement) :
    visitStatements provider statements =
      (statements.map Call.statement).any (visitCall provider) := by
  induction statements with
  | nil => rfl
  | cons statement rest induction =>
      rw [visitStatements, induction]
      rfl

theorem visitTaskBody_eq (body : TaskBody) :
    visitTaskBody provider body = body.parts.any (visitCall provider) := by
  cases body with
  | inline value => simp [visitTaskBody, TaskBody.parts, visitCall]
  | block statements result =>
      simp only [visitTaskBody, visitStatements_eq, TaskBody.parts, List.any_append, List.any_cons,
        List.any_nil, Bool.or_false, visitCall]

theorem visitMapStatements_eq (body : List MapStatement) :
    visitMapStatements provider body =
      (body.flatMap MapStatement.parts).any (visitCall provider) := by
  induction body with
  | nil => rfl
  | cons statement rest induction =>
      rw [List.flatMap_cons, List.any_append, ← induction]
      cases statement with
      | statement value => simp [visitMapStatements, MapStatement.parts, visitCall]
      | keep value condition =>
          cases condition <;>
            simp [visitMapStatements, MapStatement.parts, optionalPart, visitCall]
      | skip condition => simp [visitMapStatements, MapStatement.parts, visitCall]

theorem visitStages_eq (stages : List PipelineStage) :
    visitStages provider stages =
      (stages.flatMap PipelineStage.parts).any (visitCall provider) := by
  induction stages with
  | nil => rfl
  | cons stage rest induction =>
      rw [List.flatMap_cons, List.any_append, ← induction]
      cases stage with
      | expression value => simp [visitStages, PipelineStage.parts, visitCall]
      | map element body => rw [visitStages, visitMapStatements_eq, PipelineStage.parts]
      | reduce initial accumulator item body =>
          simp [visitStages, visitTaskBody_eq, PipelineStage.parts, visitCall]
      | rescue handler =>
          cases handler with
          | inline value =>
              simp [visitStages, PipelineStage.parts, RescueHandler.parts, visitCall]
          | block statements =>
              rw [visitStages, visitStatements_eq, PipelineStage.parts, RescueHandler.parts]

theorem visitExpression_of_part {value : Expression} {part : Call}
    (member : part ∈ readParts (.expression value)) (visited : visitCall provider part = true) :
    visitExpression provider value = true := by
  have found : (readParts (.expression value)).any (visitCall provider) = true :=
    List.any_eq_true.mpr ⟨part, member, visited⟩
  cases value with
  | integer | float | stringLiteral | boolean | null | identifier | taskCall => cases member
  | list items => rwa [visitExpression, visitExpressions_eq]
  | mapLiteral | schemaConstructor => rwa [visitExpression, visitPairs_eq]
  | binaryOp | unaryOp | propertyAccess | subscript | rescue | httpClientResponseSchema =>
      simpa [visitExpression, visitCall, readParts, Expression.parts] using found
  | methodCall object method arguments =>
      rw [visitExpression, visitArguments_eq]
      exact found
  | functionCall name arguments => rwa [visitExpression, visitArguments_eq]
  | matchOn subject arms =>
      rw [visitExpression, visitArms_eq]
      rwa [readParts, List.any_cons] at found
  | ifElse condition thenBranch elseBranch =>
      cases elseBranch with
      | none => simpa [visitExpression, visitTaskBody_eq, visitCall, readParts,
          Expression.parts] using found
      | some elseBranch => simpa [visitExpression, visitTaskBody_eq, visitCall, readParts,
          Expression.parts, or_assoc] using found
  | pipeline input stages =>
      rw [visitExpression, visitStages_eq]
      exact found
  | broadcast input targets =>
      rw [visitExpression, visitExpressions_eq]
      exact found
  | queuePush _ _ payload | topicPublish _ _ payload =>
      cases payload <;> simp_all [visitExpression, visitCall, readParts, Expression.parts,
        optionalPart, or_assoc]

theorem visitStatement_of_part {value : Statement} {part : Call}
    (member : part ∈ readParts (.statement value)) (visited : visitCall provider part = true) :
    visitStatement provider value = true := by
  have found : (readParts (.statement value)).any (visitCall provider) = true :=
    List.any_eq_true.mpr ⟨part, member, visited⟩
  cases value with
  | route | schema | authProvider | onQueue | onTopic | scenario => cases member
  | assignment | require | reject | expressionStatement | fail | «export» =>
      simpa [visitStatement, visitCall, readParts, Statement.parts] using found
  | conditionalAssignment target value condition line column =>
      simpa [visitStatement, visitCall, readParts, Statement.parts, or_comm] using found
  | «while» condition body line column =>
      rw [visitStatement, visitStatements_eq]
      exact found
  | taskDef name params body line column => rwa [visitStatement, visitTaskBody_eq]
  | reply status contentType body schema headers line column =>
      cases headers <;> simpa [visitStatement, visitCall, readParts, Statement.parts, optionalPart,
        or_assoc] using found
  | raise message condition line column =>
      cases condition <;> simpa [visitStatement, visitCall, readParts, Statement.parts,
        optionalPart] using found
  | transaction body line column => rwa [visitStatement, visitStatements_eq]
  | nack requeue condition line column =>
      cases condition with
      | none => cases member
      | some condition => simpa [visitStatement, visitCall, readParts, Statement.parts,
          optionalPart] using found

/-- A visit goes into the parts of what it is handed. -/
theorem visitCall_of_part {call part : Call} (member : part ∈ readParts call)
    (visited : visitCall provider part = true) : visitCall provider call = true := by
  cases call with
  | expression value => exact visitExpression_of_part member visited
  | statement value => exact visitStatement_of_part member visited

theorem visitCall_of_marks {call : Call} (marks : Marks provider call) :
    visitCall provider call = true := by
  cases call with
  | statement value => exact marks.elim
  | expression value =>
      cases value with
      | identifier name => exact decide_eq_true marks
      | queuePush queueName name payload =>
          obtain rfl : provider = .queue := marks
          cases payload <;> simp [visitCall, visitExpression]
      | topicPublish topic name payload =>
          obtain rfl : provider = .queue := marks
          cases payload <;> simp [visitCall, visitExpression]
      | _ => exact marks.elim

theorem visitCall_of_read {call inner : Call} (read : Read call inner)
    (marks : Marks provider inner) : visitCall provider call = true := by
  induction read with
  | self call => exact visitCall_of_marks marks
  | part member read induction => exact visitCall_of_part member (induction marks)

end

end Doctor
end Marreta
