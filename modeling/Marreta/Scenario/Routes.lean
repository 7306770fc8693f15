import Marreta.Foundation.Escapes
import Marreta.Server.Registration

namespace Marreta.Scenario

open Foundation

/-! The route of a scenario.

Scenarios run routes without a server, so they look for the route of a request
themselves: the first one whose parts are those of the path. -/

/-! ## The live server -/

/-- What the HTTP library makes of the texts of a request. -/
structure HttpTexts where
  /-- A parameter of a path, unless it is no text after decoding. -/
  decodeParameter : List Char → Option (List Char)
  /-- A key or a value of a query. -/
  decodeQuery : List Char → List Char

/-- Parameters are percent-decoded, the pairs of a query are decoded as in a form. -/
structure HttpTexts.Lawful (texts : HttpTexts) : Prop where
  kept : ∀ {text}, ¬ Escapes.HasEscape text → texts.decodeParameter text = some text
  shorter : ∀ {text decoded}, Escapes.HasEscape text →
    texts.decodeParameter text = some decoded → decoded.length < text.length
  form : Escapes.DecodesForm texts.decodeQuery

structure RequestTarget where
  path : List Char
  query : List Char

/-- Both tables hold the same values. -/
def SameValues (one other : Table String String) : Prop :=
  ∀ name, one.lookup name = other.lookup name

def templates (list : List Registration) : List Template :=
  list.filterMap fun registration => Template.parse registration.template

/-- The parameters of a path, decoded. -/
def decodedParameters (texts : HttpTexts) (template : Template) (path : List Char) :
    Option (Table String String) :=
  ((Template.bound template (path.splitOn '/')).mapM fun (name, value) =>
    (texts.decodeParameter value).map fun value => (String.ofList name, String.ofList value)).map
      (Table.putAll [])

/-- The text before and after the first separator, or the whole text. -/
def splitAt (separator : Char) (text : List Char) : List Char × List Char :=
  (text.takeWhile (· ≠ separator), (text.dropWhile (· ≠ separator)).drop 1)

/-- The pairs of a query as they are written. -/
def writtenPairs (query : List Char) : List (String × String) :=
  ((query.splitOn '&').filter (· ≠ [])).map fun part =>
    (String.ofList (splitAt '=' part).1, String.ofList (splitAt '=' part).2)

def HttpTexts.queryPairs (texts : HttpTexts) (query : List Char) :
    List (String × String) :=
  ((query.splitOn '&').filter (· ≠ [])).map fun part =>
    (String.ofList (texts.decodeQuery (splitAt '=' part).1),
      String.ofList (texts.decodeQuery (splitAt '=' part).2))

/-- The request runs a route of the project, with these parameters and this query. -/
structure Reached (texts : HttpTexts) (config : ServerConfig) (routes : List RouteDefinition)
    (verb : HttpVerb) (target : RequestTarget) (route : RouteDefinition)
    (params query : Table String String) : Prop where
  member : route ∈ routes
  verb : route.verb = verb
  chosen : ∃ template, Template.parse (toAxumPath route.path) = some template ∧
    Template.Chosen (templates (registrations config routes))
      (target.path.splitOn '/') template ∧
    decodedParameters texts template target.path = some params
  query : query = Table.putAll [] (texts.queryPairs target.query)

/-- No template stands for the path. -/
def NotFound (config : ServerConfig) (routes : List RouteDefinition) (target : RequestTarget) :
    Prop :=
  ∀ template ∈ templates (registrations config routes),
    ¬ Template.Matches template (target.path.splitOn '/')

/-! ## The lookup of scenarios -/

def splitPathAndQuery (raw : List Char) : List Char × Table String String :=
  let (path, query) := splitAt '?' raw
  let parts := (query.splitOn '&').filter (· ≠ [])
  (path, Table.putAll [] (parts.map fun part =>
    let (key, value) := splitAt '=' part
    (String.ofList key, String.ofList value)))

def trimSlashes (text : List Char) : List Char :=
  ((text.dropWhile (· = '/')).reverse.dropWhile (· = '/')).reverse

def pathParts (path : List Char) : List (List Char) :=
  ((trimSlashes path).splitOn '/').filter (· ≠ [])

/-- The values of the parameters when every other part is the same. -/
def matchParts (params : Table String String) :
    List (List Char × List Char) → Option (Table String String)
  | [] => some params
  | (':' :: name, text) :: rest =>
      matchParts (params.put (String.ofList name) (String.ofList text)) rest
  | (part, text) :: rest => if part = text then matchParts params rest else none

def matchPath (pattern path : List Char) : Option (Table String String) :=
  if pattern = ['/'] ∧ path = ['/'] then some []
  else if (pathParts pattern).length ≠ (pathParts path).length then none
  else matchParts [] ((pathParts pattern).zip (pathParts path))

def findRoute (routes : List RouteDefinition) (verb : HttpVerb) (path : List Char) :
    Option (RouteDefinition × Table String String) :=
  routes.findSome? fun route =>
    if route.verb = verb then (matchPath route.path.toList path).map (route, ·) else none

example : matchPath "/orgs/:org/users".toList "/orgs/7//users/".toList = some [("org", "7")] := by
  decide

/-! ## Parts of a path -/

/-- The segments of a path that are not empty. -/
def segments (path : List Char) : List (List Char) :=
  (path.splitOn '/').filter (· ≠ [])

theorem segments_slash (path : List Char) : segments ('/' :: path) = segments path := by
  rw [segments, List.splitOn_cons_eq_if_modifyHead]
  rfl

theorem segments_append_slash (path : List Char) : segments (path ++ ['/']) = segments path := by
  rw [segments, List.splitOn_append_cons_self, List.filter_append]
  simp [segments]

theorem pathParts_eq (path : List Char) : pathParts path = segments path := by
  have start : ∀ path, segments (path.dropWhile (· = '/')) = segments path := by
    intro path
    induction path with
    | nil => rfl
    | cons ch path ih =>
        by_cases slash : ch = '/'
        · rw [List.dropWhile_cons_of_pos (by simpa using slash), ih, slash, segments_slash]
        · rw [List.dropWhile_cons_of_neg (by simpa using slash)]
  have finish : ∀ path : List Char,
      segments (path.dropWhile (· = '/')).reverse = segments path.reverse := by
    intro path
    induction path with
    | nil => rfl
    | cons ch path ih =>
        by_cases slash : ch = '/'
        · rw [List.dropWhile_cons_of_pos (by simpa using slash), ih, slash, List.reverse_cons,
            segments_append_slash]
        · rw [List.dropWhile_cons_of_neg (by simpa using slash)]
  change segments (trimSlashes path) = segments path
  rw [trimSlashes, finish, List.reverse_reverse, start]

/-- A part of a route stands for a part of a path: a parameter for any. -/
def PartFits (part text : List Char) : Prop :=
  part.head? = some ':' ∨ part = text

instance (part text : List Char) : Decidable (PartFits part text) :=
  inferInstanceAs (Decidable (_ ∨ _))

/-- Empty segments aside, the path is one of the route. -/
def Fits (route : RouteDefinition) (path : List Char) : Prop :=
  List.Forall₂ PartFits (segments route.path.toList) (segments path)

/-- The parameters among parts of a route, with the parts of a path. -/
def parameterPairs (pairs : List (List Char × List Char)) : List (String × String) :=
  pairs.filterMap fun
    | (':' :: name, text) => some (String.ofList name, String.ofList text)
    | _ => none

theorem matchParts_cons_plain {part : List Char} (plain : part.head? ≠ some ':')
    (params : Table String String) (text : List Char) (pairs : List (List Char × List Char)) :
    matchParts params ((part, text) :: pairs) =
      if part = text then matchParts params pairs else none := by
  rw [matchParts]
  rintro name rfl
  exact plain rfl

theorem parameterPairs_cons_plain {part : List Char} (plain : part.head? ≠ some ':')
    (text : List Char) (pairs : List (List Char × List Char)) :
    parameterPairs ((part, text) :: pairs) = parameterPairs pairs := by
  unfold parameterPairs
  rw [List.filterMap_cons]
  split
  · rfl
  · rename_i entry found
    split at found
    · rename_i name text same
      cases same
      exact absurd rfl plain
    · cases found

theorem matchParts_eq_some {params found : Table String String}
    {pairs : List (List Char × List Char)} :
    matchParts params pairs = some found ↔
      (∀ pair ∈ pairs, PartFits pair.1 pair.2) ∧
        Table.putAll params (parameterPairs pairs) = found := by
  induction pairs generalizing params with
  | nil => simp [matchParts, parameterPairs, Table.putAll]
  | cons pair pairs ih =>
      obtain ⟨part, text⟩ := pair
      rw [List.forall_mem_cons]
      by_cases parameter : part.head? = some ':'
      · obtain ⟨name, rfl⟩ := List.head?_eq_some_iff.mp parameter
        have fits : PartFits (':' :: name) text := .inl rfl
        change matchParts (params.put (String.ofList name) (String.ofList text)) pairs = _ ↔ _
        rw [ih]
        constructor
        · rintro ⟨others, same⟩
          exact ⟨⟨fits, others⟩, same⟩
        · rintro ⟨⟨-, others⟩, same⟩
          exact ⟨others, same⟩
      · rw [matchParts_cons_plain parameter, parameterPairs_cons_plain parameter]
        have fits : PartFits part text ↔ part = text := by
          simp [PartFits, parameter]
        rw [fits]
        split
        · rename_i same
          rw [ih, and_iff_right same]
        · rename_i differs
          simp [differs]

/-- The raw parameters of a path under a route. -/
def rawParameters (route : RouteDefinition) (path : List Char) : Table String String :=
  Table.putAll [] (parameterPairs ((segments route.path.toList).zip (segments path)))

theorem matchPath_eq_some {route : RouteDefinition} {path : List Char}
    {found : Table String String} :
    matchPath route.path.toList path = some found ↔
      Fits route path ∧ rawParameters route path = found := by
  have parts : matchPath route.path.toList path =
      if (segments route.path.toList).length ≠ (segments path).length then none
      else matchParts [] ((segments route.path.toList).zip (segments path)) := by
    rw [matchPath, pathParts_eq, pathParts_eq]
    split
    · rename_i root
      rw [root.1, root.2]
      rfl
    · rfl
  rw [parts, Fits, List.forall₂_iff_zip]
  split
  · rename_i differs
    simp [differs]
  · rename_i same
    rw [matchParts_eq_some, and_iff_right (not_not.mp same)]
    refine and_congr ?_ Iff.rfl
    exact ⟨fun each one other member => each (one, other) member,
      fun each pair member => each member⟩

/-! ## The route that is found -/

/-- The first route of the verb that fits. -/
def FirstFit (routes : List RouteDefinition) (verb : HttpVerb) (path : List Char)
    (route : RouteDefinition) : Prop :=
  ∃ before after, routes = before ++ route :: after ∧ route.verb = verb ∧ Fits route path ∧
    ∀ earlier ∈ before, earlier.verb = verb → ¬ Fits earlier path

theorem turn_eq_some {verb : HttpVerb} {path : List Char} {route other : RouteDefinition}
    {found : Table String String} :
    (if route.verb = verb then (matchPath route.path.toList path).map (route, ·) else none) =
        some (other, found) ↔
      route = other ∧ route.verb = verb ∧ Fits route path ∧ rawParameters route path = found := by
  split
  · rename_i verbs
    simp only [Option.map_eq_some_iff, Prod.mk.injEq, matchPath_eq_some, verbs, true_and]
    constructor
    · rintro ⟨params, ⟨fits, rfl⟩, rfl, rfl⟩
      exact ⟨rfl, fits, rfl⟩
    · rintro ⟨rfl, fits, rfl⟩
      exact ⟨_, ⟨fits, rfl⟩, rfl, rfl⟩
  · rename_i verbs
    simp [verbs]

theorem turn_eq_none {verb : HttpVerb} {path : List Char} {route : RouteDefinition} :
    (if route.verb = verb then (matchPath route.path.toList path).map (route, ·) else none) =
        none ↔ (route.verb = verb → ¬ Fits route path) := by
  split
  · rename_i verbs
    rw [Option.map_eq_none_iff, Option.eq_none_iff_forall_ne_some]
    simp only [ne_eq, matchPath_eq_some, not_and, verbs, true_implies]
    exact ⟨fun none fits => none _ fits rfl, fun unfit found fits => absurd fits unfit⟩
  · rename_i verbs
    simp [verbs]

theorem findRoute_eq_some {routes : List RouteDefinition} {verb : HttpVerb} {path : List Char}
    {route : RouteDefinition} {found : Table String String} :
    findRoute routes verb path = some (route, found) ↔
      FirstFit routes verb path route ∧ rawParameters route path = found := by
  rw [findRoute, List.findSome?_eq_some_iff]
  simp only [turn_eq_some, turn_eq_none]
  constructor
  · rintro ⟨before, first, after, rfl, ⟨rfl, verbs, fits, same⟩, none⟩
    exact ⟨⟨before, after, rfl, verbs, fits, none⟩, same⟩
  · rintro ⟨⟨before, after, rfl, verbs, fits, none⟩, same⟩
    exact ⟨before, route, after, rfl, ⟨rfl, verbs, fits, same⟩, none⟩

theorem findRoute_eq_none {routes : List RouteDefinition} {verb : HttpVerb} {path : List Char} :
    findRoute routes verb path = none ↔
      ∀ route ∈ routes, route.verb = verb → ¬ Fits route path := by
  rw [findRoute, List.findSome?_eq_none_iff]
  simp only [turn_eq_none]

/-! ## Templates of routes -/

/-- A path without the syntax of the router: no braces, and parameters with plain
names. -/
def PlainRoute (route : RouteDefinition) : Prop :=
  ∀ segment ∈ route.path.toList.splitOn '/', '{' ∉ segment ∧ '}' ∉ segment ∧
    ∀ name, segment = ':' :: name → name ≠ [] ∧ '*' ∉ name

/-- The segment of a template for a segment of a route. -/
def templateSegment : List Char → Segment
  | ':' :: name => ⟨[], .parameter name⟩
  | segment => ⟨segment, .plain⟩

theorem parse_plain {text : List Char} (opened : '{' ∉ text) (closed : '}' ∉ text) :
    Segment.parse text = some ⟨text, .plain⟩ := by
  induction text with
  | nil => rfl
  | cons ch text ih =>
      rw [List.mem_cons, not_or] at opened closed
      have rest := ih opened.2 closed.2
      rw [Segment.parse, rest]
      · rfl
      all_goals
        intros
        simp_all

theorem parse_parameter {name : List Char} (nonempty : name ≠ []) (opened : '{' ∉ name)
    (closed : '}' ∉ name) (star : '*' ∉ name) :
    Segment.parse ('{' :: (name ++ ['}'])) = some ⟨[], .parameter name⟩ := by
  have plain : (name.all fun char => char ≠ '{' && char ≠ '}' && char ≠ '*') = true := by
    rw [List.all_eq_true]
    intro ch member
    have differs : ch ≠ '{' ∧ ch ≠ '}' ∧ ch ≠ '*' :=
      ⟨fun same => opened (same ▸ member), fun same => closed (same ▸ member),
        fun same => star (same ▸ member)⟩
    simp [differs]
  have brace : Segment.parse ('{' :: (name ++ ['}'])) = Segment.parseParameter (name ++ ['}']) := by
    obtain ⟨first, rest, rfl⟩ := List.exists_cons_of_ne_nil nonempty
    rw [List.cons_append, Segment.parse]
    rintro text same
    obtain ⟨rfl, -⟩ := List.cons.inj same
    exact opened List.mem_cons_self
  rw [brace, Segment.parseParameter]
  simp only [List.getLast?_concat, List.dropLast_concat]
  split
  · exact absurd List.mem_cons_self star
  · rw [if_pos (decide_eq_true ⟨nonempty, plain⟩)]
  · rename_i other _
    exact (other rfl).elim

theorem slash_not_mem_splitOn {text segment : List Char} (member : segment ∈ text.splitOn '/') :
    '/' ∉ segment := by
  induction text generalizing segment with
  | nil =>
      rw [List.splitOn_eq_singleton (by simp)] at member
      obtain rfl := List.mem_singleton.mp member
      simp
  | cons ch text ih =>
      rw [List.splitOn_cons_eq_if_modifyHead] at member
      split at member
      · rcases List.mem_cons.mp member with rfl | member
        · simp
        · exact ih member
      · rename_i differs
        obtain ⟨first, rest, parts⟩ := List.exists_cons_of_ne_nil (List.splitOn_ne_nil '/' text)
        rw [parts, List.modifyHead_cons] at member
        rcases List.mem_cons.mp member with rfl | member
        · rw [List.mem_cons, not_or]
          exact ⟨fun same => differs (by simp [← same]), ih (by rw [parts]; exact List.mem_cons_self)⟩
        · exact ih (by rw [parts]; exact List.mem_cons_of_mem _ member)

/-- The segment in the syntax of the router. -/
def routerSegment : List Char → List Char
  | ':' :: name => '{' :: name ++ ['}']
  | segment => segment

theorem parse_routerSegment {segment : List Char} (opened : '{' ∉ segment)
    (closed : '}' ∉ segment)
    (named : ∀ name, segment = ':' :: name → name ≠ [] ∧ '*' ∉ name) :
    Segment.parse (routerSegment segment) = some (templateSegment segment) := by
  unfold routerSegment templateSegment
  split
  · rename_i name
    obtain ⟨nonempty, star⟩ := named name rfl
    rw [List.mem_cons, not_or] at opened closed
    exact parse_parameter nonempty opened.2 closed.2 star
  · exact parse_plain opened closed

theorem parse_route {route : RouteDefinition} (plain : PlainRoute route) :
    Template.parse (toAxumPath route.path) =
      some ((route.path.toList.splitOn '/').map templateSegment) := by
  have apart : ∀ segment ∈ (route.path.toList.splitOn '/').map routerSegment,
      '/' ∉ segment := by
    intro segment member
    obtain ⟨own, known, rfl⟩ := List.mem_map.mp member
    have inside := slash_not_mem_splitOn known
    unfold routerSegment
    split
    · simpa using inside
    · exact inside
  have cut : (toAxumPath route.path).splitOn '/' =
      (route.path.toList.splitOn '/').map routerSegment := by
    refine List.splitOn_intercalate '/' apart ?_
    simp [List.splitOn_ne_nil]
  have parsed : ((route.path.toList.splitOn '/').map routerSegment).mapM Segment.parse =
      some ((route.path.toList.splitOn '/').map templateSegment) := by
    have each := plain
    unfold PlainRoute at each
    generalize route.path.toList.splitOn '/' = segments at each
    induction segments with
    | nil => rfl
    | cons segment segments ih =>
        obtain ⟨opened, closed, named⟩ := each segment List.mem_cons_self
        have later := ih fun other member => each other (List.mem_cons_of_mem _ member)
        rw [List.map_cons, List.mapM_cons, parse_routerSegment opened closed named, later]
        rfl
  have ends : Template.endsInRest ((route.path.toList.splitOn '/').map templateSegment) =
      true := by
    rw [Template.endsInRest, List.all_eq_true]
    intro segment member
    obtain ⟨own, -, rfl⟩ := List.mem_map.mp ((List.dropLast_sublist _).mem member)
    unfold templateSegment
    split <;> rfl
  rw [Template.parse, cut, parsed]
  exact Option.filter_eq_some_iff.mpr ⟨rfl, ends⟩

theorem matches_route {segments texts : List (List Char)}
    (fits : Template.Matches (segments.map templateSegment) texts) :
    List.Forall₂ (fun segment text => (templateSegment segment).Matches text) segments texts := by
  induction segments generalizing texts with
  | nil =>
      obtain rfl : texts = [] := fits
      exact .nil
  | cons segment segments ih =>
      cases texts with
      | nil => exact fits.elim
      | cons text texts =>
          have plain : (templateSegment segment).isRest = false := by
            unfold templateSegment
            split <;> rfl
          rw [List.map_cons, Template.matches_plain plain] at fits
          exact .cons fits.1 (ih fits.2)

/-! ## Paths of a plain route -/

/-- A segment of a route and the text it stands for. -/
theorem templateSegment_matches {segment text : List Char}
    (fits : (templateSegment segment).Matches text) :
    PartFits segment text ∧ (segment = [] ↔ text = []) := by
  unfold templateSegment at fits
  split at fits
  · obtain ⟨value, nonempty, rfl⟩ := fits
    exact ⟨.inl rfl, by simp [nonempty]⟩
  · obtain rfl : text = segment := fits
    exact ⟨.inr rfl, Iff.rfl⟩

theorem bound_route {segments texts : List (List Char)}
    (fits : List.Forall₂ (fun segment text => (templateSegment segment).Matches text)
      segments texts) :
    (Template.bound (segments.map templateSegment) texts).map
        (fun pair => (String.ofList pair.1, String.ofList pair.2)) =
      parameterPairs (segments.zip texts) := by
  induction fits with
  | nil => rfl
  | cons here later ih =>
      rename_i segment text segments texts
      have plain : (templateSegment segment).isRest = false := by
        unfold templateSegment
        split <;> rfl
      rw [List.map_cons, Template.bound, if_neg (by simp [plain]), List.map_append, ih,
        List.zip_cons_cons]
      by_cases parameter : segment.head? = some ':'
      · obtain ⟨name, rfl⟩ := List.head?_eq_some_iff.mp parameter
        rfl
      · rw [parameterPairs_cons_plain parameter]
        have own : (templateSegment segment).bound text = [] := by
          unfold templateSegment
          split
          · exact absurd rfl parameter
          · rfl
        rw [own]
        rfl

/-- Empty segments of both sides stand for each other. -/
theorem zip_segments {segments texts : List (List Char)}
    (fits : List.Forall₂ (fun segment text => (templateSegment segment).Matches text)
      segments texts) :
    List.Forall₂ PartFits (segments.filter (· ≠ [])) (texts.filter (· ≠ [])) ∧
      parameterPairs ((segments.filter (· ≠ [])).zip (texts.filter (· ≠ []))) =
        parameterPairs (segments.zip texts) := by
  induction fits with
  | nil => exact ⟨.nil, rfl⟩
  | cons here later ih =>
      rename_i segment text segments texts
      obtain ⟨part, empty⟩ := templateSegment_matches here
      by_cases blank : segment = []
      · have gone := empty.mp blank
        subst blank gone
        refine ⟨ih.1, ih.2.trans ?_⟩
        rw [List.zip_cons_cons, parameterPairs_cons_plain (by simp)]
      · have filled : text ≠ [] := mt empty.mpr blank
        rw [List.filter_cons_of_pos (by simpa using blank),
          List.filter_cons_of_pos (by simpa using filled), List.zip_cons_cons, List.zip_cons_cons]
        refine ⟨.cons part ih.1, ?_⟩
        by_cases parameter : segment.head? = some ':'
        · obtain ⟨name, rfl⟩ := List.head?_eq_some_iff.mp parameter
          exact congrArg (List.cons _) ih.2
        · rw [parameterPairs_cons_plain parameter, parameterPairs_cons_plain parameter, ih.2]

theorem fits_of_matches {route : RouteDefinition} {path : List Char} (plain : PlainRoute route)
    {template : Template} (parsed : Template.parse (toAxumPath route.path) = some template)
    (fits : Template.Matches template (path.splitOn '/')) : Fits route path := by
  rw [parse_route plain] at parsed
  obtain rfl := Option.some.inj parsed
  exact (zip_segments (matches_route fits)).1

/-! ## Scenarios and the server -/

/-- The target of a request line. -/
def requestTarget (raw : List Char) : RequestTarget :=
  { path := (splitAt '?' raw).1, query := (splitAt '?' raw).2 }

/-- A scenario runs the route that the server would run, with the same parameters
and query, and no route where the server has none. -/
def Agrees (texts : HttpTexts) (config : ServerConfig) (routes : List RouteDefinition)
    (verb : HttpVerb) (raw : List Char) : Prop :=
  (∀ route params query, Reached texts config routes verb (requestTarget raw) route params query →
    ∃ found, findRoute routes verb (splitPathAndQuery raw).1 = some (route, found) ∧
      SameValues found params ∧ SameValues (splitPathAndQuery raw).2 query) ∧
  (NotFound config routes (requestTarget raw) →
    findRoute routes verb (splitPathAndQuery raw).1 = none)

/-- The text of the target holds what the parameters and the query are: no escape in a
parameter, and neither escape nor `+` in a key or value of the query. -/
structure Verbatim (route : RouteDefinition) (raw : List Char) : Prop where
  params : ∀ name value, (rawParameters route (splitAt '?' raw).1).lookup name = some value →
    ¬ Escapes.HasEscape value.toList
  query : ∀ key value, (splitPathAndQuery raw).2.lookup key = some value →
    Escapes.Verbatim key.toList ∧ Escapes.Verbatim value.toList

/-- The path has its empty segments where the route has them. -/
def Aligned (route : RouteDefinition) (path : List Char) : Prop :=
  List.Forall₂ (fun segment text => segment = [] ↔ text = []) (route.path.toList.splitOn '/')
    (path.splitOn '/')

/-- No route of the verb that is declared earlier fits the path too. -/
def FirstDeclared (routes : List RouteDefinition) (verb : HttpVerb) (path : List Char)
    (route : RouteDefinition) : Prop :=
  ∃ before after, routes = before ++ route :: after ∧
    ∀ earlier ∈ before, earlier.verb = verb → ¬ Fits earlier path

theorem decodedParameters_route {texts : HttpTexts} {route : RouteDefinition} {path : List Char}
    (plain : PlainRoute route) {template : Template}
    (parsed : Template.parse (toAxumPath route.path) = some template)
    (fits : Template.Matches template (path.splitOn '/')) :
    decodedParameters texts template path =
      ((parameterPairs ((segments route.path.toList).zip (segments path))).mapM fun pair =>
        (texts.decodeParameter pair.2.toList).map fun value =>
          (pair.1, String.ofList value)).map (Table.putAll []) := by
  rw [parse_route plain] at parsed
  obtain rfl := Option.some.inj parsed
  have pairs := (zip_segments (matches_route fits)).2
  rw [decodedParameters, segments, segments, pairs, ← bound_route (matches_route fits),
    List.mapM_map]
  simp only [Function.comp_def, String.toList_ofList]

/-! ### Decoded values -/

section Decoded

variable {texts : HttpTexts}

theorem HttpTexts.Lawful.parameter_eq_iff (lawful : texts.Lawful) {text : List Char} :
    texts.decodeParameter text = some text ↔ ¬ Escapes.HasEscape text := by
  refine ⟨fun same escaped => ?_, lawful.kept⟩
  exact absurd (lawful.shorter escaped same) (Nat.lt_irrefl _)

/-- Values that are changed one by one are found under the same names. -/
theorem lookup_of_values {pairs decoded : List (String × String)}
    {change : String → Option String}
    (changed : List.Forall₂ (fun pair other => other.1 = pair.1 ∧ change pair.2 = some other.2)
      pairs decoded) (name : String) :
    decoded.lookup name = (pairs.lookup name).bind change := by
  induction changed with
  | nil => rfl
  | @cons pair other pairs decoded here _ ih =>
      rw [Table.lookup_cons, Table.lookup_cons, ih, here.1]
      split
      · exact here.2.symm
      · rfl

theorem sameValues_iff_kept {pairs decoded : List (String × String)}
    {change : String → Option String}
    (changed : List.Forall₂ (fun pair other => other.1 = pair.1 ∧ change pair.2 = some other.2)
      pairs decoded) :
    SameValues (Table.putAll [] pairs) (Table.putAll [] decoded) ↔
      ∀ name value, (Table.putAll [] pairs : Table String String).lookup name = some value →
        change value = some value := by
  have found (name : String) : (Table.putAll [] decoded : Table String String).lookup name =
      ((Table.putAll [] pairs : Table String String).lookup name).bind change := by
    rw [Table.lookup_putAll_nil, Table.lookup_putAll_nil]
    exact lookup_of_values (List.rel_reverse changed) name
  constructor
  · intro same name value known
    have kept := same name
    rw [found, known] at kept
    exact kept.symm
  · intro kept name
    rw [found]
    cases known : (Table.putAll [] pairs : Table String String).lookup name with
    | none => rfl
    | some value => exact (kept name value known).symm

theorem forall₂_of_mapM {pairs decoded : List (String × String)}
    (run : pairs.mapM (fun pair => (texts.decodeParameter pair.2.toList).map fun value =>
      (pair.1, String.ofList value)) = some decoded) :
    List.Forall₂ (fun pair other => other.1 = pair.1 ∧
      (texts.decodeParameter pair.2.toList).map String.ofList = some other.2) pairs decoded := by
  induction pairs generalizing decoded with
  | nil =>
      obtain rfl := Option.some.inj run
      exact .nil
  | cons pair pairs ih =>
      rw [List.mapM_cons] at run
      obtain ⟨first, here, run⟩ := Option.bind_eq_some_iff.mp run
      obtain ⟨rest, later, run⟩ := Option.bind_eq_some_iff.mp run
      obtain rfl := Option.some.inj run
      obtain ⟨value, read, rfl⟩ := Option.map_eq_some_iff.mp here
      refine .cons ⟨rfl, ?_⟩ (ih later)
      rw [read]
      rfl

/-- Decoding changes no parameter if and only if none has an escape. -/
theorem sameValues_parameters_iff (lawful : texts.Lawful) {pairs decoded : List (String × String)}
    (run : pairs.mapM (fun pair => (texts.decodeParameter pair.2.toList).map fun value =>
      (pair.1, String.ofList value)) = some decoded) :
    SameValues (Table.putAll [] pairs) (Table.putAll [] decoded) ↔
      ∀ name value, (Table.putAll [] pairs : Table String String).lookup name = some value →
        ¬ Escapes.HasEscape value.toList := by
  rw [@sameValues_iff_kept pairs decoded
    (fun value => (texts.decodeParameter value.toList).map String.ofList) (forall₂_of_mapM run)]
  refine forall₃_congr fun name value known => ?_
  rw [← lawful.parameter_eq_iff, Option.map_eq_some_iff]
  constructor
  · rintro ⟨text, read, rfl⟩
    rw [read, String.toList_ofList]
  · exact fun read => ⟨_, read, String.ofList_toList⟩

/-- Decoding changes nothing in a query if and only if keys and values are verbatim. -/
theorem sameValues_query_iff (form : Escapes.DecodesForm texts.decodeQuery) (query : List Char) :
    SameValues (Table.putAll [] (writtenPairs query)) (Table.putAll [] (texts.queryPairs query)) ↔
      ∀ key value,
        (Table.putAll [] (writtenPairs query) : Table String String).lookup key = some value →
          Escapes.Verbatim key.toList ∧ Escapes.Verbatim value.toList := by
  let decode (text : String) : String := String.ofList (texts.decodeQuery text.toList)
  have decoded : texts.queryPairs query =
      (writtenPairs query).map fun pair => (decode pair.1, decode pair.2) := by
    simp only [HttpTexts.queryPairs, writtenPairs, List.map_map, Function.comp_def, decode,
      String.toList_ofList]
  have kept {text : String} : decode text = text ↔ Escapes.Verbatim text.toList := by
    rw [← form.eq_iff, ← String.toList_inj, String.toList_ofList]
  rw [decoded]
  generalize writtenPairs query = pairs
  have values (keys : ∀ pair ∈ pairs, decode pair.1 = pair.1) :
      SameValues (Table.putAll [] pairs)
          (Table.putAll [] (pairs.map fun pair => (decode pair.1, decode pair.2))) ↔
        ∀ key value, (Table.putAll [] pairs : Table String String).lookup key = some value →
          Escapes.Verbatim value.toList := by
    rw [@sameValues_iff_kept pairs _ (fun value => some (decode value))]
    · simp only [Option.some.injEq, kept]
    · rw [List.forall₂_map_right_iff, List.forall₂_same]
      exact fun pair member => ⟨keys pair member, rfl⟩
  have keyed {key value : String}
      (found : (Table.putAll [] pairs : Table String String).lookup key = some value) :
      ∃ pair ∈ pairs, pair.1 = key := by
    rcases Table.mem_putAll (Table.mem_of_lookup found) with member | member
    · exact ⟨_, member, rfl⟩
    · cases member
  constructor
  · intro same
    have covered : ∀ text ∈ pairs.map (·.1.toList),
        text ∈ (pairs.map (·.1.toList)).map texts.decodeQuery := by
      intro text member
      obtain ⟨pair, inside, rfl⟩ := List.mem_map.mp member
      have known : ((Table.putAll [] pairs : Table String String).lookup pair.1).isSome = true :=
        Table.lookup_putAll_isSome.mpr (.inl (List.mem_map_of_mem inside))
      rw [same pair.1, Table.lookup_putAll_isSome] at known
      rcases known with known | known
      · obtain ⟨other, among, named⟩ := List.mem_map.mp known
        obtain ⟨source, within, rfl⟩ := List.mem_map.mp among
        rw [List.map_map]
        refine List.mem_map.mpr ⟨source, within, ?_⟩
        rw [← named]
        exact String.toList_ofList.symm
      · cases known
    have verbatim := form.verbatim_of_covered covered
    have keys : ∀ pair ∈ pairs, Escapes.Verbatim pair.1.toList := fun pair member =>
      verbatim _ (List.mem_map_of_mem member)
    intro key value found
    obtain ⟨pair, member, rfl⟩ := keyed found
    exact ⟨keys pair member,
      (values fun pair member => kept.mpr (keys pair member)).mp same pair.1 value found⟩
  · intro verbatim
    refine (values fun pair member => ?_).mpr fun key value found => (verbatim key value found).2
    have known : ((Table.putAll [] pairs : Table String String).lookup pair.1).isSome = true :=
      Table.lookup_putAll_isSome.mpr (.inl (List.mem_map_of_mem member))
    obtain ⟨value, found⟩ := Option.isSome_iff_exists.mp known
    exact kept.mpr (verbatim pair.1 value found).1

end Decoded

/-! ### Paths without a route -/

theorem templateSegment_of_fits {segment text : List Char} (fits : PartFits segment text)
    (filled : text ≠ []) : (templateSegment segment).Matches text := by
  unfold templateSegment
  split
  · exact ⟨text, filled, rfl⟩
  · rename_i plain
    rcases fits with parameter | same
    · obtain ⟨name, rfl⟩ := List.head?_eq_some_iff.mp parameter
      exact absurd rfl (plain name)
    · exact same.symm

/-- A path that fits a route, empty segments and all, is matched by its template. -/
theorem matches_of_aligned {segments texts : List (List Char)}
    (aligned : List.Forall₂ (fun segment text => segment = [] ↔ text = []) segments texts)
    (fits : List.Forall₂ PartFits (segments.filter (· ≠ [])) (texts.filter (· ≠ []))) :
    Template.Matches (segments.map templateSegment) texts := by
  induction aligned with
  | nil => rfl
  | @cons segment text segments texts empty _ ih =>
      have plain : (templateSegment segment).isRest = false := by
        unfold templateSegment
        split <;> rfl
      rw [List.map_cons, Template.matches_plain plain]
      by_cases blank : segment = []
      · have gone := empty.mp blank
        subst blank gone
        exact ⟨rfl, ih fits⟩
      · have filled : text ≠ [] := mt empty.mpr blank
        rw [List.filter_cons_of_pos (by simpa using blank),
          List.filter_cons_of_pos (by simpa using filled), List.forall₂_cons] at fits
        exact ⟨templateSegment_of_fits fits.1 filled, ih fits.2⟩

theorem not_fits_of_notFound {config : ServerConfig} {routes : List RouteDefinition}
    {target : RequestTarget} (missing : NotFound config routes target) {route : RouteDefinition}
    (member : route ∈ routes) (plain : PlainRoute route) (aligned : Aligned route target.path) :
    ¬ Fits route target.path := by
  intro fits
  refine missing ((route.path.toList.splitOn '/').map templateSegment) ?_
    (matches_of_aligned aligned fits)
  refine List.mem_filterMap.mpr ⟨registerRoute route, ?_, parse_route plain⟩
  exact List.mem_append_right _ (List.mem_map_of_mem member)

/-- Scenarios and server agree on a target if and only if the route of the server is the first
that fits and the target says the values as they are, and, where the server has no route, the
routes that fit have empty segments in the same places. -/
theorem agrees_iff {texts : HttpTexts} (lawful : texts.Lawful) (config : ServerConfig)
    {routes : List RouteDefinition} (plain : ∀ route ∈ routes, PlainRoute route) (verb : HttpVerb)
    (raw : List Char) :
    Agrees texts config routes verb raw ↔
      (∀ route params query,
        Reached texts config routes verb (requestTarget raw) route params query →
        FirstDeclared routes verb (requestTarget raw).path route ∧ Verbatim route raw) ∧
      (NotFound config routes (requestTarget raw) → ∀ route ∈ routes, route.verb = verb →
        Fits route (requestTarget raw).path → Aligned route (requestTarget raw).path) := by
  refine and_congr (forall₄_congr fun route params query reached => ?_)
    (imp_congr_right fun missing => ?_)
  · obtain ⟨template, parsed, chosen, decoded⟩ := reached.chosen
    have own := plain route reached.member
    have fits : Fits route (requestTarget raw).path := fits_of_matches own parsed chosen.2.1
    rw [decodedParameters_route own parsed chosen.2.1, Option.map_eq_some_iff] at decoded
    obtain ⟨pairs, decoded, rfl⟩ := decoded
    obtain rfl := reached.query
    have params := sameValues_parameters_iff lawful decoded
    have query := sameValues_query_iff lawful.form (requestTarget raw).query
    constructor
    · rintro ⟨found, first, sameParams, sameQuery⟩
      obtain ⟨⟨before, after, declared, -, -, earlier⟩, rfl⟩ := findRoute_eq_some.mp first
      exact ⟨⟨before, after, declared, earlier⟩, params.mp sameParams, query.mp sameQuery⟩
    · rintro ⟨⟨before, after, declared, earlier⟩, verbatim⟩
      refine ⟨_, findRoute_eq_some.mpr ⟨⟨before, after, declared, reached.verb, fits, earlier⟩,
        rfl⟩, params.mpr verbatim.params, query.mpr verbatim.query⟩
  · rw [findRoute_eq_none]
    constructor
    · intro unfit route member verbs fits
      exact absurd fits (unfit route member verbs)
    · intro aligned route member verbs fits
      exact not_fits_of_notFound missing member (plain route member)
        (aligned route member verbs fits) fits

/-! ## Two targets -/

/-- Escapes of single characters. -/
def plainTexts : HttpTexts where
  decodeParameter text := some (Escapes.unescape text)
  decodeQuery text := Escapes.unescape (text.map Escapes.blank)

theorem lawful_plainTexts : plainTexts.Lawful where
  kept := by
    intro text plain
    exact congrArg some (Escapes.unescape_of_not_hasEscape plain)
  shorter := by
    intro text decoded escaped read
    obtain rfl := Option.some.inj read
    exact Escapes.length_unescape_lt escaped
  form := Escapes.decodesForm_unescape

def bareConfig : ServerConfig :=
  { docsEnabled := false, docsPath := "/docs" }

/-- A parameter is declared before a plain segment. -/
def overlappingRoutes : ProjectFiles where
  files := []
  entrypoint := namedEntrypoint
    "route GET \"/users/:id\"\n    reply 200, id\n\nroute GET \"/users/me\"\n    reply 200, 1\n"
  distinct := by decide

set_option maxRecDepth 1000 in
theorem overlappingRoutes_loaded : ∃ loaded one other,
    loadProject plainContext overlappingRoutes = .ok loaded ∧ loaded.routes = [one, other] ∧
      (one.verb = .get ∧ one.path = "/users/:id") ∧ other.verb = .get ∧ other.path = "/users/me" := by
  obtain ⟨loaded, found, routes⟩ := @ProjectFiles.exists_loaded plainContext overlappingRoutes _
    (fun _ loaded => loaded.routes.map fun route => (route.verb, route.path))
    [(.get, "/users/:id"), (.get, "/users/me")] _ _ .nil
    (toList_append_spelled String.toList_ofList String.toList_ofList) (by decide +kernel)
  obtain ⟨one, rest, declared, first, routes⟩ := List.map_eq_cons_iff.mp routes
  obtain ⟨other, rest, rfl, second, routes⟩ := List.map_eq_cons_iff.mp routes
  obtain rfl := List.map_eq_nil_iff.mp routes
  exact ⟨loaded, one, other, found, declared, Prod.mk.inj first, Prod.mk.inj second⟩

theorem templates_overlapping {one other : RouteDefinition} (verb : one.verb = .get)
    (first : one.path = "/users/:id") (otherVerb : other.verb = .get)
    (second : other.path = "/users/me") :
    templates (registrations bareConfig [one, other]) =
      [[⟨[], .plain⟩, ⟨"_health".toList, .plain⟩],
        [⟨[], .plain⟩, ⟨"users".toList, .plain⟩, ⟨[], .parameter "id".toList⟩],
        [⟨[], .plain⟩, ⟨"users".toList, .plain⟩, ⟨"me".toList, .plain⟩]] := by
  simp only [registrations, List.map_cons, List.map_nil, registerRoute, verb, first, otherVerb,
    second]
  decide

theorem overlappingRoutes_agree : ∃ loaded,
    loadProject plainContext overlappingRoutes = .ok loaded ∧
      Agrees plainTexts bareConfig loaded.routes .get "/users/7".toList := by
  obtain ⟨loaded, one, other, found, declared, ⟨verb, first⟩, otherVerb, second⟩ :=
    overlappingRoutes_loaded
  have cut : (requestTarget "/users/7".toList).path.splitOn '/' =
      [[], "users".toList, "7".toList] := by decide
  have plain : ∀ route ∈ loaded.routes, PlainRoute route := by
    have segments : ∀ path ∈ ["/users/:id", "/users/me"],
        ∀ segment ∈ path.toList.splitOn '/', '{' ∉ segment ∧ '}' ∉ segment ∧
          segment ≠ [':'] ∧ '*' ∉ segment := by decide
    intro route member segment inside
    have path : route.path ∈ ["/users/:id", "/users/me"] := by
      rw [declared] at member
      rcases List.mem_pair.mp member with rfl | rfl
      · simp [first]
      · simp [second]
    obtain ⟨opened, closed, named, star⟩ := segments route.path path segment inside
    refine ⟨opened, closed, ?_⟩
    rintro name rfl
    exact ⟨fun empty => named (by rw [empty]), fun inside => star (List.mem_cons_of_mem _ inside)⟩
  refine ⟨loaded, found, (agrees_iff lawful_plainTexts bareConfig plain .get "/users/7".toList).mpr ?_⟩
  rw [declared]
  constructor
  · rintro route params query ⟨member, -, ⟨template, parsed, ⟨-, fits, -⟩, -⟩, -⟩
    rcases List.mem_pair.mp member with rfl | rfl
    · refine ⟨⟨[], [other], rfl, by simp⟩, fun name value known => ?_, fun key value known => ?_⟩
      · have seven : rawParameters route (splitAt '?' "/users/7".toList).1 = [("id", "7")] := by
          rw [rawParameters, first]
          decide
        rw [seven] at known
        have pair := List.mem_singleton.mp (Table.mem_of_lookup known)
        rw [(Prod.mk.inj pair).2]
        exact Escapes.not_hasEscape_of_not_mem (by decide)
      · have empty : (splitPathAndQuery "/users/7".toList).2 = [] := by decide
        rw [empty] at known
        cases known
    · have own : Template.parse (toAxumPath route.path) =
          some [⟨[], .plain⟩, ⟨"users".toList, .plain⟩, ⟨"me".toList, .plain⟩] := by
        rw [second]
        decide
      obtain rfl := Option.some.inj (own.symm.trans parsed)
      rw [cut] at fits
      simp [Template.Matches, Segment.Matches, Segment.isRest] at fits
  · intro missing
    refine absurd ?_ (missing [⟨[], .plain⟩, ⟨"users".toList, .plain⟩, ⟨[], .parameter "id".toList⟩] ?_)
    · rw [cut]
      simp [Template.Matches, Segment.Matches, Segment.isRest]
    · rw [templates_overlapping verb first otherVerb second]
      simp

/-- The server runs the second route, the scenario the first one. -/
theorem overlappingRoutes_disagree : ∃ loaded,
    loadProject plainContext overlappingRoutes = .ok loaded ∧
      ¬ Agrees plainTexts bareConfig loaded.routes .get "/users/me".toList := by
  obtain ⟨loaded, one, other, found, declared, ⟨verb, first⟩, otherVerb, second⟩ :=
    overlappingRoutes_loaded
  refine ⟨loaded, found, fun agrees => ?_⟩
  rw [declared] at agrees
  have cut : (requestTarget "/users/me".toList).path.splitOn '/' =
      [[], "users".toList, "me".toList] := by decide
  have reached : Reached plainTexts bareConfig [one, other] .get
      (requestTarget "/users/me".toList) other [] [] := by
    refine ⟨by simp, otherVerb,
      ⟨[⟨[], .plain⟩, ⟨"users".toList, .plain⟩, ⟨"me".toList, .plain⟩], ?_, ?_, ?_⟩, ?_⟩
    · rw [second]
      decide
    · rw [templates_overlapping verb first otherVerb second, cut]
      refine ⟨by simp, ?_, ?_⟩
      · simp [Template.Matches, Segment.Matches, Segment.isRest]
      · intro template member fits
        simp only [List.mem_cons, List.not_mem_nil, or_false] at member
        rcases member with rfl | rfl | rfl
        · simp [Template.Matches, Segment.Matches, Segment.isRest] at fits
        · refine .inr ?_
          simp [Template.Beats, Segment.Beats, Segment.rank, Segment.shape]
        · exact .inl rfl
    · decide
    · rfl
  obtain ⟨params, picked, -⟩ := agrees.1 other [] [] reached
  have own : findRoute [one, other] .get (splitPathAndQuery "/users/me".toList).1 =
      some (one, [("id", "me")]) := by
    have path : matchPath "/users/:id".toList (splitPathAndQuery "/users/me".toList).1 =
        some [("id", "me")] := by decide
    rw [findRoute, List.findSome?_cons, if_pos verb, first, path]
    rfl
  rw [own] at picked
  have same : one = other := congrArg Prod.fst (Option.some.inj picked)
  rw [same, second] at first
  exact absurd first (by decide)

end Marreta.Scenario
