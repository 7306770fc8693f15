import Marreta.Runtime.Value

namespace Marreta

/-! Variable scopes.  A scope maps names to values.  An environment always has an
innermost scope; the scopes around it are listed from the inside out, over a
shared base that no write reaches.

An environment carries a ghost journal, newest entry first.  It records the two
events that the scopes themselves do not show afterwards: an assignment that
reached a variable of an existing scope, and a scope that was left behind
because the body it was pushed for failed.  The journal is part of the value, so
it is saved, restored and copied together with the scopes it describes. -/

inductive EnvEvent where
  /-- An assignment replaced `name` in the scope with `height` scopes around
  it. -/
  | wrote (height : Nat) (name : String)
  /-- A scope was left on the stack. -/
  | abandoned
deriving DecidableEq

structure Environment where
  base : ValueMap
  scope : ValueMap
  outer : List ValueMap
  journal : List EnvEvent

namespace Environment

def new : Environment :=
  { base := [], scope := [], outer := [], journal := [] }

def scopes (env : Environment) : List ValueMap :=
  env.scope :: env.outer

def depth (env : Environment) : Nat :=
  env.scopes.length

def pushScope (env : Environment) : Environment :=
  { env with scope := [], outer := env.scopes }

/-- The last scope is never removed. -/
def popScope (env : Environment) : Environment :=
  match env.outer with
  | [] => env
  | scope :: outer => { env with scope, outer }

def set (env : Environment) (name : String) (value : Value) : Environment :=
  { env with scope := env.scope.insert name value }

def setAll (env : Environment) (bindings : List (String × Value)) : Environment :=
  bindings.foldl (fun env (name, value) => env.set name value) env

def lookupScopes (scopes : List ValueMap) (name : String) : Option Value :=
  scopes.findSome? fun scope => scope.get? name

def get (env : Environment) (name : String) : Option Value :=
  lookupScopes env.scopes name <|> env.base.get? name

def has (env : Environment) (name : String) : Bool :=
  env.scopes.any (fun scope => (scope.get? name).isSome) ||
    (env.base.get? name).isSome

/-- Replace a variable in the innermost of these scopes that has it, with the
number of scopes around that one. -/
def updateScopes (name : String) (value : Value) :
    List ValueMap → Option (List ValueMap × Nat)
  | [] => none
  | scope :: outer =>
      if (scope.get? name).isSome then
        some (scope.insert name value :: outer, outer.length)
      else
        (updateScopes name value outer).map fun (updated, height) =>
          (scope :: updated, height)

/-- Assign to the innermost variable of that name, or define one in the
innermost scope. -/
def update (env : Environment) (name : String) (value : Value) : Environment :=
  match updateScopes name value env.scopes with
  | some (scope :: outer, height) =>
      { env with scope, outer, journal := .wrote height name :: env.journal }
  | _ => env.set name value

/-- Note that the innermost scope stays behind. -/
def abandon (env : Environment) : Environment :=
  { env with journal := .abandoned :: env.journal }

/-- Bindings of all scopes, inner ones shadowing outer ones. -/
def localVariables (env : Environment) : ValueMap :=
  env.scopes.foldl (fun seen scope =>
    scope.foldl (fun seen entry =>
      if (seen.get? entry.1).isSome then seen else seen ++ [entry]) seen) []

/-- All definitions move into the base, inner ones over outer ones, and one empty
scope is left. -/
def freeze (env : Environment) : Environment :=
  { env with
    base := env.scopes.reverse.foldl
      (fun base scope => scope.foldl (fun base entry => base.insert entry.1 entry.2) base)
      env.base
    scope := []
    outer := [] }

end Environment
end Marreta
