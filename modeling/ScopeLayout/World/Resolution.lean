import ScopeLayout.Scope
import ScopeLayout.World.Classes
import ScopeLayout.World.Lineage

/-!
# `ScopeLayout.World.Resolution`: what a name denotes in a scope

A scope answers for the names that it binds and asks outwards for all others.
In a class the spelling of a name decides first: a name that begins with a
single `@` may be a field, one that begins with `@@` always is a class
variable, whether anything was stored in it or not. What a class does not
answer goes to its module level, fields that the class lacks included.
-/

set_option autoImplicit false

namespace ScopeLayout

/-- What the spelling of a name makes of it in a class. A single `@` marks a field, and `@@` a class
variable, whose bare name follows. -/
inductive Spelling where
  | field
  | classVar (bare : String)
  | plain
deriving DecidableEq, Repr

/-- The spelling of a name. -/
def Spelling.of (name : String) : Spelling :=
  match name.toList with
  | '@' :: '@' :: bare => .classVar (String.ofList bare)
  | '@' :: _ => .field
  | _ => .plain

namespace World

/-- What a name denotes at a module level. -/
def resolveGlobal (w : World) (g : GlobalsId) (name : String) : Referent :=
  match w.globalsAt? g with
  | some globals => globals.resolve name
  | none => .methodCall name

/-- What a name denotes that a class does not answer: it goes to the module level around the
class. -/
def resolveAround (w : World) (c : ClassId) (name : String) : Referent :=
  match w.classAt? c with
  | some body => w.resolveGlobal body.globals name
  | none => .methodCall name

/-- What a name denotes in the body of a class. -/
def resolveMember (w : World) (c : ClassId) (name : String) : Referent :=
  match Spelling.of name with
  | .field =>
    match w.fieldIndex? c name with
    | some slot => .field slot
    | none => w.resolveAround c name
  | .classVar bare =>
    match w.classVarKey? c bare with
    | some key => .classVar key
    | none => .methodCall name
  | .plain => w.resolveAround c name

/-- What a name denotes in a scope. -/
def resolve (w : World) : Scope → String → Referent
  | .globals g, name => w.resolveGlobal g name
  | .classBody c, name => w.resolveMember c name
  | .function signature definedIn, name =>
    match signature.position? name with
    | some position => .argument position
    | none => w.resolve definedIn name
  | .block locals enclosing, name =>
    match locals.find? name with
    | some index => .localVar index
    | none => w.resolve enclosing name
  | .looseBlock locals, name =>
    match locals.find? name with
    | some index => .localVar index
    | none => .address name

end World

end ScopeLayout
