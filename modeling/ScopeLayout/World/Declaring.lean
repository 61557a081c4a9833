import ScopeLayout.World.Classes
import ScopeLayout.World.Lineage

/-!
# `ScopeLayout.World.Declaring`: declaring and reopening classes by name

A class is declared once. Later declarations of its name reopen it: they answer
with the class that is there. They may leave the superclass out. If they name
one, it is compared with the superclass of the first declaration, and a class
without superclass counts as one that extends `(none)`.
-/

set_option autoImplicit false

namespace ScopeLayout

namespace World

/-- How the superclass of a class is spelled in a comparison or refusal. -/
def superclassName (w : World) (c : ClassId) : String :=
  (w.superclassName? c).getD noSuperclass

/-- Reopens a declared class. -/
def reopen (w : World) (name : String) (c : ClassId) : Option String → World × Answer
  | none => (w, .classBody c)
  | some requested =>
    if w.superclassName c = requested then (w, .classBody c)
    else (w, .refused (.superclassMismatch name (w.superclassName c) requested))

/-- Enters a class that was just made under its name, which becomes a global. -/
def enter (w : World) (t : DeclarationsId) (g : GlobalsId) (name : String) (c : ClassId) :
    World :=
  (w.changeGlobals g (·.register name)).changeDeclarations t fun declarations =>
    { declarations with classes := declarations.classes.add name c }

/-- Entering a class shows in the list that it is entered in and in no other. -/
theorem declarationsAt?_enter (w : World) (t : DeclarationsId) (g : GlobalsId) (name : String)
    (c : ClassId) (t' : DeclarationsId) : (w.enter t g name c).declarationsAt? t' =
      if t' = t then (w.declarationsAt? t').map fun declarations =>
        { declarations with classes := declarations.classes.add name c }
      else w.declarationsAt? t' :=
  declarationsAt?_changeDeclarations (w.changeGlobals g (·.register name)) t t' _

/-- It registers the name at one module level and at no other. -/
theorem globalsAt?_enter (w : World) (t : DeclarationsId) (home : GlobalsId) (name : String)
    (c : ClassId) (g : GlobalsId) : (w.enter t home name c).globalsAt? g =
      if g = home then (w.globalsAt? g).map (·.register name) else w.globalsAt? g :=
  globalsAt?_changeGlobals w home g (·.register name)

/-- Answers with the class that was made, entered under its name. -/
def answerEntered (w : World) (t : DeclarationsId) (g : GlobalsId) (name : String) :
    Option (World × ClassId) → World × Answer
  | some (made, c) => (made.enter t g name c, .classBody c)
  | none => (w, .dangling)

/-- Declares a class under a name, or reopens the one that has it. -/
def declare (w : World) (t : DeclarationsId) (name : String) (superclass? : Option String) :
    World × Answer :=
  match w.declarationsAt? t with
  | none => (w, .dangling)
  | some declarations =>
    match declarations.classes.find? name with
    | some c => w.reopen name c superclass?
    | none =>
      match superclass? with
      | none =>
        w.answerEntered t declarations.globals name (w.makeRoot? name declarations.globals)
      | some superclass =>
        match declarations.classes.find? superclass with
        | none => (w, .refused (.undeclaredClass superclass))
        | some parent => w.answerEntered t declarations.globals name (w.makeChild? name parent)

/-- The class declared under a name. -/
def declared? (w : World) (t : DeclarationsId) (name : String) : Option ClassId :=
  (w.declarationsAt? t).bind (·.classes.find? name)

end World

end ScopeLayout
