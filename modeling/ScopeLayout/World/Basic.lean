import ScopeLayout.ClassBody
import ScopeLayout.Declarations
import ScopeLayout.Globals
import ScopeLayout.Numbering
import ScopeLayout.Store

/-!
# `ScopeLayout.World.Basic`: everything that is shared and changes

A `World` holds the things that scopes, classes and call sites refer to by
identity, one `Store` for each kind.

The look-ups are the view of a world. Each way to change it has one lemma that
says what becomes of the look-up, and each is what `Store.at?_change` or
`Store.at?_make` says of the store of that kind: a change is seen at its own
identity and nowhere else (`classAt?_changeClass` and the three like it), and
making a thing leaves those that exist alone (`classAt?_makeClass` and the three
like it).
-/

set_option autoImplicit false

namespace ScopeLayout

/-- The shared things of one compilation. -/
structure World where
  globals : Store .globals Globals := {}
  -- The slot numberings, those of hierarchies and those that stand alone.
  numberings : Store .numbering Numbering := {}
  classes : Store .classBody ClassBody := {}
  declarations : Store .declarations Declarations := {}
deriving DecidableEq, Repr

namespace World

/-- The world in which nothing was made yet. -/
def empty : World := {}

/-- The module level of an identity. -/
def globalsAt? (w : World) (g : GlobalsId) : Option Globals := w.globals.at? g

/-- The numbering of an identity. -/
def numberingAt? (w : World) (n : NumberingId) : Option Numbering := w.numberings.at? n

/-- The class of an identity. -/
def classAt? (w : World) (c : ClassId) : Option ClassBody := w.classes.at? c

/-- The list of declarations of an identity. -/
def declarationsAt? (w : World) (t : DeclarationsId) : Option Declarations :=
  w.declarations.at? t

/-- Changes one module level. -/
def changeGlobals (w : World) (g : GlobalsId) (change : Globals → Globals) : World :=
  { w with globals := w.globals.change g change }

/-- Changes one numbering. -/
def changeNumbering (w : World) (n : NumberingId) (change : Numbering → Numbering) : World :=
  { w with numberings := w.numberings.change n change }

/-- Changes one class. -/
def changeClass (w : World) (c : ClassId) (change : ClassBody → ClassBody) : World :=
  { w with classes := w.classes.change c change }

/-- Changes one list of declarations. -/
def changeDeclarations (w : World) (t : DeclarationsId)
    (change : Declarations → Declarations) : World :=
  { w with declarations := w.declarations.change t change }

/-- Makes a module level. -/
def makeGlobals (w : World) (globals : Globals) : World × GlobalsId :=
  ({ w with globals := w.globals.make globals }, w.globals.next)

/-- Makes a numbering. -/
def makeNumbering (w : World) (numbering : Numbering) : World × NumberingId :=
  ({ w with numberings := w.numberings.make numbering }, w.numberings.next)

/-- Makes a class. -/
def makeClass (w : World) (body : ClassBody) : World × ClassId :=
  ({ w with classes := w.classes.make body }, w.classes.next)

/-- Makes a list of declarations. -/
def makeDeclarations (w : World) (declarations : Declarations) : World × DeclarationsId :=
  ({ w with declarations := w.declarations.make declarations }, w.declarations.next)

/-! ### What the look-ups show after a change -/

/-- A change of a module level shows there and at no other. -/
theorem globalsAt?_changeGlobals (w : World) (changed g : GlobalsId)
    (change : Globals → Globals) :
    (w.changeGlobals changed change).globalsAt? g =
      if g = changed then (w.globalsAt? g).map change else w.globalsAt? g :=
  w.globals.at?_change changed g change

/-- A new module level is found under the identity after all others. -/
theorem globalsAt?_makeGlobals (w : World) (made : Globals) (g : GlobalsId) :
    (w.makeGlobals made).1.globalsAt? g =
      if g.index = w.globals.size then some made else w.globalsAt? g :=
  w.globals.at?_make made g

/-- A change of a numbering shows there and at no other. -/
theorem numberingAt?_changeNumbering (w : World) (changed n : NumberingId)
    (change : Numbering → Numbering) :
    (w.changeNumbering changed change).numberingAt? n =
      if n = changed then (w.numberingAt? n).map change else w.numberingAt? n :=
  w.numberings.at?_change changed n change

/-- A new numbering is found under the identity after all others. -/
theorem numberingAt?_makeNumbering (w : World) (made : Numbering) (n : NumberingId) :
    (w.makeNumbering made).1.numberingAt? n =
      if n.index = w.numberings.size then some made else w.numberingAt? n :=
  w.numberings.at?_make made n

/-- A change of a class shows there and at no other. -/
theorem classAt?_changeClass (w : World) (changed c : ClassId)
    (change : ClassBody → ClassBody) :
    (w.changeClass changed change).classAt? c =
      if c = changed then (w.classAt? c).map change else w.classAt? c :=
  w.classes.at?_change changed c change

/-- A new class is found under the identity after all others. -/
theorem classAt?_makeClass (w : World) (made : ClassBody) (c : ClassId) :
    (w.makeClass made).1.classAt? c =
      if c.index = w.classes.size then some made else w.classAt? c :=
  w.classes.at?_make made c

/-- A change of a list of declarations shows there and at no other. -/
theorem declarationsAt?_changeDeclarations (w : World) (changed t : DeclarationsId)
    (change : Declarations → Declarations) :
    (w.changeDeclarations changed change).declarationsAt? t =
      if t = changed then (w.declarationsAt? t).map change else w.declarationsAt? t :=
  w.declarations.at?_change changed t change

/-- A new list of declarations is found under the identity after all others. -/
theorem declarationsAt?_makeDeclarations (w : World) (made : Declarations)
    (t : DeclarationsId) :
    (w.makeDeclarations made).1.declarationsAt? t =
      if t.index = w.declarations.size then some made else w.declarationsAt? t :=
  w.declarations.at?_make made t

end World

end ScopeLayout
