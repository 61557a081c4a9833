import ScopeLayout.World.Answer
import ScopeLayout.World.Basic

/-!
# `ScopeLayout.World.Classes`: requests that make and fill classes

A root class gets a numbering of its own, and its descendants share it. A class
that is extended cannot take new fields, since its subclass has placed its own
fields behind them. Methods can come at any time: their slots are handed out
for the whole hierarchy.
-/

set_option autoImplicit false

namespace ScopeLayout

namespace World

/-- Makes a class that extends nothing, with a new numbering. -/
def makeRoot? (w : World) (name : String) (g : GlobalsId) : Option (World × ClassId) := do
  let globals ← w.globalsAt? g
  let (w, numbering) := w.makeNumbering (.fresh globals.settings)
  w.makeClass (.root name g numbering)

/-- Makes a class that extends `parent`, which can take no new fields from now on. -/
def makeChild? (w : World) (name : String) (parent : ClassId) : Option (World × ClassId) := do
  let body ← w.classAt? parent
  let w := w.changeClass parent ClassBody.extend
  w.makeClass (.child name parent body)

/-- Answers with the class that was made. -/
def answerClass (w : World) : Option (World × ClassId) → World × Answer
  | some (made, c) => (made, .classBody c)
  | none => (w, .dangling)

/-- Makes a class that extends nothing. -/
def addRoot (w : World) (name : String) (g : GlobalsId) : World × Answer :=
  w.answerClass (w.makeRoot? name g)

/-- Makes a class that extends another. -/
def addChild (w : World) (name : String) (parent : ClassId) : World × Answer :=
  w.answerClass (w.makeChild? name parent)

/-- Adds a field behind all others. A field that the class has is left alone, and only then
does it matter whether the class is extended. -/
def addField (w : World) (c : ClassId) (field : String) : World × Answer :=
  match w.classAt? c with
  | none => (w, .dangling)
  | some body =>
    if field ∈ body.fields then (w, .registered false)
    else if body.extended then (w, .refused (.frozenLayout body.name field))
    else (w.changeClass c (·.addField field), .registered true)

/-- Defines a method and answers with its slot, which the name gets now if it has none. -/
def addMethod (w : World) (c : ClassId) (method : String) : World × Answer :=
  match w.classAt? c with
  | none => (w, .dangling)
  | some body =>
    match w.numberingAt? body.numbering with
    | none => (w, .dangling)
    | some numbering =>
      let slot := numbering.slotFor method
      ((w.changeNumbering body.numbering (·.allocate method)).changeClass c
        (·.define method slot), .slot slot)

/-- Defines a method as `addMethod` does and gives its code. -/
def bindMethod (w : World) (c : ClassId) (method label : String) : World × Answer :=
  let (defined, answer) := w.addMethod c method
  (defined.changeClass c (·.bind method label), answer)

/-- The key under which a class keeps a class variable. -/
def classVarKey? (w : World) (c : ClassId) (bare : String) : Option String := do
  let body ← w.classAt? c
  let globals ← w.globalsAt? body.globals
  some (globals.settings.classVarPrefix ++ body.name ++ "__" ++ bare)

end World

end ScopeLayout
