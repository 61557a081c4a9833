import ScopeLayout.World.Declaring

/-!
# `ScopeLayout.World.Run`: requests one after the other

`Request` lists everything that a world can be asked to do. `World.serve`
serves one request and `World.run` serves several in order. `World.Reachable`
holds of the worlds that come about in this way from the empty one.

The rules about layouts are rules about reachable worlds: that a slot is never
reassigned or that a field keeps its place holds because no request breaks it.
-/

set_option autoImplicit false

namespace ScopeLayout

/-- A request to a world. -/
inductive Request where
  -- Module levels and their globals.
  | openGlobals (settings : Settings)
  | register (g : GlobalsId) (name : String)
  -- Numberings that belong to no hierarchy. A copy starts out as the other is now.
  | openNumbering (settings : Settings)
  | copyNumbering (n : NumberingId)
  -- The slot of a name or a call, which is handed out if there is none.
  | allocate (n : NumberingId) (name : String)
  | allocateCall (n : NumberingId) (call : CallSite)
  -- The slot that a name or a call has.
  | slotOf (n : NumberingId) (name : String)
  | slotOfCall (n : NumberingId) (call : CallSite)
  -- Classes, with their fields and methods. To bind a method is to define it and give its code.
  | addRoot (name : String) (g : GlobalsId)
  | addChild (name : String) (parent : ClassId)
  | addField (c : ClassId) (field : String)
  | addMethod (c : ClassId) (method : String)
  | bindMethod (c : ClassId) (method label : String)
  -- Classes by the names they are declared under.
  | openDeclarations (g : GlobalsId)
  | declare (t : DeclarationsId) (name : String) (superclass? : Option String)
  | declaredClass (t : DeclarationsId) (name : String)
deriving DecidableEq, Repr

namespace World

/-- Registers a global. -/
def register (w : World) (g : GlobalsId) (name : String) : World × Answer :=
  match w.globalsAt? g with
  | none => (w, .dangling)
  | some globals =>
    (w.changeGlobals g (·.register name), .registered (decide (name ∉ globals.names)))

/-- Makes a numbering that starts out as another is now. -/
def copyNumbering (w : World) (n : NumberingId) : World × Answer :=
  match w.numberingAt? n with
  | none => (w, .dangling)
  | some numbering =>
    let (w, copy) := w.makeNumbering numbering
    (w, .numbering copy)

/-- Answers with the slot of a name, which it gets now if it has none. -/
def allocate (w : World) (n : NumberingId) (name : String) : World × Answer :=
  match w.numberingAt? n with
  | none => (w, .dangling)
  | some numbering => (w.changeNumbering n (·.allocate name), .slot (numbering.slotFor name))

/-- Answers with the slot that a name has. -/
def slotOf (w : World) (n : NumberingId) (name : String) : Answer :=
  match w.numberingAt? n with
  | none => .dangling
  | some numbering => .ofSlot (numbering.demand name)

/-- Makes a list of declarations at a module level. -/
def openDeclarations (w : World) (g : GlobalsId) : World × Answer :=
  match w.globalsAt? g with
  | none => (w, .dangling)
  | some _ =>
    let (w, t) := w.makeDeclarations { globals := g, classes := .empty }
    (w, .declarations t)

/-- Answers with the class declared under a name. -/
def declaredClass (w : World) (t : DeclarationsId) (name : String) : Answer :=
  match w.declarationsAt? t with
  | none => .dangling
  | some _ =>
    match w.declared? t name with
    | some c => .classBody c
    | none => .undeclared

/-- Serves one request. -/
def serve (w : World) : Request → World × Answer
  | .openGlobals settings =>
    let (w, g) := w.makeGlobals (.fresh settings)
    (w, .globals g)
  | .register g name => w.register g name
  | .openNumbering settings =>
    let (w, n) := w.makeNumbering (.fresh settings)
    (w, .numbering n)
  | .copyNumbering n => w.copyNumbering n
  | .allocate n name => w.allocate n name
  | .allocateCall n call => w.allocate n call.slotName
  | .slotOf n name => (w, w.slotOf n name)
  | .slotOfCall n call => (w, w.slotOf n call.slotName)
  | .addRoot name g => w.addRoot name g
  | .addChild name parent => w.addChild name parent
  | .addField c field => w.addField c field
  | .addMethod c method => w.addMethod c method
  | .bindMethod c method label => w.bindMethod c method label
  | .openDeclarations g => w.openDeclarations g
  | .declare t name superclass? => w.declare t name superclass?
  | .declaredClass t name => (w, w.declaredClass t name)

/-- Serves the requests in order. -/
def run (w : World) : List Request → World × List Answer
  | [] => (w, [])
  | request :: requests =>
    let (served, answer) := w.serve request
    let (final, answers) := served.run requests
    (final, answer :: answers)

/-- The worlds that come about by serving requests. -/
inductive Reachable : World → Prop where
  | empty : Reachable .empty
  | serve {w : World} (reachable : Reachable w) (request : Request) :
      Reachable (w.serve request).1

/-- Serving requests leads from reachable worlds to reachable worlds. -/
theorem Reachable.run {w : World} (reachable : Reachable w) (requests : List Request) :
    Reachable (w.run requests).1 := by
  induction requests generalizing w with
  | nil => exact reachable
  | cons request requests ih => exact ih (reachable.serve request)

end World

end ScopeLayout
