import ScopeLayout.World.Run

/-!
# `ScopeLayout.Proofs.Outcome`: all that can come of a request

`World.serve` decides step by step what becomes of a request: whether the things
that it names exist, whether a name is taken, whether a class can still grow.
`World.Outcome` lists the ends of these decisions. There is one constructor for
each, with the world that is left, the answer, and what is known when the request
ends this way. `outcome_serve` says that a request ends in one of them.

The rules about what requests leave alone go through these cases and never
unfold the requests. The first cases change nothing: a request is refused, only
asks, or needs what was never made (`World.Dangles`). The one case that is not
spelled out is `bound`. To bind a method is to define it and to give its code, so
whatever comes of defining it comes of binding it.

Questions are served in one case each: `serve_slotOf` and `serve_slotOfCall` give the
answer to a question for a slot, `serve_declaredClass` to one for a class.

`World.log` is what the program sees of a run: its requests, each with the answer.
-/

set_option autoImplicit false

namespace ScopeLayout

namespace World

/-- The world with one more class, which extends nothing and has a numbering of its own. -/
def withRoot (w : World) (name : String) (g : GlobalsId) (settings : Settings) : World :=
  ((w.makeNumbering (.fresh settings)).1.makeClass (.root name g ⟨w.numberings.size⟩)).1

/-- The world with one more class, which extends the class `parent` of the given body. -/
def withChild (w : World) (name : String) (parent : ClassId) (body : ClassBody) : World :=
  ((w.changeClass parent ClassBody.extend).makeClass
    (.child name parent body)).1

/-! ### What the look-ups show of a new class -/

/-- A new root class is found under the identity after all others. -/
theorem classAt?_withRoot (w : World) (name : String) (g : GlobalsId) (settings : Settings)
    (c : ClassId) : (w.withRoot name g settings).classAt? c =
      if c.index = w.classes.size then some (.root name g ⟨w.numberings.size⟩)
      else w.classAt? c :=
  classAt?_makeClass (w.makeNumbering (.fresh settings)).1 _ c

/-- A new root class brings a numbering, which is found under the identity after all others. -/
theorem numberingAt?_withRoot (w : World) (name : String) (g : GlobalsId) (settings : Settings)
    (n : NumberingId) : (w.withRoot name g settings).numberingAt? n =
      if n.index = w.numberings.size then some (.fresh settings) else w.numberingAt? n :=
  numberingAt?_makeNumbering w (.fresh settings) n

/-- A new child is found under the identity after all others, and its parent is extended. -/
theorem classAt?_withChild (w : World) (name : String) (parent : ClassId) (body : ClassBody)
    (c : ClassId) : (w.withChild name parent body).classAt? c =
      if c.index = w.classes.size then some (.child name parent body)
      else if c = parent then (w.classAt? c).map ClassBody.extend
      else w.classAt? c := by
  rw [withChild, classAt?_makeClass, classAt?_changeClass]
  simp [changeClass]

/-! ### What a question is answered with -/

/-- Asked for a slot, a numbering answers with the one that the name has, or refuses. -/
theorem serve_slotOf {w : World} {n : NumberingId} {numbering : Numbering}
    (found : w.numberingAt? n = some numbering) (name : String) :
    w.serve (.slotOf n name) = (w, .ofSlot (numbering.demand name)) := by
  rw [serve, slotOf, found]

/-- A call is answered with the slot of its method, whatever its receiver is and whatever is
attached to it. -/
theorem serve_slotOfCall {w : World} {n : NumberingId} {numbering : Numbering}
    (found : w.numberingAt? n = some numbering) (call : CallSite) :
    w.serve (.slotOfCall n call) = (w, .ofSlot (numbering.demand call.method)) := by
  rw [serve, slotOf, found]
  rfl

/-- Asked for a class, a list of declarations answers with the one that is declared. -/
theorem serve_declaredClass {w : World} {t : DeclarationsId} {declarations : Declarations}
    (found : w.declarationsAt? t = some declarations) (name : String) :
    w.serve (.declaredClass t name)
      = (w, ((w.declared? t name).map Answer.classBody).getD .undeclared) := by
  rw [serve, declaredClass, found]
  cases w.declared? t name <;> rfl

/-! ### Outcomes -/

/-- The request needs a thing that was never made. The program has no reference to such a thing, so
its requests do not come to this. -/
inductive Dangles (w : World) : Request → Prop where
  | register {g : GlobalsId} {name : String} (absent : w.globalsAt? g = none) :
      Dangles w (.register g name)
  | copyNumbering {n : NumberingId} (absent : w.numberingAt? n = none) :
      Dangles w (.copyNumbering n)
  | allocate {n : NumberingId} {name : String} (absent : w.numberingAt? n = none) :
      Dangles w (.allocate n name)
  | allocateCall {n : NumberingId} {call : CallSite} (absent : w.numberingAt? n = none) :
      Dangles w (.allocateCall n call)
  | addRoot {name : String} {g : GlobalsId} (absent : w.globalsAt? g = none) :
      Dangles w (.addRoot name g)
  | addChild {name : String} {parent : ClassId} (absent : w.classAt? parent = none) :
      Dangles w (.addChild name parent)
  | addField {c : ClassId} {field : String} (absent : w.classAt? c = none) :
      Dangles w (.addField c field)
  | addMethod {c : ClassId} {method : String}
      (absent : ∀ body, w.classAt? c = some body → w.numberingAt? body.numbering = none) :
      Dangles w (.addMethod c method)
  | openDeclarations {g : GlobalsId} (absent : w.globalsAt? g = none) :
      Dangles w (.openDeclarations g)
  | declare {t : DeclarationsId} {name : String} {superclass? : Option String}
      (absent : w.declarationsAt? t = none) : Dangles w (.declare t name superclass?)
  | declareRoot {t : DeclarationsId} {declarations : Declarations} {name : String}
      (found : w.declarationsAt? t = some declarations)
      (absent : w.globalsAt? declarations.globals = none) : Dangles w (.declare t name none)
  | declareChild {t : DeclarationsId} {declarations : Declarations} {name superclass : String}
      {parent : ClassId} (found : w.declarationsAt? t = some declarations)
      (listed : declarations.classes.find? superclass = some parent)
      (absent : w.classAt? parent = none) : Dangles w (.declare t name (some superclass))

/-- What a request leaves and what it is answered. -/
inductive Outcome (w : World) : Request → World × Answer → Prop where
  -- nothing changes
  | dangling {request : Request} (dangles : w.Dangles request) : Outcome w request (w, .dangling)
  | slotOf (n : NumberingId) (name : String) : Outcome w (.slotOf n name) (w, w.slotOf n name)
  | slotOfCall (n : NumberingId) (call : CallSite) :
      Outcome w (.slotOfCall n call) (w, w.slotOf n call.slotName)
  | declaredClass (t : DeclarationsId) (name : String) :
      Outcome w (.declaredClass t name) (w, w.declaredClass t name)
  | known {c : ClassId} {body : ClassBody} {field : String} (found : w.classAt? c = some body)
      (listed : field ∈ body.fields) : Outcome w (.addField c field) (w, .registered false)
  | frozen {c : ClassId} {body : ClassBody} {field : String} (found : w.classAt? c = some body)
      (new : field ∉ body.fields) (closed : body.extended = true) :
      Outcome w (.addField c field) (w, .refused (.frozenLayout body.name field))
  | reopened {t : DeclarationsId} {declarations : Declarations} {name : String} {c : ClassId}
      {superclass? : Option String} (found : w.declarationsAt? t = some declarations)
      (listed : declarations.classes.find? name = some c)
      (same : ∀ requested, superclass? = some requested → w.superclassName c = requested) :
      Outcome w (.declare t name superclass?) (w, .classBody c)
  | mismatched {t : DeclarationsId} {declarations : Declarations} {name requested : String}
      {c : ClassId} (found : w.declarationsAt? t = some declarations)
      (listed : declarations.classes.find? name = some c)
      (differs : w.superclassName c ≠ requested) :
      Outcome w (.declare t name (some requested))
        (w, .refused (.superclassMismatch name (w.superclassName c) requested))
  | undeclared {t : DeclarationsId} {declarations : Declarations} {name superclass : String}
      (found : w.declarationsAt? t = some declarations)
      (new : declarations.classes.find? name = none)
      (missing : declarations.classes.find? superclass = none) :
      Outcome w (.declare t name (some superclass)) (w, .refused (.undeclaredClass superclass))
  -- module levels
  | openedGlobals (settings : Settings) : Outcome w (.openGlobals settings)
      ((w.makeGlobals (.fresh settings)).1, .globals ⟨w.globals.size⟩)
  | registered {g : GlobalsId} {globals : Globals} (name : String)
      (found : w.globalsAt? g = some globals) : Outcome w (.register g name)
        (w.changeGlobals g (·.register name), .registered (decide (name ∉ globals.names)))
  -- numberings
  | openedNumbering (settings : Settings) : Outcome w (.openNumbering settings)
      ((w.makeNumbering (.fresh settings)).1, .numbering ⟨w.numberings.size⟩)
  | copied {n : NumberingId} {numbering : Numbering} (found : w.numberingAt? n = some numbering) :
      Outcome w (.copyNumbering n)
        ((w.makeNumbering numbering).1, .numbering ⟨w.numberings.size⟩)
  | allocated {n : NumberingId} {numbering : Numbering} (name : String)
      (found : w.numberingAt? n = some numbering) : Outcome w (.allocate n name)
        (w.changeNumbering n (·.allocate name), .slot (numbering.slotFor name))
  | allocatedCall {n : NumberingId} {numbering : Numbering} (call : CallSite)
      (found : w.numberingAt? n = some numbering) : Outcome w (.allocateCall n call)
        (w.changeNumbering n (·.allocate call.slotName), .slot (numbering.slotFor call.slotName))
  -- classes
  | root {g : GlobalsId} {globals : Globals} (name : String)
      (found : w.globalsAt? g = some globals) : Outcome w (.addRoot name g)
        (w.withRoot name g globals.settings, .classBody ⟨w.classes.size⟩)
  | child {parent : ClassId} {body : ClassBody} (name : String)
      (found : w.classAt? parent = some body) : Outcome w (.addChild name parent)
        (w.withChild name parent body, .classBody ⟨w.classes.size⟩)
  | field {c : ClassId} {body : ClassBody} {field : String} (found : w.classAt? c = some body)
      (new : field ∉ body.fields) (free : body.extended = false) : Outcome w (.addField c field)
        (w.changeClass c (·.addField field),
          .registered true)
  | defined {c : ClassId} {body : ClassBody} {numbering : Numbering} (method : String)
      (found : w.classAt? c = some body)
      (numbered : w.numberingAt? body.numbering = some numbering) : Outcome w (.addMethod c method)
        ((w.changeNumbering body.numbering (·.allocate method)).changeClass c
          (·.define method (numbering.slotFor method)), .slot (numbering.slotFor method))
  | bound {c : ClassId} {method : String} {result : World × Answer} (label : String)
      (defined : Outcome w (.addMethod c method) result) : Outcome w (.bindMethod c method label)
        (result.1.changeClass c (·.bind method label), result.2)
  -- declarations
  | openedDeclarations {g : GlobalsId} {globals : Globals}
      (found : w.globalsAt? g = some globals) : Outcome w (.openDeclarations g)
        ((w.makeDeclarations { globals := g, classes := .empty }).1,
          .declarations ⟨w.declarations.size⟩)
  | declaredRoot {t : DeclarationsId} {declarations : Declarations} {globals : Globals}
      {name : String} (found : w.declarationsAt? t = some declarations)
      (new : declarations.classes.find? name = none)
      (home : w.globalsAt? declarations.globals = some globals) :
      Outcome w (.declare t name none)
        ((w.withRoot name declarations.globals globals.settings).enter t declarations.globals name
          ⟨w.classes.size⟩, .classBody ⟨w.classes.size⟩)
  | declaredChild {t : DeclarationsId} {declarations : Declarations} {name superclass : String}
      {parent : ClassId} {body : ClassBody} (found : w.declarationsAt? t = some declarations)
      (new : declarations.classes.find? name = none)
      (listed : declarations.classes.find? superclass = some parent)
      (made : w.classAt? parent = some body) : Outcome w (.declare t name (some superclass))
        ((w.withChild name parent body).enter t declarations.globals name ⟨w.classes.size⟩,
          .classBody ⟨w.classes.size⟩)

/-- A root is made at a module level that exists. -/
theorem makeRoot?_of_found {w : World} {g : GlobalsId} {globals : Globals}
    (found : w.globalsAt? g = some globals) (name : String) :
    w.makeRoot? name g = some (w.withRoot name g globals.settings, ⟨w.classes.size⟩) := by
  rw [makeRoot?, found]
  rfl

/-- At none other is one made. -/
theorem makeRoot?_of_absent {w : World} {g : GlobalsId} (absent : w.globalsAt? g = none)
    (name : String) : w.makeRoot? name g = none := by
  rw [makeRoot?, absent]
  rfl

/-- A child is made of a class that exists. -/
theorem makeChild?_of_found {w : World} {parent : ClassId} {body : ClassBody}
    (found : w.classAt? parent = some body) (name : String) :
    w.makeChild? name parent = some (w.withChild name parent body, ⟨w.classes.size⟩) := by
  have hsize : (w.changeClass parent ClassBody.extend).classes.size = w.classes.size :=
    Store.size_change _ _ _
  rw [makeChild?, found, ← hsize]
  rfl

/-- Of no other is one made. -/
theorem makeChild?_of_absent {w : World} {parent : ClassId} (absent : w.classAt? parent = none)
    (name : String) : w.makeChild? name parent = none := by
  rw [makeChild?, absent]
  rfl

/-- How a request for a field ends. -/
theorem outcome_addField (w : World) (c : ClassId) (field : String) :
    w.Outcome (.addField c field) (w.addField c field) := by
  cases found : w.classAt? c with
  | none =>
    rw [addField, found]
    exact .dangling (.addField found)
  | some body =>
    simp only [addField, found]
    split
    · rename_i listed
      exact .known found listed
    · rename_i new
      split
      · rename_i closed
        exact .frozen found new closed
      · rename_i free
        exact .field found new (Bool.not_eq_true _ ▸ free)

/-- How a request for a method ends. -/
theorem outcome_addMethod (w : World) (c : ClassId) (method : String) :
    w.Outcome (.addMethod c method) (w.addMethod c method) := by
  cases found : w.classAt? c with
  | none =>
    rw [addMethod, found]
    exact .dangling (.addMethod fun body h => nomatch found.symm.trans h)
  | some body =>
    cases numbered : w.numberingAt? body.numbering with
    | none =>
      simp only [addMethod, found, numbered]
      refine .dangling (.addMethod ?_)
      intro other hother
      rw [← Option.some.inj (found.symm.trans hother)]
      exact numbered
    | some numbering =>
      simp only [addMethod, found, numbered]
      exact .defined method found numbered

/-- A name that is taken is opened again or refused, and nothing is made. -/
theorem outcome_reopen {w : World} {t : DeclarationsId} {declarations : Declarations}
    {name : String} {c : ClassId} (found : w.declarationsAt? t = some declarations)
    (listed : declarations.classes.find? name = some c) (superclass? : Option String) :
    w.Outcome (.declare t name superclass?) (w.reopen name c superclass?) := by
  cases superclass? with
  | none => exact .reopened found listed (fun _ h => nomatch h)
  | some requested =>
    rw [reopen]
    split
    · rename_i same
      refine .reopened found listed ?_
      intro other hother
      rw [← Option.some.inj hother]
      exact same
    · rename_i differs
      exact .mismatched found listed differs

/-- How a declaration ends. -/
theorem outcome_declare (w : World) (t : DeclarationsId) (name : String)
    (superclass? : Option String) :
    w.Outcome (.declare t name superclass?) (w.declare t name superclass?) := by
  cases found : w.declarationsAt? t with
  | none =>
    rw [declare, found]
    exact .dangling (.declare found)
  | some declarations =>
    cases listed : declarations.classes.find? name with
    | some c =>
      simp only [declare, found, listed]
      exact outcome_reopen found listed superclass?
    | none =>
      cases superclass? with
      | none =>
        simp only [declare, found, listed]
        cases home : w.globalsAt? declarations.globals with
        | none =>
          rw [makeRoot?_of_absent home]
          exact .dangling (.declareRoot found home)
        | some globals =>
          rw [makeRoot?_of_found home]
          exact .declaredRoot found listed home
      | some superclass =>
        cases hparent : declarations.classes.find? superclass with
        | none =>
          simp only [declare, found, listed, hparent]
          exact .undeclared found listed hparent
        | some parent =>
          simp only [declare, found, listed, hparent]
          cases hbody : w.classAt? parent with
          | none =>
            rw [makeChild?_of_absent hbody]
            exact .dangling (.declareChild found hparent hbody)
          | some body =>
            rw [makeChild?_of_found hbody]
            exact .declaredChild found listed hparent hbody

/-- Every request ends in one of the outcomes. -/
theorem outcome_serve (w : World) (request : Request) : w.Outcome request (w.serve request) := by
  cases request with
  | openGlobals settings => exact .openedGlobals settings
  | register g name =>
    cases found : w.globalsAt? g with
    | none =>
      rw [serve, register, found]
      exact .dangling (.register found)
    | some globals =>
      rw [serve, register, found]
      exact .registered name found
  | openNumbering settings => exact .openedNumbering settings
  | copyNumbering n =>
    cases found : w.numberingAt? n with
    | none =>
      rw [serve, copyNumbering, found]
      exact .dangling (.copyNumbering found)
    | some numbering =>
      rw [serve, copyNumbering, found]
      exact .copied found
  | allocate n name =>
    cases found : w.numberingAt? n with
    | none =>
      rw [serve, allocate, found]
      exact .dangling (.allocate found)
    | some numbering =>
      rw [serve, allocate, found]
      exact .allocated name found
  | allocateCall n call =>
    cases found : w.numberingAt? n with
    | none =>
      rw [serve, allocate, found]
      exact .dangling (.allocateCall found)
    | some numbering =>
      rw [serve, allocate, found]
      exact .allocatedCall call found
  | slotOf n name => exact .slotOf n name
  | slotOfCall n call => exact .slotOfCall n call
  | addRoot name g =>
    cases found : w.globalsAt? g with
    | none =>
      rw [serve, addRoot, makeRoot?_of_absent found]
      exact .dangling (.addRoot found)
    | some globals =>
      rw [serve, addRoot, makeRoot?_of_found found]
      exact .root name found
  | addChild name parent =>
    cases found : w.classAt? parent with
    | none =>
      rw [serve, addChild, makeChild?_of_absent found]
      exact .dangling (.addChild found)
    | some body =>
      rw [serve, addChild, makeChild?_of_found found]
      exact .child name found
  | addField c field => exact w.outcome_addField c field
  | addMethod c method => exact w.outcome_addMethod c method
  | bindMethod c method label => exact .bound label (w.outcome_addMethod c method)
  | openDeclarations g =>
    cases found : w.globalsAt? g with
    | none =>
      rw [serve, openDeclarations, found]
      exact .dangling (.openDeclarations found)
    | some globals =>
      rw [serve, openDeclarations, found]
      exact .openedDeclarations found
  | declare t name superclass? => exact w.outcome_declare t name superclass?
  | declaredClass t name => exact .declaredClass t name

/-! ### Runs and their logs -/

/-- The world that the requests lead to from the empty one. -/
abbrev after (requests : List Request) : World := (World.empty.run requests).1

/-- The requests with their answers. -/
def log (w : World) : List Request → List (Request × Answer)
  | [] => []
  | request :: requests => (request, (w.serve request).2) :: (w.serve request).1.log requests

end World

end ScopeLayout
