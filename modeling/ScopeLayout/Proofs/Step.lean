import Mathlib.Logic.Relation
import ScopeLayout.Proofs.Outcome

/-!
# `ScopeLayout.Proofs.Step`: the steps that requests are made of

A request changes several shared things, one after the other: declaring a class
makes its numbering and its body, registers its name and lists it. `World.Step`
has one constructor for each single change, with all that is known when the
change is made. `later_outcome` takes whatever can come of a request apart into
such steps, so what no step breaks holds of every reachable world
(`Reachable.built`).

What a step does to a look-up is said once for each kind of thing:

* `Step.globals_grow`, `Step.numbering_grows` and `Step.class_grows`: what
  exists stays, and has changed in one of a few ways if at all.
* `Step.numbering_made` and `Step.class_made`: what is new is a fresh numbering
  or the copy of one, and a root class or the child of a class that exists.

The invariants of a world use these five and never look at the requests. For what
holds of each class by itself, `Built.class_induction` has them built in. What a class
only has to keep is carried to later worlds by `later_class`.
-/

set_option autoImplicit false

namespace ScopeLayout

/-- How a class may change in one step. It may stay as it is, because the step is about something
else. A class that extends it may be made. It may get a field that it lacks, as long as nothing
extends it. It may define a method, at the slot that the name has in the hierarchy, and a method
that it defines may get its code. -/
inductive ClassBody.Grows (w : World) (body : ClassBody) : ClassBody → Prop where
  | same : Grows w body body
  | extend : Grows w body body.extend
  | addField {field : String} (new : field ∉ body.fields) (free : body.extended = false) :
      Grows w body (body.addField field)
  | define {numbering : Numbering} {method : String} {slot : UInt64}
      (numbered : w.numberingAt? body.numbering = some numbering)
      (slotted : numbering.slot? method = some slot) : Grows w body (body.define method slot)
  | bind (method label : String) : Grows w body (body.bind method label)

namespace World

/-- The smallest changes of a world. Each comes with what the requests have made sure of when they
make it. The one that needs most is `enter`, which lists a class under its name: the name is a
global by then and was not listed before, and the class belongs to the module level of the list or
else extends a class that is listed already. -/
inductive Step (w : World) : World → Prop where
  -- module levels
  | openGlobals (settings : Settings) : Step w (w.makeGlobals (.fresh settings)).1
  | register (g : GlobalsId) (name : String) : Step w (w.changeGlobals g (·.register name))
  -- numberings, of which the two made here belong to no hierarchy
  | openNumbering (settings : Settings) : Step w (w.makeNumbering (.fresh settings)).1
  | copyNumbering {n : NumberingId} {numbering : Numbering}
      (found : w.numberingAt? n = some numbering) : Step w (w.makeNumbering numbering).1
  | allocate (n : NumberingId) (name : String) : Step w (w.changeNumbering n (·.allocate name))
  -- classes
  | root {g : GlobalsId} {globals : Globals} (name : String)
      (found : w.globalsAt? g = some globals) : Step w (w.withRoot name g globals.settings)
  | child {parent : ClassId} {body : ClassBody} (name : String)
      (found : w.classAt? parent = some body) : Step w (w.withChild name parent body)
  | addField {c : ClassId} {body : ClassBody} {field : String}
      (found : w.classAt? c = some body) (new : field ∉ body.fields)
      (free : body.extended = false) :
      Step w (w.changeClass c (·.addField field))
  | define {c : ClassId} {body : ClassBody} {numbering : Numbering} {method : String}
      {slot : UInt64} (found : w.classAt? c = some body)
      (numbered : w.numberingAt? body.numbering = some numbering)
      (slotted : numbering.slot? method = some slot) :
      Step w (w.changeClass c (·.define method slot))
  | bind (c : ClassId) (method label : String) : Step w (w.changeClass c (·.bind method label))
  -- declarations
  | openDeclarations {g : GlobalsId} {globals : Globals} (found : w.globalsAt? g = some globals) :
      Step w (w.makeDeclarations { globals := g, classes := .empty }).1
  | enter {t : DeclarationsId} {declarations : Declarations} {c : ClassId} {body : ClassBody}
      (found : w.declarationsAt? t = some declarations) (made : w.classAt? c = some body)
      (new : declarations.classes.find? body.name = none)
      (registered : ∀ globals, w.globalsAt? declarations.globals = some globals →
        body.name ∈ globals.names)
      (root : body.parent? = none → body.globals = declarations.globals)
      (child : ∀ p, body.parent? = some p → ∃ name parent,
        declarations.classes.find? name = some p ∧ w.classAt? p = some parent
          ∧ parent.globals = body.globals) :
      Step w (w.changeDeclarations t fun declarations =>
        { declarations with classes := declarations.classes.add body.name c })

/-- The second world comes about from the first by steps. -/
abbrev Later : World → World → Prop := Relation.ReflTransGen Step

/-- The worlds that come about by steps from the empty one. -/
abbrev Built (w : World) : Prop := Later .empty w

/-! ### Requests are chains of steps -/

/-- The slot of a method is handed out before the method is defined, so the numbering has it. -/
theorem later_define {w : World} {c : ClassId} {body : ClassBody} {numbering : Numbering}
    (found : w.classAt? c = some body) (numbered : w.numberingAt? body.numbering = some numbering)
    (method : String) :
    w.Later ((w.changeNumbering body.numbering (·.allocate method)).changeClass c
      (·.define method (numbering.slotFor method))) := by
  have hnumbered : (w.changeNumbering body.numbering (·.allocate method)).numberingAt?
      body.numbering = some (numbering.allocate method) := by
    rw [numberingAt?_changeNumbering, if_pos rfl, numbered]
    rfl
  have hslot : (numbering.allocate method).slot? method = some (numbering.slotFor method) := by
    rw [Numbering.slot?_allocate, if_pos rfl]
  exact (Relation.ReflTransGen.single (.allocate body.numbering method)).tail
    (.define found hnumbered hslot)

/-- A class that was just made can be listed. -/
theorem later_enter {w made : World} {t : DeclarationsId} {declarations : Declarations}
    {c : ClassId} {body : ClassBody} (later : w.Later made)
    (found : made.declarationsAt? t = some declarations) (hbody : made.classAt? c = some body)
    (new : declarations.classes.find? body.name = none)
    (root : body.parent? = none → body.globals = declarations.globals)
    (child : ∀ p, body.parent? = some p → ∃ name parent,
      declarations.classes.find? name = some p ∧ made.classAt? p = some parent
        ∧ parent.globals = body.globals) :
    w.Later (made.enter t declarations.globals body.name c) := by
  -- The class is registered first, so its name is a global when it is listed.
  have hname : ∀ globals, (made.changeGlobals declarations.globals
      (·.register body.name)).globalsAt? declarations.globals = some globals →
        body.name ∈ globals.names := by
    intro globals hglobals
    rw [globalsAt?_changeGlobals, if_pos rfl, Option.map_eq_some_iff] at hglobals
    obtain ⟨before, -, rfl⟩ := hglobals
    simp [Globals.register]
  exact (later.tail (.register declarations.globals body.name)).tail
    (.enter found hbody new hname root child)

/-- Whatever comes of a request comes about by steps. -/
theorem later_outcome {w : World} {request : Request} {result : World × Answer}
    (outcome : w.Outcome request result) : w.Later result.1 := by
  induction outcome with
  | dangling _ => exact .refl
  | slotOf n name => exact .refl
  | slotOfCall n call => exact .refl
  | declaredClass t name => exact .refl
  | known _ _ => exact .refl
  | frozen _ _ _ => exact .refl
  | reopened _ _ _ => exact .refl
  | mismatched _ _ _ => exact .refl
  | undeclared _ _ _ => exact .refl
  | openedGlobals settings => exact .single (.openGlobals settings)
  | @registered g globals name found => exact .single (.register g name)
  | openedNumbering settings => exact .single (.openNumbering settings)
  | copied found => exact .single (.copyNumbering found)
  | @allocated n numbering name found => exact .single (.allocate n name)
  | @allocatedCall n numbering call found => exact .single (.allocate n call.slotName)
  | root name found => exact .single (.root name found)
  | child name found => exact .single (.child name found)
  | field found new free => exact .single (.addField found new free)
  | defined method found numbered => exact later_define found numbered method
  | @bound c method result label _ ih => exact ih.tail (.bind c method label)
  | openedDeclarations found => exact .single (.openDeclarations found)
  | @declaredRoot t declarations globals name found new home =>
    have hmade : (w.withRoot name declarations.globals globals.settings).classAt?
        ⟨w.classes.size⟩ = some (.root name declarations.globals ⟨w.numberings.size⟩) := by
      rw [classAt?_withRoot, if_pos rfl]
    exact later_enter (.single (.root name home)) found hmade new (fun _ => rfl)
      (fun p hp => nomatch hp)
  | @declaredChild t declarations name superclass parent body found new listed made =>
    have hmade : (w.withChild name parent body).classAt? ⟨w.classes.size⟩
        = some (.child name parent body) := by
      rw [classAt?_withChild, if_pos rfl]
    have hextended : (w.withChild name parent body).classAt? parent
        = some body.extend := by
      rw [classAt?_withChild, if_neg (Store.index_ne_size made), if_pos rfl, made]
      rfl
    refine later_enter (.single (.child name made)) found hmade new (fun h => nomatch h) ?_
    intro p hp
    obtain rfl : parent = p := Option.some.inj hp
    exact ⟨superclass, _, listed, hextended, rfl⟩

/-- Every request is a chain of steps. -/
theorem later_serve (w : World) (request : Request) : w.Later (w.serve request).1 :=
  later_outcome (w.outcome_serve request)

/-- A run leads to a later world. -/
theorem later_run (w : World) (requests : List Request) : w.Later (w.run requests).1 := by
  induction requests generalizing w with
  | nil => exact .refl
  | cons request requests ih => exact (later_serve w request).trans (ih _)

/-- Reachable worlds come about by steps. -/
theorem Reachable.built {w : World} (reachable : w.Reachable) : w.Built := by
  induction reachable with
  | empty => exact .refl
  | serve _ request ih => exact ih.trans (later_serve _ request)

/-! ### What becomes of things that exist -/

namespace Step

variable {w w' : World}

/-- A module level stays, with one more name at most. -/
theorem globals_grow (step : w.Step w') {g : GlobalsId} {globals : Globals}
    (found : w.globalsAt? g = some globals) :
    w'.globalsAt? g = some globals ∨ ∃ name, w'.globalsAt? g = some (globals.register name) := by
  cases step with
  | openGlobals settings =>
    have hold : g.index ≠ w.globals.size :=
      Store.index_ne_size found
    rw [globalsAt?_makeGlobals, if_neg hold]
    exact .inl found
  | register changed name =>
    rw [globalsAt?_changeGlobals, found]
    by_cases h : g = changed
    · exact .inr ⟨name, if_pos h⟩
    · exact .inl (if_neg h)
  | openNumbering settings => exact .inl found
  | copyNumbering _ => exact .inl found
  | allocate n name => exact .inl found
  | root name _ => exact .inl found
  | child name _ => exact .inl found
  | addField _ _ _ => exact .inl found
  | define _ _ _ => exact .inl found
  | bind c method label => exact .inl found
  | openDeclarations _ => exact .inl found
  | enter _ _ _ _ _ _ => exact .inl found

/-- A numbering stays, after one more request at most. -/
theorem numbering_grows (step : w.Step w') {n : NumberingId} {numbering : Numbering}
    (found : w.numberingAt? n = some numbering) :
    w'.numberingAt? n = some numbering
      ∨ ∃ name, w'.numberingAt? n = some (numbering.allocate name) := by
  have hold : n.index ≠ w.numberings.size := Store.index_ne_size found
  cases step with
  | openGlobals settings => exact .inl found
  | register g name => exact .inl found
  | openNumbering settings =>
    rw [numberingAt?_makeNumbering, if_neg hold]
    exact .inl found
  | copyNumbering _ =>
    rw [numberingAt?_makeNumbering, if_neg hold]
    exact .inl found
  | allocate changed name =>
    rw [numberingAt?_changeNumbering, found]
    by_cases h : n = changed
    · exact .inr ⟨name, if_pos h⟩
    · exact .inl (if_neg h)
  | root name _ =>
    rw [numberingAt?_withRoot, if_neg hold]
    exact .inl found
  | child name _ => exact .inl found
  | addField _ _ _ => exact .inl found
  | define _ _ _ => exact .inl found
  | bind c method label => exact .inl found
  | openDeclarations _ => exact .inl found
  | enter _ _ _ _ _ _ => exact .inl found

/-- A class stays and has grown at most. -/
theorem class_grows (step : w.Step w') {c : ClassId} {body : ClassBody}
    (found : w.classAt? c = some body) :
    ∃ body', w'.classAt? c = some body' ∧ body.Grows w body' := by
  have hold : c.index ≠ w.classes.size := Store.index_ne_size found
  cases step with
  | openGlobals settings => exact ⟨body, found, .same⟩
  | register g name => exact ⟨body, found, .same⟩
  | openNumbering settings => exact ⟨body, found, .same⟩
  | copyNumbering _ => exact ⟨body, found, .same⟩
  | allocate n name => exact ⟨body, found, .same⟩
  | root name _ =>
    rw [classAt?_withRoot, if_neg hold]
    exact ⟨body, found, .same⟩
  | @child parent parentBody name _ =>
    -- The new class is another one, but this one may be its parent.
    rw [classAt?_withChild, if_neg hold, found]
    by_cases h : c = parent
    · exact ⟨_, if_pos h, .extend⟩
    · exact ⟨body, if_neg h, .same⟩
  | @addField changed changedBody field hchanged new free =>
    rw [classAt?_changeClass, found]
    by_cases h : c = changed
    · obtain rfl : body = changedBody := Option.some.inj (found.symm.trans (h ▸ hchanged))
      exact ⟨_, if_pos h, .addField new free⟩
    · exact ⟨body, if_neg h, .same⟩
  | @define changed changedBody numbering method slot hchanged numbered slotted =>
    rw [classAt?_changeClass, found]
    by_cases h : c = changed
    · obtain rfl : body = changedBody := Option.some.inj (found.symm.trans (h ▸ hchanged))
      exact ⟨_, if_pos h, .define numbered slotted⟩
    · exact ⟨body, if_neg h, .same⟩
  | bind changed method label =>
    rw [classAt?_changeClass, found]
    by_cases h : c = changed
    · exact ⟨_, if_pos h, .bind method label⟩
    · exact ⟨body, if_neg h, .same⟩
  | openDeclarations _ => exact ⟨body, found, .same⟩
  | enter _ _ _ _ _ _ => exact ⟨body, found, .same⟩

/-! ### What is new -/

/-- A new numbering is fresh, or it starts out as another is. -/
theorem numbering_made (step : w.Step w') {n : NumberingId} {numbering : Numbering}
    (absent : w.numberingAt? n = none) (found : w'.numberingAt? n = some numbering) :
    (∃ settings, numbering = .fresh settings) ∨ ∃ m, w.numberingAt? m = some numbering := by
  have hother : ∀ {P : Prop}, w.numberingAt? n = some numbering → P :=
    fun h => nomatch absent.symm.trans h
  cases step with
  | openGlobals settings => exact hother found
  | register g name => exact hother found
  | openNumbering settings =>
    rw [numberingAt?_makeNumbering] at found
    split at found
    · exact .inl ⟨settings, (Option.some.inj found).symm⟩
    · exact hother found
  | @copyNumbering source copied hsource =>
    rw [numberingAt?_makeNumbering] at found
    split at found
    · exact .inr ⟨source, hsource.trans found⟩
    · exact hother found
  | allocate changed name =>
    rw [numberingAt?_changeNumbering, absent] at found
    split at found <;> exact nomatch found
  | @root g globals name _ =>
    rw [numberingAt?_withRoot] at found
    split at found
    · exact .inl ⟨globals.settings, (Option.some.inj found).symm⟩
    · exact hother found
  | child name _ => exact hother found
  | addField _ _ _ => exact hother found
  | define _ _ _ => exact hother found
  | bind c method label => exact hother found
  | openDeclarations _ => exact hother found
  | enter _ _ _ _ _ _ => exact hother found

/-- A new class extends nothing and has a fresh numbering, or it extends a class that exists. -/
theorem class_made (step : w.Step w') {c : ClassId} {body : ClassBody}
    (absent : w.classAt? c = none) (found : w'.classAt? c = some body) :
    (∃ name g globals, w.globalsAt? g = some globals
        ∧ body = .root name g ⟨w.numberings.size⟩
        ∧ w'.numberingAt? ⟨w.numberings.size⟩ = some (.fresh globals.settings))
      ∨ ∃ name parent before, w.classAt? parent = some before
        ∧ body = .child name parent before ∧ parent.index < c.index
        ∧ w'.classAt? parent = some before.extend := by
  have hother : ∀ {P : Prop}, w.classAt? c = some body → P :=
    fun h => nomatch absent.symm.trans h
  have hchange : ∀ {P : Prop} {changed : ClassId} {change : ClassBody → ClassBody},
      (w.changeClass changed change).classAt? c = some body → P := by
    intro P changed change h
    rw [classAt?_changeClass, absent] at h
    split at h <;> exact nomatch h
  cases step with
  | openGlobals settings => exact hother found
  | register g name => exact hother found
  | openNumbering settings => exact hother found
  | copyNumbering _ => exact hother found
  | allocate n name => exact hother found
  | @root g globals name home =>
    rw [classAt?_withRoot] at found
    split at found
    · refine .inl ⟨name, g, globals, home, (Option.some.inj found).symm, ?_⟩
      rw [numberingAt?_withRoot, if_pos rfl]
    · exact hother found
  | @child parent before name hparent =>
    rw [classAt?_withChild] at found
    split at found
    · rename_i hlast
      refine .inr ⟨name, parent, before, hparent, (Option.some.inj found).symm, ?_, ?_⟩
      · rw [hlast]
        exact Store.index_lt hparent
      · rw [classAt?_withChild, if_neg (Store.index_ne_size hparent), if_pos rfl, hparent]
        rfl
    · rw [absent] at found
      split at found <;> exact nomatch found
  | addField _ _ _ => exact hchange found
  | define _ _ _ => exact hchange found
  | bind changed method label => exact hchange found
  | openDeclarations _ => exact hother found
  | enter _ _ _ _ _ _ => exact hother found

end Step

/-- What holds of a new root class, goes over from a class to the child that is made of it, and is
kept by a class that grows holds of every class. -/
theorem Built.class_induction {P : World → ClassBody → Prop}
    (root : ∀ {w : World} (name : String) (g : GlobalsId) (n : NumberingId), P w (.root name g n))
    (child : ∀ {w w' : World} {body : ClassBody} (name : String) (parent : ClassId), w.Step w' →
      P w body → P w' (.child name parent body))
    (grow : ∀ {w w' : World} {body body' : ClassBody}, w.Step w' → body.Grows w body' →
      P w body → P w' body')
    {w : World} (built : w.Built) {c : ClassId} {body : ClassBody}
    (found : w.classAt? c = some body) : P w body := by
  induction built generalizing c body with
  | refl => simp [classAt?, World.empty] at found
  | @tail before after _ step ih =>
    cases hbefore : before.classAt? c with
    | some old =>
      obtain ⟨grown, hgrown, grows⟩ := step.class_grows hbefore
      obtain rfl : grown = body := Option.some.inj (hgrown.symm.trans found)
      exact grow step grows (ih hbefore)
    | none =>
      -- A class that was not there before is new, so the parent of a child was there.
      rcases step.class_made hbefore found with
        ⟨name, g, _, _, rfl, _⟩ | ⟨name, parent, old, hparent, rfl, _⟩
      · exact root name g _
      · exact child name parent step (ih hparent)

/-- A class that exists is there in all later worlds, with all that growing keeps. -/
theorem later_class {P : ClassBody → Prop}
    (grow : ∀ {w : World} {body body' : ClassBody}, body.Grows w body' → P body → P body')
    {w w' : World} (later : w.Later w') {c : ClassId} {body : ClassBody}
    (found : w.classAt? c = some body) (h : P body) :
    ∃ body', w'.classAt? c = some body' ∧ P body' := by
  induction later with
  | refl => exact ⟨body, found, h⟩
  | tail _ step ih =>
    obtain ⟨middle, hmiddle, hkept⟩ := ih
    obtain ⟨body', found', grows⟩ := step.class_grows hmiddle
    exact ⟨body', found', grow grows hkept⟩

end World

end ScopeLayout
