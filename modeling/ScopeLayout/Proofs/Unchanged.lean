import ScopeLayout.Proofs.DispatchTable

/-!
# `ScopeLayout.Proofs.Unchanged`: requests that change nothing

A request touches several shared things one after the other, so one that is refused
half-way could leave a part of its work behind: a class that counts as extended by a
class that was never made, or a slot for a method that nobody has. Nothing of this
happens. Everything that can be refused is decided before the first change
(`Outcome.eq_of_refused`).

The same holds of a request for what is there already (`Repeats`): a registered global,
a field that the class has, a name with a slot, a method that the class defines, a
declared class. It does go through all its changes, and each of them finds its work
done. For a method this takes more than a look at the class: the request asks the
numbering first, and that the numbering has nothing to hand out is known because
methods stand at the slots of their names (`Built.slotted`).

`unchanged_of_refused_or_repeated` says so of the world as a whole. What can be seen in
a world, the tables of its classes and the answers of its scopes, is read off it, so
nothing that can be seen changes either.
-/

set_option autoImplicit false

namespace ScopeLayout

/-! ### Changes that find their work done -/

/-- To insert a listed name changes nothing. -/
theorem Roster.insert_of_mem {roster : Roster} {name : String} (h : name ∈ roster) :
    roster.insert name = roster :=
  Roster.ext (if_pos h)

/-- To define a method again changes nothing, whatever slot is given. -/
theorem ClassBody.define_of_find? {body : ClassBody} {name : String} {method : Method}
    (h : body.methods.find? name = some method) (slot : UInt64) : body.define name slot = body := by
  have hmethods : body.methods.add name { name, slot } = body.methods :=
    Registry.add_of_find? h _
  simp only [define, hmethods]

/-- A name with a slot is not given another. -/
theorem Numbering.allocate_of_slot? {numbering : Numbering} {name : String} {slot : UInt64}
    (h : numbering.slot? name = some slot) : numbering.allocate name = numbering :=
  allocate_of_contains (Registry.contains_eq_true_iff.mpr ⟨slot, h⟩)

/-- A name with a slot is answered with it. -/
theorem Numbering.slotFor_of_slot? {numbering : Numbering} {name : String} {slot : UInt64}
    (h : numbering.slot? name = some slot) : numbering.slotFor name = slot := by
  rw [slotFor, h]
  rfl

namespace World

variable {w : World}

/-- A change that leaves a module level as it is leaves the world as it is. -/
theorem changeGlobals_eq_self {g : GlobalsId} {change : Globals → Globals}
    (h : ∀ globals, w.globalsAt? g = some globals → change globals = globals) :
    w.changeGlobals g change = w := by
  rw [changeGlobals, Store.change_eq_self h]

/-- The same of a change of a numbering. -/
theorem changeNumbering_eq_self {n : NumberingId} {change : Numbering → Numbering}
    (h : ∀ numbering, w.numberingAt? n = some numbering → change numbering = numbering) :
    w.changeNumbering n change = w := by
  rw [changeNumbering, Store.change_eq_self h]

/-- And of a change of a class. -/
theorem changeClass_eq_self {c : ClassId} {change : ClassBody → ClassBody}
    (h : ∀ body, w.classAt? c = some body → change body = body) :
    w.changeClass c change = w := by
  rw [changeClass, Store.change_eq_self h]

/-! ### Refused and repeated requests -/

/-- A request that is refused leaves the world as it is. -/
theorem Outcome.eq_of_refused {request : Request} {result : World × Answer}
    (outcome : w.Outcome request result) {refusal : Refusal}
    (refused : result.2 = .refused refusal) : result.1 = w := by
  cases outcome with
  -- Only these three end in a refusal, apart from a question for a slot.
  | frozen _ _ _ => rfl
  | mismatched _ _ _ => rfl
  | undeclared _ _ _ => rfl
  | dangling _ => rfl
  | slotOf _ _ => rfl
  | slotOfCall _ _ => rfl
  | declaredClass _ _ => rfl
  | known _ _ => rfl
  | reopened _ _ _ => rfl
  | bound _ defined => cases defined <;> exact nomatch refused
  | _ => exact nomatch refused

/-- The request registers what is there already, and this is what it is answered. A declaration
counts if it is not refused. -/
inductive Repeats (w : World) : Request → Answer → Prop where
  | global {g : GlobalsId} {globals : Globals} {name : String}
      (found : w.globalsAt? g = some globals) (known : name ∈ globals.names) :
      Repeats w (.register g name) (.registered false)
  | field {c : ClassId} {body : ClassBody} {field : String} (found : w.classAt? c = some body)
      (known : field ∈ body.fields) : Repeats w (.addField c field) (.registered false)
  | slot {n : NumberingId} {numbering : Numbering} {name : String} {slot : UInt64}
      (found : w.numberingAt? n = some numbering) (known : numbering.slot? name = some slot) :
      Repeats w (.allocate n name) (.slot slot)
  | slotOfCall {n : NumberingId} {numbering : Numbering} {call : CallSite} {slot : UInt64}
      (found : w.numberingAt? n = some numbering)
      (known : numbering.slot? call.method = some slot) :
      Repeats w (.allocateCall n call) (.slot slot)
  | method {c : ClassId} {body : ClassBody} {name : String} {method : Method}
      (found : w.classAt? c = some body) (known : body.methods.find? name = some method) :
      Repeats w (.addMethod c name) (.slot method.slot)
  | declaration {t : DeclarationsId} {declarations : Declarations} {name : String} {c : ClassId}
      {superclass? : Option String} (found : w.declarationsAt? t = some declarations)
      (known : declarations.classes.find? name = some c)
      (accepted : ∀ refusal, (w.serve (.declare t name superclass?)).2 ≠ .refused refusal) :
      Repeats w (.declare t name superclass?) (.classBody c)

/-- To ask a numbering for a name that it has a slot for changes nothing. -/
theorem changeNumbering_of_slot? {n : NumberingId} {numbering : Numbering} {name : String}
    {slot : UInt64} (found : w.numberingAt? n = some numbering)
    (known : numbering.slot? name = some slot) : w.changeNumbering n (·.allocate name) = w := by
  refine changeNumbering_eq_self ?_
  intro numbering' found'
  obtain rfl := Option.some.inj (found.symm.trans found')
  exact Numbering.allocate_of_slot? known

/-- It is answered with that slot. -/
theorem allocate_of_slot? {n : NumberingId} {numbering : Numbering} {name : String} {slot : UInt64}
    (found : w.numberingAt? n = some numbering) (known : numbering.slot? name = some slot) :
    w.allocate n name = (w, .slot slot) := by
  rw [allocate, found]
  simp only [changeNumbering_of_slot? found known, Numbering.slotFor_of_slot? known]

/-- A method that a class defines is not defined again. Its name has a slot in the numbering, which
is the slot of the method, so nothing is handed out for it. -/
theorem Built.addMethod_of_find? (built : w.Built) {c : ClassId} {body : ClassBody}
    {name : String} {method : Method} (found : w.classAt? c = some body)
    (known : body.methods.find? name = some method) :
    w.addMethod c name = (w, .slot method.slot) := by
  obtain ⟨numbering, numbered, hslot⟩ := built.slotted found name method known
  have hclass : w.changeClass c (·.define name method.slot) = w := by
    refine changeClass_eq_self ?_
    intro body' found'
    obtain rfl := Option.some.inj (found.symm.trans found')
    exact ClassBody.define_of_find? known method.slot
  simp only [addMethod, found, numbered, Numbering.slotFor_of_slot? hslot,
    changeNumbering_of_slot? numbered hslot, hclass]

/-- A request for what is there already leaves the world as it is. -/
theorem Repeats.serve_eq {request : Request} {answer : Answer} (h : w.Repeats request answer)
    (built : w.Built) : w.serve request = (w, answer) := by
  cases h with
  | @global g globals name found known =>
    have hworld : w.changeGlobals g (·.register name) = w := by
      refine changeGlobals_eq_self ?_
      intro globals' found'
      obtain rfl := Option.some.inj (found.symm.trans found')
      rw [Globals.register, Roster.insert_of_mem known]
    rw [serve, register, found]
    simp [hworld, known]
  | field found known =>
    simp only [serve, addField, found]
    rw [if_pos known]
  | slot found known => exact allocate_of_slot? found known
  | slotOfCall found known => exact allocate_of_slot? found known
  | method found known => exact built.addMethod_of_find? found known
  | @declaration t declarations name c superclass? found known accepted =>
    have hreopen : w.serve (.declare t name superclass?) = w.reopen name c superclass? := by
      simp only [serve, declare, found, known]
    rw [hreopen] at accepted ⊢
    cases superclass? with
    | none => rfl
    | some requested =>
      rw [reopen] at accepted ⊢
      split at accepted
      · rename_i same
        rw [if_pos same]
      · exact absurd rfl (accepted _)

/-- A request that is refused, or that registers what is there already, leaves the whole world as it
is.

A class is refused when it is declared, a field when it is added, and a slot when it must be there,
and none of them leaves a trace. A repeated request is answered with what is there: that nothing is
new, the slot that the name has, or the class that is declared. A method that a class defines has
one slot in the class and in the numbering, and a request to define it again is answered with
it. -/
theorem unchanged_of_refused_or_repeated {w : World} (reachable : w.Reachable) :
    (∀ request refusal, (w.serve request).2 = .refused refusal → (w.serve request).1 = w)
    ∧ (∀ request answer, w.Repeats request answer → w.serve request = (w, answer))
    ∧ ∀ c body name method, w.classAt? c = some body → body.methods.find? name = some method →
        ∃ numbering, w.numberingAt? body.numbering = some numbering
          ∧ numbering.demand name = .ok method.slot := by
  have built := reachable.built
  refine ⟨?_, ?_, ?_⟩
  · intro request refusal refused
    exact (w.outcome_serve request).eq_of_refused refused
  · intro request answer repeats
    exact repeats.serve_eq built
  · intro c body name method found known
    obtain ⟨numbering, numbered, hslot⟩ := built.slotted found name method known
    refine ⟨numbering, numbered, ?_⟩
    rw [Numbering.demand, hslot]

/-- A class with a method that has its code, extended by another. -/
def compiledPoint : World := (World.empty.run [
  .openGlobals .standard, .openDeclarations ⟨0⟩, .declare ⟨0⟩ "Point" none,
  .bindMethod ⟨0⟩ "move" "Point.move", .declare ⟨0⟩ "Pixel" (some "Point")]).1

/-- The class takes no field and no other superclass, keeps the code of its method when that is
defined again, and is not extended by a class whose name is taken. -/
theorem unchanged_of_refused_or_repeated_compiledPoint :
    compiledPoint.Reachable
    ∧ compiledPoint.serve (.addField ⟨0⟩ "@x")
      = (compiledPoint, .refused (.frozenLayout "Point" "@x"))
    ∧ compiledPoint.serve (.declare ⟨0⟩ "Point" (some "Pixel"))
      = (compiledPoint, .refused (.superclassMismatch "Point" "(none)" "Pixel"))
    ∧ compiledPoint.serve (.addMethod ⟨0⟩ "move") = (compiledPoint, .slot 7)
    ∧ compiledPoint.serve (.declare ⟨0⟩ "Pixel" (some "Point"))
      = (compiledPoint, .classBody ⟨1⟩) := by
  have hreachable : compiledPoint.Reachable := Reachable.empty.run _
  obtain ⟨hrefused, hrepeated, -⟩ := unchanged_of_refused_or_repeated hreachable
  have hfield : (compiledPoint.serve (.addField ⟨0⟩ "@x")).2
      = .refused (.frozenLayout "Point" "@x") := by decide +kernel
  have hparent : (compiledPoint.serve (.declare ⟨0⟩ "Point" (some "Pixel"))).2
      = .refused (.superclassMismatch "Point" "(none)" "Pixel") := by decide +kernel
  have hpixel : (compiledPoint.serve (.declare ⟨0⟩ "Pixel" (some "Point"))).2
      = .classBody ⟨1⟩ := by decide +kernel
  refine ⟨hreachable, Prod.ext (hrefused _ _ hfield) hfield,
    Prod.ext (hrefused _ _ hparent) hparent, hrepeated _ _ ?_, hrepeated _ _ ?_⟩
  · exact @Repeats.method _ ⟨0⟩ _ "move"
      { name := "move", slot := 7, label? := some "Point.move" } rfl (by decide +kernel)
  · refine .declaration rfl (by decide +kernel) ?_
    intro refusal
    rw [hpixel]
    exact Answer.noConfusion

end World

end ScopeLayout
