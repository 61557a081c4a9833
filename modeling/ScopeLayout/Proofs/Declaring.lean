import ScopeLayout.Proofs.Hierarchy

/-!
# `ScopeLayout.Proofs.Declaring`: lists of declarations in a run

A list of declarations knows classes by name. It starts out empty and gets its
classes one by one (`Declarations.Grows`), each under its own name and with what
the request has made sure of. `Step.declarations_grow` and
`Step.declarations_made` say that nothing else happens to a list.

What a class is listed for stays true of it, because a class keeps its name and its
module level. So each name of a list leads to the class of that name, at the module
level of the list: `Built.class_of_listed`.
-/

set_option autoImplicit false

namespace ScopeLayout

/-- How a list of declarations may change in one step. It may stay as it is, or a class that it does
not know by name is entered. The class is then at the module level of the list and its name is a
global there. If it extends another class, that one is listed already. -/
inductive Declarations.Grows (w : World) (declarations : Declarations) : Declarations → Prop where
  | same : Grows w declarations declarations
  | enter {c : ClassId} {body : ClassBody} (made : w.classAt? c = some body)
      (new : declarations.classes.find? body.name = none)
      (registered : ∀ globals, w.globalsAt? declarations.globals = some globals →
        body.name ∈ globals.names)
      (root : body.parent? = none → body.globals = declarations.globals)
      (child : ∀ p, body.parent? = some p → ∃ name parent,
        declarations.classes.find? name = some p ∧ w.classAt? p = some parent
          ∧ parent.globals = body.globals) :
      Grows w declarations { declarations with classes := declarations.classes.add body.name c }

namespace World

namespace Step

variable {w w' : World}

/-- A list of declarations stays and has grown at most. -/
theorem declarations_grow (step : w.Step w') {t : DeclarationsId} {declarations : Declarations}
    (found : w.declarationsAt? t = some declarations) :
    ∃ declarations', w'.declarationsAt? t = some declarations'
      ∧ declarations.Grows w declarations' := by
  have hold : t.index ≠ w.declarations.size :=
    Store.index_ne_size found
  cases step with
  | openDeclarations _ =>
    rw [declarationsAt?_makeDeclarations, if_neg hold]
    exact ⟨declarations, found, .same⟩
  | @enter changed listed c body hchanged made new registered root child =>
    rw [declarationsAt?_changeDeclarations, found]
    by_cases h : t = changed
    · obtain rfl : declarations = listed := Option.some.inj (found.symm.trans (h ▸ hchanged))
      exact ⟨_, if_pos h, .enter made new registered root child⟩
    · exact ⟨declarations, if_neg h, .same⟩
  | _ => exact ⟨declarations, found, .same⟩

/-- A new list of declarations is empty, and its module level exists. -/
theorem declarations_made (step : w.Step w') {t : DeclarationsId} {declarations : Declarations}
    (absent : w.declarationsAt? t = none) (found : w'.declarationsAt? t = some declarations) :
    declarations.classes = .empty
      ∧ ∃ globals, w.globalsAt? declarations.globals = some globals := by
  have hother : ∀ {P : Prop}, w.declarationsAt? t = some declarations → P :=
    fun h => nomatch absent.symm.trans h
  cases step with
  | @openDeclarations g globals home =>
    rw [declarationsAt?_makeDeclarations] at found
    split at found
    · obtain rfl := Option.some.inj found
      exact ⟨rfl, globals, home⟩
    · exact hother found
  | enter _ _ _ _ _ _ =>
    rw [declarationsAt?_changeDeclarations, absent] at found
    split at found <;> exact nomatch found
  | _ => exact hother found

/-- A class keeps its name and its module level. -/
theorem class_kept (step : w.Step w') {c : ClassId} {body : ClassBody}
    (found : w.classAt? c = some body) : ∃ body', w'.classAt? c = some body'
      ∧ body'.name = body.name ∧ body'.globals = body.globals := by
  obtain ⟨body', found', grows⟩ := step.class_grows found
  exact ⟨body', found', grows.name_eq, grows.globals_eq⟩

end Step

/-- Each name of a list of declarations leads to the class of that name, at the module level of the
list. -/
theorem Built.class_of_listed {w : World} (built : w.Built) {t : DeclarationsId}
    {declarations : Declarations} (found : w.declarationsAt? t = some declarations) {name : String}
    {c : ClassId} (listed : declarations.classes.find? name = some c) :
    ∃ body, w.classAt? c = some body ∧ body.name = name ∧ body.globals = declarations.globals := by
  induction built generalizing declarations name c with
  | refl => simp [declarationsAt?, World.empty] at found
  | @tail before after _ step ih =>
    -- What was known of a class before the step is known of it behind the step.
    have hkept : ∀ {c body} (g : GlobalsId), before.classAt? c = some body → body.name = name →
        body.globals = g → ∃ body', after.classAt? c = some body' ∧ body'.name = name
          ∧ body'.globals = g := by
      intro c body g hbody hname hglobals
      obtain ⟨body', hbody', hname', hglobals'⟩ := step.class_kept hbody
      exact ⟨body', hbody', hname'.trans hname, hglobals'.trans hglobals⟩
    cases hbefore : before.declarationsAt? t with
    | none =>
      obtain ⟨hempty, -⟩ := step.declarations_made hbefore found
      simp [hempty] at listed
    | some old =>
      obtain ⟨grown, hgrown, grows⟩ := step.declarations_grow hbefore
      obtain rfl : grown = declarations := Option.some.inj (hgrown.symm.trans found)
      cases grows with
      | same =>
        obtain ⟨body, hbody, hname, hglobals⟩ := ih hbefore listed
        exact hkept _ hbody hname hglobals
      | @enter made body hmade new _ root child =>
        rw [Registry.find?_add] at listed
        cases hold : old.classes.find? name with
        | some c' =>
          rw [hold] at listed
          obtain rfl : c' = c := Option.some.inj listed
          obtain ⟨body, hbody, hname, hglobals⟩ := ih hbefore hold
          exact hkept _ hbody hname hglobals
        | none =>
          -- The name is new, so it is that of the class that is entered.
          rw [hold, Option.none_or] at listed
          obtain ⟨rfl, rfl⟩ : name = body.name ∧ made = c := by simpa using listed
          have hglobals : body.globals = old.globals := by
            cases hparent : body.parent? with
            | none => exact root hparent
            | some p =>
              obtain ⟨superclass, parent, hlisted, hp, hsame⟩ := child p hparent
              obtain ⟨parent', hp', -, hglobals⟩ := ih hbefore hlisted
              obtain rfl := Option.some.inj (hp.symm.trans hp')
              exact hsame.symm.trans hglobals
          exact hkept _ hmade rfl hglobals

/-- A declared class is the one of its name, at the module level of the list. -/
theorem Built.class_of_declared {w : World} (built : w.Built) {t : DeclarationsId} {name : String}
    {c : ClassId} (declared : w.declared? t name = some c) : ∃ declarations body,
      w.declarationsAt? t = some declarations ∧ w.classAt? c = some body ∧ body.name = name
        ∧ body.globals = declarations.globals := by
  obtain ⟨declarations, found, listed⟩ := Option.bind_eq_some_iff.mp declared
  obtain ⟨body, hbody, hname, hglobals⟩ := built.class_of_listed found listed
  exact ⟨declarations, body, found, hbody, hname, hglobals⟩

end World

end ScopeLayout
