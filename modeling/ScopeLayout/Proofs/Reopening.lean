import ScopeLayout.Proofs.Hierarchy

/-!
# `ScopeLayout.Proofs.Reopening`: a class is opened again

A later declaration of a class may name the superclass once more. The name is compared
with that of the superclass the class was made with, as a text: two classes of one name
count as the same superclass, and whether the name is declared in the list does not
matter.

A class without superclass has no name to compare with. The comparison spells it
`(none)`, the text that the refusal also shows, and `(none)` is a name like any other to
the program. So there is one declaration too many that is accepted: a class that extends
nothing is opened again under a superclass `(none)`.

`reopened_iff` says exactly which declarations of a declared name are accepted, and what the
others are answered. `not_reopened_iff_extendsNamed` is the one that should be refused.
-/

set_option autoImplicit false

namespace ScopeLayout

namespace World

/-- The class extends a class of this name. -/
def ExtendsNamed (w : World) (c : ClassId) (name : String) : Prop :=
  ∃ p parent, w.parent? c = some p ∧ w.classAt? p = some parent ∧ parent.name = name

/-- How the superclass of a class is spelled where it is compared: by its name, and by `(none)` if
the class extends nothing. -/
inductive SpellsSuperclass (w : World) (c : ClassId) : String → Prop where
  | named {p : ClassId} {parent : ClassBody} (extending : w.parent? c = some p)
      (found : w.classAt? p = some parent) : SpellsSuperclass w c parent.name
  | nothing (extending : w.parent? c = none) : SpellsSuperclass w c noSuperclass

/-- The spelling is the one that `superclassName` gives: a class that another extends exists. -/
theorem Grounded.spellsSuperclass {w : World} (grounded : w.Grounded) (c : ClassId) :
    w.SpellsSuperclass c (w.superclassName c) := by
  cases hp : w.parent? c with
  | none =>
    have hname : w.superclassName c = noSuperclass := by
      simp [superclassName, superclassName?, hp]
    rw [hname]
    exact .nothing hp
  | some p =>
    obtain ⟨body, found, hparent⟩ := parent?_eq_some.mp hp
    obtain ⟨-, parent, hfound, -⟩ := grounded.parent found hparent
    have hname : w.superclassName c = parent.name := by
      simp [superclassName, superclassName?, hp, hfound]
    rw [hname]
    exact .named hp hfound

/-- A class has one spelling of its superclass, and it is the name of the class that it extends
unless it extends nothing. -/
theorem SpellsSuperclass.eq_iff {w : World} {c : ClassId} {spelled : String}
    (h : w.SpellsSuperclass c spelled) (requested : String) :
    spelled = requested ↔
      w.ExtendsNamed c requested ∨ (w.parent? c = none ∧ requested = noSuperclass) := by
  cases h with
  | @named p parent extending found =>
    constructor
    · intro hname
      exact .inl ⟨p, parent, extending, found, hname⟩
    · rintro (⟨p', parent', hp, hfound, rfl⟩ | ⟨hp, -⟩)
      · obtain rfl : p = p' := Option.some.inj (extending.symm.trans hp)
        rw [Option.some.inj (found.symm.trans hfound)]
      · exact nomatch extending.symm.trans hp
  | nothing extending =>
    constructor
    · intro hname
      exact .inr ⟨extending, hname.symm⟩
    · rintro (⟨p, _, hp, -, -⟩ | ⟨-, hname⟩)
      · exact nomatch extending.symm.trans hp
      · exact hname.symm

/-- A declaration of a declared name makes nothing: the class is opened again. -/
theorem serve_declare_of_declared {w : World} {t : DeclarationsId} {name : String} {c : ClassId}
    (declared : w.declared? t name = some c) (superclass? : Option String) :
    w.serve (.declare t name superclass?) = w.reopen name c superclass? := by
  obtain ⟨declarations, found, listed⟩ := Option.bind_eq_some_iff.mp declared
  simp only [serve, declare, found, listed]

/-- A declaration that names a superclass opens a declared class again exactly if the class extends
one of this name, or if it extends nothing and the name is `(none)`.

It is then answered with the class that was declared. Under any other name it is refused, with the
name of the class, the spelling of its superclass and the name that was asked for. Nothing changes
in either case, and the name need not be declared. -/
theorem reopened_iff {w : World} (reachable : w.Reachable) {t : DeclarationsId} {name : String}
    {c : ClassId} (declared : w.declared? t name = some c) (requested : String) :
    (w.serve (.declare t name (some requested)) = (w, .classBody c) ↔
      w.ExtendsNamed c requested ∨ (w.parent? c = none ∧ requested = noSuperclass))
    ∧ (w.serve (.declare t name (some requested)) ≠ (w, .classBody c) →
      ∃ spelled, w.SpellsSuperclass c spelled
        ∧ w.serve (.declare t name (some requested))
          = (w, .refused (.superclassMismatch name spelled requested))) := by
  have hspells := reachable.built.grounded.spellsSuperclass c
  rw [serve_declare_of_declared declared, reopen, ← hspells.eq_iff requested]
  by_cases hsame : w.superclassName c = requested
  · rw [if_pos hsame]
    exact ⟨iff_of_true rfl hsame, fun hrefused => absurd rfl hrefused⟩
  · rw [if_neg hsame]
    have hanswer : (w, Answer.refused (.superclassMismatch name (w.superclassName c) requested))
        ≠ (w, .classBody c) := by
      simp
    exact ⟨iff_of_false hanswer hsame, fun _ => ⟨w.superclassName c, hspells, rfl⟩⟩

/-- A class that is itself called `(none)`, a class that extends it, and one that extends
nothing. -/
def namedNone : World := (World.empty.run [
  .openGlobals .standard, .openDeclarations ⟨0⟩, .declare ⟨0⟩ "(none)" none,
  .declare ⟨0⟩ "Child" (some "(none)"), .declare ⟨0⟩ "Lone" none]).1

/-- The child is opened again under the name of its superclass and refused under any other, though
the other is declared. The class that extends nothing is opened again under the name of a class
that it does not extend. -/
theorem reopened_iff_namedNone :
    namedNone.Reachable ∧ namedNone.declared? ⟨0⟩ "Child" = some ⟨1⟩
    ∧ namedNone.declared? ⟨0⟩ "Lone" = some ⟨2⟩
    ∧ namedNone.serve (.declare ⟨0⟩ "Child" (some "(none)")) = (namedNone, .classBody ⟨1⟩)
    ∧ namedNone.serve (.declare ⟨0⟩ "Child" (some "Lone"))
      = (namedNone, .refused (.superclassMismatch "Child" "(none)" "Lone"))
    ∧ namedNone.serve (.declare ⟨0⟩ "Lone" (some "(none)")) = (namedNone, .classBody ⟨2⟩) := by
  have hreachable : namedNone.Reachable := Reachable.empty.run _
  have hchild : namedNone.declared? ⟨0⟩ "Child" = some ⟨1⟩ := by decide +kernel
  have hlone : namedNone.declared? ⟨0⟩ "Lone" = some ⟨2⟩ := by decide +kernel
  have hparent : namedNone.parent? ⟨1⟩ = some ⟨0⟩ := by decide +kernel
  have hroot : namedNone.parent? ⟨2⟩ = none := by decide +kernel
  have hnamed : namedNone.ExtendsNamed ⟨1⟩ "(none)" := ⟨⟨0⟩, _, hparent, rfl, by decide +kernel⟩
  have hother : namedNone.serve (.declare ⟨0⟩ "Child" (some "Lone"))
      ≠ (namedNone, .classBody ⟨1⟩) := by decide +kernel
  obtain ⟨-, hrefused⟩ := reopened_iff hreachable hchild "Lone"
  obtain ⟨spelled, hspells, hanswer⟩ := hrefused hother
  obtain rfl := (hspells.eq_iff "(none)").mpr (.inl hnamed)
  exact ⟨hreachable, hchild, hlone, (reopened_iff hreachable hchild "(none)").1.mpr (.inl hnamed),
    hanswer, (reopened_iff hreachable hlone "(none)").1.mpr (.inr ⟨hroot, rfl⟩)⟩

/-- A class that extends nothing. -/
def loneClass : World := (World.empty.run [
  .openGlobals .standard, .openDeclarations ⟨0⟩, .declare ⟨0⟩ "Lone" none]).1

/-- It is not so that a class is opened again only under the name of the class that it extends. -/
theorem not_reopened_iff_extendsNamed :
    ¬ ∀ (w : World) (t : DeclarationsId) (name : String) (c : ClassId) (requested : String),
      w.Reachable → w.declared? t name = some c →
        (w.serve (.declare t name (some requested)) = (w, .classBody c) ↔
          w.ExtendsNamed c requested) := by
  intro h
  have hlone : loneClass.declared? ⟨0⟩ "Lone" = some ⟨0⟩ := by decide +kernel
  have hroot : loneClass.parent? ⟨0⟩ = none := by decide +kernel
  have haccepted : loneClass.serve (.declare ⟨0⟩ "Lone" (some "(none)"))
      = (loneClass, .classBody ⟨0⟩) := by decide +kernel
  obtain ⟨p, _, hp, -, -⟩ :=
    (h loneClass ⟨0⟩ "Lone" ⟨0⟩ "(none)" (Reachable.empty.run _) hlone).mp haccepted
  exact nomatch hroot.symm.trans hp

end World

end ScopeLayout
