import Mathlib.Data.List.Chain
import ScopeLayout.Proofs.Hierarchy

/-!
# `ScopeLayout.Proofs.Ownership`: one numbering for each hierarchy

A slot means the same method in all classes of a hierarchy because they share one
numbering, and it says nothing about the classes of another hierarchy because those
have another one. Sharing within a hierarchy comes from the way classes are made
(`Grounded.numbering_eq_of_root_eq`). Here is the other half, that no numbering gets
into two hierarchies.

A numbering comes into a hierarchy with its root class and in no other way. The root
gets one that is made for it, so no two roots have the same (`Apart`), and a class has
the numbering of its root. Together: two classes have one numbering exactly if they
have one root (`Built.numbering_eq_iff`).

The program can also make numberings of its own. Such a numbering is `Unowned`: no
class has it, and no class that is made later will, since a root brings a new one and
a child takes that of its parent.

`one_numbering_per_hierarchy` puts this together with the shape of the lineages.
-/

set_option autoImplicit false

namespace ScopeLayout

namespace World

/-! ### The way to the root -/

/-- A lineage ends with the root. -/
theorem getLast?_lineage (w : World) (c : ClassId) :
    (w.lineage c).getLast? = some (w.root c) := by
  obtain ⟨rest, hrest⟩ := w.lineage_eq_cons c
  rw [root, hrest, List.getLast?_cons, List.getLastD_cons]
  simp [List.getLastD_eq_getLast?]

/-- A class that extends nothing is the root of its hierarchy. -/
theorem root_of_parent?_eq_none {w : World} {c : ClassId} (hp : w.parent? c = none) :
    w.root c = c := by
  rw [root, lineage_of_root hp]
  rfl

namespace Grounded

variable {w : World}

/-- The root of a hierarchy extends nothing, so the walk along the lineage does not stop early. -/
theorem parent?_root (h : w.Grounded) (c : ClassId) : w.parent? (w.root c) = none := by
  induction c using h.lineage_induction with
  | root c hp =>
    rw [root_of_parent?_eq_none hp]
    exact hp
  | child c p hp ih =>
    rw [h.root_parent hp]
    exact ih

/-- Of the ancestors of a class, only the root extends nothing. -/
theorem parent?_eq_none_iff (h : w.Grounded) {c a : ClassId} (ha : a ∈ w.lineage c) :
    w.parent? a = none ↔ a = w.root c := by
  constructor
  · intro hp
    rw [← h.root_eq_of_mem_lineage a ha, root_of_parent?_eq_none hp]
  · rintro rfl
    exact h.parent?_root c

/-- Each class of a lineage extends the one that stands behind it. -/
theorem isChain_lineage (h : w.Grounded) (c : ClassId) :
    (w.lineage c).IsChain fun a p => w.parent? a = some p := by
  induction c using h.lineage_induction with
  | root c hp =>
    rw [lineage_of_root hp]
    exact .singleton c
  | child c p hp ih =>
    obtain ⟨rest, hrest⟩ := w.lineage_eq_cons p
    rw [hrest] at ih
    rw [h.lineage_parent hp, hrest]
    exact .cons_cons hp ih

/-- The root of a hierarchy is a class, and its module level and numbering are those of all classes
below it. -/
theorem classAt?_root (h : w.Grounded) {c : ClassId} {body : ClassBody}
    (found : w.classAt? c = some body) : ∃ top, w.classAt? (w.root c) = some top
      ∧ top.parent? = none ∧ top.globals = body.globals ∧ top.numbering = body.numbering := by
  obtain ⟨top, htop, hglobals, hnumbering, -⟩ := h.of_mem_lineage found _ (w.root_mem_lineage c)
  refine ⟨top, htop, ?_, hglobals, hnumbering⟩
  simpa [parent?, htop] using h.parent?_root c

end Grounded

/-! ### Hierarchies do not share numberings -/

/-- No two root classes have one numbering. -/
def Apart (w : World) : Prop :=
  ∀ c d body other, w.classAt? c = some body → w.classAt? d = some other →
    body.parent? = none → other.parent? = none → body.numbering = other.numbering → c = d

/-- A new root class has a numbering that no class had before. -/
theorem Step.numbering_ne_of_made {w w' : World} (step : w.Step w') (grounded : w.Grounded)
    {c d : ClassId} {body other : ClassBody} (absent : w.classAt? c = none)
    (made : w'.classAt? c = some body) (root : body.parent? = none)
    (found : w.classAt? d = some other) : body.numbering ≠ other.numbering := by
  rcases step.class_made absent made with
    ⟨name, g, globals, -, rfl, -⟩ | ⟨name, parent, before, -, rfl, -⟩
  · -- The new numbering comes after all others, and that of an old class is one of them.
    obtain ⟨-, numbering, -, numbered, -⟩ := grounded.home found
    have hold := Store.index_lt numbered
    intro heq
    rw [← heq] at hold
    exact Nat.lt_irrefl _ hold
  · exact nomatch root

/-- A step makes one class at most. -/
theorem Step.size_classes_le {w w' : World} (step : w.Step w') :
    w'.classes.size ≤ w.classes.size + 1 := by
  cases step <;>
    simp [makeGlobals, changeGlobals, makeNumbering, changeNumbering, changeClass,
      makeDeclarations, changeDeclarations, withRoot, withChild, makeClass]

/-- A class that a step makes has the next identity. -/
theorem Step.index_of_made {w w' : World} (step : w.Step w') {c : ClassId} {body : ClassBody}
    (absent : w.classAt? c = none) (made : w'.classAt? c = some body) :
    c.index = w.classes.size := by
  have hlow : w.classes.size ≤ c.index := Store.at?_eq_none_iff.mp absent
  have hhigh := Store.index_lt made
  have hsize := step.size_classes_le
  omega

/-- One step keeps hierarchies apart. -/
theorem Apart.step {w w' : World} (h : w.Apart) (grounded : w.Grounded) (step : w.Step w') :
    w'.Apart := by
  intro c d body' other' hc' hd' hpc hpd hshared
  cases hc : w.classAt? c with
  | some body =>
    obtain ⟨grown, hgrown, grows⟩ := step.class_grows hc
    obtain rfl : grown = body' := Option.some.inj (hgrown.symm.trans hc')
    rw [grows.parent_eq] at hpc
    rw [grows.numbering_eq] at hshared
    cases hd : w.classAt? d with
    | some other =>
      obtain ⟨grown', hgrown', grows'⟩ := step.class_grows hd
      obtain rfl : grown' = other' := Option.some.inj (hgrown'.symm.trans hd')
      rw [grows'.parent_eq] at hpd
      rw [grows'.numbering_eq] at hshared
      exact h c d body other hc hd hpc hpd hshared
    | none => exact absurd hshared.symm (step.numbering_ne_of_made grounded hd hd' hpd hc)
  | none =>
    cases hd : w.classAt? d with
    | some other =>
      obtain ⟨grown, hgrown, grows⟩ := step.class_grows hd
      obtain rfl : grown = other' := Option.some.inj (hgrown.symm.trans hd')
      rw [grows.numbering_eq] at hshared
      exact absurd hshared (step.numbering_ne_of_made grounded hc hc' hpc hd)
    | none =>
      -- Both are new, and only one class is made at a time.
      have hindex := (step.index_of_made hc hc').trans (step.index_of_made hd hd').symm
      obtain ⟨i⟩ := c
      obtain ⟨j⟩ := d
      exact congrArg Identity.mk hindex

/-- In every world that comes about by steps, root classes have separate numberings. -/
theorem Built.apart {w : World} (built : w.Built) : w.Apart := by
  induction built with
  | refl =>
    intro c d body other found
    simp [classAt?, World.empty] at found
  | tail before step ih => exact ih.step (Built.grounded before) step

/-- Two classes have one numbering exactly if they belong to one hierarchy. -/
theorem Built.numbering_eq_iff {w : World} (built : w.Built) {c d : ClassId}
    {body other : ClassBody} (hc : w.classAt? c = some body) (hd : w.classAt? d = some other) :
    body.numbering = other.numbering ↔ w.root c = w.root d := by
  have grounded := built.grounded
  constructor
  · intro hshared
    obtain ⟨top, htop, hroot, -, hnumbering⟩ := grounded.classAt?_root hc
    obtain ⟨top', htop', hroot', -, hnumbering'⟩ := grounded.classAt?_root hd
    refine built.apart _ _ top top' htop htop' hroot hroot' ?_
    rw [hnumbering, hnumbering', hshared]
  · exact grounded.numbering_eq_of_root_eq hc hd

/-! ### What a class refers to -/

/-- A class keeps its parent, its module level and its numbering. -/
theorem later_references {w w' : World} (later : w.Later w') {c : ClassId} {body : ClassBody}
    (found : w.classAt? c = some body) : ∃ body', w'.classAt? c = some body'
      ∧ body'.parent? = body.parent? ∧ body'.globals = body.globals
      ∧ body'.numbering = body.numbering := by
  refine later_class ?_ later found ⟨rfl, rfl, rfl⟩
  rintro _ middle body' grows ⟨hparent, hglobals, hnumbering⟩
  exact ⟨grows.parent_eq.trans hparent, grows.globals_eq.trans hglobals,
    grows.numbering_eq.trans hnumbering⟩

/-! ### Numberings that belong to no hierarchy -/

/-- The numbering exists, and no class has it. -/
def Unowned (w : World) (n : NumberingId) : Prop :=
  (∃ numbering, w.numberingAt? n = some numbering)
    ∧ ∀ c body, w.classAt? c = some body → body.numbering ≠ n

/-- A step makes no class that has it. -/
theorem Unowned.step {w w' : World} {n : NumberingId} (h : w.Unowned n) (step : w.Step w') :
    w'.Unowned n := by
  obtain ⟨⟨numbering, numbered⟩, hunowned⟩ := h
  refine ⟨?_, ?_⟩
  · rcases step.numbering_grows numbered with numbered' | ⟨name, numbered'⟩
    · exact ⟨_, numbered'⟩
    · exact ⟨_, numbered'⟩
  · intro c body' found'
    cases found : w.classAt? c with
    | some body =>
      obtain ⟨grown, hgrown, grows⟩ := step.class_grows found
      obtain rfl : grown = body' := Option.some.inj (hgrown.symm.trans found')
      rw [grows.numbering_eq]
      exact hunowned c body found
    | none =>
      rcases step.class_made found found' with
        ⟨name, g, globals, -, rfl, -⟩ | ⟨name, parent, before, hparent, rfl, -⟩
      · -- A new root brings a numbering that was not there.
        rintro rfl
        exact Nat.lt_irrefl _ (Store.index_lt numbered)
      · exact hunowned parent before hparent

/-- So no later world has such a class either. -/
theorem Unowned.later {w w' : World} {n : NumberingId} (h : w.Unowned n) (later : w.Later w') :
    w'.Unowned n := by
  induction later with
  | refl => exact h
  | tail _ step ih => exact ih.step step

/-- What is made after all numberings of the world belongs to no class. -/
theorem Grounded.unowned_makeNumbering {w : World} (grounded : w.Grounded) (made : Numbering) :
    (w.makeNumbering made).1.Unowned ⟨w.numberings.size⟩ := by
  refine ⟨⟨made, (numberingAt?_makeNumbering w made _).trans (if_pos rfl)⟩, ?_⟩
  rintro c body found heq
  have found' : w.classAt? c = some body := found
  obtain ⟨-, numbering, -, numbered, -⟩ := grounded.home found'
  rw [heq] at numbered
  exact Nat.lt_irrefl _ (Store.index_lt numbered)

/-- The requests for a numbering that belongs to no class: a fresh one, or a copy of one that
exists. -/
inductive MakesNumbering (w : World) : Request → Prop where
  | fresh (settings : Settings) : MakesNumbering w (.openNumbering settings)
  | copy {n : NumberingId} {numbering : Numbering} (found : w.numberingAt? n = some numbering) :
      MakesNumbering w (.copyNumbering n)

/-- Such a request makes one numbering and nothing else. -/
theorem MakesNumbering.serve_eq {w : World} {request : Request} (h : w.MakesNumbering request) :
    ∃ made, w.serve request
      = ((w.makeNumbering made).1, .numbering ⟨w.numberings.size⟩) := by
  cases h with
  | fresh settings => exact ⟨.fresh settings, rfl⟩
  | @copy n numbering found =>
    refine ⟨numbering, ?_⟩
    rw [serve, copyNumbering, found]
    rfl

/-- Each hierarchy has a numbering of its own, and all its classes have it.

The lineage of a class leads from each class to the one it extends, comes to no class twice and
ends in the root, the only class on it that extends nothing. A class keeps its parent, its module
level and its numbering, whatever is asked next. Two classes have one numbering exactly if they
have one root, and then they also have one module level. The numbering has the header that the
settings of the module level ask for. A numbering that the program makes on its own was not there
before, and it never becomes that of a class. -/
theorem one_numbering_per_hierarchy {w : World} (reachable : w.Reachable) :
    (∀ c body, w.classAt? c = some body →
      (w.lineage c).head? = some c
      ∧ (w.lineage c).IsChain (fun a p => w.parent? a = some p)
      ∧ (w.lineage c).Nodup
      ∧ (w.lineage c).getLast? = some (w.root c)
      ∧ ∀ a ∈ w.lineage c, (∃ ancestor, w.classAt? a = some ancestor)
        ∧ (w.parent? a = none ↔ a = w.root c))
    ∧ (∀ c body, w.classAt? c = some body → ∀ requests, ∃ body',
        (w.run requests).1.classAt? c = some body' ∧ body'.parent? = body.parent?
        ∧ body'.globals = body.globals ∧ body'.numbering = body.numbering)
    ∧ (∀ c d body other, w.classAt? c = some body → w.classAt? d = some other →
        (body.numbering = other.numbering ↔ w.root c = w.root d)
        ∧ (w.root c = w.root d → body.globals = other.globals))
    ∧ (∀ c body, w.classAt? c = some body → ∃ globals numbering,
        w.globalsAt? body.globals = some globals
        ∧ w.numberingAt? body.numbering = some numbering
        ∧ numbering.header = globals.settings.headerSlots)
    ∧ ∀ request, w.MakesNumbering request → ∃ n, (w.serve request).2 = .numbering n
        ∧ w.numberingAt? n = none
        ∧ ∀ requests c body, ((w.serve request).1.run requests).1.classAt? c = some body →
            body.numbering ≠ n := by
  have built := reachable.built
  have grounded := built.grounded
  refine ⟨?_, ?_, ?_, fun c body found => grounded.home found, ?_⟩
  · intro c body found
    obtain ⟨rest, hrest⟩ := w.lineage_eq_cons c
    refine ⟨by rw [hrest]; rfl, grounded.isChain_lineage c, grounded.nodup_lineage c,
      w.getLast?_lineage c, ?_⟩
    intro a ha
    obtain ⟨ancestor, hancestor, -⟩ := grounded.of_mem_lineage found a ha
    exact ⟨⟨ancestor, hancestor⟩, grounded.parent?_eq_none_iff ha⟩
  · intro c body found requests
    exact later_references (later_run w requests) found
  · intro c d body other hc hd
    refine ⟨built.numbering_eq_iff hc hd, ?_⟩
    intro hroot
    -- Both have the module level of the one root.
    obtain ⟨top, htop, -, hglobals, -⟩ := grounded.classAt?_root hc
    obtain ⟨top', htop', -, hglobals', -⟩ := grounded.classAt?_root hd
    obtain rfl : top = top' := Option.some.inj (htop.symm.trans (hroot ▸ htop'))
    exact hglobals.symm.trans hglobals'
  · intro request makes
    obtain ⟨made, hserve⟩ := makes.serve_eq
    have hunowned := grounded.unowned_makeNumbering made
    refine ⟨⟨w.numberings.size⟩, by rw [hserve], ?_, ?_⟩
    · exact Store.at?_eq_none_iff.mpr (Nat.le_refl _)
    · intro requests c body found
      rw [hserve] at found
      exact (hunowned.later (later_run _ requests)).2 c body found

/-- Two lists of declarations at one module level, with a class of the same name each. The first of
the two classes is extended by name and then again without being declared. -/
def twoHierarchies : World := (World.empty.run [
  .openGlobals { headerSlots := 2 }, .openDeclarations ⟨0⟩, .openDeclarations ⟨0⟩,
  .declare ⟨0⟩ "Shape" none, .declare ⟨1⟩ "Shape" none, .declare ⟨0⟩ "Circle" (some "Shape"),
  .addChild "Dot" ⟨2⟩]).1

/-- The undeclared class shares the numbering of the root two classes above it. The class of the
same name has another one, and a copy is the numbering of no class. -/
theorem one_numbering_per_hierarchy_twoHierarchies :
    twoHierarchies.Reachable
    ∧ twoHierarchies.lineage ⟨3⟩ = [⟨3⟩, ⟨2⟩, ⟨0⟩]
    ∧ ∃ dot shape other, twoHierarchies.classAt? ⟨3⟩ = some dot
      ∧ twoHierarchies.classAt? ⟨0⟩ = some shape ∧ twoHierarchies.classAt? ⟨1⟩ = some other
      ∧ dot.numbering = shape.numbering ∧ other.numbering ≠ shape.numbering
      ∧ ∀ requests c body,
        ((twoHierarchies.serve (.copyNumbering shape.numbering)).1.run requests).1.classAt? c
          = some body → body.numbering ≠ ⟨2⟩ := by
  have hreachable : twoHierarchies.Reachable := Reachable.empty.run _
  have hdot : (twoHierarchies.classAt? ⟨3⟩).isSome := by decide +kernel
  have hshape : (twoHierarchies.classAt? ⟨0⟩).map (·.numbering) = some ⟨0⟩ := by decide +kernel
  have hother : (twoHierarchies.classAt? ⟨1⟩).isSome := by decide +kernel
  have hcopy : (twoHierarchies.serve (.copyNumbering ⟨0⟩)).2 = .numbering ⟨2⟩ := by
    decide +kernel
  obtain ⟨dot, hdot⟩ := Option.isSome_iff_exists.mp hdot
  obtain ⟨other, hother⟩ := Option.isSome_iff_exists.mp hother
  obtain ⟨shape, hshape, hnumbering⟩ := Option.map_eq_some_iff.mp hshape
  obtain ⟨-, -, hshared, hhome, hmakes⟩ := one_numbering_per_hierarchy hreachable
  refine ⟨hreachable, by decide +kernel, dot, shape, other, hdot, hshape, hother, ?_, ?_, ?_⟩
  · exact (hshared ⟨3⟩ ⟨0⟩ dot shape hdot hshape).1.mpr (by decide +kernel)
  · intro heq
    have hroot := (hshared ⟨1⟩ ⟨0⟩ other shape hother hshape).1.mp heq
    revert hroot
    decide +kernel
  · obtain ⟨_, numbering, -, numbered, -⟩ := hhome ⟨0⟩ shape hshape
    obtain ⟨n, hn, -, hnever⟩ := hmakes _ (.copy numbered)
    rw [hnumbering] at hn ⊢
    obtain rfl := Answer.numbering.inj (hcopy.symm.trans hn)
    rw [hnumbering] at hnever
    exact hnever

end World

end ScopeLayout
