import ScopeLayout.Proofs.Step

/-!
# `ScopeLayout.Proofs.Hierarchy`: classes and the classes they extend

`World.Grounded` says that every class of a world stands on something: its module
level and its numbering exist, and the class that it extends was made before it
and shares both. A child also has the fields of its parent before its own, and
its parent is closed for new fields (`ClassBody.Extends`). `Built.grounded`
proves it of every world that comes about by steps.

In such a world the lineage of a class follows the parents up to the root:

* `Grounded.lineage_induction` is the induction along a lineage, root first.
* `Grounded.of_mem_lineage`: what a class shares with its ancestors.
* `Grounded.numbering_eq_of_root_eq`: classes of one hierarchy share their
  numbering.
* `Grounded.root_eq_of_mem_lineage` and `Grounded.lineage_subset`: an ancestor
  belongs to the hierarchy, and its own ancestors are ancestors too.
* `Grounded.nodup_lineage`: no class is its own ancestor.
-/

set_option autoImplicit false

namespace ScopeLayout

namespace ClassBody

variable {w : World} {body body' : ClassBody}

/-! ### What growing leaves alone -/

/-- A class keeps its name. -/
theorem Grows.name_eq (grows : body.Grows w body') : body'.name = body.name := by
  cases grows <;> rfl

/-- It stays at its module level. -/
theorem Grows.globals_eq (grows : body.Grows w body') : body'.globals = body.globals := by
  cases grows <;> rfl

/-- It extends what it extended. -/
theorem Grows.parent_eq (grows : body.Grows w body') : body'.parent? = body.parent? := by
  cases grows <;> rfl

/-- It refers to the numbering that it referred to. -/
theorem Grows.numbering_eq (grows : body.Grows w body') : body'.numbering = body.numbering := by
  cases grows <;> rfl

/-- A class that is extended stays so. -/
theorem Grows.extended (grows : body.Grows w body') (extended : body.extended = true) :
    body'.extended = true := by
  cases grows <;> first | rfl | exact extended

/-- New fields come behind those that a class has. -/
theorem Grows.fields_prefix (grows : body.Grows w body') :
    body.fields.names <+: body'.fields.names := by
  cases grows with
  | addField new _ =>
    rw [ClassBody.addField, Roster.names_insert, if_neg new]
    exact List.prefix_append _ _
  | _ => exact List.prefix_refl _

/-- An extended class gets no new field. -/
theorem Grows.fields_eq (grows : body.Grows w body') (extended : body.extended = true) :
    body'.fields = body.fields := by
  cases grows with
  | addField _ free => exact nomatch extended.symm.trans free
  | _ => rfl

/-- What a class has in common with the class it extends. They belong to one module level and share
the numbering of the hierarchy. The inherited fields come first, each in its old place, and the
parent is `closed`: it takes no new fields. -/
structure Extends (child parent : ClassBody) : Prop where
  globals : child.globals = parent.globals
  numbering : child.numbering = parent.numbering
  fields : parent.fields.names <+: child.fields.names
  closed : parent.extended = true

/-- A child and its parent stay so when both grow. -/
theorem Extends.grow {child child' parent parent' : ClassBody} (h : child.Extends parent)
    (hchild : child.Grows w child') (hparent : parent.Grows w parent') :
    child'.Extends parent' where
  globals := by rw [hchild.globals_eq, hparent.globals_eq, h.globals]
  numbering := by rw [hchild.numbering_eq, hparent.numbering_eq, h.numbering]
  fields := by
    -- Only the child can have got a field. The parent is closed.
    have hkept : parent'.fields = parent.fields := hparent.fields_eq h.closed
    rw [hkept]
    exact h.fields.trans hchild.fields_prefix
  closed := hparent.extended h.closed

end ClassBody

namespace World

/-- Every class stands on things that exist:

- `home`: its module level and its numbering exist, and the numbering has the header that the
  settings of the module level ask for;
- `parent`: the class that it extends was made before it. -/
structure Grounded (w : World) : Prop where
  home : ∀ {c body}, w.classAt? c = some body → ∃ globals numbering,
    w.globalsAt? body.globals = some globals ∧ w.numberingAt? body.numbering = some numbering
      ∧ numbering.header = globals.settings.headerSlots
  parent : ∀ {c body p}, w.classAt? c = some body → body.parent? = some p →
    p.index < c.index ∧ ∃ parent, w.classAt? p = some parent ∧ body.Extends parent

/-- Nothing that is missing is referred to where nothing is. -/
theorem grounded_empty : Grounded .empty where
  home found := by simp [classAt?, World.empty] at found
  parent found := by simp [classAt?, World.empty] at found

/-- A step moves neither the settings of a module level nor the header of a numbering. -/
theorem Step.home_kept {w w' : World} (step : w.Step w') {g : GlobalsId} {n : NumberingId}
    {globals : Globals} {numbering : Numbering} (hg : w.globalsAt? g = some globals)
    (hn : w.numberingAt? n = some numbering)
    (hheader : numbering.header = globals.settings.headerSlots) :
    ∃ globals' numbering', w'.globalsAt? g = some globals' ∧ w'.numberingAt? n = some numbering'
      ∧ numbering'.header = globals'.settings.headerSlots := by
  -- A registration keeps the settings, and a request for a slot keeps the header.
  rcases step.globals_grow hg with hg' | ⟨name, hg'⟩ <;>
    rcases step.numbering_grows hn with hn' | ⟨method, hn'⟩
  · exact ⟨_, _, hg', hn', hheader⟩
  · exact ⟨_, _, hg', hn', (Numbering.header_allocate numbering method).trans hheader⟩
  · exact ⟨_, _, hg', hn', hheader⟩
  · exact ⟨_, _, hg', hn', (Numbering.header_allocate numbering method).trans hheader⟩

/-- One step keeps a world grounded. -/
theorem Grounded.step {w w' : World} (h : w.Grounded) (step : w.Step w') : w'.Grounded where
  home {c body'} found' := by
    cases found : w.classAt? c with
    | some body =>
      obtain ⟨grown, hgrown, grows⟩ := step.class_grows found
      obtain rfl : grown = body' := Option.some.inj (hgrown.symm.trans found')
      obtain ⟨globals, numbering, hg, hn, hheader⟩ := h.home found
      rw [grows.globals_eq, grows.numbering_eq]
      exact step.home_kept hg hn hheader
    | none =>
      rcases step.class_made found found' with
        ⟨name, g, globals, hg, rfl, hn⟩ | ⟨name, parent, before, hparent, rfl, -, -⟩
      · -- A root class has the numbering that was made with it.
        rcases step.globals_grow hg with hg' | ⟨key, hg'⟩ <;> exact ⟨_, _, hg', hn, rfl⟩
      · -- A child has the numbering of its parent.
        obtain ⟨globals, numbering, hg, hn, hheader⟩ := h.home hparent
        exact step.home_kept hg hn hheader
  parent {c body' p} found' hp := by
    cases found : w.classAt? c with
    | some body =>
      obtain ⟨grown, hgrown, grows⟩ := step.class_grows found
      obtain rfl : grown = body' := Option.some.inj (hgrown.symm.trans found')
      rw [grows.parent_eq] at hp
      -- Child and parent may both grow in the step, if it is about both.
      obtain ⟨hearlier, parent, hparent, hextends⟩ := h.parent found hp
      obtain ⟨parent', hparent', hgrows⟩ := step.class_grows hparent
      exact ⟨hearlier, parent', hparent', hextends.grow grows hgrows⟩
    | none =>
      rcases step.class_made found found' with
        ⟨name, g, globals, -, rfl, -⟩ | ⟨name, parent, before, -, rfl, hearlier, hafter⟩
      · exact nomatch hp
      · obtain rfl : parent = p := Option.some.inj hp
        exact ⟨hearlier, _, hafter, rfl, rfl, List.prefix_refl _, rfl⟩

/-- Every world that comes about by steps is grounded. -/
theorem Built.grounded {w : World} (built : w.Built) : w.Grounded := by
  induction built with
  | refl => exact grounded_empty
  | tail _ step ih => exact ih.step step

/-! ### Lineages -/

/-- The class that a class extends is written in its body. -/
theorem parent?_eq_some {w : World} {c p : ClassId} :
    w.parent? c = some p ↔ ∃ body, w.classAt? c = some body ∧ body.parent? = some p :=
  Option.bind_eq_some_iff

/-- A lineage begins with its class. -/
theorem lineage_eq_cons (w : World) (c : ClassId) : ∃ rest, w.lineage c = c :: rest := by
  rw [lineage]
  split
  · exact ⟨[], rfl⟩
  · split
    · exact ⟨_, rfl⟩
    · exact ⟨[], rfl⟩

/-- The root of a class is in its lineage. -/
theorem root_mem_lineage (w : World) (c : ClassId) : w.root c ∈ w.lineage c := by
  obtain ⟨rest, hrest⟩ := w.lineage_eq_cons c
  rw [root, hrest, List.getLastD_cons]
  exact List.getLastD_mem_cons

namespace Grounded

variable {w : World}

/-- The lineage of a class goes on with that of its parent. -/
theorem lineage_parent (h : w.Grounded) {c p : ClassId} (hp : w.parent? c = some p) :
    w.lineage c = c :: w.lineage p := by
  obtain ⟨body, found, hparent⟩ := parent?_eq_some.mp hp
  exact lineage_of_child hp (h.parent found hparent).1

/-- A class has the root of its parent. -/
theorem root_parent (h : w.Grounded) {c p : ClassId} (hp : w.parent? c = some p) :
    w.root c = w.root p := by
  obtain ⟨rest, hrest⟩ := w.lineage_eq_cons p
  -- The last of a lineage does not depend on what stands before it, as the rest is not empty.
  rw [root, root, h.lineage_parent hp, hrest]
  rfl

/-- What holds of the classes that extend nothing, and of a class if it holds of its parent, holds
of every class. -/
theorem lineage_induction (h : w.Grounded) {P : ClassId → Prop}
    (root : ∀ c, w.parent? c = none → P c)
    (child : ∀ c p, w.parent? c = some p → P p → P c) (c : ClassId) : P c := by
  -- The induction is on the identity: a parent has a smaller one than its children.
  obtain ⟨i⟩ := c
  induction i using Nat.strongRecOn with
  | _ i ih =>
    cases hp : w.parent? ⟨i⟩ with
    | none => exact root ⟨i⟩ hp
    | some p =>
      obtain ⟨body, found, hparent⟩ := parent?_eq_some.mp hp
      exact child ⟨i⟩ p hp (ih p.index (h.parent found hparent).1)

/-- What a class shares with its ancestors. -/
theorem of_mem_lineage (h : w.Grounded) {c : ClassId} :
    ∀ {body}, w.classAt? c = some body → ∀ a ∈ w.lineage c, ∃ ancestor,
      w.classAt? a = some ancestor ∧ ancestor.globals = body.globals
        ∧ ancestor.numbering = body.numbering ∧ ancestor.fields.names <+: body.fields.names := by
  induction c using h.lineage_induction with
  | root c hp =>
    intro body found a ha
    rw [lineage_of_root hp, List.mem_singleton] at ha
    exact ⟨body, ha ▸ found, rfl, rfl, List.prefix_refl _⟩
  | child c p hp ih =>
    intro body found a ha
    rw [h.lineage_parent hp] at ha
    rcases List.mem_cons.mp ha with rfl | ha
    · exact ⟨body, found, rfl, rfl, List.prefix_refl _⟩
    · obtain ⟨body', found', hparent⟩ := parent?_eq_some.mp hp
      obtain rfl : body' = body := Option.some.inj (found'.symm.trans found)
      obtain ⟨-, parent, hfound, hextends⟩ := h.parent found hparent
      obtain ⟨ancestor, hancestor, hglobals, hnumbering, hfields⟩ := ih hfound a ha
      exact ⟨ancestor, hancestor, hglobals.trans hextends.globals.symm,
        hnumbering.trans hextends.numbering.symm, hfields.trans hextends.fields⟩

/-- Classes of one hierarchy share its numbering. -/
theorem numbering_eq_of_root_eq (h : w.Grounded) {c d : ClassId} {body other : ClassBody}
    (hc : w.classAt? c = some body) (hd : w.classAt? d = some other)
    (hroot : w.root c = w.root d) : body.numbering = other.numbering := by
  -- Both have the numbering of the root, which is in both lineages.
  obtain ⟨top, htop, -, htc, -⟩ := h.of_mem_lineage hc _ (w.root_mem_lineage c)
  obtain ⟨top', htop', -, htd, -⟩ := h.of_mem_lineage hd _ (w.root_mem_lineage d)
  obtain rfl : top = top' := Option.some.inj (htop.symm.trans (hroot ▸ htop'))
  exact htc.symm.trans htd

/-- A class belongs to the hierarchy of its ancestors. -/
theorem root_eq_of_mem_lineage (h : w.Grounded) {c : ClassId} :
    ∀ a ∈ w.lineage c, w.root a = w.root c := by
  induction c using h.lineage_induction with
  | root c hp =>
    intro a ha
    rw [lineage_of_root hp, List.mem_singleton] at ha
    rw [ha]
  | child c p hp ih =>
    intro a ha
    rw [h.lineage_parent hp] at ha
    rcases List.mem_cons.mp ha with rfl | ha
    · rfl
    · rw [h.root_parent hp]
      exact ih a ha

/-- The ancestors of an ancestor are ancestors. -/
theorem lineage_subset (h : w.Grounded) {c : ClassId} :
    ∀ a ∈ w.lineage c, w.lineage a ⊆ w.lineage c := by
  induction c using h.lineage_induction with
  | root c hp =>
    intro a ha
    rw [lineage_of_root hp, List.mem_singleton] at ha
    exact ha ▸ List.Subset.refl _
  | child c p hp ih =>
    intro a ha
    rw [h.lineage_parent hp] at ha
    rcases List.mem_cons.mp ha with rfl | ha
    · exact List.Subset.refl _
    · rw [h.lineage_parent hp]
      exact List.subset_cons_of_subset c (ih a ha)

/-- A class was made after its ancestors. -/
theorem index_le_of_mem_lineage (h : w.Grounded) {c : ClassId} :
    ∀ a ∈ w.lineage c, a.index ≤ c.index := by
  induction c using h.lineage_induction with
  | root c hp =>
    intro a ha
    rw [lineage_of_root hp, List.mem_singleton] at ha
    exact Nat.le_of_eq (congrArg Identity.index ha)
  | child c p hp ih =>
    intro a ha
    obtain ⟨body, found, hparent⟩ := parent?_eq_some.mp hp
    have hearlier := (h.parent found hparent).1
    rw [h.lineage_parent hp] at ha
    rcases List.mem_cons.mp ha with rfl | ha
    · exact Nat.le_refl _
    · have := ih a ha
      omega

/-- No class is its own ancestor. -/
theorem nodup_lineage (h : w.Grounded) (c : ClassId) : (w.lineage c).Nodup := by
  induction c using h.lineage_induction with
  | root c hp =>
    rw [lineage_of_root hp]
    simp
  | child c p hp ih =>
    obtain ⟨body, found, hparent⟩ := parent?_eq_some.mp hp
    have hearlier := (h.parent found hparent).1
    rw [h.lineage_parent hp, List.nodup_cons]
    refine ⟨?_, ih⟩
    intro hmem
    have := h.index_le_of_mem_lineage c hmem
    omega

end Grounded

/-- Lineages are known once it is known what every class extends. -/
theorem lineage_congr {w w' : World} (h : ∀ c, w'.parent? c = w.parent? c) (c : ClassId) :
    w'.lineage c = w.lineage c := by
  -- The induction is on the identity, as in the definition of the lineage.
  obtain ⟨i⟩ := c
  induction i using Nat.strongRecOn with
  | _ i ih =>
    rw [lineage, lineage, h]
    cases w.parent? ⟨i⟩ with
    | none => rfl
    | some p =>
      dsimp only
      split
      · rename_i hearlier
        rw [ih p.index hearlier]
      · rfl

end World

end ScopeLayout
