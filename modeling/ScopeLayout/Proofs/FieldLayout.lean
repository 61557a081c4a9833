import ScopeLayout.Proofs.Hierarchy

/-!
# `ScopeLayout.Proofs.FieldLayout`: a field keeps its place

Code that reads a field knows its place and not the class of the receiver. So
the place must be the same in the class and in all that extend it, and it must
not change while the program is still being read.

`LaidOut` is what holds of the fields of one class, and `Built.laidOut` proves
it of every class. The rest are facts about prefixes: a class has the fields of
its ancestors before its own (`Grounded.of_mem_lineage`), and in later worlds it
has the fields of now before the new ones (`later_fields`). A name that has a
place in a list has the same place in every list that goes on from it
(`Roster.indexOf?_of_prefix`).

`fields_keep_their_places` puts this together.
-/

set_option autoImplicit false

namespace ScopeLayout

/-- A name keeps its place when more names follow. -/
theorem Roster.indexOf?_of_prefix {roster longer : Roster} (h : roster.names <+: longer.names)
    {name : String} {place : Nat} (hplace : roster.indexOf? name = some place) :
    longer.indexOf? name = some place :=
  h.findIdx?_eq_some hplace

/-- A listed name has a place. -/
theorem Roster.indexOf?_of_mem {roster : Roster} {name : String} (h : name ∈ roster) :
    ∃ place, roster.indexOf? name = some place := by
  rw [← Option.isSome_iff_exists, Option.isSome_iff_ne_none]
  intro hnone
  exact Roster.indexOf?_eq_none_iff.mp hnone h

/-- The first field of a class is the hidden one. -/
def ClassBody.LaidOut (body : ClassBody) : Prop := body.fields.names[0]? = some selfField

/-- Growing keeps a class laid out: new fields come behind those that a class has. -/
theorem ClassBody.LaidOut.grow {w : World} {body body' : ClassBody} (h : body.LaidOut)
    (grows : body.Grows w body') : body'.LaidOut := by
  unfold ClassBody.LaidOut at h ⊢
  obtain ⟨more, hmore⟩ := grows.fields_prefix
  have hlt : 0 < body.fields.names.length := (List.getElem?_eq_some_iff.mp h).1
  rw [← hmore, List.getElem?_append_left hlt]
  exact h

namespace World

/-- In every world that comes about by steps, classes are laid out. A child starts out with the
fields of its parent. -/
theorem Built.laidOut {w : World} (built : w.Built) {c : ClassId} {body : ClassBody}
    (found : w.classAt? c = some body) : body.LaidOut :=
  built.class_induction (P := fun _ body => body.LaidOut) (fun _ _ _ => rfl)
    (fun _ _ _ hparent => hparent) (fun _ grows h => h.grow grows) found

/-- Later, a class has the fields of now and new ones behind them. -/
theorem later_fields {w w' : World} (later : w.Later w') {c : ClassId} {body : ClassBody}
    (found : w.classAt? c = some body) : ∃ body', w'.classAt? c = some body'
      ∧ body.fields.names <+: body'.fields.names := by
  refine later_class ?_ later found (List.prefix_refl _)
  intro _ middle body' grows hprefix
  exact hprefix.trans grows.fields_prefix

/-- The place of a field is the same in the class, in the classes that extend it and in all later
worlds.

The fields of every class begin with the hidden one, and no two of them have one name. A class has
the fields of the class it extends before its own, and so every field of an ancestor has the same
place in the class. A place that a field has in a class is its place whatever is asked next. -/
theorem fields_keep_their_places {w : World} (reachable : w.Reachable) :
    (∀ c body, w.classAt? c = some body →
      body.fields.names[0]? = some selfField ∧ body.fields.names.Nodup)
    ∧ (∀ c p, w.parent? c = some p → ∃ body parent, w.classAt? c = some body
        ∧ w.classAt? p = some parent ∧ parent.fields.names <+: body.fields.names)
    ∧ (∀ d body, w.classAt? d = some body → ∀ c ∈ w.lineage d, ∃ ancestor,
        w.classAt? c = some ancestor
        ∧ ∀ field ∈ ancestor.fields.names, w.fieldIndex? d field = w.fieldIndex? c field)
    ∧ (∀ c field place, w.fieldIndex? c field = some place →
        ∀ requests, (w.run requests).1.fieldIndex? c field = some place) := by
  have built := reachable.built
  have grounded := built.grounded
  refine ⟨?_, ?_, ?_, ?_⟩
  · intro c body found
    exact ⟨built.laidOut found, body.fields.nodup⟩
  · intro c p hp
    obtain ⟨body, found, hparent⟩ := parent?_eq_some.mp hp
    obtain ⟨-, parent, hfound, hextends⟩ := grounded.parent found hparent
    exact ⟨body, parent, found, hfound, hextends.fields⟩
  · intro d body found c hc
    obtain ⟨ancestor, hancestor, -, -, hfields⟩ := grounded.of_mem_lineage found c hc
    refine ⟨ancestor, hancestor, ?_⟩
    intro field hfield
    have hmem : field ∈ ancestor.fields := hfield
    obtain ⟨place, hplace⟩ := Roster.indexOf?_of_mem hmem
    -- The ancestor has a place for the field, which is kept in the longer list.
    show (w.classAt? d).bind (·.fields.indexOf? field)
      = (w.classAt? c).bind (·.fields.indexOf? field)
    rw [found, hancestor, Option.bind_some, Option.bind_some, hplace]
    exact Roster.indexOf?_of_prefix hfields hplace
  · intro c field place hplace requests
    obtain ⟨body, found, hindex⟩ := Option.bind_eq_some_iff.mp hplace
    obtain ⟨body', found', hfields⟩ := later_fields (later_run w requests) found
    show ((w.run requests).1.classAt? c).bind (·.fields.indexOf? field) = some place
    rw [found', Option.bind_some]
    exact Roster.indexOf?_of_prefix hfields hindex

/-- A class with a child, which was declared after the class got its first field. -/
def extendedPoint : World := (World.empty.run [
  .openGlobals .standard, .openDeclarations ⟨0⟩, .declare ⟨0⟩ "Point" none,
  .addField ⟨0⟩ "@x", .declare ⟨0⟩ "Pixel" (some "Point"), .addField ⟨1⟩ "@color"]).1

/-- The field of the parent stays in its place, and so does that of the child: the parent can take
no field after the child is declared. -/
theorem fields_keep_their_places_extendedPoint :
    extendedPoint.Reachable
    ∧ extendedPoint.parent? ⟨1⟩ = some ⟨0⟩
    ∧ extendedPoint.fieldIndex? ⟨0⟩ "@x" = some 1
    ∧ extendedPoint.fieldIndex? ⟨1⟩ "@color" = some 2
    ∧ (extendedPoint.run [.addField ⟨0⟩ "@y", .addField ⟨1⟩ "@y"]).2
        = [.refused (.frozenLayout "Point" "@y"), .registered true]
    ∧ (extendedPoint.run [.addField ⟨0⟩ "@y", .addField ⟨1⟩ "@y"]).1.fieldIndex? ⟨1⟩
        "@color" = some 2 := by
  have hreachable : extendedPoint.Reachable := Reachable.empty.run _
  have hcolor : extendedPoint.fieldIndex? ⟨1⟩ "@color" = some 2 := by decide
  exact ⟨hreachable, by decide, by decide, hcolor, by decide,
    (fields_keep_their_places hreachable).2.2.2 ⟨1⟩ "@color" 2 hcolor _⟩

end World

end ScopeLayout
