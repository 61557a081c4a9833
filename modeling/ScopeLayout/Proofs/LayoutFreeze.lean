import ScopeLayout.Proofs.LateBinding
import ScopeLayout.Proofs.Ownership

/-!
# `ScopeLayout.Proofs.LayoutFreeze`: when a class takes no more fields

A child places its own fields behind those of its parent, so the parent must not get any
once it has a child. Each class carries a mark for this. The mark is set where a child is
made and looked at where a field is added, and nothing else touches it.

`World.MakesChild` says that a request, by its answer, has made a child of a class, and
`Outcome.isExtended_iff` that such a request sets the mark and no other does. A class
that is opened again has no new child, and a declaration that was refused has made none.
Along a run, the mark is set exactly if one of the requests has made a child
(`isExtended_run`), and then the child is still there (`Bears.exists_child`).

A marked class keeps its mark and its fields (`later_closed`).
`closed_by_first_child` puts this together with the three answers to a request for a field.
-/

set_option autoImplicit false

namespace ScopeLayout

namespace World

/-! ### Requests for a child -/

/-- The request, answered in this way, has made a class that extends `c`. It asked for just that, or
it declared a class that was not declared before, under the name of `c`. -/
def MakesChild (w : World) (c : ClassId) : Request × Answer → Prop
  | (.addChild _ parent, .classBody _) => parent = c
  | (.declare t name (some superclass), .classBody _) =>
    w.declared? t name = none ∧ w.declared? t superclass = some c
  | _ => False

/-- A request that refers to nothing makes no class. -/
theorem not_makesChild_dangling {w : World} {c : ClassId} {request : Request} :
    ¬ w.MakesChild c (request, .dangling) := by
  cases request with
  | declare t name superclass? => cases superclass? <;> exact id
  | _ => exact id

/-- One of the requests, served in order from this world, makes a class that extends `c`. -/
inductive Bears (c : ClassId) : World → List Request → Prop where
  | now {w : World} {request : Request} {rest : List Request}
      (makes : w.MakesChild c (request, (w.serve request).2)) : Bears c w (request :: rest)
  | later {w : World} {request : Request} {rest : List Request}
      (bears : Bears c (w.serve request).1 rest) : Bears c w (request :: rest)

/-- A run extends a class with its first request or with one of the rest. -/
theorem bears_cons_iff {w : World} {c : ClassId} {request : Request} {rest : List Request} :
    Bears c w (request :: rest) ↔
      w.MakesChild c (request, (w.serve request).2) ∨ Bears c (w.serve request).1 rest := by
  constructor
  · intro h
    cases h with
    | now makes => exact .inl makes
    | later bears => exact .inr bears
  · rintro (makes | bears)
    · exact .now makes
    · exact .later bears

/-! ### The mark of a class -/

/-- The class exists and is marked as extended. -/
def IsExtended (w : World) (c : ClassId) : Prop :=
  ∃ body, w.classAt? c = some body ∧ body.extended = true

/-- Whether a class is extended is read off its body. -/
theorem isExtended_of_found {w : World} {c : ClassId} {body : ClassBody}
    (found : w.classAt? c = some body) : w.IsExtended c ↔ body.extended = true := by
  constructor
  · rintro ⟨body', found', hextended⟩
    rw [Option.some.inj (found.symm.trans found')]
    exact hextended
  · intro hextended
    exact ⟨body, found, hextended⟩

/-- No class is extended where there is none. -/
theorem not_isExtended_empty (c : ClassId) : ¬ IsExtended .empty c := by
  rintro ⟨body, found, -⟩
  simp [classAt?, World.empty] at found

/-- Only the body of a class matters to whether it is extended. -/
theorem isExtended_congr {w w' : World} {c : ClassId} (h : w'.classAt? c = w.classAt? c) :
    w'.IsExtended c ↔ w.IsExtended c := by
  rw [IsExtended, IsExtended, h]

/-- A change of a class that leaves the mark alone leaves that of all classes alone. -/
theorem isExtended_changeClass (w : World) (changed : ClassId) {change : ClassBody → ClassBody}
    (kept : ∀ body, (change body).extended = body.extended) (c : ClassId) :
    (w.changeClass changed change).IsExtended c ↔ w.IsExtended c := by
  have hlook := classAt?_changeClass w changed c change
  by_cases hc : c = changed
  · rw [if_pos hc] at hlook
    rw [IsExtended, hlook, IsExtended]
    simp [kept]
  · rw [if_neg hc] at hlook
    exact isExtended_congr hlook

/-- A new root class is not marked. -/
theorem isExtended_withRoot (w : World) (name : String) (g : GlobalsId) (settings : Settings)
    (c : ClassId) : (w.withRoot name g settings).IsExtended c ↔ w.IsExtended c := by
  have hlook := w.classAt?_withRoot name g settings c
  by_cases hlast : c.index = w.classes.size
  · rw [if_pos hlast] at hlook
    refine iff_of_false ?_ ?_
    · rw [isExtended_of_found hlook]
      exact Bool.false_ne_true
    · rintro ⟨body, found, -⟩
      exact Store.index_ne_size found hlast
  · rw [if_neg hlast] at hlook
    exact isExtended_congr hlook

/-- Making a child marks the parent and no other class. -/
theorem isExtended_withChild {w : World} {parent : ClassId} {body : ClassBody}
    (made : w.classAt? parent = some body) (name : String) (c : ClassId) :
    (w.withChild name parent body).IsExtended c ↔ w.IsExtended c ∨ parent = c := by
  have hlook := w.classAt?_withChild name parent body c
  by_cases hlast : c.index = w.classes.size
  · -- The child itself is new and not marked.
    rw [if_pos hlast] at hlook
    refine iff_of_false ?_ ?_
    · rw [isExtended_of_found hlook]
      exact Bool.false_ne_true
    · rintro (⟨old, found, -⟩ | rfl)
      · exact Store.index_ne_size found hlast
      · exact Store.index_ne_size made hlast
  · rw [if_neg hlast] at hlook
    by_cases hc : c = parent
    · subst hc
      rw [if_pos rfl, made] at hlook
      exact iff_of_true ⟨_, hlook, rfl⟩ (.inr rfl)
    · rw [if_neg hc] at hlook
      rw [isExtended_congr hlook]
      simp [Ne.symm hc]

namespace Outcome

variable {w : World} {request : Request} {result : World × Answer}

/-- To define a method extends no class. -/
theorem isExtended_addMethod {d : ClassId} {method : String}
    (outcome : w.Outcome (.addMethod d method) result) (c : ClassId) :
    result.1.IsExtended c ↔ w.IsExtended c := by
  cases outcome with
  | dangling _ => exact Iff.rfl
  | defined _ _ _ =>
    refine (isExtended_changeClass _ d (fun _ => ?_) c).trans ?_
    · rfl
    · exact Iff.rfl

/-- The request that has made a child of a class marks the class, and all other requests leave the
mark as it is. -/
theorem isExtended_iff (outcome : w.Outcome request result) (c : ClassId) :
    result.1.IsExtended c ↔ w.IsExtended c ∨ w.MakesChild c (request, result.2) := by
  have kept : ∀ {w' : World} {answer : Answer}, (w'.IsExtended c ↔ w.IsExtended c) →
      ¬ w.MakesChild c (request, answer) →
      (w'.IsExtended c ↔ w.IsExtended c ∨ w.MakesChild c (request, answer)) := by
    intro w' answer hsame hnot
    rw [hsame, or_iff_left hnot]
  cases outcome with
  | dangling _ => exact kept Iff.rfl not_makesChild_dangling
  | reopened found listed _ =>
    rename_i superclass? _
    refine kept Iff.rfl ?_
    cases superclass? with
    | none => exact id
    | some superclass =>
      rintro ⟨hnew, -⟩
      simp [declared?, found, listed] at hnew
  | mismatched _ _ _ => exact kept Iff.rfl id
  | root name _ => exact kept (isExtended_withRoot w _ _ _ c) id
  | child name found => exact isExtended_withChild found name c
  | @field d _ _ _ _ _ =>
    refine kept (isExtended_changeClass w d (fun _ => ?_) c) id
    rfl
  | defined method found numbered =>
    exact kept ((Outcome.defined method found numbered).isExtended_addMethod c) id
  | @bound d method result label defined =>
    refine kept ?_ id
    refine (isExtended_changeClass _ d (fun _ => ?_) c).trans (defined.isExtended_addMethod c)
    rfl
  | declaredRoot _ _ _ => exact kept (isExtended_withRoot w _ _ _ c) id
  | @declaredChild t declarations name superclass parent body found new listed made =>
    have hmakes : w.MakesChild c (.declare t name (some superclass), .classBody ⟨w.classes.size⟩)
        ↔ parent = c := by
      simp [MakesChild, declared?, found, new, listed]
    exact (isExtended_withChild made name c).trans (or_congr_right hmakes.symm)
  | _ => exact kept Iff.rfl id

/-- The class that such a request has made extends `c`. -/
theorem parent?_of_makesChild (outcome : w.Outcome request result) {c : ClassId}
    (makes : w.MakesChild c (request, result.2)) : ∃ d, result.1.parent? d = some c := by
  have hchild : ∀ (name : String) (body : ClassBody),
      (w.withChild name c body).parent? ⟨w.classes.size⟩ = some c := by
    intro name body
    rw [parent?, classAt?_withChild, if_pos rfl]
    rfl
  cases outcome with
  | dangling _ => exact absurd makes not_makesChild_dangling
  | reopened found listed _ =>
    rename_i superclass? _
    cases superclass? with
    | none => exact makes.elim
    | some superclass => simp [MakesChild, declared?, found, listed] at makes
  | child name found =>
    obtain rfl := makes
    exact ⟨_, hchild name _⟩
  | declaredChild found _ listed _ =>
    obtain ⟨-, hdeclared⟩ := makes
    simp only [declared?, found, Option.bind_some, listed, Option.some.injEq] at hdeclared
    subst hdeclared
    exact ⟨_, hchild _ _⟩
  | _ => exact makes.elim

end Outcome

/-! ### Whole runs -/

/-- Along a run, a class is marked exactly if it was before or if a request has made a child of
it. -/
theorem isExtended_run (w : World) (requests : List Request) (c : ClassId) :
    (w.run requests).1.IsExtended c ↔ w.IsExtended c ∨ Bears c w requests := by
  induction requests generalizing w with
  | nil =>
    show w.IsExtended c ↔ _
    refine (or_iff_left ?_).symm
    rintro ⟨⟩
  | cons request rest ih =>
    show ((w.serve request).1.run rest).1.IsExtended c ↔ _
    rw [ih, (w.outcome_serve request).isExtended_iff, bears_cons_iff, or_assoc]

/-- The child that was made in a run is there at its end. -/
theorem Bears.exists_child {w : World} {requests : List Request} {c : ClassId}
    (h : Bears c w requests) : ∃ d, (w.run requests).1.parent? d = some c := by
  induction h with
  | @now w request rest makes =>
    obtain ⟨d, hd⟩ := (w.outcome_serve request).parent?_of_makesChild makes
    obtain ⟨body, found, hparent⟩ := parent?_eq_some.mp hd
    obtain ⟨body', found', hkept, -, -⟩ := later_references (later_run _ rest) found
    exact ⟨d, parent?_eq_some.mpr ⟨body', found', hkept.trans hparent⟩⟩
  | later _ ih => exact ih

/-- A marked class keeps its mark and its fields. -/
theorem later_closed {w w' : World} (later : w.Later w') {c : ClassId} {body : ClassBody}
    (found : w.classAt? c = some body) (closed : body.extended = true) :
    ∃ body', w'.classAt? c = some body' ∧ body'.extended = true
      ∧ body'.fields = body.fields := by
  refine later_class ?_ later found ⟨closed, rfl⟩
  rintro _ middle body' grows ⟨hclosed, hfields⟩
  exact ⟨grows.extended hclosed, (grows.fields_eq hclosed).trans hfields⟩

/-! ### Requests for a field -/

/-- The world in which the class has one more field. -/
def withField (w : World) (c : ClassId) (field : String) : World :=
  w.changeClass c (·.addField field)

/-- A field is answered in one of three ways, and only a class that is not extended takes it. -/
theorem serve_addField {w : World} {c : ClassId} {body : ClassBody}
    (found : w.classAt? c = some body) (field : String) :
    w.serve (.addField c field) =
      if field ∈ body.fields then (w, .registered false)
      else if body.extended then (w, .refused (.frozenLayout body.name field))
      else (w.withField c field, .registered true) := by
  simp only [serve, addField, found, withField]

/-- A new field is placed behind all others of the class. -/
theorem classAt?_withField {w : World} {c : ClassId} {body : ClassBody}
    (found : w.classAt? c = some body) {field : String} (new : field ∉ body.fields) :
    ∃ fields : Roster, fields.names = body.fields.names ++ [field]
      ∧ (w.withField c field).classAt? c = some { body with fields } := by
  refine ⟨body.fields.insert field, ?_, ?_⟩
  · rw [Roster.names_insert, if_neg new]
  · rw [withField, classAt?_changeClass, if_pos rfl, found]
    rfl

/-- Its place is the number of fields that there were. -/
theorem fieldIndex?_withField {w : World} {c : ClassId} {body : ClassBody}
    (found : w.classAt? c = some body) {field : String} (new : field ∉ body.fields) :
    (w.withField c field).fieldIndex? c field = some body.fields.size := by
  have hlook : (w.withField c field).classAt? c = some (body.addField field) := by
    rw [withField, classAt?_changeClass, if_pos rfl, found]
    rfl
  rw [fieldIndex?_of_found hlook, ClassBody.addField, Roster.indexOf?_insert new, if_pos rfl]

/-- No other class gets the field. -/
theorem classAt?_withField_ne (w : World) {c d : ClassId} (hd : d ≠ c) (field : String) :
    (w.withField c field).classAt? d = w.classAt? d := by
  rw [withField, classAt?_changeClass, if_neg hd]

/-- A class takes new fields until another class extends it, and none from then on.

It is marked as extended exactly if one of the requests of the run has made a child of it, under a
name that was new or without a declaration, and exactly if some class extends it at the end. Making
a child leaves the fields as they are, and a marked class keeps its mark and its fields whatever is
asked next.

A request for a field that the class has registers nothing, marked or not. A request for a new field
is refused if the class is marked. Otherwise the field comes behind all others, its place is the
number of fields that there were, and no other class changes. -/
theorem closed_by_first_child (requests : List Request) {c : ClassId} {body : ClassBody}
    (found : (after requests).classAt? c = some body) :
    (body.extended = true ↔ Bears c .empty requests)
    ∧ (body.extended = true ↔ ∃ d, (after requests).parent? d = some c)
    ∧ (body.extended = true → ∀ more, ∃ body',
        ((after requests).run more).1.classAt? c = some body' ∧ body'.extended = true
          ∧ body'.fields = body.fields)
    ∧ (∀ request, (after requests).MakesChild c (request, ((after requests).serve request).2) →
        ∃ body', ((after requests).serve request).1.classAt? c = some body'
          ∧ body'.extended = true ∧ body'.fields = body.fields)
    ∧ ∀ field,
      (field ∈ body.fields →
        (after requests).serve (.addField c field) = (after requests, .registered false))
      ∧ (field ∉ body.fields → body.extended = true →
        (after requests).serve (.addField c field)
          = (after requests, .refused (.frozenLayout body.name field)))
      ∧ (field ∉ body.fields → body.extended = false →
        ∃ w', (after requests).serve (.addField c field) = (w', .registered true)
          ∧ (∃ fields : Roster, fields.names = body.fields.names ++ [field]
            ∧ w'.classAt? c = some { body with fields })
          ∧ w'.fieldIndex? c field = some body.fields.size
          ∧ ∀ d, d ≠ c → w'.classAt? d = (after requests).classAt? d) := by
  have grounded : (after requests).Grounded := (Reachable.empty.run requests).built.grounded
  have hborne : body.extended = true ↔ Bears c .empty requests := by
    rw [← isExtended_of_found found, isExtended_run, or_iff_right (not_isExtended_empty c)]
  refine ⟨hborne, ?_, ?_, ?_, ?_⟩
  · constructor
    · intro hextended
      exact (hborne.mp hextended).exists_child
    · rintro ⟨d, hd⟩
      obtain ⟨child, hchild, hparent⟩ := parent?_eq_some.mp hd
      obtain ⟨-, body', found', hextends⟩ := grounded.parent hchild hparent
      obtain rfl := Option.some.inj (found.symm.trans found')
      exact hextends.closed
  · intro hextended more
    exact later_closed (later_run _ more) found hextended
  · intro request makes
    have outcome := (after requests).outcome_serve request
    obtain ⟨body', found', hclosed⟩ := (outcome.isExtended_iff c).mpr (.inr makes)
    have nofield : ∀ field, (request, ((after requests).serve request).2)
        ≠ (.addField c field, .registered true) := by
      intro field heq
      rw [heq] at makes
      exact makes
    obtain ⟨body'', found'', halike⟩ := outcome.alike found nofield
    obtain rfl := Option.some.inj (found'.symm.trans found'')
    exact ⟨body', found', hclosed, halike.fields⟩
  · intro field
    rw [serve_addField found]
    refine ⟨?_, ?_, ?_⟩
    · intro known
      rw [if_pos known]
    · intro new hextended
      rw [if_neg new, if_pos hextended]
    · intro new hfree
      rw [if_neg new, if_neg (hfree ▸ Bool.false_ne_true)]
      exact ⟨_, rfl, classAt?_withField found new, fieldIndex?_withField found new,
        fun d hd => classAt?_withField_ne _ hd field⟩

/-- A class with a child, which is opened again, and two declarations that are refused. One names
the child as the superclass of a class that has another, and one names a superclass that is not
declared. -/
def extendedOnce : List Request := [
  .openGlobals .standard, .openDeclarations ⟨0⟩, .declare ⟨0⟩ "Shape" none,
  .addField ⟨0⟩ "@x", .declare ⟨0⟩ "Circle" (some "Shape"), .declare ⟨0⟩ "Circle" (some "Shape"),
  .declare ⟨0⟩ "Shape" (some "Circle"), .declare ⟨0⟩ "Dot" (some "Missing")]

/-- The class with the child is closed, though it still answers for a field that it has. The child
is open, as no class was made that extends it. -/
theorem closed_by_first_child_extendedOnce :
    ∃ shape circle, (after extendedOnce).classAt? ⟨0⟩ = some shape
      ∧ (after extendedOnce).classAt? ⟨1⟩ = some circle
      ∧ shape.extended = true ∧ ¬ Bears ⟨1⟩ .empty extendedOnce
      ∧ (after extendedOnce).serve (.addField ⟨0⟩ "@x") = (after extendedOnce, .registered false)
      ∧ (after extendedOnce).serve (.addField ⟨0⟩ "@y")
        = (after extendedOnce, .refused (.frozenLayout "Shape" "@y"))
      ∧ ((after extendedOnce).serve (.addField ⟨1⟩ "@y")).2 = .registered true
      ∧ ((after extendedOnce).serve (.addField ⟨1⟩ "@y")).1.fieldIndex? ⟨1⟩ "@y" = some 2 := by
  have hshape : (after extendedOnce).classAt? ⟨0⟩ = some { ClassBody.root "Shape" ⟨0⟩ ⟨0⟩ with
      fields := { names := [selfField, "@x"] }, subclasses := 1 } := by decide +kernel
  have hcircle : (after extendedOnce).classAt? ⟨1⟩ = some { ClassBody.root "Circle" ⟨0⟩ ⟨0⟩ with
      parent? := some ⟨0⟩, fields := { names := [selfField, "@x"] } } := by decide +kernel
  obtain ⟨-, -, -, -, hfields⟩ := closed_by_first_child extendedOnce hshape
  obtain ⟨hborne, -, -, -, hfree⟩ := closed_by_first_child extendedOnce hcircle
  obtain ⟨w', hserve, -, hplace, -⟩ := (hfree "@y").2.2 (by decide +kernel) rfl
  refine ⟨_, _, hshape, hcircle, rfl, ?_, (hfields "@x").1 (by decide +kernel),
    (hfields "@y").2.1 (by decide +kernel) rfl, by rw [hserve], ?_⟩
  · rw [← hborne]
    exact Bool.false_ne_true
  · rw [hserve]
    exact hplace

end World

end ScopeLayout
