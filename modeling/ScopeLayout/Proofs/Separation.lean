import ScopeLayout.Proofs.DispatchTable
import ScopeLayout.Proofs.Ownership

/-!
# `ScopeLayout.Proofs.Separation`: hierarchies do not see each other

The classes of a program are compiled in some order, and the requests of one hierarchy
come between those of another. What a class looks like in the end depends on the
requests of its own hierarchy and on nothing else.

A request that fills a class or hands out a slot is about one numbering (`target?`),
and numberings belong to hierarchies (`Built.numbering_eq_iff`). The worlds that look
alike from a hierarchy are those that agree on its numbering and on the classes that
have it (`AgreeOn`). Two lemmas say how a request moves in such worlds:

* `Outcome.agreeOn`: a request about another numbering goes unnoticed.
* `AgreeOn.serve`: a request about this one is answered in the same way in both, and
  leaves worlds that agree again.

So a run agrees with the run of those requests alone that are about the numbering
(`AgreeOn.run`), and worlds that agree show the classes of the hierarchy alike
(`AgreeOn.view?_eq`). `unaffected_by_other_hierarchies` puts this together.
-/

set_option autoImplicit false

namespace ScopeLayout

/-- The requests that fill what is there: they register a global, hand out a slot, or add to a
class. None of them makes anything. -/
inductive Request.Fills : Request → Prop where
  | register (g : GlobalsId) (name : String) : Fills (.register g name)
  | allocate (n : NumberingId) (name : String) : Fills (.allocate n name)
  | allocateCall (n : NumberingId) (call : CallSite) : Fills (.allocateCall n call)
  | addField (c : ClassId) (field : String) : Fills (.addField c field)
  | addMethod (c : ClassId) (method : String) : Fills (.addMethod c method)
  | bindMethod (c : ClassId) (method label : String) : Fills (.bindMethod c method label)

namespace World

/-! ### What a request is about -/

/-- The numbering of a class. -/
def numberingOf? (w : World) (c : ClassId) : Option NumberingId :=
  (w.classAt? c).map (·.numbering)

/-- The numbering of a class is written in its body. -/
theorem numberingOf?_eq_some {w : World} {c : ClassId} {n : NumberingId} :
    w.numberingOf? c = some n ↔ ∃ body, w.classAt? c = some body ∧ body.numbering = n :=
  Option.map_eq_some_iff

/-- The numbering that a request is about: the one that it names, or that of the class it names. -/
def target? (w : World) : Request → Option NumberingId
  | .allocate n _ => some n
  | .allocateCall n _ => some n
  | .addField c _ => w.numberingOf? c
  | .addMethod c _ => w.numberingOf? c
  | .bindMethod c _ _ => w.numberingOf? c
  | _ => none

/-- What a request asks is known once the numberings of the classes are. -/
theorem target?_congr {w w' : World} (h : ∀ c, w'.numberingOf? c = w.numberingOf? c)
    (request : Request) : w'.target? request = w.target? request := by
  cases request <;> first | rfl | exact h _

/-- A change of a class that leaves its numbering alone leaves that of all classes alone. -/
theorem numberingOf?_changeClass (w : World) (c : ClassId) {change : ClassBody → ClassBody}
    (kept : ∀ body, (change body).numbering = body.numbering) (d : ClassId) :
    (w.changeClass c change).numberingOf? d = w.numberingOf? d := by
  rw [numberingOf?, classAt?_changeClass, numberingOf?]
  split
  · rw [Option.map_map]
    exact Option.map_congr fun body _ => kept body
  · rfl

/-- To define a method moves no class to another numbering. -/
theorem Outcome.numberingOf?_addMethod {w : World} {c : ClassId} {method : String}
    {result : World × Answer} (outcome : w.Outcome (.addMethod c method) result) (d : ClassId) :
    result.1.numberingOf? d = w.numberingOf? d := by
  cases outcome with
  | dangling _ => rfl
  | defined _ _ _ =>
    refine numberingOf?_changeClass _ c (fun _ => ?_) d
    rfl

/-- To fill a class leaves the numberings of all classes alone. -/
theorem Outcome.numberingOf?_eq {w : World} {request : Request} {result : World × Answer}
    (outcome : w.Outcome request result) (fills : request.Fills) (d : ClassId) :
    result.1.numberingOf? d = w.numberingOf? d := by
  cases fills with
  | register g name => cases outcome <;> rfl
  | allocate n name => cases outcome <;> rfl
  | allocateCall n call => cases outcome <;> rfl
  | addField c field =>
    cases outcome with
    | dangling _ => rfl
    | known _ _ => rfl
    | frozen _ _ _ => rfl
    | field _ _ _ =>
      refine numberingOf?_changeClass w c (fun _ => ?_) d
      rfl
  | addMethod c method => exact outcome.numberingOf?_addMethod d
  | bindMethod c method label =>
    cases outcome with
    | dangling _ => rfl
    | bound label defined =>
      rw [← defined.numberingOf?_addMethod d]
      refine numberingOf?_changeClass _ c (fun _ => ?_) d
      rfl

/-! ### Worlds that look alike from one hierarchy -/

/-- Two worlds agree on a numbering and on the classes that have it. -/
structure AgreeOn (n : NumberingId) (w w' : World) : Prop where
  numbering : w'.numberingAt? n = w.numberingAt? n
  classes : ∀ {c body}, body.numbering = n → (w.classAt? c = some body ↔ w'.classAt? c = some body)

namespace AgreeOn

variable {n : NumberingId} {w w' w'' : World}

/-- A world agrees with itself. -/
theorem refl (n : NumberingId) (w : World) : AgreeOn n w w where
  numbering := rfl
  classes _ := Iff.rfl

/-- Agreement goes both ways. -/
theorem symm (h : AgreeOn n w w') : AgreeOn n w' w where
  numbering := h.numbering.symm
  classes hn := (h.classes hn).symm

/-- And it can be passed on. -/
theorem trans (h : AgreeOn n w w') (h' : AgreeOn n w' w'') : AgreeOn n w w'' where
  numbering := h'.numbering.trans h.numbering
  classes hn := (h.classes hn).trans (h'.classes hn)

/-- Worlds that agree do so after the same change of a numbering. -/
theorem changeNumbering (h : AgreeOn n w w') (m : NumberingId) (change : Numbering → Numbering) :
    AgreeOn n (w.changeNumbering m change) (w'.changeNumbering m change) where
  numbering := by rw [numberingAt?_changeNumbering, numberingAt?_changeNumbering, h.numbering]
  classes := h.classes

/-- Worlds that agree do so after the same change of a class. -/
theorem changeClass (h : AgreeOn n w w') (c : ClassId) {change : ClassBody → ClassBody}
    (kept : ∀ body, (change body).numbering = body.numbering) :
    AgreeOn n (w.changeClass c change) (w'.changeClass c change) where
  numbering := h.numbering
  classes {d body} hn := by
    rw [classAt?_changeClass, classAt?_changeClass]
    split
    · -- What the body was before has the numbering too, so both worlds have it or none.
      rw [Option.map_eq_some_iff, Option.map_eq_some_iff]
      constructor
      · rintro ⟨old, found, rfl⟩
        exact ⟨old, (h.classes ((kept old).symm.trans hn)).mp found, rfl⟩
      · rintro ⟨old, found, rfl⟩
        exact ⟨old, (h.classes ((kept old).symm.trans hn)).mpr found, rfl⟩
    · exact h.classes hn

end AgreeOn

/-! ### Requests about other hierarchies -/

section

variable {n : NumberingId} {w : World}

/-- A change of another numbering is not seen. -/
theorem agreeOn_changeNumbering {m : NumberingId} (other : m ≠ n) (change : Numbering → Numbering) :
    AgreeOn n w (w.changeNumbering m change) where
  numbering := by rw [numberingAt?_changeNumbering, if_neg (Ne.symm other)]
  classes _ := Iff.rfl

/-- Neither is a change of a class with another numbering. -/
theorem agreeOn_changeClass {c : ClassId} (other : w.numberingOf? c ≠ some n)
    {change : ClassBody → ClassBody} (kept : ∀ body, (change body).numbering = body.numbering) :
    AgreeOn n w (w.changeClass c change) where
  numbering := rfl
  classes {d body} hn := by
    -- A body with the numbering is not that of `c`, before and after the change.
    have hother := other
    rw [← w.numberingOf?_changeClass c kept c] at hother
    by_cases hd : d = c
    · subst hd
      constructor
      · intro found
        exact absurd (numberingOf?_eq_some.mpr ⟨body, found, hn⟩) other
      · intro found
        exact absurd (numberingOf?_eq_some.mpr ⟨body, found, hn⟩) hother
    · rw [classAt?_changeClass, if_neg hd]

/-- To define a method in such a class is not seen either. -/
theorem Outcome.agreeOn_addMethod {c : ClassId} {method : String} {result : World × Answer}
    (outcome : w.Outcome (.addMethod c method) result) (other : w.numberingOf? c ≠ some n) :
    AgreeOn n w result.1 := by
  cases outcome with
  | dangling _ => exact .refl n w
  | @defined _ body numbering _ found _ =>
    have hbody : body.numbering ≠ n := by
      intro hn
      exact other (numberingOf?_eq_some.mpr ⟨body, found, hn⟩)
    refine (agreeOn_changeNumbering hbody (·.allocate method)).trans ?_
    refine agreeOn_changeClass ?_ fun _ => ?_
    · -- The classes are still those of `w`.
      exact other
    · rfl

/-- A request that fills something and is about another numbering goes unnoticed. -/
theorem Outcome.agreeOn {request : Request} {result : World × Answer}
    (outcome : w.Outcome request result) (fills : request.Fills)
    (other : w.target? request ≠ some n) : AgreeOn n w result.1 := by
  cases fills with
  | register g name =>
    cases outcome with
    | dangling _ => exact .refl n w
    | registered _ _ => exact ⟨rfl, fun _ => Iff.rfl⟩
  | allocate m name =>
    have hm : m ≠ n := fun hm => other (congrArg some hm)
    cases outcome with
    | dangling _ => exact .refl n w
    | allocated _ _ => exact agreeOn_changeNumbering hm _
  | allocateCall m call =>
    have hm : m ≠ n := fun hm => other (congrArg some hm)
    cases outcome with
    | dangling _ => exact .refl n w
    | allocatedCall _ _ => exact agreeOn_changeNumbering hm _
  | addField c field =>
    cases outcome with
    | dangling _ => exact .refl n w
    | known _ _ => exact .refl n w
    | frozen _ _ _ => exact .refl n w
    | field _ _ _ =>
      refine agreeOn_changeClass other fun _ => ?_
      rfl
  | addMethod c method => exact outcome.agreeOn_addMethod other
  | bindMethod c method label =>
    cases outcome with
    | dangling _ => exact .refl n w
    | bound label defined =>
      -- The class still has another numbering when its method gets the code.
      have hother := other
      rw [target?, ← defined.numberingOf?_addMethod c] at hother
      refine (defined.agreeOn_addMethod other).trans (agreeOn_changeClass hother fun _ => ?_)
      rfl

end

namespace AgreeOn

variable {n : NumberingId} {w w' : World}

/-! ### Requests about the hierarchy itself -/

/-- A class of the hierarchy is found in both worlds. -/
theorem classAt?_of_numberingOf? (h : AgreeOn n w w') {c : ClassId}
    (own : w.numberingOf? c = some n) : ∃ body, w.classAt? c = some body
      ∧ w'.classAt? c = some body ∧ body.numbering = n := by
  obtain ⟨body, found, hn⟩ := numberingOf?_eq_some.mp own
  exact ⟨body, found, (h.classes hn).mp found, hn⟩

/-- A name that is asked for in both worlds has one answer and leaves them in agreement. -/
theorem allocate (h : AgreeOn n w w') (name : String) :
    (w'.allocate n name).2 = (w.allocate n name).2
      ∧ AgreeOn n (w.allocate n name).1 (w'.allocate n name).1 := by
  simp only [World.allocate, h.numbering]
  split
  · exact ⟨rfl, h⟩
  · exact ⟨rfl, h.changeNumbering n _⟩

/-- So has a method that is defined in both. -/
theorem addMethod (h : AgreeOn n w w') {c : ClassId} (own : w.numberingOf? c = some n)
    (method : String) : (w'.addMethod c method).2 = (w.addMethod c method).2
      ∧ AgreeOn n (w.addMethod c method).1 (w'.addMethod c method).1 := by
  obtain ⟨body, found, found', hn⟩ := h.classAt?_of_numberingOf? own
  simp only [World.addMethod, found, found', hn, h.numbering]
  split
  · exact ⟨rfl, h⟩
  · exact ⟨rfl, (h.changeNumbering n _).changeClass c fun _ => rfl⟩

/-- A request about the numbering is answered in the same way in worlds that agree on it, and leaves
worlds that agree on it. -/
theorem serve (h : AgreeOn n w w') {request : Request} (own : w.target? request = some n) :
    (w'.serve request).2 = (w.serve request).2
      ∧ AgreeOn n (w.serve request).1 (w'.serve request).1 := by
  cases request with
  | allocate m name =>
    obtain rfl : m = n := Option.some.inj own
    exact h.allocate name
  | allocateCall m call =>
    obtain rfl : m = n := Option.some.inj own
    exact h.allocate call.slotName
  | addField c field =>
    obtain ⟨body, found, found', -⟩ := h.classAt?_of_numberingOf? own
    simp only [World.serve, addField, found, found']
    split
    · exact ⟨rfl, h⟩
    · split
      · exact ⟨rfl, h⟩
      · exact ⟨rfl, h.changeClass c fun _ => rfl⟩
  | addMethod c method => exact h.addMethod own method
  | bindMethod c method label =>
    obtain ⟨hanswer, hafter⟩ := h.addMethod own method
    exact ⟨hanswer, hafter.changeClass c fun _ => rfl⟩
  | _ => simp [target?] at own

/-- A run agrees with the run of those requests alone that are about the numbering, and they are
answered in the same way. -/
theorem run (requests : List Request) (fills : ∀ request ∈ requests, request.Fills)
    (h : AgreeOn n w w') :
    (w.log requests).filter (fun e => w.target? e.1 = some n)
        = w'.log (requests.filter fun request => w.target? request = some n)
      ∧ AgreeOn n (w.run requests).1
        (w'.run (requests.filter fun request => w.target? request = some n)).1 := by
  induction requests generalizing w w' with
  | nil => exact ⟨rfl, h⟩
  | cons request requests ih =>
    obtain ⟨hfirst, hrest⟩ := List.forall_mem_cons.mp fills
    have outcome := w.outcome_serve request
    -- What the later requests are about is not changed by the first.
    have htarget : ∀ later, (w.serve request).1.target? later = w.target? later :=
      target?_congr (outcome.numberingOf?_eq hfirst)
    by_cases own : w.target? request = some n
    · obtain ⟨hanswer, hserved⟩ := h.serve own
      have hih := ih hrest hserved
      simp only [htarget] at hih
      simp only [log, World.run, List.filter_cons, own, decide_true, if_true, hanswer]
      exact ⟨congrArg _ hih.1, hih.2⟩
    · have hih := ih hrest ((outcome.agreeOn hfirst own).symm.trans h)
      simp only [htarget] at hih
      simp only [log, World.run, List.filter_cons, own, decide_false, Bool.false_eq_true, if_false]
      exact hih

/-! ### Classes of the hierarchy -/

/-- A lineage is the same in worlds that agree, since ancestors have the same numbering. -/
theorem lineage_eq (h : AgreeOn n w w') (grounded : w.Grounded) (grounded' : w'.Grounded)
    {c : ClassId} (own : w.numberingOf? c = some n) : w'.lineage c = w.lineage c := by
  induction c using grounded.lineage_induction with
  | root c hp =>
    obtain ⟨body, found, found', -⟩ := h.classAt?_of_numberingOf? own
    have hp' : w'.parent? c = none := by
      rw [← hp, parent?, parent?, found, found']
    rw [lineage_of_root hp, lineage_of_root hp']
  | child c p hp ih =>
    obtain ⟨body, found, found', hn⟩ := h.classAt?_of_numberingOf? own
    have hp' : w'.parent? c = some p := by
      rw [← hp, parent?, parent?, found, found']
    obtain ⟨body', hbody, hparent⟩ := parent?_eq_some.mp hp
    obtain rfl : body = body' := Option.some.inj (found.symm.trans hbody)
    obtain ⟨-, parent, hfound, hextends⟩ := grounded.parent found hparent
    have hown := numberingOf?_eq_some.mpr ⟨parent, hfound, hextends.numbering.symm.trans hn⟩
    rw [grounded.lineage_parent hp, grounded'.lineage_parent hp', ih hown]

/-- The dispatch table of a class is the same in worlds that agree on its numbering. -/
theorem dispatchTable_eq (h : AgreeOn n w w') (grounded : w.Grounded) (grounded' : w'.Grounded)
    {c : ClassId} (own : w.numberingOf? c = some n) : w'.dispatchTable c = w.dispatchTable c := by
  obtain ⟨body, found, -, hn⟩ := h.classAt?_of_numberingOf? own
  have hmethods : ∀ a ∈ w.lineage c, w'.ownMethods a = w.ownMethods a := by
    intro a ha
    obtain ⟨ancestor, hancestor, -, hnumbering, -⟩ := grounded.of_mem_lineage found a ha
    rw [ownMethods, ownMethods, hancestor, (h.classes (hnumbering.trans hn)).mp hancestor]
  refine dispatchTable_congr ?_
  rw [h.lineage_eq grounded grounded' own]
  exact List.map_congr_left hmethods

/-- Worlds that agree on the numbering of a class show it alike. -/
theorem view?_eq (h : AgreeOn n w w') (grounded : w.Grounded) (grounded' : w'.Grounded)
    {c : ClassId} (own : w.numberingOf? c = some n) : w'.view? c = w.view? c := by
  obtain ⟨body, found, found', hn⟩ := h.classAt?_of_numberingOf? own
  have hsuperclass : w'.superclassName? c = w.superclassName? c := by
    rw [superclassName?, superclassName?, parent?, parent?, found, found']
    cases hparent : body.parent? with
    | none => simp [hparent]
    | some p =>
      obtain ⟨-, parent, hfound, hextends⟩ := grounded.parent found hparent
      have hfound' := (h.classes (hextends.numbering.symm.trans hn)).mp hfound
      simp [hparent, hfound, hfound']
  rw [view?, view?, found, found']
  simp only [Option.bind_eq_bind, Option.bind_some, hn, h.numbering, hsuperclass,
    h.dispatchTable_eq grounded grounded' own]

end AgreeOn

/-! ### Requests about the classes of a root -/

/-- Whether a request is about the hierarchy of a root class: about one of its classes, or about its
numbering. -/
def Concerns (w : World) (r : ClassId) : Request → Bool
  | .allocate n _ => w.numberingOf? r = some n
  | .allocateCall n _ => w.numberingOf? r = some n
  | .addField c _ => w.root c = r
  | .addMethod c _ => w.root c = r
  | .bindMethod c _ _ => w.root c = r
  | _ => false

/-- The classes of a hierarchy are those that have its numbering. -/
theorem Built.numberingOf?_eq_iff {w : World} (built : w.Built) {r : ClassId} {top : ClassBody}
    (found : w.classAt? r = some top) (hroot : w.parent? r = none) (c : ClassId) :
    w.numberingOf? c = some top.numbering ↔ w.root c = r := by
  have hr : w.root r = r := root_of_parent?_eq_none hroot
  cases hc : w.classAt? c with
  | some body =>
    rw [numberingOf?, hc, Option.map_some, Option.some_inj, built.numbering_eq_iff hc found, hr]
  | none =>
    -- A class that was never made has no ancestor and is not the root.
    have hp : w.parent? c = none := by rw [parent?, hc]; rfl
    rw [numberingOf?, hc, root_of_parent?_eq_none hp]
    constructor
    · intro h
      simp at h
    · rintro rfl
      simp [hc] at found

/-- A request concerns a hierarchy exactly if it is aimed at its numbering. -/
theorem Built.concerns_iff {w : World} (built : w.Built) {r : ClassId} {top : ClassBody}
    (found : w.classAt? r = some top) (hroot : w.parent? r = none) (request : Request) :
    w.Concerns r request = decide (w.target? request = some top.numbering) := by
  have hclass := built.numberingOf?_eq_iff found hroot
  have htop : w.numberingOf? r = some top.numbering := by rw [numberingOf?, found]; rfl
  cases request <;> simp [Concerns, target?, hclass, htop, eq_comm]

/-- What becomes of a hierarchy is decided by the requests about it alone.

Let some requests fill classes, hand out slots and register globals, in any order, and leave out
those that are not about the hierarchy of a root class: all that concern other hierarchies,
numberings that stand alone, and globals. The requests that are left are answered as before, and
every class of the hierarchy looks as before in all that can be seen of it: its fields, whether it
is extended, its methods with slots and code, and the size of its class object. -/
theorem unaffected_by_other_hierarchies {w : World} (reachable : w.Reachable) {r : ClassId}
    {top : ClassBody} (found : w.classAt? r = some top) (hroot : w.parent? r = none)
    (requests : List Request) (fills : ∀ request ∈ requests, request.Fills) :
    (w.log requests).filter (fun e => w.Concerns r e.1) = w.log (requests.filter (w.Concerns r))
    ∧ ∀ c, w.root c = r → ∃ view, (w.run requests).1.view? c = some view
        ∧ (w.run (requests.filter (w.Concerns r))).1.view? c = some view := by
  have built := reachable.built
  have hconcerns := funext (built.concerns_iff found hroot)
  obtain ⟨hlog, hagree⟩ := AgreeOn.run requests fills (.refl top.numbering w)
  simp only [hconcerns]
  refine ⟨hlog, ?_⟩
  intro c hc
  have grounded := (reachable.run requests).built.grounded
  -- The class still has the numbering of the hierarchy after the run.
  obtain ⟨body, hbody, hn⟩ :=
    numberingOf?_eq_some.mp ((built.numberingOf?_eq_iff found hroot c).mpr hc)
  obtain ⟨body', hbody', -, -, hkept⟩ := later_references (later_run w requests) hbody
  obtain ⟨view, -, hview, -⟩ := grounded.view?_eq_some hbody'
  refine ⟨view, hview, ?_⟩
  rw [← hview]
  exact hagree.view?_eq grounded (reachable.run _).built.grounded
    (numberingOf?_eq_some.mpr ⟨body', hbody', hkept.trans hn⟩)

/-- Two hierarchies at one module level. The first root is extended. -/
def neighbours : World := (World.empty.run [
  .openGlobals .standard, .openDeclarations ⟨0⟩, .declare ⟨0⟩ "Shape" none,
  .declare ⟨0⟩ "Colour" none, .declare ⟨0⟩ "Circle" (some "Shape"), .openNumbering .standard]).1

/-- Requests about both hierarchies, the numbering that stands alone and the globals, mixed. -/
def mixedRequests : List Request := [
  .addMethod ⟨1⟩ "name", .bindMethod ⟨0⟩ "area" "Shape.area", .allocate ⟨2⟩ "area",
  .addField ⟨1⟩ "@red", .addField ⟨2⟩ "@radius", .allocate ⟨0⟩ "puts", .register ⟨0⟩ "Pi",
  .addMethod ⟨1⟩ "area", .addField ⟨0⟩ "@late", .bindMethod ⟨2⟩ "grow" "Circle.grow"]

/-- The class of the first hierarchy has its methods at the slots that they get without the other
requests, and both show a class object of one size. -/
theorem unaffected_by_other_hierarchies_neighbours :
    neighbours.Reachable
    ∧ mixedRequests.filter (neighbours.Concerns ⟨0⟩) = [
      .bindMethod ⟨0⟩ "area" "Shape.area", .addField ⟨2⟩ "@radius", .allocate ⟨0⟩ "puts",
      .addField ⟨0⟩ "@late", .bindMethod ⟨2⟩ "grow" "Circle.grow"]
    ∧ ((neighbours.log mixedRequests).filter fun e => neighbours.Concerns ⟨0⟩ e.1)
      = neighbours.log (mixedRequests.filter (neighbours.Concerns ⟨0⟩))
    ∧ ∃ view, (neighbours.run mixedRequests).1.view? ⟨2⟩ = some view
      ∧ (neighbours.run (mixedRequests.filter (neighbours.Concerns ⟨0⟩))).1.view? ⟨2⟩
        = some view := by
  have hreachable : neighbours.Reachable := Reachable.empty.run _
  have hroot : neighbours.parent? ⟨0⟩ = none := by decide +kernel
  have hcircle : neighbours.root ⟨2⟩ = ⟨0⟩ := by decide +kernel
  have hexists : (neighbours.classAt? ⟨0⟩).isSome := by decide +kernel
  obtain ⟨top, found⟩ := Option.isSome_iff_exists.mp hexists
  have hfills : ∀ request ∈ mixedRequests, request.Fills := by
    simp only [mixedRequests, List.forall_mem_cons, List.not_mem_nil, false_imp_iff, implies_true,
      and_true]
    exact ⟨.addMethod _ _, .bindMethod _ _ _, .allocate _ _, .addField _ _, .addField _ _,
      .allocate _ _, .register _ _, .addMethod _ _, .addField _ _, .bindMethod _ _ _⟩
  obtain ⟨hlog, hviews⟩ :=
    unaffected_by_other_hierarchies hreachable found hroot mixedRequests hfills
  exact ⟨hreachable, by decide +kernel, hlog, hviews ⟨2⟩ hcircle⟩

end World

end ScopeLayout
