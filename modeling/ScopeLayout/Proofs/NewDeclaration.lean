import ScopeLayout.Proofs.DeclarationLog
import ScopeLayout.Proofs.LateBinding
import ScopeLayout.Proofs.MergedTable

/-!
# `ScopeLayout.Proofs.NewDeclaration`: what the declaration of a new class does

A declaration of a new name works in four places. It makes a class, it counts at the
class that is extended, it lists the class under its name, and it registers the name at
the module level. Slots and places that were handed out before must not notice it.

What it does is said place by place:

* `World.AddsClass`: among the classes and numberings.
* `World.Enters`: among the lists of declarations and the module levels.
* `World.StartsHierarchy` and `World.ExtendsListed`: what the new class is like, without
  a superclass and with one.

What it leaves alone is said as it is seen from outside, `World.Undisturbed`. The rules of
`AddsClass` carry this: the class that is extended counts one more and changes in nothing
else, so every lineage has the classes and the methods that it had.

`new_name_makes_one_class` puts this together, with the one refusal that there is. The
size of a new root is a sum of machine words, and `not_size_of_new_class_object` is a
declaration for which it wraps around.
-/

set_option autoImplicit false

namespace ScopeLayout

namespace World

variable {w w' : World}

/-! ### One more class -/

/-- Among classes and numberings, the class `c` comes to be and extends `parent?`.

- `fresh`: no class had this identity.
- `classes`: the class that is extended counts one more, and all classes are otherwise as they
  were.
- `others`: no other class comes to be.
- `numberings`: the numberings that exist are as they were. -/
structure AddsClass (w w' : World) (c : ClassId) (parent? : Option ClassId) : Prop where
  fresh : w.classAt? c = none
  classes : ∀ d body, w.classAt? d = some body → w'.classAt? d
    = some (if parent? = some d then body.extend else body)
  others : ∀ d, d ≠ c → w.classAt? d = none → w'.classAt? d = none
  numberings : ∀ n numbering, w.numberingAt? n = some numbering →
    w'.numberingAt? n = some numbering

/-- The class that is made next was not there before. -/
theorem classAt?_next (w : World) : w.classAt? ⟨w.classes.size⟩ = none :=
  Store.at?_eq_none_iff.mpr (Nat.le_refl _)

/-- Neither was the numbering that is made next. -/
theorem numberingAt?_next (w : World) : w.numberingAt? ⟨w.numberings.size⟩ = none :=
  Store.at?_eq_none_iff.mpr (Nat.le_refl _)

/-- A class that extends nothing is one more class. -/
theorem addsClass_withRoot (w : World) (name : String) (g : GlobalsId) (settings : Settings) :
    w.AddsClass (w.withRoot name g settings) ⟨w.classes.size⟩ none where
  fresh := w.classAt?_next
  classes d body found := by
    rw [classAt?_withRoot, if_neg (Store.index_ne_size found), found]
    rfl
  others d hd absent := by
    have hindex : d.index ≠ w.classes.size := fun h => hd (congrArg Identity.mk h)
    rw [classAt?_withRoot, if_neg hindex, absent]
  numberings n numbering found := by
    rw [numberingAt?_withRoot, if_neg (Store.index_ne_size found), found]

/-- So is a class that extends another. -/
theorem addsClass_withChild (w : World) (name : String) (p : ClassId) (parent : ClassBody) :
    w.AddsClass (w.withChild name p parent) ⟨w.classes.size⟩ (some p) where
  fresh := w.classAt?_next
  classes d body found := by
    rw [classAt?_withChild, if_neg (Store.index_ne_size found), found]
    by_cases hd : d = p
    · rw [if_pos hd, if_pos (congrArg some hd.symm)]
      rfl
    · have hother : some p ≠ some d := fun h => hd (Option.some.inj h).symm
      rw [if_neg hd, if_neg hother]
  others d hd absent := by
    have hindex : d.index ≠ w.classes.size := fun h => hd (congrArg Identity.mk h)
    rw [classAt?_withChild, if_neg hindex, absent]
    simp
  numberings n numbering found := found

namespace AddsClass

variable {c : ClassId} {parent? : Option ClassId}

/-- To enter a class under its name touches no class and no numbering. -/
theorem enter (h : w.AddsClass w' c parent?) (t : DeclarationsId) (g : GlobalsId) (name : String) :
    w.AddsClass (w'.enter t g name c) c parent? :=
  ⟨h.fresh, h.classes, h.others, h.numberings⟩

/-- A class that exists keeps all but the count of the classes that extend it. -/
theorem class_kept (h : w.AddsClass w' c parent?) {d : ClassId} {body : ClassBody}
    (found : w.classAt? d = some body) :
    ∃ count, w'.classAt? d = some { body with subclasses := count } := by
  have hlook := h.classes d body found
  split at hlook
  · exact ⟨body.subclasses + 1, hlook⟩
  · exact ⟨body.subclasses, hlook⟩

/-- It extends the class that it extended. -/
theorem parent?_eq (h : w.AddsClass w' c parent?) {d : ClassId} {body : ClassBody}
    (found : w.classAt? d = some body) : w'.parent? d = w.parent? d := by
  obtain ⟨count, found'⟩ := h.class_kept found
  simp [World.parent?, found, found']

/-- It defines the methods that it defined. -/
theorem ownMethods_eq (h : w.AddsClass w' c parent?) {d : ClassId} {body : ClassBody}
    (found : w.classAt? d = some body) : w'.ownMethods d = w.ownMethods d := by
  obtain ⟨count, found'⟩ := h.class_kept found
  simp [ownMethods, found, found']

/-- The class that is extended was there before, or there is none, so the new one is in no lineage
but its own. -/
theorem lineage_eq (h : w.AddsClass w' c parent?) (grounded : w.Grounded) {d : ClassId} :
    ∀ {body}, w.classAt? d = some body → w'.lineage d = w.lineage d := by
  induction d using grounded.lineage_induction with
  | root d hp =>
    intro body found
    rw [lineage_of_root hp, lineage_of_root ((h.parent?_eq found).trans hp)]
  | child d p hp ih =>
    intro body found
    obtain ⟨body', found', hparent⟩ := parent?_eq_some.mp hp
    obtain ⟨hearlier, parent, hfound, -⟩ := grounded.parent found' hparent
    rw [lineage_of_child hp hearlier, lineage_of_child ((h.parent?_eq found).trans hp) hearlier,
      ih hfound]

/-- A lineage has the methods that it had. -/
theorem map_ownMethods_lineage (h : w.AddsClass w' c parent?) (grounded : w.Grounded)
    {d : ClassId} {body : ClassBody} (found : w.classAt? d = some body) :
    (w'.lineage d).map w'.ownMethods = (w.lineage d).map w.ownMethods := by
  rw [h.lineage_eq grounded found]
  refine List.map_congr_left ?_
  intro a ha
  obtain ⟨ancestor, hancestor, -⟩ := grounded.of_mem_lineage found a ha
  exact h.ownMethods_eq hancestor

/-- The class that it extends is called as before. -/
theorem superclassName?_eq (h : w.AddsClass w' c parent?) (grounded : w.Grounded) {d : ClassId}
    {body : ClassBody} (found : w.classAt? d = some body) :
    w'.superclassName? d = w.superclassName? d := by
  rw [superclassName?, superclassName?, h.parent?_eq found]
  cases hp : w.parent? d with
  | none => rfl
  | some p =>
    obtain ⟨body', found', hparent⟩ := parent?_eq_some.mp hp
    obtain ⟨-, parent, hfound, -⟩ := grounded.parent found' hparent
    obtain ⟨count, hfound'⟩ := h.class_kept hfound
    simp [hfound, hfound']

/-- A class that exists is seen as before, and as extended if it is the one that is. -/
theorem view?_eq (h : w.AddsClass w' c parent?) (grounded : w.Grounded) {d : ClassId}
    {view : ClassView} (seen : w.view? d = some view) : w'.view? d
      = some (if parent? = some d then { view with extended := true } else view) := by
  cases found : w.classAt? d with
  | none => simp [view?, found] at seen
  | some body =>
    obtain ⟨-, numbering, -, numbered, -⟩ := grounded.home found
    have htable := dispatchTable_congr (h.map_ownMethods_lineage grounded found)
    obtain rfl := Option.some.inj ((view?_of_found found numbered).symm.trans seen)
    have hlook := h.classes d body found
    have numbered' := h.numberings _ _ numbered
    -- Whether the class is the one that is extended or not, all else of the view was kept.
    split at hlook
    · rename_i hparent
      rw [if_pos hparent, view?_of_found hlook numbered', htable,
        h.superclassName?_eq grounded found, ClassBody.extended_extend]
      rfl
    · rename_i hother
      rw [if_neg hother, view?_of_found hlook numbered', htable,
        h.superclassName?_eq grounded found]

end AddsClass

/-! ### A class that defines nothing yet -/

/-- A class that extends another and defines nothing has the table of that class. Sorting it again
changes nothing. -/
theorem Grounded.dispatchTable_of_bare (grounded : w.Grounded) {c p : ClassId}
    (hp : w.parent? c = some p) (bare : w.ownMethods c = .empty) :
    w.dispatchTable c = w.dispatchTable p := by
  have hlaid : w.dispatchTable c = overlay (w.dispatchTable p) [] := by
    rw [grounded.dispatchTable_eq c, inherited, hp, bare]
    rfl
  have hput : (Registry.empty.putAll Method.name (w.dispatchTable p)).values = w.dispatchTable p :=
    Registry.values_putAll (w.nodup_names_dispatchTable p)
  calc w.dispatchTable c
      = (Registry.empty.putAll Method.name (w.dispatchTable p)).values.mergeSort
          fun a b => decide (a.slot ≤ b.slot) := hlaid
    _ = (w.dispatchTable p).mergeSort fun a b => decide (a.slot ≤ b.slot) := by rw [hput]
    _ = w.dispatchTable p := mergeSort_eq_self (w.sorted_dispatchTable p)

/-- It finds the methods that that class finds. -/
theorem Grounded.method?_of_bare (grounded : w.Grounded) {c p : ClassId}
    (hp : w.parent? c = some p) (bare : w.ownMethods c = .empty) (method : String) :
    w.method? c method = w.method? p method := by
  rw [method?, grounded.lineage_parent hp, List.findSome?_cons, bare]
  rfl

/-! ### A class that extends nothing -/

/-- The new class `c` starts a hierarchy.

- `root`: it extends nothing.
- `numbered`: it has a numbering of its own, which was not there before and starts out fresh.
- `seen`: it has the hidden field and no method, and its class object has the size of the header
  and the three places behind it, added as machine words.
- `size`: as a number, the size is this sum exactly if the sum is a word. -/
structure StartsHierarchy (w w' : World) (settings : Settings) (name : String) (c : ClassId) :
    Prop where
  root : w'.parent? c = none
  numbered : ∃ body, w'.classAt? c = some body ∧ w.numberingAt? body.numbering = none
    ∧ w'.numberingAt? body.numbering = some (.fresh settings)
  seen : w'.view? c = some {
    name := name
    superclass? := none
    fields := [selfField]
    extended := false
    dispatch := []
    size := settings.headerSlots + 3 }
  size : ∀ view, w'.view? c = some view →
    (view.size.toNat = settings.headerSlots.toNat + 3 ↔
      settings.headerSlots.toNat + 3 < UInt64.size)

/-- The sum of two words is that of their numbers exactly if that is a word. -/
theorem toNat_add_eq_iff (a b : UInt64) :
    (a + b).toNat = a.toNat + b.toNat ↔ a.toNat + b.toNat < UInt64.size := by
  constructor
  · intro h
    rw [← h]
    exact (a + b).toNat_lt_size
  · intro h
    rw [UInt64.toNat_add]
    exact Nat.mod_eq_of_lt h

/-- A class that was made without a class to extend, with a new numbering, starts a hierarchy. -/
theorem startsHierarchy_of_made {name : String} {g : GlobalsId} {settings : Settings} {c : ClassId}
    {n : NumberingId} (made : w'.classAt? c = some (.root name g n))
    (unnumbered : w.numberingAt? n = none) (numbered : w'.numberingAt? n = some (.fresh settings)) :
    w.StartsHierarchy w' settings name c := by
  have hp : w'.parent? c = none := by
    rw [parent?, made]
    rfl
  have htable : w'.dispatchTable c = [] := by
    rw [dispatchTable, lineage_of_root hp, List.foldr_cons, ownMethods, made]
    exact List.mergeSort_nil
  have hseen : w'.view? c = some {
      name := name
      superclass? := none
      fields := [selfField]
      extended := false
      dispatch := []
      size := settings.headerSlots + 3 } := by
    rw [view?_of_found made numbered, htable, superclassName?, hp]
    rfl
  refine ⟨hp, ⟨_, made, unnumbered, numbered⟩, hseen, ?_⟩
  intro view found
  obtain rfl := Option.some.inj (hseen.symm.trans found)
  exact toNat_add_eq_iff settings.headerSlots 3

/-! ### A class that extends another -/

/-- The new class `c` extends the class `p`.

- `parent`: it extends just this class.
- `shared`: it has the numbering of `p`.
- `seen`: it looks as `p` did before, but for its own name and superclass, and not extended.
  So it has the same fields, the same methods, slots and code, and a class object of the same size.
- `methods`: it finds each method that `p` finds. -/
structure ExtendsListed (w w' : World) (name : String) (c p : ClassId) : Prop where
  parent : w'.parent? c = some p
  shared : ∃ body parent, w'.classAt? c = some body ∧ w.classAt? p = some parent
    ∧ body.numbering = parent.numbering
  seen : ∃ view, w.view? p = some view ∧ w'.view? c
    = some { view with name := name, superclass? := some view.name, extended := false }
  methods : ∀ method, w'.method? c method = w.method? p method

/-- A class that was made to extend another and has no method looks as that one does. -/
theorem AddsClass.extendsListed {c p : ClassId} (h : w.AddsClass w' c (some p))
    (grounded : w.Grounded) (grounded' : w'.Grounded) {name : String} {parent : ClassBody}
    (found : w.classAt? p = some parent) (made : w'.classAt? c = some (.child name p parent)) :
    w.ExtendsListed w' name c p := by
  have hp : w'.parent? c = some p := by
    rw [World.parent?, made]
    rfl
  have hbare : w'.ownMethods c = .empty := by
    rw [ownMethods, made]
    rfl
  have hmap := h.map_ownMethods_lineage grounded found
  -- The table is that of the parent, first in the new world and then, as nothing was defined, in
  -- the old one.
  have htable : w'.dispatchTable c = w.dispatchTable p :=
    (grounded'.dispatchTable_of_bare hp hbare).trans (dispatchTable_congr hmap)
  have hsuperclass : w'.superclassName? c = some parent.name := by
    obtain ⟨count, found'⟩ := h.class_kept found
    rw [superclassName?, hp, Option.bind_some, found']
    rfl
  obtain ⟨-, numbering, -, numbered, -⟩ := grounded.home found
  have numbered' := h.numberings _ _ numbered
  refine ⟨hp, ⟨_, parent, made, found, rfl⟩, ?_, ?_⟩
  · refine ⟨_, view?_of_found found numbered, ?_⟩
    rw [view?_of_found made numbered', hsuperclass, htable]
    rfl
  · intro method
    rw [grounded'.method?_of_bare hp hbare, method?_congr hmap]

/-! ### The name -/

/-- The class `c` is entered under a name in the list `t`.

- `made`: the class has this name, at the module level of the list.
- `listed`: the list has its classes and then the new one.
- `lists`: all other lists are as they were.
- `registered`: the module level has its names and then the new one, if it did not know it.
- `levels`: all other module levels are as they were. -/
structure Enters (w w' : World) (t : DeclarationsId) (declarations : Declarations)
    (globals : Globals) (name : String) (c : ClassId) : Prop where
  made : ∃ body, w'.classAt? c = some body ∧ body.name = name
    ∧ body.globals = declarations.globals
  listed : ∃ classes, w'.declarationsAt? t = some { declarations with classes }
    ∧ classes.rows = declarations.classes.rows ++ [(name, c)]
  lists : ∀ t', t' ≠ t → w'.declarationsAt? t' = w.declarationsAt? t'
  registered : ∃ names, w'.globalsAt? declarations.globals = some { globals with names }
    ∧ names.names = if name ∈ globals.names.names then globals.names.names
      else globals.names.names ++ [name]
  levels : ∀ g, g ≠ declarations.globals → w'.globalsAt? g = w.globalsAt? g

/-- To make a class touches no list and no module level, so entering it has all to do with them. -/
theorem enters_of_made {made : World} {t : DeclarationsId} {declarations : Declarations}
    (found : w.declarationsAt? t = some declarations) {name : String}
    (new : declarations.classes.find? name = none) {globals : Globals}
    (home : w.globalsAt? declarations.globals = some globals) {c : ClassId} {body : ClassBody}
    (hclass : made.classAt? c = some body) (hname : body.name = name)
    (hglobals : body.globals = declarations.globals)
    (hlists : ∀ t, made.declarationsAt? t = w.declarationsAt? t)
    (hlevels : ∀ g, made.globalsAt? g = w.globalsAt? g) :
    w.Enters (made.enter t declarations.globals name c) t declarations globals name c := by
  have hlist := made.declarationsAt?_enter t declarations.globals name c
  have hlevel := made.globalsAt?_enter t declarations.globals name c
  simp only [hlists] at hlist
  simp only [hlevels] at hlevel
  refine ⟨⟨body, hclass, hname, hglobals⟩, ⟨declarations.classes.add name c, ?_,
    Registry.rows_add new c⟩, ?_, ⟨globals.names.insert name, ?_, ?_⟩, ?_⟩
  · rw [hlist, if_pos rfl, found, Option.map_some]
  · intro t' ht
    rw [hlist, if_neg ht]
  · rw [hlevel, if_pos rfl, home]
    rfl
  · rw [Roster.names_insert]
    rfl
  · intro g hg
    rw [hlevel, if_neg hg]

/-! ### What stays as it was -/

/-- Nothing else is seen of the declaration of a name at the module level `g`.

- `lineages`, `methods`, `fields`, `classVars`: the classes that exist have the ancestors, and find
  the methods, places and keys, that they had.
- `views`: they look as before, and the one that is extended shows it.
- `resolutions`: names denote what they did. Only the name itself, where it went out to the module
  level and was taken for a method call, denotes the new global. -/
structure Undisturbed (w w' : World) (g : GlobalsId) (name : String) (parent? : Option ClassId) :
    Prop where
  lineages : ∀ d body, w.classAt? d = some body → w'.lineage d = w.lineage d
  methods : ∀ d body, w.classAt? d = some body → ∀ method, w'.method? d method = w.method? d method
  fields : ∀ d body, w.classAt? d = some body → ∀ field,
    w'.fieldIndex? d field = w.fieldIndex? d field
  classVars : ∀ d body, w.classAt? d = some body → ∀ bare,
    w'.classVarKey? d bare = w.classVarKey? d bare
  views : ∀ d view, w.view? d = some view → w'.view? d
    = some (if parent? = some d then { view with extended := true } else view)
  resolutions : ∀ s : Scope, w.Hosts s.outermost → ∀ other, w'.resolve s other
    = if other = name ∧ w.moduleAt? s.outermost = some g ∧ w.resolve s other = .methodCall other
      then .global other else w.resolve s other

/-- A declaration turns the answer for its own name and no other. -/
theorem Outcome.resolve_of_declared {t : DeclarationsId} {declarations : Declarations}
    {name : String} {superclass? : Option String} {c : ClassId}
    (outcome : w.Outcome (.declare t name superclass?) (w', .classBody c)) (grounded : w.Grounded)
    (found : w.declarationsAt? t = some declarations)
    (new : declarations.classes.find? name = none) {s : Scope} (hosted : w.Hosts s.outermost)
    (other : String) : w'.resolve s other
      = if other = name ∧ w.moduleAt? s.outermost = some declarations.globals
          ∧ w.resolve s other = .methodCall other
        then .global other else w.resolve s other := by
  obtain ⟨hturned, hkept⟩ := outcome.follows_resolve grounded s hosted other
  split
  · rename_i h
    obtain ⟨rfl, leads, hcall⟩ := h
    refine hturned _ ?_
    rw [hcall]
    exact .registered leads ⟨rfl, declarations, found, rfl, new⟩
  · rename_i h
    refine hkept ?_
    intro r turns
    generalize hbefore : w.resolve s other = before at turns h
    cases turns with
    | registered leads registers =>
      obtain ⟨rfl, declarations', found', rfl, -⟩ := registers
      obtain rfl : declarations = declarations' := Option.some.inj (found.symm.trans found')
      exact h ⟨rfl, leads, rfl⟩
    | placed _ _ added _ _ => simp at added

/-- One more class disturbs nothing but the name that it is declared under. -/
theorem AddsClass.undisturbed {c : ClassId} {parent? : Option ClassId}
    (h : w.AddsClass w' c parent?) (grounded : w.Grounded) {t : DeclarationsId}
    {declarations : Declarations} {name : String} {superclass? : Option String}
    (found : w.declarationsAt? t = some declarations)
    (new : declarations.classes.find? name = none)
    (outcome : w.Outcome (.declare t name superclass?) (w', .classBody c)) :
    w.Undisturbed w' declarations.globals name parent? where
  lineages d body hbody := h.lineage_eq grounded hbody
  methods d body hbody := method?_congr (h.map_ownMethods_lineage grounded hbody)
  fields d body hbody field := by
    obtain ⟨count, hbody'⟩ := h.class_kept hbody
    rw [fieldIndex?_of_found hbody, fieldIndex?_of_found hbody']
  classVars d body hbody bare := by
    obtain ⟨key, hkey, hkey'⟩ := outcome.classVarKey?_eq grounded hbody bare
    exact hkey'.trans hkey.symm
  views d view seen := h.view?_eq grounded seen
  resolutions s hosted other := outcome.resolve_of_declared grounded found new hosted other

/-! ### The three answers -/

section

variable {t : DeclarationsId} {declarations : Declarations} {name : String}

/-- With a superclass that the list does not know, the declaration is refused. -/
theorem serve_declare_undeclared (found : w.declarationsAt? t = some declarations)
    (new : declarations.classes.find? name = none) {superclass : String}
    (missing : declarations.classes.find? superclass = none) :
    w.serve (.declare t name (some superclass)) = (w, .refused (.undeclaredClass superclass)) := by
  simp only [serve, declare, found, new, missing]

/-- Without a superclass, a class that extends nothing is made and entered. -/
theorem serve_declare_root (found : w.declarationsAt? t = some declarations)
    (new : declarations.classes.find? name = none) {globals : Globals}
    (home : w.globalsAt? declarations.globals = some globals) :
    w.serve (.declare t name none)
      = ((w.withRoot name declarations.globals globals.settings).enter t declarations.globals name
          ⟨w.classes.size⟩, .classBody ⟨w.classes.size⟩) := by
  simp only [serve, declare, found, new, makeRoot?_of_found home, answerEntered]

/-- With one that the list knows, a class that extends it is made and entered. -/
theorem serve_declare_child (found : w.declarationsAt? t = some declarations)
    (new : declarations.classes.find? name = none) {superclass : String} {p : ClassId}
    (listed : declarations.classes.find? superclass = some p) {parent : ClassBody}
    (made : w.classAt? p = some parent) :
    w.serve (.declare t name (some superclass))
      = ((w.withChild name p parent).enter t declarations.globals name ⟨w.classes.size⟩,
          .classBody ⟨w.classes.size⟩) := by
  simp only [serve, declare, found, new, listed, makeChild?_of_found made, answerEntered]

/-- So without a superclass, there is one more class, which starts a hierarchy. -/
theorem Reachable.declares_root (reachable : w.Reachable)
    (found : w.declarationsAt? t = some declarations)
    (new : declarations.classes.find? name = none) {globals : Globals}
    (home : w.globalsAt? declarations.globals = some globals) :
    ∃ w' c, w.serve (.declare t name none) = (w', .classBody c)
      ∧ w.AddsClass w' c none
      ∧ w.StartsHierarchy w' globals.settings name c
      ∧ w.Enters w' t declarations globals name c
      ∧ w.Undisturbed w' declarations.globals name none := by
  have hserve := serve_declare_root found new home
  have outcome := w.outcome_serve (.declare t name none)
  rw [hserve] at outcome
  have hadds := (w.addsClass_withRoot name declarations.globals globals.settings).enter t
    declarations.globals name
  have hmade := w.classAt?_withRoot name declarations.globals globals.settings ⟨w.classes.size⟩
  have hnumbered := w.numberingAt?_withRoot name declarations.globals globals.settings
    ⟨w.numberings.size⟩
  rw [if_pos rfl] at hmade hnumbered
  exact ⟨_, _, hserve, hadds, startsHierarchy_of_made hmade w.numberingAt?_next hnumbered,
    enters_of_made found new home hmade rfl rfl (fun _ => rfl) (fun _ => rfl),
    hadds.undisturbed reachable.built.grounded found new outcome⟩

/-- With one that the list knows, the class extends it. -/
theorem Reachable.declares_child (reachable : w.Reachable)
    (found : w.declarationsAt? t = some declarations)
    (new : declarations.classes.find? name = none) {globals : Globals}
    (home : w.globalsAt? declarations.globals = some globals) {superclass : String} {p : ClassId}
    (listed : declarations.classes.find? superclass = some p) :
    ∃ w' c, w.serve (.declare t name (some superclass)) = (w', .classBody c)
      ∧ w.AddsClass w' c (some p)
      ∧ w.ExtendsListed w' name c p
      ∧ w.Enters w' t declarations globals name c
      ∧ w.Undisturbed w' declarations.globals name (some p) := by
  have grounded := reachable.built.grounded
  have grounded' := (reachable.serve (.declare t name (some superclass))).built.grounded
  obtain ⟨parent, made, -, hglobals⟩ := reachable.built.class_of_listed found listed
  have hserve := serve_declare_child found new listed made
  have outcome := w.outcome_serve (.declare t name (some superclass))
  rw [hserve] at outcome grounded'
  have hadds := (w.addsClass_withChild name p parent).enter t declarations.globals name
  have hmade := w.classAt?_withChild name p parent ⟨w.classes.size⟩
  rw [if_pos rfl] at hmade
  exact ⟨_, _, hserve, hadds, hadds.extendsListed grounded grounded' made hmade,
    enters_of_made found new home hmade rfl hglobals (fun _ => rfl) (fun _ => rfl),
    hadds.undisturbed grounded found new outcome⟩

end

/-- The declaration of a name that a list does not know makes one class, and nothing else happens.

It is refused exactly if it names a superclass that the list does not know, such as the name itself.
Then the world stays as it is. Otherwise a class that was not there is entered under the name,
behind all classes of the list, and the name is a global of the module level. Without a superclass,
it starts a hierarchy with a numbering of its own. The size of its class object is then the sum of
the header and the three places behind it, which wraps around if it is not a word. With a
superclass, it extends the class that the list has under this name, shares its numbering and begins
with its fields and methods. Everything else is as it was, the class that is extended included,
which only takes no more fields. -/
theorem new_name_makes_one_class {w : World} (reachable : w.Reachable) {t : DeclarationsId}
    {declarations : Declarations} (found : w.declarationsAt? t = some declarations) {name : String}
    (new : declarations.classes.find? name = none) :
    (∀ superclass? w' refusal,
      w.serve (.declare t name superclass?) = (w', .refused refusal) ↔
        w' = w ∧ ∃ superclass, superclass? = some superclass
          ∧ declarations.classes.find? superclass = none
          ∧ refusal = .undeclaredClass superclass)
    ∧ ∃ globals, w.globalsAt? declarations.globals = some globals
      ∧ (∃ w' c, w.serve (.declare t name none) = (w', .classBody c)
        ∧ w.AddsClass w' c none
        ∧ w.StartsHierarchy w' globals.settings name c
        ∧ w.Enters w' t declarations globals name c
        ∧ w.Undisturbed w' declarations.globals name none)
      ∧ ∀ superclass p, declarations.classes.find? superclass = some p →
        ∃ w' c, w.serve (.declare t name (some superclass)) = (w', .classBody c)
          ∧ w.AddsClass w' c (some p)
          ∧ w.ExtendsListed w' name c p
          ∧ w.Enters w' t declarations globals name c
          ∧ w.Undisturbed w' declarations.globals name (some p) := by
  obtain ⟨globals, home, -⟩ := (reachable.built.ordered found).registered
  have hroot := reachable.declares_root found new home
  refine ⟨?_, globals, home, hroot,
    fun superclass p listed => reachable.declares_child found new home listed⟩
  intro superclass? w' refusal
  cases superclass? with
  | none =>
    obtain ⟨after, c, hserve, -⟩ := hroot
    rw [hserve]
    simp
  | some superclass =>
    cases listed : declarations.classes.find? superclass with
    | none =>
      rw [serve_declare_undeclared found new listed]
      simp [listed, eq_comm]
    | some p =>
      obtain ⟨after, c, hserve, -⟩ := reachable.declares_child found new home listed
      rw [hserve]
      simp [listed]

/-- Two lists at one module level. The first has a class with a field and a method, and the second
has declared a name that the first does not know. -/
def shapesInTwoLists : World := (World.empty.run [
  .openGlobals .standard, .openDeclarations ⟨0⟩, .openDeclarations ⟨0⟩,
  .declare ⟨0⟩ "Shape" none, .addField ⟨0⟩ "@origin", .bindMethod ⟨0⟩ "area" "Shape.area",
  .declare ⟨1⟩ "Circle" none]).1

/-- The name cannot be its own superclass. Declared with the other class, it has its field and its
method, and a name that was registered through the second list is not registered again. -/
theorem new_name_makes_one_class_shapesInTwoLists :
    shapesInTwoLists.Reachable
    ∧ shapesInTwoLists.serve (.declare ⟨0⟩ "Circle" (some "Circle"))
      = (shapesInTwoLists, .refused (.undeclaredClass "Circle"))
    ∧ ∃ w' c, shapesInTwoLists.serve (.declare ⟨0⟩ "Circle" (some "Shape")) = (w', .classBody c)
      ∧ (∃ view, w'.view? c = some view ∧ view.superclass? = some "Shape"
        ∧ view.fields = [selfField, "@origin"])
      ∧ w'.method? c "area"
        = some { name := "area", slot := 7, label? := some "Shape.area" }
      ∧ (∃ view, w'.view? ⟨0⟩ = some view ∧ view.extended = true)
      ∧ (∃ globals, w'.globalsAt? ⟨0⟩ = some globals
        ∧ globals.names.names = predefinedGlobals ++ ["Shape", "Circle"])
      ∧ w'.declared? ⟨1⟩ "Circle" = some ⟨1⟩ := by
  have hreachable : shapesInTwoLists.Reachable := Reachable.empty.run _
  have hfound : shapesInTwoLists.declarationsAt? ⟨0⟩
      = some { globals := ⟨0⟩, classes := { rows := [("Shape", ⟨0⟩)] } } := by decide +kernel
  have hhome : shapesInTwoLists.globalsAt? ⟨0⟩ = some { Globals.fresh .standard with
      names := { names := predefinedGlobals ++ ["Shape", "Circle"] } } := by decide +kernel
  have hother : shapesInTwoLists.declared? ⟨1⟩ "Circle" = some ⟨1⟩ := by decide +kernel
  have hshape : (shapesInTwoLists.view? ⟨0⟩).map (fun view => (view.name, view.fields))
      = some ("Shape", [selfField, "@origin"]) := by decide +kernel
  have hnew : ({ rows := [("Shape", ⟨0⟩)] } : Registry ClassId).find? "Circle" = none := by decide
  have hlisted : ({ rows := [("Shape", ⟨0⟩)] } : Registry ClassId).find? "Shape" = some ⟨0⟩ := by
    decide
  obtain ⟨hrefused, globals, home, -, hchild⟩ := new_name_makes_one_class hreachable hfound hnew
  obtain rfl := Option.some.inj (hhome.symm.trans home)
  obtain ⟨w', c, hserve, -, hextends, henters, hundisturbed⟩ := hchild "Shape" ⟨0⟩ hlisted
  obtain ⟨view, hparent, hseen⟩ := hextends.seen
  rw [hparent] at hshape
  obtain ⟨hname, hfields⟩ := Prod.mk.inj (Option.some.inj hshape)
  obtain ⟨names, hregistered, hnames⟩ := henters.registered
  refine ⟨hreachable, (hrefused _ _ _).mpr ⟨rfl, "Circle", rfl, hnew, rfl⟩, w', c, hserve,
    ⟨_, hseen, congrArg some hname, hfields⟩, ?_, ?_, ⟨_, hregistered, ?_⟩, ?_⟩
  · rw [hextends.methods]
    decide +kernel
  · exact ⟨_, hundisturbed.views ⟨0⟩ view hparent, rfl⟩
  · exact hnames.trans (by decide)
  · rw [declared?, henters.lists ⟨1⟩ (by decide)]
    exact hother

/-- The class object of a new class need not have room for the header and the three places behind
it. If the header ends at the last word, the size wraps around. -/
theorem not_size_of_new_class_object :
    ¬ ∀ (settings : Settings) (w w' : World) (c : ClassId) (view : ClassView),
      w = (World.empty.run [.openGlobals settings, .openDeclarations ⟨0⟩]).1 →
      w.serve (.declare ⟨0⟩ "A" none) = (w', .classBody c) → w'.view? c = some view →
      view.size.toNat = settings.headerSlots.toNat + 3 := by
  intro h
  have hsize := h { headerSlots := 18446744073709551615 } _ _ _ {
      name := "A"
      superclass? := none
      fields := [selfField]
      extended := false
      dispatch := []
      size := 2 } rfl rfl (by decide +kernel)
  exact absurd hsize (by decide)

end World

end ScopeLayout
