import ScopeLayout.Proofs.Declaring
import ScopeLayout.Proofs.Numbering

/-!
# `ScopeLayout.Proofs.DeclarationLog`: a list of declarations is its log

A program declares its classes one after the other, opens them again, and asks for
them by name. All this is in the log of the run. `declaredNames` picks out the names
that were declared in one list, each once, in the order of the first declaration that
was not refused. `namedClasses` picks out the classes that the list has answered
with, each with the name it was asked for.

`Enrolls` relates a world to its log: every list has exactly these names in this
order, and still has each class under the name that it has answered for. One more
request is one more entry (`Enrolls.serve`). What a request does to a list is said by
`Takes`, for lists that do not exist as well, since those list nothing.

`Ordered` is what the classes of one list have to do with each other and with the
module level of the list. It comes from the steps that the requests are made of
(`Built.ordered`), because any request may touch the classes of a list, also those
that know nothing of it.

`declarations_of_log` puts both together.
-/

set_option autoImplicit false

namespace ScopeLayout

namespace World

/-! ### Declarations in a log -/

/-- The name that an entry of a log declares in a list, for the first time or again. A request that
was refused declares nothing. -/
def declaredName? (t : DeclarationsId) : Request × Answer → Option String
  | (.declare t' name _, .classBody _) => if t' = t then some name else none
  | _ => none

/-- The class that an entry of a log answers with for a name of a list. It was declared or asked
for. -/
def namedClass? (t : DeclarationsId) : Request × Answer → Option (String × ClassId)
  | (.declare t' name _, .classBody c) => if t' = t then some (name, c) else none
  | (.declaredClass t' name, .classBody c) => if t' = t then some (name, c) else none
  | _ => none

/-- The names declared in a list, each once, in the order of the first declaration. -/
def declaredNames (log : List (Request × Answer)) (t : DeclarationsId) : List String :=
  (log.filterMap (declaredName? t)).eraseDups

/-- The classes that a list has answered with, each with the name it was asked for. -/
def namedClasses (log : List (Request × Answer)) (t : DeclarationsId) : List (String × ClassId) :=
  log.filterMap (namedClass? t)

/-- The classes of a list of declarations. A list that does not exist has none. -/
def listedClasses (w : World) (t : DeclarationsId) : Registry ClassId :=
  ((w.declarationsAt? t).map (·.classes)).getD .empty

/-- The classes of a list that exists. -/
theorem listedClasses_of_found {w : World} {t : DeclarationsId} {declarations : Declarations}
    (found : w.declarationsAt? t = some declarations) :
    w.listedClasses t = declarations.classes := by
  rw [listedClasses, found]
  rfl

/-- The class declared under a name is the one that the list has under it. -/
theorem declared?_eq (w : World) (t : DeclarationsId) (name : String) :
    w.declared? t name = (w.listedClasses t).find? name := by
  rw [declared?, listedClasses]
  cases w.declarationsAt? t <;> rfl

/-- A class that is answered with is listed. -/
theorem declaredClass_eq_classBody {w : World} {t : DeclarationsId} {name : String} {c : ClassId}
    (h : w.declaredClass t name = .classBody c) : (w.listedClasses t).find? name = some c := by
  rw [declaredClass] at h
  split at h
  · cases h
  · split at h
    · rename_i other declared
      obtain rfl := Answer.classBody.inj h
      rw [← declared?_eq]
      exact declared
    · cases h

/-! ### What a request does to a list -/

/-- What becomes of the classes of a list when the log gets one more entry. An entry that declares a
name adds its class, which changes nothing if the name is listed. It is listed with the same class
then. Any other entry leaves the list, and a class that it answers with is listed. -/
inductive Takes (t : DeclarationsId) (entry : Request × Answer) (classes : Registry ClassId) :
    Registry ClassId → Prop where
  | nothing (silent : declaredName? t entry = none)
      (listed : ∀ row, namedClass? t entry = some row → classes.find? row.1 = some row.2) :
      Takes t entry classes classes
  | declared {name : String} {c : ClassId} (declares : declaredName? t entry = some name)
      (answers : namedClass? t entry = some (name, c))
      (same : ∀ old, classes.find? name = some old → old = c) :
      Takes t entry classes (classes.add name c)

/-- An entry that says nothing of a list leaves it. -/
theorem takes_of_silent {t : DeclarationsId} {entry : Request × Answer}
    (classes : Registry ClassId) (h : namedClass? t entry = none)
    (h' : declaredName? t entry = none) : Takes t entry classes classes := by
  refine .nothing h' ?_
  intro row hrow
  exact nomatch h.symm.trans hrow

/-- To enter a class in one list leaves all others as they are. -/
theorem listedClasses_enter {w : World} {t : DeclarationsId} {declarations : Declarations}
    (found : w.declarationsAt? t = some declarations) (g : GlobalsId) (name : String) (c : ClassId)
    (t' : DeclarationsId) : (w.enter t g name c).listedClasses t' =
      if t = t' then (w.listedClasses t').add name c else w.listedClasses t' := by
  rw [listedClasses, listedClasses, declarationsAt?_enter]
  by_cases h : t = t'
  · subst h
    simp [found]
  · simp [h, Ne.symm h]

/-- A declaration of a new name enters the class that it answers with. -/
theorem takes_enter {w made : World} {t : DeclarationsId} {declarations : Declarations}
    {name : String} (found : made.declarationsAt? t = some declarations)
    (same : made.declarations = w.declarations) (new : declarations.classes.find? name = none)
    (superclass? : Option String) (g : GlobalsId) (c : ClassId) (t' : DeclarationsId) :
    Takes t' (.declare t name superclass?, .classBody c) (w.listedClasses t')
      ((made.enter t g name c).listedClasses t') := by
  have hlisted : ∀ t, made.listedClasses t = w.listedClasses t := by
    intro t
    rw [listedClasses, listedClasses, declarationsAt?, declarationsAt?, same]
  rw [listedClasses_enter found, ← hlisted]
  by_cases h : t = t'
  · subst h
    rw [if_pos rfl]
    refine .declared (if_pos rfl) (if_pos rfl) ?_
    intro old hold
    simp [listedClasses_of_found found, new] at hold
  · rw [if_neg h]
    exact takes_of_silent _ (if_neg h) (if_neg h)

/-- Every outcome does to each list what its entry says. -/
theorem Outcome.takes {w : World} {request : Request} {result : World × Answer}
    (outcome : w.Outcome request result) (t : DeclarationsId) :
    Takes t (request, result.2) (w.listedClasses t) (result.1.listedClasses t) := by
  cases outcome with
  | dangling _ => cases request <;> exact takes_of_silent _ rfl rfl
  | declaredClass t' name =>
    refine .nothing rfl ?_
    intro row hrow
    generalize hanswer : w.declaredClass t' name = answer at hrow
    cases answer with
    | classBody c =>
      obtain ⟨rfl, rfl⟩ : t' = t ∧ (name, c) = row := by simpa [namedClass?] using hrow
      exact declaredClass_eq_classBody hanswer
    | _ => exact nomatch hrow
  | @reopened t' declarations name c superclass? found listed _ =>
    by_cases h : t' = t
    · subst h
      have hlisted : (w.listedClasses t').find? name = some c := by
        rw [listedClasses_of_found found]
        exact listed
      have hsame := Registry.add_of_find? hlisted c
      have htakes : Takes t' (.declare t' name superclass?, .classBody c) (w.listedClasses t')
          ((w.listedClasses t').add name c) := by
        refine .declared (if_pos rfl) (if_pos rfl) ?_
        intro old hold
        exact Option.some.inj (hold.symm.trans hlisted)
      rw [hsame] at htakes
      exact htakes
    · exact takes_of_silent _ (if_neg h) (if_neg h)
  | @openedDeclarations g globals _ =>
    have hsame : (w.makeDeclarations { globals := g, classes := .empty }).1.listedClasses t
        = w.listedClasses t := by
      rw [listedClasses, listedClasses, declarationsAt?_makeDeclarations]
      split
      · -- The list was not there before, and it is empty.
        rename_i hlast
        have habsent : w.declarationsAt? t = none :=
          Store.at?_eq_none_iff.mpr (Nat.le_of_eq hlast.symm)
        rw [habsent]
        rfl
      · rfl
    rw [hsame]
    exact takes_of_silent _ rfl rfl
  | @declaredRoot t' declarations globals name found new _ =>
    have found' : (w.withRoot name declarations.globals globals.settings).declarationsAt? t'
        = some declarations := found
    exact takes_enter found' rfl new none _ _ t
  | @declaredChild t' declarations name superclass parent body found new _ _ =>
    have found' : (w.withChild name parent body).declarationsAt? t' = some declarations := found
    exact takes_enter found' rfl new (some superclass) _ _ t
  | bound label defined =>
    cases defined with
    | dangling _ => exact takes_of_silent _ rfl rfl
    | defined _ _ _ => exact takes_of_silent _ rfl rfl
  | _ => exact takes_of_silent _ rfl rfl

/-! ### Lists and their log along a run -/

/-- Each list has the names that the log declares in it, and under each name the class that it has
answered with. -/
structure Enrolls (w : World) (log : List (Request × Answer)) : Prop where
  names : ∀ t, (w.listedClasses t).names = declaredNames log t
  classes : ∀ t, ∀ row ∈ namedClasses log t, (w.listedClasses t).find? row.1 = some row.2

namespace Enrolls

variable {w : World} {log : List (Request × Answer)}

/-- The empty world enrolls the empty log. -/
theorem empty : Enrolls .empty [] where
  names _ := rfl
  classes _ _ hrow := nomatch hrow

/-- One more request is one more entry. -/
theorem serve (h : w.Enrolls log) (request : Request) :
    (w.serve request).1.Enrolls (log ++ [(request, (w.serve request).2)]) := by
  have htakes := (w.outcome_serve request).takes
  generalize w.serve request = result at htakes ⊢
  refine ⟨?_, ?_⟩
  · intro t
    have htake := htakes t
    rw [declaredNames, List.filterMap_append, List.filterMap_cons, List.filterMap_nil]
    generalize result.1.listedClasses t = classes at htake ⊢
    cases htake with
    | nothing silent _ =>
      rw [silent, h.names]
      simp [declaredNames]
    | @declared name _ declares _ _ =>
      rw [declares, Registry.names_add, h.names, eraseDups_concat]
      by_cases hknown : name ∈ log.filterMap (declaredName? t) <;> simp [declaredNames, hknown]
  · intro t row hrow
    have htake := htakes t
    rw [namedClasses, List.filterMap_append, List.mem_append, List.filterMap_cons,
      List.filterMap_nil] at hrow
    generalize result.1.listedClasses t = classes at htake ⊢
    cases htake with
    | nothing _ listed =>
      rcases hrow with hold | hnew
      · exact h.classes t row hold
      · cases hanswer : namedClass? t (request, result.2) with
        | none => simp [hanswer] at hnew
        | some answered =>
          obtain rfl : row = answered := by simpa [hanswer] using hnew
          exact listed row hanswer
    | @declared name c _ answers same =>
      rw [Registry.find?_add]
      rcases hrow with hold | hnew
      · rw [h.classes t row hold, Option.some_or]
      · obtain rfl : row = (name, c) := by simpa [answers] using hnew
        -- If the name was listed, then with this class.
        cases hold : (w.listedClasses t).find? name with
        | none => simp
        | some old => simp [same old hold]

/-- So does a run, with its own log behind the one before. -/
theorem run (h : w.Enrolls log) (requests : List Request) :
    (w.run requests).1.Enrolls (log ++ w.log requests) := by
  induction requests generalizing w log with
  | nil =>
    show w.Enrolls (log ++ [])
    rw [List.append_nil]
    exact h
  | cons request requests ih =>
    have hserved := ih (h.serve request)
    rw [List.append_assoc] at hserved
    exact hserved

end Enrolls

/-! ### The classes of one list -/

/-- What holds of the classes of a list in a world:

- `registered`: the names are globals of the module level that the list belongs to;
- `made`: the classes exist;
- `parents`: a class that extends another is listed behind it. -/
structure Ordered (w : World) (declarations : Declarations) : Prop where
  registered : ∃ globals, w.globalsAt? declarations.globals = some globals
    ∧ ∀ name ∈ declarations.classes.names, name ∈ globals.names
  made : ∀ row ∈ declarations.classes.rows, ∃ body, w.classAt? row.2 = some body
  parents : ∀ (i : Nat) (name : String) (c p : ClassId),
    declarations.classes.rows[i]? = some (name, c) → w.parent? c = some p →
      ∃ (j : Nat) (superclass : String), j < i
        ∧ declarations.classes.rows[j]? = some (superclass, p)

namespace Step

variable {w w' : World}

/-- A class that exists keeps its parent. -/
theorem parent?_eq (step : w.Step w') {c : ClassId} {body : ClassBody}
    (found : w.classAt? c = some body) : w'.parent? c = w.parent? c := by
  obtain ⟨body', found', grows⟩ := step.class_grows found
  simp [parent?, found, found', grows.parent_eq]

/-- Globals stay registered. -/
theorem registered_kept (step : w.Step w') {g : GlobalsId} {names : List String}
    (h : ∃ globals, w.globalsAt? g = some globals ∧ ∀ name ∈ names, name ∈ globals.names) :
    ∃ globals, w'.globalsAt? g = some globals ∧ ∀ name ∈ names, name ∈ globals.names := by
  obtain ⟨globals, found, hnames⟩ := h
  rcases step.globals_grow found with found' | ⟨key, found'⟩
  · exact ⟨globals, found', hnames⟩
  · refine ⟨_, found', ?_⟩
    intro name hname
    simp [Globals.register, hnames name hname]

end Step

namespace Ordered

variable {w w' : World} {declarations declarations' : Declarations}

/-- A list without classes is ordered, if its module level exists. -/
theorem empty (hempty : declarations.classes = .empty)
    (home : ∃ globals, w.globalsAt? declarations.globals = some globals) :
    w.Ordered declarations where
  registered := by
    obtain ⟨globals, home⟩ := home
    exact ⟨globals, home, by simp [hempty, Registry.names, Registry.empty]⟩
  made := by simp [hempty, Registry.empty]
  parents := by simp [hempty, Registry.empty]

/-- The classes of a list stay ordered whatever happens to them. -/
theorem step (h : w.Ordered declarations) (step : w.Step w') : w'.Ordered declarations where
  registered := step.registered_kept h.registered
  made row hrow := by
    obtain ⟨body, hbody⟩ := h.made row hrow
    obtain ⟨body', hbody', -⟩ := step.class_grows hbody
    exact ⟨body', hbody'⟩
  parents i name c p hrow hp := by
    obtain ⟨body, hbody⟩ := h.made (name, c) (List.mem_of_getElem? hrow)
    rw [step.parent?_eq hbody] at hp
    exact h.parents i name c p hrow hp

/-- A list stays ordered when a class is entered. -/
theorem grow (h : w.Ordered declarations) (grows : declarations.Grows w declarations') :
    w.Ordered declarations' := by
  cases grows with
  | same => exact h
  | @enter c body made new registered root child =>
    have hrows := Registry.rows_add new c
    refine ⟨?_, ?_, ?_⟩
    · obtain ⟨globals, home, hnames⟩ := h.registered
      refine ⟨globals, home, ?_⟩
      intro name hname
      rw [Registry.names, hrows, List.map_append, List.mem_append] at hname
      rcases hname with hold | hlast
      · exact hnames name hold
      · obtain rfl : name = body.name := by simpa using hlast
        exact registered globals home
    · intro row hrow
      rw [hrows, List.mem_append, List.mem_singleton] at hrow
      rcases hrow with hold | rfl
      · exact h.made row hold
      · exact ⟨body, made⟩
    · intro i name c' p hrow hp
      simp only [hrows] at hrow ⊢
      have hkept : ∀ {j : Nat} {row : String × ClassId},
          declarations.classes.rows[j]? = some row →
            (declarations.classes.rows ++ [(body.name, c)])[j]? = some row := by
        intro j row hj
        rw [List.getElem?_append_left (List.getElem?_eq_some_iff.mp hj).1]
        exact hj
      rcases Nat.lt_or_ge i declarations.classes.rows.length with hlt | hge
      · rw [List.getElem?_append_left hlt] at hrow
        obtain ⟨j, superclass, hji, hj⟩ := h.parents i name c' p hrow hp
        exact ⟨j, superclass, hji, hkept hj⟩
      · -- The last row is that of the class that is entered, and its parent is listed already.
        rw [List.getElem?_append_right hge] at hrow
        obtain ⟨rfl, rfl⟩ : name = body.name ∧ c' = c := by
          simpa using List.mem_of_getElem? hrow
        have hparent : body.parent? = some p := by simpa [parent?, made] using hp
        obtain ⟨superclass, parent, hlisted, -, -⟩ := child p hparent
        have hmem := (Registry.mem_rows_iff (superclass, p)).mpr hlisted
        obtain ⟨j, hj⟩ := List.mem_iff_getElem?.mp hmem
        have hjlt := (List.getElem?_eq_some_iff.mp hj).1
        exact ⟨j, superclass, Nat.lt_of_lt_of_le hjlt hge, hkept hj⟩

end Ordered

/-- In every world that comes about by steps, lists of declarations are ordered. -/
theorem Built.ordered {w : World} (built : w.Built) {t : DeclarationsId}
    {declarations : Declarations} (found : w.declarationsAt? t = some declarations) :
    w.Ordered declarations := by
  induction built generalizing declarations with
  | refl => simp [declarationsAt?, World.empty] at found
  | @tail before after _ step ih =>
    cases hbefore : before.declarationsAt? t with
    | some old =>
      obtain ⟨grown, hgrown, grows⟩ := step.declarations_grow hbefore
      obtain rfl : grown = declarations := Option.some.inj (hgrown.symm.trans found)
      exact ((ih hbefore).grow grows).step step
    | none =>
      obtain ⟨hempty, home⟩ := step.declarations_made hbefore found
      exact (Ordered.empty hempty home).step step

/-- Later, a list has the classes of now and new ones behind them. -/
theorem later_declarations {w w' : World} (later : w.Later w') {t : DeclarationsId}
    {declarations : Declarations} (found : w.declarationsAt? t = some declarations) :
    ∃ declarations', w'.declarationsAt? t = some declarations'
      ∧ declarations'.globals = declarations.globals
      ∧ declarations.classes.rows <+: declarations'.classes.rows := by
  induction later with
  | refl => exact ⟨declarations, found, rfl, List.prefix_refl _⟩
  | tail _ step ih =>
    obtain ⟨middle, hmiddle, hglobals, hprefix⟩ := ih
    obtain ⟨declarations', found', grows⟩ := step.declarations_grow hmiddle
    cases grows with
    | same => exact ⟨middle, found', hglobals, hprefix⟩
    | @enter c body made new registered root child =>
      refine ⟨_, found', hglobals, ?_⟩
      simp only [Registry.rows_add new c]
      exact hprefix.trans (List.prefix_append _ _)

/-- A list of declarations is exactly the log of what was declared in it.

Its names are those that the run has declared in it, each once, in the order of the first
declaration, and all of them are globals of its module level. Each name leads to the class that was
made with it, at the module level of the list. If this class extends another, then that is the class
listed under its own name, at an earlier place. Whenever the list has answered with a class, which
was declared or asked for, it still has this class under the name, and asked for a name, it answers
with the class that it has, or else that there is none. So one name always leads to one
class, and two names to two. Whatever is asked next, the rows stay, and new ones come behind
them. -/
theorem declarations_of_log (requests : List Request) {t : DeclarationsId}
    {declarations : Declarations}
    (found : (after requests).declarationsAt? t = some declarations) :
    declarations.classes.names = declaredNames (World.empty.log requests) t
    ∧ declarations.classes.names.Nodup
    ∧ (∃ globals, (after requests).globalsAt? declarations.globals = some globals
        ∧ ∀ name ∈ declarations.classes.names, name ∈ globals.names)
    ∧ (∀ (i : Nat) name c, declarations.classes.rows[i]? = some (name, c) →
        (after requests).declared? t name = some c
        ∧ (after requests).serve (.declaredClass t name) = (after requests, .classBody c)
        ∧ (∃ body, (after requests).classAt? c = some body ∧ body.name = name
          ∧ body.globals = declarations.globals)
        ∧ ∀ p, (after requests).parent? c = some p → ∃ parent,
          (after requests).classAt? p = some parent
          ∧ (after requests).declared? t parent.name = some p
          ∧ ∃ j < i, declarations.classes.rows[j]? = some (parent.name, p))
    ∧ (∀ name, name ∉ declarations.classes.names →
        (after requests).serve (.declaredClass t name) = (after requests, .undeclared))
    ∧ (∀ row ∈ namedClasses (World.empty.log requests) t,
        (after requests).declared? t row.1 = some row.2)
    ∧ (∀ a ∈ namedClasses (World.empty.log requests) t,
        ∀ b ∈ namedClasses (World.empty.log requests) t, a.1 = b.1 ↔ a.2 = b.2)
    ∧ ∀ more, ∃ declarations',
        ((after requests).run more).1.declarationsAt? t = some declarations'
        ∧ declarations'.globals = declarations.globals
        ∧ declarations.classes.rows <+: declarations'.classes.rows := by
  have built : (after requests).Built := (Reachable.empty.run requests).built
  have ordered := built.ordered found
  have enrolls : (after requests).Enrolls (World.empty.log requests) := Enrolls.empty.run requests
  have hlisted := listedClasses_of_found found
  have hdeclared : ∀ name,
      (after requests).declared? t name = declarations.classes.find? name := by
    intro name
    rw [declared?_eq, hlisted]
  have hrow : ∀ {i : Nat} {name : String} {c : ClassId},
      declarations.classes.rows[i]? = some (name, c) →
        declarations.classes.find? name = some c := by
    intro i name c hi
    exact (Registry.mem_rows_iff (name, c)).mp (List.mem_of_getElem? hi)
  have hnamed : ∀ row ∈ namedClasses (World.empty.log requests) t,
      declarations.classes.find? row.1 = some row.2 := by
    intro row hmem
    rw [← hlisted]
    exact enrolls.classes t row hmem
  refine ⟨?_, declarations.classes.nodup_names, ordered.registered, ?_, ?_, ?_, ?_, ?_⟩
  · rw [← hlisted]
    exact enrolls.names t
  · intro i name c hi
    have hfind := (hdeclared name).trans (hrow hi)
    refine ⟨hfind, ?_, built.class_of_listed found (hrow hi), ?_⟩
    · rw [serve_declaredClass found, hfind]
      rfl
    · intro p hp
      obtain ⟨j, superclass, hji, hj⟩ := ordered.parents i name c p hi hp
      -- The parent is listed under some name, and this is the name it was made with.
      obtain ⟨parent, hparent, rfl, -⟩ := built.class_of_listed found (hrow hj)
      exact ⟨parent, hparent, (hdeclared _).trans (hrow hj), j, hji, hj⟩
  · intro name hunlisted
    rw [serve_declaredClass found, hdeclared, Registry.find?_eq_none_iff.mpr hunlisted]
    rfl
  · intro row hmem
    exact (hdeclared row.1).trans (hnamed row hmem)
  · intro a ha b hb
    constructor
    · intro hname
      exact Option.some.inj ((hnamed a ha).symm.trans (hname ▸ hnamed b hb))
    · intro hclass
      obtain ⟨body, hbody, hname, -⟩ := built.class_of_listed found (hnamed a ha)
      obtain ⟨body', hbody', hname', -⟩ := built.class_of_listed found (hnamed b hb)
      obtain rfl : body = body' := Option.some.inj (hbody.symm.trans (hclass ▸ hbody'))
      exact hname.symm.trans hname'
  · intro more
    exact later_declarations (later_run _ more) found

/-- Two lists at one module level. The first declares a class, has a declaration refused, and opens
the class again after a class of the same name is declared in the second. -/
def reopenedShape : List Request := [
  .openGlobals .standard, .openDeclarations ⟨0⟩, .openDeclarations ⟨0⟩,
  .declare ⟨0⟩ "Circle" (some "Shape"), .declare ⟨0⟩ "Shape" none, .declare ⟨1⟩ "Shape" none,
  .declare ⟨0⟩ "Circle" (some "Shape"), .addChild "Dot" ⟨2⟩, .declare ⟨0⟩ "Shape" none,
  .declaredClass ⟨0⟩ "Circle"]

/-- The refused declaration does not count for the order, and the class that is opened again is the
one that was declared in the same list. -/
theorem declarations_of_log_reopenedShape :
    ∃ declarations, (after reopenedShape).declarationsAt? ⟨0⟩ = some declarations
      ∧ declarations.classes.names = ["Shape", "Circle"]
      ∧ (after reopenedShape).declared? ⟨0⟩ "Shape" = some ⟨0⟩
      ∧ (after reopenedShape).declared? ⟨0⟩ "Circle" = some ⟨2⟩
      ∧ (after reopenedShape).declared? ⟨1⟩ "Shape" = some ⟨1⟩
      ∧ ∀ more, ∃ declarations',
        ((after reopenedShape).run more).1.declarationsAt? ⟨0⟩ = some declarations'
        ∧ declarations.classes.rows <+: declarations'.classes.rows := by
  have hexists : ((after reopenedShape).declarationsAt? ⟨0⟩).isSome := by decide +kernel
  have hnames : declaredNames (World.empty.log reopenedShape) ⟨0⟩ = ["Shape", "Circle"] := by
    decide +kernel
  have hnamed : namedClasses (World.empty.log reopenedShape) ⟨0⟩
      = [("Shape", ⟨0⟩), ("Circle", ⟨2⟩), ("Shape", ⟨0⟩), ("Circle", ⟨2⟩)] := by decide +kernel
  obtain ⟨declarations, found⟩ := Option.isSome_iff_exists.mp hexists
  obtain ⟨horder, -, -, -, -, hlisted, -, hlater⟩ := declarations_of_log reopenedShape found
  rw [hnamed] at hlisted
  refine ⟨declarations, found, horder.trans hnames, hlisted ("Shape", ⟨0⟩) (by simp),
    hlisted ("Circle", ⟨2⟩) (by simp), by decide +kernel, ?_⟩
  intro more
  obtain ⟨declarations', found', -, hprefix⟩ := hlater more
  exact ⟨declarations', found', hprefix⟩

end World

end ScopeLayout
