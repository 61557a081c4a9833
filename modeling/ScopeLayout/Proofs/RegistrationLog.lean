import ScopeLayout.Proofs.DeclarationLog
import ScopeLayout.Proofs.LateBinding

/-!
# `ScopeLayout.Proofs.RegistrationLog`: a module level is its log

The names of a module level come from two sides. A program registers a name there, or it
declares a class in one of the lists that were opened there. Both are in the log of the
run. `registeredName?` reads the name off one entry, given the entries before it: those
say where a list was opened, and whether the declaration made a class or opened one
again. No other entry registers a name. `globalNames` puts the names of a whole log
together: the three constants, and behind them all other names, each once, in the order
of the first registration.

`Tallies` relates a world to its log: each module level has the names of the log, each
list belongs where the log says, and each registration was answered as the log was then.
One more request is one more entry (`Tallies.serve`). What the request does to the names
is said in `Tallies.names_of_outcome`, and what it does to the lists in
`Outcome.homeOf?_iff`.

`globals_of_log` says it of whole runs.
-/

set_option autoImplicit false

namespace ScopeLayout

namespace World

/-! ### Registrations in a log -/

/-- The name that an entry registers at a module level, if the entries of `past` come before it. It
may ask for just that, whether the name is new or not. Or it declares a class in a list that was
opened at this module level, under a name that was not declared there before. -/
def registeredName? (past : List (Request × Answer)) (g : GlobalsId) :
    Request × Answer → Option String
  | (.register g' name, .registered _) => if g' = g then some name else none
  | (.declare t name _, .classBody _) =>
    if (.openDeclarations g, .declarations t) ∈ past ∧ name ∉ declaredNames past t then some name
    else none
  | _ => none

/-- The names that the entries of a log register at a module level, if the entries of `past` come
before them. -/
def registeredAfter (past : List (Request × Answer)) (g : GlobalsId) :
    List (Request × Answer) → List String
  | [] => []
  | entry :: log =>
    (registeredName? past g entry).toList ++ registeredAfter (past ++ [entry]) g log

/-- The names of a module level by its log: the constants, and behind them all other names that were
registered, each once, in the order of the first registration. -/
def globalNames (log : List (Request × Answer)) (g : GlobalsId) : List String :=
  predefinedGlobals
    ++ ((registeredAfter [] g log).filter fun name => decide (name ∉ predefinedGlobals)).eraseDups

/-- One more entry may register one more name. -/
theorem registeredAfter_concat (past : List (Request × Answer)) (g : GlobalsId)
    (log : List (Request × Answer)) (entry : Request × Answer) :
    registeredAfter past g (log ++ [entry])
      = registeredAfter past g log ++ (registeredName? (past ++ log) g entry).toList := by
  induction log generalizing past with
  | nil => simp [registeredAfter]
  | cons first log ih =>
    rw [List.cons_append, registeredAfter, registeredAfter, ih, List.append_assoc,
      List.append_assoc, List.singleton_append]

/-- An entry that registers nothing leaves the names. -/
theorem globalNames_of_silent {log : List (Request × Answer)} {g : GlobalsId}
    {entry : Request × Answer} (silent : registeredName? log g entry = none) :
    globalNames (log ++ [entry]) g = globalNames log g := by
  rw [globalNames, registeredAfter_concat, List.nil_append, silent]
  simp [globalNames]

/-- An entry that registers a name puts it behind all others, unless it is one of them. -/
theorem globalNames_of_registered {log : List (Request × Answer)} {g : GlobalsId}
    {entry : Request × Answer} {name : String}
    (registered : registeredName? log g entry = some name) :
    globalNames (log ++ [entry]) g =
      if name ∈ globalNames log g then globalNames log g else globalNames log g ++ [name] := by
  rw [globalNames, registeredAfter_concat, List.nil_append, registered]
  by_cases hconstant : name ∈ predefinedGlobals
  · simp [globalNames, hconstant]
  · have hsplit : (registeredAfter [] g log ++ [name]).filter
          (fun name => decide (name ∉ predefinedGlobals))
        = (registeredAfter [] g log).filter (fun name => decide (name ∉ predefinedGlobals))
          ++ [name] := by
      simp [hconstant]
    rw [Option.toList_some, hsplit, eraseDups_concat]
    by_cases hknown : name ∈ registeredAfter [] g log
    · simp [globalNames, hconstant, hknown]
    · simp [globalNames, hconstant, hknown]

/-- No name is listed twice. -/
theorem nodup_globalNames (log : List (Request × Answer)) (g : GlobalsId) :
    (globalNames log g).Nodup := by
  rw [globalNames, List.nodup_append]
  refine ⟨by decide, nodup_eraseDups _, ?_⟩
  rintro constant hconstant name hname rfl
  have hother := (List.mem_filter.mp (List.mem_eraseDups.mp hname)).2
  simp [hconstant] at hother

/-! ### Where lists belong -/

/-- The module level of a list of declarations. -/
def homeOf? (w : World) (t : DeclarationsId) : Option GlobalsId :=
  (w.declarationsAt? t).map (·.globals)

/-- The module level of a list that exists. -/
theorem homeOf?_of_found {w : World} {t : DeclarationsId} {declarations : Declarations}
    (found : w.declarationsAt? t = some declarations) :
    w.homeOf? t = some declarations.globals := by
  rw [homeOf?, found]
  rfl

/-- To enter a class moves no list. -/
theorem homeOf?_enter (w : World) (t : DeclarationsId) (g : GlobalsId) (name : String)
    (c : ClassId) (t' : DeclarationsId) : (w.enter t g name c).homeOf? t' = w.homeOf? t' := by
  rw [homeOf?, declarationsAt?_enter]
  split
  · rw [Option.map_map]
    rfl
  · rfl

variable {w : World} {log : List (Request × Answer)} {request : Request} {result : World × Answer}

/-- A list belongs to the module level at which it was opened. -/
theorem Outcome.homeOf?_iff (outcome : w.Outcome request result) (t : DeclarationsId)
    (g : GlobalsId) : result.1.homeOf? t = some g ↔
      w.homeOf? t = some g ∨ (request, result.2) = (.openDeclarations g, .declarations t) := by
  have kept : ∀ {w' : World} {answer : Answer}, w'.homeOf? t = w.homeOf? t →
      (request, answer) ≠ (.openDeclarations g, .declarations t) →
      (w'.homeOf? t = some g ↔
        w.homeOf? t = some g ∨ (request, answer) = (.openDeclarations g, .declarations t)) := by
    intro w' answer hsame hother
    rw [hsame]
    simp [hother]
  cases outcome with
  | dangling _ => exact kept rfl (by simp)
  | @openedDeclarations home globals _ =>
    rw [homeOf?, declarationsAt?_makeDeclarations]
    by_cases hlast : t.index = w.declarations.size
    · -- The list was not there before.
      have habsent : w.homeOf? t = none := by
        rw [homeOf?, declarationsAt?, Store.at?_eq_none_iff.mpr (Nat.le_of_eq hlast.symm)]
        rfl
      obtain rfl : t = ⟨w.declarations.size⟩ := by
        cases t
        exact congrArg _ hlast
      simp [habsent]
    · have hother : t ≠ ⟨w.declarations.size⟩ := by
        rintro rfl
        exact hlast rfl
      rw [if_neg hlast]
      simp [homeOf?, Ne.symm hother]
  | @declaredRoot _ declarations globals name _ _ _ =>
    refine kept ?_ (by simp)
    exact homeOf?_enter (w.withRoot name declarations.globals globals.settings) _ _ _ _ t
  | @declaredChild _ declarations name superclass parent body _ _ _ _ =>
    refine kept ?_ (by simp)
    exact homeOf?_enter (w.withChild name parent body) _ _ _ _ t
  | bound label defined =>
    cases defined with
    | dangling _ => exact kept rfl (by simp)
    | defined _ _ _ => exact kept rfl (by simp)
  | _ => exact kept rfl (by simp)

/-- A new module level knows the constants only. -/
theorem Outcome.globals_made (outcome : w.Outcome request result) {g : GlobalsId}
    {globals : Globals} (absent : w.globalsAt? g = none)
    (found : result.1.globalsAt? g = some globals) : ∃ settings, globals = .fresh settings := by
  have hother : w.globalsAt? g ≠ some globals := by simp [absent]
  have hentered : ∀ {made : World} {t : DeclarationsId} {home : GlobalsId} {name : String}
      {c : ClassId}, made.globalsAt? g = none →
      (made.enter t home name c).globalsAt? g ≠ some globals := by
    intro made t home name c hmade
    rw [globalsAt?_enter, hmade]
    simp
  cases outcome with
  | openedGlobals settings =>
    rw [globalsAt?_makeGlobals] at found
    split at found
    · exact ⟨settings, (Option.some.inj found).symm⟩
    · exact absurd found hother
  | registered name _ =>
    rw [globalsAt?_changeGlobals, absent] at found
    simp at found
  | bound label defined =>
    cases defined with
    | dangling _ => exact absurd found hother
    | defined _ _ _ => exact absurd found hother
  | declaredRoot _ _ _ => exact absurd found (hentered absent)
  | declaredChild _ _ _ _ => exact absurd found (hentered absent)
  | _ => exact absurd found hother

/-! ### Module levels and their log along a run -/

/-- What a log says of the module levels of a world:

- `names`: each has the names of the log, in the order of the log;
- `silent`: the log registers nothing where there is no module level;
- `homes`: each list of declarations belongs where the log says that it was opened;
- `enrolls`: each list has the names that the log declares in it;
- `answers`: each registration was answered as new exactly if the name was not listed then. -/
structure Tallies (w : World) (log : List (Request × Answer)) : Prop where
  names : ∀ g globals, w.globalsAt? g = some globals → globals.names.names = globalNames log g
  silent : ∀ g, w.globalsAt? g = none → registeredAfter [] g log = []
  homes : ∀ t g, (.openDeclarations g, .declarations t) ∈ log ↔ w.homeOf? t = some g
  enrolls : w.Enrolls log
  answers : ∀ earlier g name isNew later,
    log = earlier ++ (.register g name, .registered isNew) :: later →
      (isNew = true ↔ name ∉ globalNames earlier g)

namespace Tallies

/-- The empty world tallies with the empty log. -/
theorem empty : Tallies .empty [] where
  names _ _ found := by simp [globalsAt?, World.empty] at found
  silent _ _ := rfl
  homes _ _ := by simp [homeOf?, declarationsAt?, World.empty]
  enrolls := .empty
  answers earlier _ _ _ later h := by simp at h

/-- What a declaration registers, by the log, is what it registers in the world. -/
theorem registeredName?_of_declared (h : w.Tallies log) {t : DeclarationsId}
    {declarations : Declarations} (found : w.declarationsAt? t = some declarations) (name : String)
    (superclass? : Option String) (c : ClassId) (g : GlobalsId) :
    registeredName? log g (.declare t name superclass?, .classBody c) =
      if declarations.globals = g ∧ declarations.classes.find? name = none then some name
      else none := by
  have hhome : (.openDeclarations g, .declarations t) ∈ log ↔ declarations.globals = g := by
    rw [h.homes, homeOf?_of_found found, Option.some.injEq]
  have hnew : name ∉ declaredNames log t ↔ declarations.classes.find? name = none := by
    rw [← h.enrolls.names, listedClasses_of_found found, Registry.find?_eq_none_iff]
  simp only [registeredName?, hhome, hnew]

/-- A request inserts the name that its entry registers, and leaves the names if it registers
none. -/
theorem names_of_outcome (h : w.Tallies log) (outcome : w.Outcome request result) {g : GlobalsId}
    {globals : Globals} (found : w.globalsAt? g = some globals) :
    ∃ globals', result.1.globalsAt? g = some globals'
      ∧ globals'.names
        = (registeredName? log g (request, result.2)).elim globals.names globals.names.insert := by
  have kept : ∀ {w' : World} {answer : Answer}, w'.globalsAt? g = some globals →
      registeredName? log g (request, answer) = none →
      ∃ globals', w'.globalsAt? g = some globals'
        ∧ globals'.names
          = (registeredName? log g (request, answer)).elim globals.names globals.names.insert := by
    intro w' answer found' silent
    rw [silent]
    exact ⟨globals, found', rfl⟩
  have entered : ∀ {made : World} {t : DeclarationsId} {declarations : Declarations}
      {name : String} (superclass? : Option String) (c : ClassId),
      made.globalsAt? g = some globals → w.declarationsAt? t = some declarations →
      declarations.classes.find? name = none →
      ∃ globals', (made.enter t declarations.globals name c).globalsAt? g = some globals'
        ∧ globals'.names
          = (registeredName? log g (.declare t name superclass?, .classBody c)).elim globals.names
              globals.names.insert := by
    intro made t declarations name superclass? c hmade listing new
    have hlook := made.globalsAt?_enter t declarations.globals name c g
    rw [h.registeredName?_of_declared listing]
    by_cases hg : g = declarations.globals
    · rw [if_pos hg, hmade] at hlook
      rw [if_pos ⟨hg.symm, new⟩]
      exact ⟨_, hlook, rfl⟩
    · rw [if_neg hg] at hlook
      rw [if_neg fun hboth => hg hboth.1.symm]
      exact ⟨globals, hlook.trans hmade, rfl⟩
  cases outcome with
  | dangling _ =>
    refine kept found ?_
    cases request <;> rfl
  | reopened found' listed _ =>
    refine kept found ?_
    rw [h.registeredName?_of_declared found', listed]
    simp
  | openedGlobals settings =>
    have hold : g.index ≠ w.globals.size :=
      Store.index_ne_size found
    refine kept ?_ rfl
    rw [globalsAt?_makeGlobals, if_neg hold]
    exact found
  | @registered home _ name _ =>
    have hlook := w.globalsAt?_changeGlobals home g (·.register name)
    by_cases hg : g = home
    · rw [if_pos hg, found] at hlook
      refine ⟨_, hlook, ?_⟩
      rw [registeredName?, if_pos hg.symm]
      rfl
    · rw [if_neg hg] at hlook
      refine kept (hlook.trans found) ?_
      rw [registeredName?, if_neg (Ne.symm hg)]
  | bound label defined =>
    cases defined with
    | dangling _ => exact kept found rfl
    | defined _ _ _ => exact kept found rfl
  | declaredRoot listing new _ => exact entered none _ found listing new
  | @declaredChild _ _ _ superclass _ _ listing new _ _ =>
    exact entered (some superclass) _ found listing new
  | _ => exact kept found rfl

/-- Nothing is registered where there is no module level. -/
theorem registeredName?_of_absent (h : w.Tallies log) (built : w.Built)
    (outcome : w.Outcome request result) {g : GlobalsId} (absent : w.globalsAt? g = none) :
    registeredName? log g (request, result.2) = none := by
  generalize hentry : (request, result.2) = entry
  unfold registeredName?
  split
  · rename_i g' name isNew
    obtain ⟨rfl, hanswer⟩ := Prod.mk.inj hentry
    refine if_neg ?_
    rintro rfl
    cases outcome with
    | dangling _ => simp at hanswer
    | registered _ found => simp [absent] at found
  · rename_i t name superclass? c
    refine if_neg ?_
    rintro ⟨opened, -⟩
    obtain ⟨declarations, found, rfl⟩ := Option.map_eq_some_iff.mp ((h.homes t g).mp opened)
    obtain ⟨globals, home, -⟩ := (built.ordered found).registered
    simp [absent] at home
  · rfl

/-- One more request is one more entry. -/
theorem serve (h : w.Tallies log) (built : w.Built) (request : Request) :
    (w.serve request).1.Tallies (log ++ [(request, (w.serve request).2)]) := by
  have henrolls := h.enrolls.serve request
  have outcome := w.outcome_serve request
  generalize w.serve request = result at outcome henrolls ⊢
  refine ⟨?_, ?_, ?_, henrolls, ?_⟩
  · intro g globals' found'
    cases found : w.globalsAt? g with
    | none =>
      obtain ⟨settings, rfl⟩ := outcome.globals_made found found'
      rw [globalNames_of_silent (h.registeredName?_of_absent built outcome found), globalNames,
        h.silent g found]
      rfl
    | some globals =>
      obtain ⟨same, hsame, hnames⟩ := h.names_of_outcome outcome found
      obtain rfl : same = globals' := Option.some.inj (hsame.symm.trans found')
      cases hname : registeredName? log g (request, result.2) with
      | none =>
        rw [hnames, hname, globalNames_of_silent hname]
        exact h.names g globals found
      | some name =>
        rw [hnames, hname, globalNames_of_registered hname, ← h.names g globals found]
        exact Roster.names_insert globals.names name
  · intro g absent'
    have absent : w.globalsAt? g = none := by
      cases found : w.globalsAt? g with
      | none => rfl
      | some globals =>
        obtain ⟨same, hsame, -⟩ := h.names_of_outcome outcome found
        exact absurd (absent'.symm.trans hsame) (by simp)
    rw [registeredAfter_concat, List.nil_append, h.silent g absent,
      h.registeredName?_of_absent built outcome absent]
    rfl
  · intro t g
    rw [List.mem_append, List.mem_singleton, outcome.homeOf?_iff, h.homes]
    exact or_congr Iff.rfl eq_comm
  · intro earlier g name isNew later hlog
    rcases List.eq_nil_or_concat later with rfl | ⟨between, last, rfl⟩
    · -- The registration is the last entry, so the names of the log are those of the world.
      obtain ⟨rfl, hentry⟩ := List.append_inj' hlog rfl
      obtain ⟨rfl, hanswer⟩ := Prod.mk.inj (List.singleton_inj.mp hentry)
      cases outcome with
      | dangling _ => simp at hanswer
      | registered _ found =>
        rw [← h.names g _ found, ← Answer.registered.inj hanswer, decide_eq_true_iff]
        rfl
    · rw [List.concat_eq_append, ← List.cons_append, ← List.append_assoc] at hlog
      exact h.answers earlier g name isNew between (List.append_inj' hlog rfl).1

/-- A run tallies with its own log behind the one before. -/
theorem run (h : w.Tallies log) (reachable : w.Reachable) (requests : List Request) :
    (w.run requests).1.Tallies (log ++ w.log requests) := by
  induction requests generalizing w log with
  | nil =>
    show w.Tallies (log ++ [])
    rw [List.append_nil]
    exact h
  | cons request requests ih =>
    have hserved := ih (h.serve reachable.built request) (reachable.serve request)
    rw [List.append_assoc] at hserved
    exact hserved

end Tallies

/-- A module level is exactly the log of what was registered there.

Its names are the three constants and behind them all other names of the log, each once, in the
order of the first registration. A name counts if it was registered there, or if a class of this
name was declared for the first time in a list that was opened there. Nothing else counts. So the
number of names and their membership are those of the log. Each registration was answered as new
exactly if the name was not listed at that moment, and so is the next. -/
theorem globals_of_log (requests : List Request) {g : GlobalsId} {globals : Globals}
    (found : (after requests).globalsAt? g = some globals) :
    globals.names.names = predefinedGlobals
      ++ ((registeredAfter [] g (World.empty.log requests)).filter
          fun name => decide (name ∉ predefinedGlobals)).eraseDups
    ∧ globals.names.names.Nodup
    ∧ globals.names.size = (globalNames (World.empty.log requests) g).length
    ∧ (∀ name, name ∈ globals.names ↔ name ∈ globalNames (World.empty.log requests) g)
    ∧ (∀ earlier name isNew later,
        World.empty.log requests = earlier ++ (.register g name, .registered isNew) :: later →
          (isNew = true ↔ name ∉ globalNames earlier g))
    ∧ ∀ name, ((after requests).serve (.register g name)).2
        = .registered (decide (name ∉ globalNames (World.empty.log requests) g)) := by
  have tallies : (after requests).Tallies (World.empty.log requests) :=
    Tallies.empty.run .empty requests
  have hnames := tallies.names g globals found
  refine ⟨hnames, ?_, ?_, ?_, ?_, ?_⟩
  · rw [hnames]
    exact nodup_globalNames _ g
  · rw [← hnames]
    rfl
  · intro name
    rw [← hnames]
    rfl
  · intro earlier name isNew later
    exact tallies.answers earlier g name isNew later
  · intro name
    rw [serve, register, found, ← hnames]
    rfl

/-- Two module levels, the first with two lists of declarations. Names come to the first level from
both lists and from registrations, some of them more than once. A declaration is refused there, a
class is opened again, and two classes are made outside the lists. -/
def namesFromBothSides : List Request := [
  .openGlobals .standard, .openGlobals .standard, .openDeclarations ⟨0⟩, .openDeclarations ⟨0⟩,
  .openDeclarations ⟨1⟩, .register ⟨0⟩ "nil", .declare ⟨0⟩ "Dot" (some "Shape"),
  .declare ⟨0⟩ "Shape" none, .register ⟨0⟩ "x", .declare ⟨1⟩ "Shape" none,
  .declare ⟨1⟩ "Circle" none, .declare ⟨0⟩ "Shape" none, .addRoot "Bare" ⟨0⟩,
  .addChild "Loose" ⟨0⟩, .declare ⟨2⟩ "Elsewhere" none, .register ⟨1⟩ "y", .register ⟨0⟩ "Circle"]

/-- Of all these names, three are new at the first level. -/
theorem globals_of_log_namesFromBothSides :
    ∃ globals, (after namesFromBothSides).globalsAt? ⟨0⟩ = some globals
      ∧ globals.names.names = ["true", "false", "nil", "Shape", "x", "Circle"]
      ∧ "Bare" ∉ globals.names
      ∧ ((after namesFromBothSides).serve (.register ⟨0⟩ "x")).2 = .registered false
      ∧ ((after namesFromBothSides).serve (.register ⟨0⟩ "y")).2 = .registered true := by
  have hexists : ((after namesFromBothSides).globalsAt? ⟨0⟩).isSome := by decide +kernel
  have hlog : globalNames (World.empty.log namesFromBothSides) ⟨0⟩
      = ["true", "false", "nil", "Shape", "x", "Circle"] := by decide +kernel
  obtain ⟨globals, found⟩ := Option.isSome_iff_exists.mp hexists
  obtain ⟨hnames, -, -, hmem, -, hnext⟩ := globals_of_log namesFromBothSides found
  rw [hlog] at hmem hnext
  refine ⟨globals, found, hnames.trans hlog, ?_, ?_, ?_⟩
  · rw [hmem]
    decide
  · rw [hnext]
    decide
  · rw [hnext]
    decide

end World

end ScopeLayout
