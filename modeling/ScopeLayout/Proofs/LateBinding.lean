import ScopeLayout.Proofs.ScopeChain

/-!
# `ScopeLayout.Proofs.LateBinding`: what a name may still come to denote

Code is emitted for a name while the program is still being read, so the answer must
stand or the code generator must know how it can change. Frames are fixed when they
are made. Only the end of the way can change its answer, and it looks at three
things: the names of a module level, and the name and the fields of a class.

`World.Registers` says that a request, by its answer, has put a name on the list of
a module level, and `Outcome.mem_names_iff` that no other request does. A class keeps
its name, its module level and its fields (`Outcome.alike`), unless it gets a field,
and then the new one comes behind all others (`Outcome.class_kept`).

`World.Turns` has the two ways in which an answer changes, one for each of these
requests. `resolve_turns_late` says that there are no others, and what this means
for whole runs: a method call may become a global and both may become a field
(`Referent.Becomes`), and all other answers stand.
-/

set_option autoImplicit false

namespace ScopeLayout

/-! ### New names at a module level -/

/-- A name that is inserted is placed behind all others, which keep their places. -/
theorem Roster.indexOf?_insert {roster : Roster} {key : String} (new : key ∉ roster)
    (name : String) : (roster.insert key).indexOf? name =
      if name = key then some roster.size else roster.indexOf? name := by
  have hnames : (roster.insert key).names = roster.names ++ [key] := by
    rw [names_insert, if_neg new]
  have hsplit : (roster.insert key).indexOf? name
      = (roster.names.idxOf? name).or (([key].idxOf? name).map (· + roster.names.length)) := by
    rw [indexOf?, hnames]
    exact List.findIdx?_append
  rw [hsplit, List.idxOf?_singleton]
  by_cases h : name = key
  · have hnone : roster.names.idxOf? name = none := by
      rw [h]
      exact List.idxOf?_eq_none_iff.mpr new
    rw [hnone, if_pos h]
    simp [h, size]
  · have hother : ¬ (key == name) = true := by
      simpa using Ne.symm h
    rw [if_neg hother, if_neg h]
    simp [indexOf?]

namespace World

/-- The request, answered in this way, has registered a new name at a module level. It asked for
just that, or it declared a class that was not declared before. -/
def Registers (w : World) (g : GlobalsId) (name : String) : Request × Answer → Prop
  | (.register g' key, .registered true) => g' = g ∧ key = name
  | (.declare t key _, .classBody _) => key = name ∧ ∃ declarations,
      w.declarationsAt? t = some declarations ∧ declarations.globals = g
        ∧ declarations.classes.find? name = none
  | _ => False

/-- A request that refers to nothing registers no name. -/
theorem not_registers_dangling {w : World} {g : GlobalsId} {name : String} {request : Request} :
    ¬ w.Registers g name (request, .dangling) := by
  cases request <;> exact id

/-- A class that is declared is registered where its list of declarations belongs. -/
theorem mem_names_enter {w made : World} {g : GlobalsId} {globals : Globals} {t : DeclarationsId}
    {declarations : Declarations} {key : String} {c c' : ClassId} {superclass? : Option String}
    (found : made.globalsAt? g = some globals) (listing : w.declarationsAt? t = some declarations)
    (new : declarations.classes.find? key = none) :
    ∃ globals', (made.enter t declarations.globals key c).globalsAt? g = some globals'
      ∧ globals'.settings = globals.settings
      ∧ ∀ name, name ∈ globals'.names ↔
          name ∈ globals.names
            ∨ w.Registers g name (.declare t key superclass?, .classBody c') := by
  have hregisters : ∀ name, w.Registers g name (.declare t key superclass?, .classBody c')
      ↔ g = declarations.globals ∧ name = key := by
    intro name
    constructor
    · rintro ⟨rfl, declarations', hlisting, rfl, -⟩
      obtain rfl := Option.some.inj (listing.symm.trans hlisting)
      exact ⟨rfl, rfl⟩
    · rintro ⟨rfl, rfl⟩
      exact ⟨rfl, declarations, listing, rfl, new⟩
  have hlook := made.globalsAt?_enter t declarations.globals key c g
  by_cases hg : g = declarations.globals
  · rw [if_pos hg, found] at hlook
    refine ⟨_, hlook, rfl, ?_⟩
    intro name
    show name ∈ globals.names.insert key ↔ _
    rw [hregisters, Roster.mem_insert]
    simp [hg]
  · rw [if_neg hg] at hlook
    refine ⟨globals, hlook.trans found, rfl, ?_⟩
    intro name
    rw [hregisters]
    simp [hg]

namespace Outcome

variable {w : World} {request : Request} {result : World × Answer}

/-- A module level that exists keeps its settings and its names, and a name is new there exactly if
the request has registered it. -/
theorem mem_names_iff (outcome : w.Outcome request result) {g : GlobalsId} {globals : Globals}
    (found : w.globalsAt? g = some globals) : ∃ globals', result.1.globalsAt? g = some globals'
      ∧ globals'.settings = globals.settings
      ∧ ∀ name, name ∈ globals'.names ↔
          name ∈ globals.names ∨ w.Registers g name (request, result.2) := by
  have kept : ∀ {w' : World} {answer : Answer}, w'.globalsAt? g = some globals →
      (∀ name, ¬ w.Registers g name (request, answer)) →
      ∃ globals', w'.globalsAt? g = some globals' ∧ globals'.settings = globals.settings
        ∧ ∀ name, name ∈ globals'.names ↔
            name ∈ globals.names ∨ w.Registers g name (request, answer) := by
    intro w' answer found' hnot
    refine ⟨globals, found', rfl, ?_⟩
    intro name
    simp [hnot name]
  cases outcome with
  | dangling _ => exact kept found fun name => not_registers_dangling
  | reopened found' listed _ =>
    refine kept found ?_
    rintro name ⟨rfl, declarations, hfound, -, hnew⟩
    obtain rfl := Option.some.inj (found'.symm.trans hfound)
    exact nomatch listed.symm.trans hnew
  | openedGlobals settings =>
    have hold : g.index ≠ w.globals.size :=
      Store.index_ne_size found
    refine kept ?_ (fun name => id)
    rw [globalsAt?_makeGlobals, if_neg hold]
    exact found
  | @registered home homeGlobals key hhome =>
    have hlook := w.globalsAt?_changeGlobals home g (·.register key)
    by_cases hg : g = home
    · subst hg
      obtain rfl : homeGlobals = globals := Option.some.inj (hhome.symm.trans found)
      rw [if_pos rfl, found] at hlook
      refine ⟨_, hlook, rfl, ?_⟩
      intro name
      show name ∈ homeGlobals.names.insert key ↔ _
      rw [Roster.mem_insert]
      by_cases hknown : key ∈ homeGlobals.names
      · -- The name was there, and the answer says so.
        rw [decide_eq_false (not_not_intro hknown)]
        show _ ↔ _ ∨ False
        constructor
        · rintro (h | rfl)
          · exact .inl h
          · exact .inl hknown
        · rintro (h | h)
          · exact .inl h
          · exact h.elim
      · rw [decide_eq_true hknown]
        show _ ↔ _ ∨ (g = g ∧ key = name)
        simp [eq_comm]
    · rw [if_neg hg] at hlook
      refine kept (hlook.trans found) ?_
      intro name
      cases decide (key ∉ homeGlobals.names) with
      | false => exact id
      | true => exact fun h => hg h.1.symm
  | bound label defined =>
    cases defined with
    | dangling _ => exact kept found fun name => id
    | defined _ _ _ => exact kept found fun name => id
  | @declaredRoot t declarations _ key found' new _ =>
    exact mem_names_enter found found' new
  | @declaredChild t declarations key superclass _ _ found' new _ _ =>
    exact mem_names_enter found found' new
  | _ => exact kept found fun name => id

end Outcome

/-! ### What becomes of a class -/

end World

/-- The classes agree in all that a resolution looks at. -/
structure ClassBody.Alike (body body' : ClassBody) : Prop where
  name : body'.name = body.name
  globals : body'.globals = body.globals
  fields : body'.fields = body.fields

/-- A class is like itself. -/
theorem ClassBody.Alike.refl (body : ClassBody) : body.Alike body := ⟨rfl, rfl, rfl⟩

/-- What is like a class that is like another is like that other. -/
theorem ClassBody.Alike.trans {body middle body' : ClassBody} (h : body.Alike middle)
    (h' : middle.Alike body') : body.Alike body' where
  name := h'.name.trans h.name
  globals := h'.globals.trans h.globals
  fields := h'.fields.trans h.fields

namespace World

/-- Changes that keep every class alike do so whichever class they are made to. -/
theorem alike_changeClass {w : World} {c : ClassId} {body : ClassBody}
    (found : w.classAt? c = some body) {change : ClassBody → ClassBody}
    (alike : ∀ body : ClassBody, body.Alike (change body)) (changed : ClassId) :
    ∃ body', (w.changeClass changed change).classAt? c = some body' ∧ body.Alike body' := by
  have hlook := classAt?_changeClass w changed c change
  by_cases hc : c = changed
  · rw [if_pos hc, found] at hlook
    exact ⟨_, hlook, alike body⟩
  · rw [if_neg hc] at hlook
    exact ⟨body, hlook.trans found, .refl body⟩

/-- A new root leaves the classes that exist as they are. -/
theorem alike_withRoot {w : World} {c : ClassId} {body : ClassBody}
    (found : w.classAt? c = some body) (name : String) (g : GlobalsId) (settings : Settings) :
    ∃ body', (w.withRoot name g settings).classAt? c = some body' ∧ body.Alike body' := by
  have hlook := w.classAt?_withRoot name g settings c
  rw [if_neg (Store.index_ne_size found)] at hlook
  exact ⟨body, hlook.trans found, .refl body⟩

/-- A new child counts at the class that it extends, which stays alike. -/
theorem alike_withChild {w : World} {c : ClassId} {body : ClassBody}
    (found : w.classAt? c = some body) (name : String) (parent : ClassId) (before : ClassBody) :
    ∃ body', (w.withChild name parent before).classAt? c = some body' ∧ body.Alike body' := by
  have hlook := w.classAt?_withChild name parent before c
  rw [if_neg (Store.index_ne_size found), ← classAt?_changeClass] at hlook
  rw [hlook]
  refine alike_changeClass found ?_ parent
  intro body
  exact ⟨rfl, rfl, rfl⟩

namespace Outcome

variable {w : World} {request : Request} {result : World × Answer}

/-- To define a method keeps every class alike. -/
theorem alike_addMethod {d : ClassId} {method : String}
    (outcome : w.Outcome (.addMethod d method) result) {c : ClassId} {body : ClassBody}
    (found : w.classAt? c = some body) :
    ∃ body', result.1.classAt? c = some body' ∧ body.Alike body' := by
  cases outcome with
  | dangling _ => exact ⟨body, found, .refl body⟩
  | @defined _ owner _ _ _ _ =>
    have found' : (w.changeNumbering owner.numbering (·.allocate method)).classAt? c
        = some body := found
    refine alike_changeClass found' ?_ d
    intro body
    exact ⟨rfl, rfl, rfl⟩

/-- A class that exists stays as it was for all resolutions, unless it gets a field. -/
theorem alike (outcome : w.Outcome request result) {c : ClassId} {body : ClassBody}
    (found : w.classAt? c = some body)
    (nofield : ∀ field, (request, result.2) ≠ (.addField c field, .registered true)) :
    ∃ body', result.1.classAt? c = some body' ∧ body.Alike body' := by
  cases outcome with
  | root name _ => exact alike_withRoot found name _ _
  | child name _ => exact alike_withChild found name _ _
  | @field d _ field _ _ _ =>
    have hd : c ≠ d := by
      rintro rfl
      exact nofield field rfl
    have hlook := classAt?_changeClass w d c
      (·.addField field)
    rw [if_neg hd] at hlook
    exact ⟨body, hlook.trans found, .refl body⟩
  | defined method hfound numbered =>
    exact (Outcome.defined method hfound numbered).alike_addMethod found
  | @bound d method result label defined =>
    obtain ⟨middle, hmiddle, halike⟩ := defined.alike_addMethod found
    have hbind : ∀ body : ClassBody, body.Alike (body.bind method label) :=
      fun _ => ⟨rfl, rfl, rfl⟩
    obtain ⟨body', hbody', halike'⟩ := alike_changeClass hmiddle hbind d
    exact ⟨body', hbody', halike.trans halike'⟩
  | declaredRoot _ _ _ => exact alike_withRoot found _ _ _
  | declaredChild _ _ _ _ => exact alike_withChild found _ _ _
  | _ => exact ⟨body, found, .refl body⟩

/-- A field that a class gets is new there. -/
theorem of_field_added {c : ClassId} {field : String}
    (outcome : w.Outcome (.addField c field) result) (added : result.2 = .registered true) :
    ∃ body, w.classAt? c = some body ∧ field ∉ body.fields
      ∧ result.1 = w.changeClass c (·.addField field) := by
  cases outcome with
  | field found new _ => exact ⟨_, found, new, rfl⟩
  | _ => exact nomatch added

end Outcome

/-! ### The two ways in which an answer changes -/

/-- The module level that a way leads to, at its end or around the class where it ends. -/
def moduleAt? (w : World) : Outermost → Option GlobalsId
  | .globals g => some g
  | .classBody c => (w.classAt? c).map (·.globals)
  | .nothing => none

/-- What a request, with its answer, turns the answer for a name into, seen from a scope whose way
has this end. A name that was taken for a method call is registered at the module level that the way
leads to. Or the way ends in a class, which gets a field of this name. The field has the place after
all others, and its name has one mark, so that it goes before a method call and a global. -/
inductive Turns (w : World) (entry : Request × Answer) (e : Outermost) (name : String) :
    Referent → Referent → Prop where
  | registered {g : GlobalsId} (leads : w.moduleAt? e = some g)
      (registers : w.Registers g name entry) :
      Turns w entry e name (.methodCall name) (.global name)
  | placed {c : ClassId} {body : ClassBody} {before : Referent} (ends : e = .classBody c)
      (found : w.classAt? c = some body) (added : entry = (.addField c name, .registered true))
      (mark : HasOneMark name) (unbound : before = .methodCall name ∨ before = .global name) :
      Turns w entry e name before (.field body.fields.size)

/-- The answer after a request is what the request turns the answer before into, and the same
answer if it turns it into nothing. -/
def Follows (w : World) (entry : Request × Answer) (e : Outermost) (name : String)
    (before later : Referent) : Prop :=
  (∀ r, w.Turns entry e name before r → later = r)
    ∧ ((∀ r, ¬ w.Turns entry e name before r) → later = before)

/-- Where a module level answers, only a registration changes the answer. -/
theorem Outcome.follows_resolveGlobal {w : World} {request : Request} {result : World × Answer}
    (outcome : w.Outcome request result) {g : GlobalsId} {globals : Globals}
    (found : w.globalsAt? g = some globals) {e : Outermost} (leads : w.moduleAt? e = some g)
    {name : String} (noplace : ∀ c, e = .classBody c → HasOneMark name →
      (request, result.2) ≠ (.addField c name, .registered true)) :
    w.Follows (request, result.2) e name (w.resolveGlobal g name)
      (result.1.resolveGlobal g name) := by
  obtain ⟨globals', found', -, hnames⟩ := outcome.mem_names_iff found
  rw [resolveGlobal_of_found found, resolveGlobal_of_found found', Follows]
  refine ⟨?_, ?_⟩
  · intro r turns
    generalize hbefore : (if name ∈ globals.names then Referent.global name
      else .methodCall name) = before at turns
    cases turns with
    | @registered g' leads' registers =>
      obtain rfl : g = g' := Option.some.inj (leads.symm.trans leads')
      rw [if_pos ((hnames name).mpr (.inr registers))]
    | placed ends _ added mark _ => exact absurd added (noplace _ ends mark)
  · intro hnot
    by_cases hold : name ∈ globals.names
    · rw [if_pos hold, if_pos ((hnames name).mpr (.inl hold))]
    · -- If the name had been registered, the answer would have turned.
      rw [if_neg hold] at hnot ⊢
      refine if_neg ?_
      intro hnew
      rcases (hnames name).mp hnew with h | registers
      · exact hold h
      · exact hnot _ (.registered leads registers)

/-- An answer that is neither a method call nor a global is turned into nothing. -/
theorem follows_same {w : World} {entry : Request × Answer} {e : Outermost} {name : String}
    {before : Referent} (nocall : before ≠ .methodCall name) (noglobal : before ≠ .global name) :
    w.Follows entry e name before before := by
  refine ⟨?_, fun _ => rfl⟩
  intro r turns
  cases turns with
  | registered _ _ => exact absurd rfl nocall
  | placed _ _ _ _ unbound =>
    rcases unbound with h | h
    · exact absurd h nocall
    · exact absurd h noglobal

namespace Outcome

variable {w : World} {request : Request} {result : World × Answer}

/-- A class that exists keeps its name and its module level. It also keeps the place that it has for
a name, or that it has none, unless it gets the name as a field. Then the place is the one after all
others. -/
theorem class_kept (outcome : w.Outcome request result) {c : ClassId} {body : ClassBody}
    (found : w.classAt? c = some body) (name : String) :
    ∃ body', result.1.classAt? c = some body' ∧ body'.name = body.name
      ∧ body'.globals = body.globals
      ∧ (((request, result.2) = (.addField c name, .registered true)
          ∧ body.fields.indexOf? name = none
          ∧ body'.fields.indexOf? name = some body.fields.size)
        ∨ ((request, result.2) ≠ (.addField c name, .registered true)
          ∧ body'.fields.indexOf? name = body.fields.indexOf? name)) := by
  by_cases hadded : ∃ field, (request, result.2) = (.addField c field, .registered true)
  · obtain ⟨field, hentry⟩ := hadded
    obtain ⟨rfl, hanswer⟩ := Prod.mk.inj hentry
    obtain ⟨owner, howner, hnew, hresult⟩ := outcome.of_field_added hanswer
    obtain rfl : body = owner := Option.some.inj (found.symm.trans howner)
    have hlook : result.1.classAt? c = some (body.addField field) := by
      rw [hresult, classAt?_changeClass, if_pos rfl, found]
      rfl
    refine ⟨_, hlook, rfl, rfl, ?_⟩
    have hplace := Roster.indexOf?_insert hnew name
    by_cases hname : name = field
    · subst hname
      rw [if_pos rfl] at hplace
      exact .inl ⟨hentry, Roster.indexOf?_eq_none_iff.mpr hnew, hplace⟩
    · rw [if_neg hname] at hplace
      refine .inr ⟨?_, hplace⟩
      intro hother
      exact hname (Request.addField.inj (Prod.mk.inj hother).1).2.symm
  · have nofield : ∀ field, (request, result.2) ≠ (.addField c field, .registered true) :=
      fun field h => hadded ⟨field, h⟩
    obtain ⟨body', hbody', halike⟩ := outcome.alike found nofield
    exact ⟨body', hbody', halike.name, halike.globals, .inr ⟨nofield name, by rw [halike.fields]⟩⟩

/-- A class variable keeps its key. -/
theorem classVarKey?_eq (outcome : w.Outcome request result) (grounded : w.Grounded) {c : ClassId}
    {body : ClassBody} (found : w.classAt? c = some body) (bare : String) :
    ∃ key, w.classVarKey? c bare = some key ∧ result.1.classVarKey? c bare = some key := by
  obtain ⟨globals, _, home, -⟩ := grounded.home found
  obtain ⟨globals', home', hsettings, -⟩ := outcome.mem_names_iff home
  obtain ⟨body', found', hname, hglobals, -⟩ := outcome.class_kept found bare
  rw [← hglobals] at home'
  refine ⟨_, classVarKey?_of_found found home bare, ?_⟩
  rw [classVarKey?_of_found found' home', hname, hsettings]

/-- The answer of a class follows the request. -/
theorem follows_resolveMember (outcome : w.Outcome request result) (grounded : w.Grounded)
    {c : ClassId} {body : ClassBody} (found : w.classAt? c = some body) (name : String) :
    w.Follows (request, result.2) (.classBody c) name (w.resolveMember c name)
      (result.1.resolveMember c name) := by
  obtain ⟨globals, _, home, -⟩ := grounded.home found
  obtain ⟨body', found', -, hglobals, hplace⟩ := outcome.class_kept found name
  have leads : w.moduleAt? (.classBody c) = some body.globals := by
    rw [moduleAt?, found]
    rfl
  have haround : w.resolveAround c name = w.resolveGlobal body.globals name :=
    resolveAround_of_found found name
  have haround' : result.1.resolveAround c name = result.1.resolveGlobal body.globals name := by
    rw [resolveAround_of_found found', hglobals]
  cases hspelling : Spelling.of name with
  | classVar bare =>
    obtain ⟨key, hkey, hkey'⟩ := outcome.classVarKey?_eq grounded found bare
    simp only [resolveMember, hspelling, hkey, hkey']
    exact follows_same Referent.noConfusion Referent.noConfusion
  | plain =>
    simp only [resolveMember, hspelling, haround, haround']
    refine outcome.follows_resolveGlobal home leads ?_
    intro d _ mark
    rw [Spelling.of_eq_field_iff.mpr mark] at hspelling
    cases hspelling
  | field =>
    have mark := Spelling.of_eq_field_iff.mp hspelling
    simp only [resolveMember, hspelling, fieldIndex?_of_found found, fieldIndex?_of_found found']
    rcases hplace with ⟨hentry, hnone, hsome⟩ | ⟨hentry, hsame⟩
    · -- The class had no such field, so the module level has answered before.
      rw [hnone, hsome]
      dsimp only
      rw [haround, resolveGlobal_of_found home, Follows, hentry]
      refine ⟨?_, ?_⟩
      · intro r turns
        generalize hbefore : (if name ∈ globals.names then Referent.global name
          else .methodCall name) = before at turns
        cases turns with
        | registered _ registers => exact registers.elim
        | placed ends hfound _ _ _ =>
          obtain rfl := Outermost.classBody.inj ends
          rw [Option.some.inj (found.symm.trans hfound)]
      · intro hnot
        refine absurd (Turns.placed rfl found rfl mark ?_) (hnot _)
        by_cases hknown : name ∈ globals.names
        · exact .inr (if_pos hknown)
        · exact .inl (if_neg hknown)
    · rw [hsame]
      cases body.fields.indexOf? name with
      | some slot => exact follows_same Referent.noConfusion Referent.noConfusion
      | none =>
        dsimp only
        rw [haround, haround']
        refine outcome.follows_resolveGlobal home leads ?_
        intro d hd _ hadded
        obtain rfl := Outermost.classBody.inj hd
        exact hentry hadded

/-- The answer at the end of a way follows the request. -/
theorem follows_resolveAtEnd (outcome : w.Outcome request result) (grounded : w.Grounded)
    {e : Outermost} (hosted : w.Hosts e) (name : String) :
    w.Follows (request, result.2) e name (w.resolveAtEnd name e)
      (result.1.resolveAtEnd name e) := by
  cases e with
  | nothing => exact follows_same Referent.noConfusion Referent.noConfusion
  | globals g =>
    obtain ⟨globals, found⟩ := hosted
    exact outcome.follows_resolveGlobal found rfl (fun _ h => nomatch h)
  | classBody c =>
    obtain ⟨body, found⟩ := hosted
    exact outcome.follows_resolveMember grounded found name

/-- The answer in a scope follows the request. What a frame binds stands, and all other answers come
from the end of the way. -/
theorem follows_resolve (outcome : w.Outcome request result) (grounded : w.Grounded) (s : Scope)
    (hosted : w.Hosts s.outermost) (name : String) :
    w.Follows (request, result.2) s.outermost name (w.resolve s name)
      (result.1.resolve s name) := by
  rw [resolve_eq, resolve_eq]
  cases hframes : s.frames.findSome? (·.binding? name) with
  | none => exact outcome.follows_resolveAtEnd grounded hosted name
  | some found =>
    obtain ⟨_, _, _, _, _, hbinds⟩ := findSome?_binding?_eq_some_iff.mp hframes
    cases hbinds with
    | argument _ _ _ => exact follows_same Referent.noConfusion Referent.noConfusion
    | localVar _ => exact follows_same Referent.noConfusion Referent.noConfusion

/-- The end of a way stays. -/
theorem hosts (outcome : w.Outcome request result) {e : Outermost} (hosted : w.Hosts e) :
    result.1.Hosts e := by
  cases e with
  | nothing => trivial
  | globals g =>
    obtain ⟨globals, found⟩ := hosted
    obtain ⟨globals', found', -⟩ := outcome.mem_names_iff found
    exact ⟨globals', found'⟩
  | classBody c =>
    obtain ⟨body, found⟩ := hosted
    obtain ⟨body', found', -⟩ := outcome.class_kept found ""
    exact ⟨body', found'⟩

end Outcome

/-! ### Whole runs -/

end World

/-- What the answer for a name may be later. A method call may become a global, either of them may
become a field, and all else stays. -/
inductive Referent.Becomes (name : String) : Referent → Referent → Prop where
  | same (r : Referent) : Becomes name r r
  | registered : Becomes name (.methodCall name) (.global name)
  | placed {before : Referent} (unbound : before = .methodCall name ∨ before = .global name)
      (slot : Nat) : Becomes name before (.field slot)

/-- An answer that turns twice has turned. -/
theorem Referent.Becomes.trans {name : String} {a b c : Referent} (h : a.Becomes name b)
    (h' : b.Becomes name c) : a.Becomes name c := by
  cases h' with
  | same _ => exact h
  | registered =>
    cases h with
    | same _ => exact .registered
  | placed unbound slot =>
    cases h with
    | same _ => exact .placed unbound slot
    | registered => exact .placed (.inl rfl) slot
    | placed before _ => exact .placed before slot

namespace World

/-- One request leads on at most. -/
theorem Follows.becomes {w : World} {entry : Request × Answer} {e : Outermost} {name : String}
    {before later : Referent} (h : w.Follows entry e name before later) :
    before.Becomes name later := by
  by_cases hturns : ∃ r, w.Turns entry e name before r
  · obtain ⟨r, turns⟩ := hturns
    rw [h.1 r turns]
    cases turns with
    | registered _ _ => exact .registered
    | placed _ _ _ _ unbound => exact .placed unbound _
  · rw [h.2 (fun r turns => hturns ⟨r, turns⟩)]
    exact .same before

/-- Over a run, an answer can become only what two rules let it become. -/
theorem becomes_run {w : World} (reachable : w.Reachable) (s : Scope)
    (hosted : w.Hosts s.outermost) (name : String) (requests : List Request) :
    (w.resolve s name).Becomes name ((w.run requests).1.resolve s name) := by
  induction requests generalizing w with
  | nil => exact .same _
  | cons request requests ih =>
    have outcome := w.outcome_serve request
    have hfirst := (outcome.follows_resolve reachable.built.grounded s hosted name).becomes
    exact hfirst.trans (ih (reachable.serve request) (outcome.hosts hosted))

/-- What a name denotes in a scope changes in two ways only.

A request leaves the answer as it was unless it turns it by the rules of `Turns`. Either it
registers the name, which was taken for a method call, at the module level that the way outwards
leads to. Then the name denotes a global. Or it adds a field of this name, with one mark, to the
class where the way ends, and the name was taken for a method call or a global. Then it denotes the
field, at the place behind all fields that the class had.

So whatever is asked later, an answer may only go from a method call to a global and from either to
a field. All answers of other kinds stand. -/
theorem resolve_turns_late {w : World} (reachable : w.Reachable) (s : Scope)
    (hosted : w.Hosts s.outermost) (name : String) :
    (∀ request,
      (∀ r, w.Turns (request, (w.serve request).2) s.outermost name (w.resolve s name) r →
        (w.serve request).1.resolve s name = r)
      ∧ ((∀ r, ¬ w.Turns (request, (w.serve request).2) s.outermost name (w.resolve s name) r) →
        (w.serve request).1.resolve s name = w.resolve s name))
    ∧ ∀ requests,
      (w.resolve s name).Becomes name ((w.run requests).1.resolve s name)
      ∧ ((∀ other, w.resolve s name ≠ .methodCall other ∧ w.resolve s name ≠ .global other) →
        (w.run requests).1.resolve s name = w.resolve s name) := by
  refine ⟨?_, ?_⟩
  · intro request
    exact (w.outcome_serve request).follows_resolve reachable.built.grounded s hosted name
  · intro requests
    have hbecomes := becomes_run reachable s hosted name requests
    refine ⟨hbecomes, ?_⟩
    intro hother
    generalize w.resolve s name = before at hbecomes hother ⊢
    generalize (w.run requests).1.resolve s name = later at hbecomes ⊢
    cases hbecomes with
    | same _ => rfl
    | registered => exact absurd rfl (hother name).1
    | placed unbound _ =>
      rcases unbound with h | h
      · exact absurd h (hother name).1
      · exact absurd h (hother name).2

/-- A name that is not bound in the body of a method is registered, and then it becomes a field of
the class around. -/
theorem resolve_turns_late_blockInMethod :
    namedThings.Reachable ∧ namedThings.Hosts blockInMethod.outermost
    ∧ namedThings.resolve blockInMethod "@y" = .methodCall "@y"
    ∧ (namedThings.serve (.register ⟨0⟩ "@y")).1.resolve blockInMethod "@y" = .global "@y"
    ∧ (namedThings.serve (.addField ⟨0⟩ "@y")).1.resolve blockInMethod "@y" = .field 2
    ∧ (namedThings.serve (.addMethod ⟨0⟩ "@y")).1.resolve blockInMethod "tmp"
      = namedThings.resolve blockInMethod "tmp" := by
  have hreachable : namedThings.Reachable := Reachable.empty.run _
  have hosted : namedThings.Hosts blockInMethod.outermost := ⟨_, rfl⟩
  have hcall : namedThings.resolve blockInMethod "@y" = .methodCall "@y" := by decide +kernel
  have htmp : namedThings.resolve blockInMethod "tmp" = .localVar 0 := by decide +kernel
  have hmark : HasOneMark "@y" := Spelling.of_eq_field_iff.mp (by decide +kernel)
  have hregistered : (namedThings.serve (.register ⟨0⟩ "@y")).2 = .registered true := by
    decide +kernel
  have hadded : (namedThings.serve (.addField ⟨0⟩ "@y")).2 = .registered true := by
    decide +kernel
  have hleads : namedThings.moduleAt? blockInMethod.outermost = some ⟨0⟩ := by decide +kernel
  have hfound : namedThings.classAt? ⟨0⟩ = some { ClassBody.root "Point" ⟨0⟩ ⟨0⟩ with
      fields := { names := [selfField, "@x"] } } := by decide +kernel
  have hlate := (resolve_turns_late hreachable blockInMethod hosted "@y").1
  refine ⟨hreachable, hosted, hcall, (hlate (.register ⟨0⟩ "@y")).1 _ ?_,
    (hlate (.addField ⟨0⟩ "@y")).1 _ ?_, ?_⟩
  · rw [hcall, hregistered]
    exact .registered hleads ⟨rfl, rfl⟩
  · rw [hcall, hadded]
    exact .placed rfl hfound rfl hmark (.inl rfl)
  · refine ((resolve_turns_late hreachable blockInMethod hosted "tmp").2
      [.addMethod ⟨0⟩ "@y"]).2 ?_
    intro other
    rw [htmp]
    exact ⟨Referent.noConfusion, Referent.noConfusion⟩

end World

end ScopeLayout
